import ClusterAccess.Proofs.Identity.Signature
import ClusterAccess.Proofs.Identity.Subject

/-!
# The end of a token's validity

A token ends in the second that its payload's member `exp` says.  Numbers without a sign are taken
as they are written, up to a rounding, and with one that is too large for the clock a token never
ends.  All other values say nothing: a token that says in words, or with a number below zero, when
it has ended, is accepted at all times (`Authenticator.verify_in_time`).
-/

namespace ClusterAccess

open Json (Field Keeps Literal Met Number Reader Source literalAt? numberAt? valuesOf?)

namespace Token

namespace Registered

/-! ## What a value says -/

/-- The second in which a value says that a token ends. -/
def endsAt? (value : Source) : Option UInt64 :=
  (numberAt? value).bind fun number => secondsOf? (.number number)

section Values

variable {value : Source} {l : Literal}

theorem endsAt?_of_literal (hl : literalAt? value = some l) :
    endsAt? value = l.number?.bind fun number => secondsOf? (.number number) := by
  rw [endsAt?, numberAt?, hl, Option.bind_some]

theorem endsAt?_of_no_literal (hl : literalAt? value = none) : endsAt? value = none := by
  rw [endsAt?, numberAt?, hl]
  rfl

theorem roundHalfUp_le (x : Double) : (x.roundHalfUp : ℚ) ≤ x.magnitude + 1 / 2 := by
  have hone := Double.cast_one_pos
  rw [Double.roundHalfUp, Double.magnitude]
  refine Nat.cast_div_le.trans (le_of_eq ?_)
  push_cast
  field_simp

/-- The second of a double is at most half a second behind it. -/
theorem le_of_secondsOf? {x : Double} {e : UInt64} (h : secondsOf? (.number (.double x)) = some e) :
    x.isWord = true ∧ (e.toNat : ℚ) ≤ x.magnitude + 1 / 2 := by
  rw [secondsOf?] at h
  split at h
  · rename_i hword
    obtain rfl := Option.some.inj h
    have hle : (UInt64.ofNat (min x.roundHalfUp (2 ^ 64 - 1))).toNat ≤ x.roundHalfUp := by
      rw [UInt64.toNat_ofNat_of_lt' (Nat.lt_of_le_of_lt (Nat.min_le_right _ _) (by decide))]
      exact Nat.min_le_left _ _
    exact ⟨hword, (Nat.cast_le.mpr hle).trans (roundHalfUp_le x)⟩
  · cases h

theorem secondsOf?_eq_none {x : Double} (h : secondsOf? (.number (.double x)) = none)
    (hsign : x.negative = false) : 2 ^ 64 ≤ x.magnitude := by
  rw [secondsOf?] at h
  split at h
  · cases h
  · rename_i hword
    rw [Double.isWord, hsign, Bool.not_false, Bool.true_or, Bool.true_and, decide_eq_true_eq,
      Nat.not_lt] at hword
    rw [Double.magnitude, le_div_iff₀ Double.cast_one_pos]
    have hcast : ((2 ^ 64 * Double.one : ℕ) : ℚ) ≤ x.units := Nat.cast_le.mpr hword
    rwa [Nat.cast_mul, Nat.cast_pow] at hcast

/-- **A number without a sign ends the token next to where it says**, if no sooner bound does. -/
theorem le_of_unsigned {b : UInt64} (hl : literalAt? value = some l) (hsign : l.negative = false)
    (hb : ∀ e, endsAt? value = some e → b ≤ e) :
    (b.toNat : ℚ) ≤ l.value + 1 / 2 + l.slack ∧
      (l.fraction = [] → l.exponent = none → (b.toNat : ℚ) ≤ l.value) := by
  rw [endsAt?_of_literal hl] at hb
  have hvalue : l.value = l.magnitude := by rw [Literal.value, hsign, if_neg Bool.false_ne_true]
  have hslack := l.slack_pos
  have hlarge : (b.toNat : ℚ) ≤ 2 ^ 64 := by exact_mod_cast b.toNat_lt.le
  rcases l.number?_cases with ⟨word, hnumber, -⟩ | ⟨word, -, -, hminus, -⟩ | ⟨hnumber, hword⟩
  · rw [hnumber] at hb
    have hle : (b.toNat : ℚ) ≤ l.value := by
      rw [Literal.value_of_natural hnumber]
      exact_mod_cast UInt64.le_iff_toNat_le.mp (hb word rfl)
    exact ⟨by linarith, fun _ _ => hle⟩
  · rw [hsign] at hminus
    cases hminus
  · have hlong := hword.resolve_right (by rw [hsign]; exact Bool.false_ne_true)
    refine ⟨?_, fun hfraction hexponent => ?_⟩
    · rw [hvalue]
      cases hdouble : l.double? with
      | none =>
        have hbeyond := Literal.le_of_double_eq_none hdouble
        linarith
      | some x =>
        rw [hnumber, hdouble] at hb
        have hnear := (abs_le.mp (Literal.abs_sub_le hdouble)).2
        cases hends : secondsOf? (.number (.double x)) with
        | none =>
          obtain ⟨-, -, -, -, hx, -⟩ := Literal.double?_eq_some hdouble
          have hbeyond := secondsOf?_eq_none hends (hx.trans hsign)
          linarith
        | some e =>
          have hle : (b.toNat : ℚ) ≤ e.toNat := by
            exact_mod_cast UInt64.le_iff_toNat_le.mp (hb e hends)
          have hround := (le_of_secondsOf? hends).2
          linarith
    · rw [hvalue]
      exact hlarge.trans (Literal.le_magnitude_of_long hlong hfraction hexponent)

/-- **A number below zero says nothing**, unless it is read as zero. -/
theorem endsAt?_of_signed (hl : literalAt? value = some l) (hsign : l.negative = true)
    (hfar : l.slack < l.magnitude) : endsAt? value = none := by
  rw [endsAt?_of_literal hl]
  rcases l.number?_cases with ⟨word, -, -, hplus⟩ | ⟨word, hnumber, -⟩ | ⟨hnumber, -⟩
  · rw [hsign] at hplus
    cases hplus
  · rw [hnumber]
    rfl
  · rw [hnumber]
    cases hdouble : l.double? with
    | none => rfl
    | some x =>
      cases hends : secondsOf? (.number (.double x)) with
      | none => exact hends
      | some e =>
        -- of the negative doubles only zero is a second
        have hvalue : l.value = -l.magnitude := by rw [Literal.value, hsign, if_pos rfl]
        have hnear := Literal.abs_sub_value_le hdouble (le_of_secondsOf? hends).1
        have hx : 0 ≤ x.magnitude := Double.magnitude_nonneg x
        rw [hvalue, sub_neg_eq_add] at hnear
        have habs := (le_abs_self _).trans hnear
        linarith

end Values

/-! ## Where it is said -/

theorem noNumber_givenUp {ε : Type} (opening closing : Char) :
    Reader.NoNumber (do Reader.expect opening; Reader.closedBy closing Reader.unreadable :
      Reader ε Json) := by
  intro n s r h
  obtain ⟨_, t, -, h⟩ := Reader.bind_ok h
  obtain ⟨u, h, -⟩ := Reader.closedBy_ok h
  cases h

/-- A point in time is read as what its value says. -/
theorem endsAt?_of_seconds {ε : Type} {s r : Source} {found : Option UInt64}
    (h : seconds (ε := ε) s = .ok found r) : found = endsAt? s := by
  have hiff := @Reader.scalarOr_eq_number_iff ε _ _ (noNumber_givenUp '[' ']')
    (noNumber_givenUp '\x7b' '\x7d') s
  obtain ⟨value, t, hattempt, h⟩ := Reader.bind_ok h
  cases h
  generalize Reader.scalarOr (ε := ε) _ _ = reader at hiff hattempt
  have hnone (hno : ∀ n r, reader s ≠ .ok (.number n) r) : endsAt? s = none := by
    have hnumber : numberAt? s = none := Option.eq_none_iff_forall_ne_some.mpr fun n hn => by
      obtain ⟨r, hr⟩ := hiff.mpr hn
      exact hno n r hr
    rw [endsAt?, hnumber, Option.bind_none]
  unfold attempt at hattempt
  split at hattempt
  · rename_i json rest hread
    cases hattempt
    cases json with
    | number n => rw [endsAt?, hiff.mp ⟨_, hread⟩, Option.bind_some, Option.bind_some]
    | _ =>
      rw [hnone fun n r hr => by rw [hread] at hr; cases hr]
      rfl
  · rename_i e rest hread
    cases hattempt
    rw [hnone fun n r hr => by rw [hread] at hr; cases hr]
    rfl

/-- The first field of the registered claims. -/
def expField {ε : Type} : Field ε Draft :=
  ⟨"exp", (·.names.contains "exp"),
    fun d => do return { d with expires := ← seconds, names := "exp" :: d.names }⟩

/-- The other fields have other names, and leave the end as it is. -/
theorem expires_of_mem_tail {ε : Type} {nesting : Nat} :
    ∀ other ∈ (Draft.fields (ε := ε) nesting).tail, other.name ≠ "exp" ∧
      ∀ ⦃d s d' r⦄, other.read d s = .ok d' r → d'.expires = d.expires := by
  intro other hother
  simp only [Draft.fields, List.tail_cons, List.mem_cons, List.not_mem_nil, or_false] at hother
  rcases hother with rfl | rfl | rfl | rfl
  all_goals
    refine ⟨by simp only [Draft.other]; decide, fun d s d' r hread => ?_⟩
    obtain ⟨_, t, -, hread⟩ := Reader.bind_ok hread
    cases hread
    rfl

theorem keeps_expires {ε : Type} (nesting : Nat) :
    Keeps (Draft.fields (ε := ε) nesting) expField fun d found =>
      d.expires = found.bind endsAt? := by
  refine Keeps.of_cons (marks_fields nesting) (fun d s d' r hread => ?_) expires_of_mem_tail
  obtain ⟨found, t, hseconds, hread⟩ := Reader.bind_ok hread
  cases hread
  exact endsAt?_of_seconds hseconds

end Registered

end Token

namespace Claims

/-- Claims that are read from an object have its members. -/
theorem entries_of_readAll {payload u : Source} {claims : Claims}
    (h : readAll payload = .ok claims) (hbrace : Reader.dropSpaces payload = .char '\x7b' :: u) :
    ∃ entries t, Reader.entries (ε := Empty) payload = .ok entries t ∧
      Reader.dropSpaces t = [] := by
  obtain ⟨d, t, hrecord, hblank, -⟩ := record_of_readAll h
  have hobject : Reader.record Draft.fields {} Reader.greatestNesting payload = _ :=
    Reader.record_of_brace hbrace
  rw [hobject] at hrecord
  obtain ⟨entries, hentries, -⟩ := entries_of_object hrecord
  exact ⟨entries, t, hentries, hblank⟩

end Claims

namespace Token

/-- **The end of a payload's validity** is what its only member `exp` says. -/
theorem expires_of_payload {payload : Source} {claims : Claims} {registered : Registered}
    (hclaims : Claims.readAll payload = .ok claims)
    (hregistered : Registered.ofSource? payload = some registered) :
    ∃ found : Option Source, valuesOf? "exp" payload = some found.toList ∧
      registered.expires = found.bind Registered.endsAt? := by
  obtain ⟨nesting, d, t, u, hbrace, hobject, hblank, rfl⟩ :=
    Registered.object_of_ofSource? hregistered
  obtain ⟨entries, t', hentries, hblank'⟩ := Claims.entries_of_readAll hclaims hbrace
  obtain ⟨found, hvalues, -, hexpires⟩ := Reader.preserved_of_object
    (Registered.forgiving_fields nesting) (Registered.keeps_expires nesting).preserves
    (.nothing rfl rfl) hobject hblank hentries hblank'
  refine ⟨found, ?_, hexpires⟩
  rw [valuesOf?, Json.entries?_of_ok hentries hblank']
  exact congrArg some hvalues

/-- The source of a token's payload. -/
def source? (text : String) : Option Source :=
  (Parts.ofText? text.toList).bind fun p => decodePart? p.payload

end Token

namespace Authenticator

open Token (Registered)

variable {auth : Authenticator} {now : UInt64} {text : String} {claims : Claims}

/-- **A token that says when it ends is not accepted later**, if it says so with a number that has
no sign: the present time, less the leeway, is at most that number, up to the rounding of a double,
and exactly where there is neither fraction nor exponent.  If no number is said, or only one below
zero, the token is accepted at all times. -/
theorem verify_in_time (hleeway : auth.leeway ≤ now) (h : auth.verify now text = .ok claims) :
    ∃ payload values, Token.source? text = some payload ∧
      valuesOf? "exp" payload = some values ∧ values.length ≤ 1 ∧
      (∀ value ∈ values, ∀ l, literalAt? value = some l → l.negative = false →
        (now.toNat - auth.leeway.toNat : ℚ) ≤ l.value + 1 / 2 + l.slack ∧
          (l.fraction = [] → l.exponent = none →
            (now.toNat - auth.leeway.toNat : ℚ) ≤ l.value)) ∧
      ((∀ value ∈ values, ∀ l, literalAt? value = some l →
          l.negative = true ∧ l.slack < l.magnitude) →
        ∀ t, auth.verify t text = .ok claims) := by
  obtain ⟨registered, hread, hnow⟩ := read_of_verify h
  obtain ⟨p, _, _, payload, hparts, -, -, -, -, hpayload, hclaims, hregistered⟩ := readToken_ok hread
  obtain ⟨found, hvalues, hexpires⟩ := Token.expires_of_payload hclaims hregistered
  refine ⟨payload, found.toList, ?_, hvalues, Option.length_toList_le, ?_, ?_⟩
  · rw [Token.source?, hparts, Option.bind_some, hpayload]
  · intro value hvalue l hl hsign
    obtain rfl := Option.mem_toList.mp hvalue
    have hsub : ((now - auth.leeway).toNat : ℚ) = now.toNat - auth.leeway.toNat := by
      rw [UInt64.toNat_sub_of_le _ _ hleeway, Nat.cast_sub (UInt64.le_iff_toNat_le.mp hleeway)]
    rw [← hsub]
    exact Registered.le_of_unsigned hl hsign fun e he => (hnow e (hexpires.trans he)).2
  · intro hidle t
    have hnone : registered.expires = none := by
      rw [hexpires, Option.bind_eq_none_iff]
      intro value hvalue
      cases hl : literalAt? value with
      | none => exact Registered.endsAt?_of_no_literal hl
      | some l =>
        obtain ⟨hsign, hfar⟩ := hidle value (Option.mem_toList.mpr hvalue) l hl
        exact Registered.endsAt?_of_signed hl hsign hfar
    exact Judges.eq (.endless claims registered hread hnone)

/-! ## An end that is not looked at -/

theorem source?_signedParts (auth : Authenticator) (payload : List Char) :
    Token.source? (String.ofList (auth.signedParts payload).text) =
      some (payload.map .char) := by
  rw [Token.source?, String.toList_ofList, ofText?_signedParts, Option.bind_some]
  exact Token.decodePart?_encodePart payload

/-- A payload that says with a number below zero when its token has ended. -/
def longEnded : List Char := "\x7b\"user_id\":1,\"exp\":-1\x7d".toList

theorem verify_longEnded (auth : Authenticator) (now : UInt64) :
    auth.verify now (String.ofList (auth.signedParts longEnded).text) = .ok { user := ⟨1⟩ } := by
  have hpayload : Token.readPayload (longEnded.map .char) = .ok ({ user := ⟨1⟩ }, {}) :=
    Json.eq_ok_of_toOption (by decide +kernel)
  have hread := readToken_signedParts (rfl : auth.secret = auth.secret) (List.head_mem _) longEnded
  exact Judges.eq (.endless _ _ (hread.trans hpayload) rfl)

/-- The member that says it, and its literal. -/
theorem valuesOf?_longEnded : ∃ value, valuesOf? "exp" (longEnded.map .char) = some [value] ∧
    literalAt? value = some ⟨true, [1], [], none⟩ :=
  ⟨("-1\x7d".toList).map .char, by decide +kernel, rfl⟩

theorem magnitude_minusOne : (⟨true, [1], [], none⟩ : Literal).magnitude = 1 := by
  rw [Literal.magnitude_of_plain rfl rfl]
  rfl

/-- A token that has ended before there was a clock is accepted at all times. -/
theorem verify_in_time_longEnded :
    ∃ auth, ofConfig { secret := "s3cret" } = .ok auth ∧ auth.leeway ≤ 1000 ∧
      let token := String.ofList (auth.signedParts longEnded).text
      auth.verify 1000 token = .ok { user := ⟨1⟩ } ∧
        ∀ t, auth.verify t token = .ok { user := ⟨1⟩ } := by
  obtain ⟨auth, hauth⟩ : ∃ auth, ofConfig { secret := "s3cret" } = .ok auth := ⟨_, rfl⟩
  have hnone : auth.leeway = 0 := congrArg Config.leeway (toConfig_of_ofConfig hauth)
  have hleeway : auth.leeway ≤ 1000 := by rw [hnone]; decide
  obtain ⟨payload, values, hpayload, hvalues, -, -, hidle⟩ :=
    verify_in_time hleeway (auth.verify_longEnded 1000)
  rw [source?_signedParts] at hpayload
  obtain rfl := Option.some.inj hpayload
  obtain ⟨value, hvalue, hliteral⟩ := valuesOf?_longEnded
  rw [hvalue] at hvalues
  obtain rfl := Option.some.inj hvalues
  refine ⟨auth, hauth, hleeway, auth.verify_longEnded 1000, hidle fun value' hvalue' l hl => ?_⟩
  obtain rfl := List.mem_singleton.mp hvalue'
  rw [hliteral] at hl
  obtain rfl := Option.some.inj hl
  have hunits := Literal.two_units_lt
  refine ⟨rfl, ?_⟩
  rw [Literal.slack, magnitude_minusOne]
  linarith

/-- What a token says of its end is not always looked at. -/
theorem exists_verify_late :
    ¬ ∀ (auth : Authenticator) now text claims, auth.leeway ≤ now →
      auth.verify now text = .ok claims → ∀ payload values, Token.source? text = some payload →
        valuesOf? "exp" payload = some values → ∀ value ∈ values,
          ∃ l, literalAt? value = some l ∧ (now.toNat - auth.leeway.toNat : ℚ) ≤ l.value := by
  intro h
  obtain ⟨auth, hauth⟩ : ∃ auth, ofConfig { secret := "s3cret" } = .ok auth := ⟨_, rfl⟩
  have hnone : auth.leeway = 0 := congrArg Config.leeway (toConfig_of_ofConfig hauth)
  have hleeway : auth.leeway ≤ 1000 := by rw [hnone]; decide
  obtain ⟨value, hvalue, hliteral⟩ := valuesOf?_longEnded
  obtain ⟨l, hl, hle⟩ := h auth 1000 _ _ hleeway (auth.verify_longEnded 1000) _ _
    (source?_signedParts auth longEnded) hvalue value (List.mem_singleton_self _)
  rw [hliteral] at hl
  obtain rfl := Option.some.inj hl
  have hnow : ((1000 : UInt64).toNat : ℚ) = 1000 := rfl
  have hzero : ((0 : UInt64).toNat : ℚ) = 0 := rfl
  rw [Literal.value, if_pos rfl, magnitude_minusOne, hnone, hnow, hzero] at hle
  linarith

end Authenticator

end ClusterAccess
