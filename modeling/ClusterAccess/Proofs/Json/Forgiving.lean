import ClusterAccess.Proofs.Json.Names

/-!
# Records that forgive

A field of a forgiving record that fails counts as nothing, and the reading goes on wherever the
attempt has ended: in the middle of a string, perhaps, or under more brackets than before.  From
such a place it does not come back.  The reading succeeds only if it ends with the last bracket of
the text, and the text is walked through to its end from the true place as well as from the one that
the reading takes itself to be at; the two are opposite, or differ in the number of brackets, and
stay so (`eq_outside_of_members`).  Therefore a forgiving record that can be read has met the same
members as everybody else (`counts_of_object`).
-/

namespace ClusterAccess.Json

variable {ε δ κ σ τ : Type}

/-- A record whose fields may be given up in the middle of their values. -/
structure Forgiving (fields : List (Field ε σ)) : Prop where
  marks : Marks fields
  /-- The reading of a field ends at some place, if not in the middle of a character. -/
  drifts : ∀ field ∈ fields, ∀ ⦃d s d' r⦄, field.read d s = .ok d' r →
    (∃ q, Passes (outside 0) s r q) ∨ Strays r
  /-- No name can be spelled outside of strings. -/
  quoted : ∀ field ∈ fields, ∃ c ∈ field.name.toList, ∀ n, Place.outsideStep n c = none

namespace Reader

/-! ## Between members -/

section Members

variable {first : Bool} {s s₁ s₂ s₃ r : Source} {name : String}

/-- Between two members one comes past a comma, a name and a colon. -/
theorem passes_name (hmore : more (ε := ε) '\x7d' first s = .ok true s₁)
    (hkey : string (ε := ε) s₁ = .ok name s₂) (hcolon : expect (ε := ε) ':' s₂ = .ok () s₃) :
    Passes (outside 1) s s₃ (outside 1) :=
  (((moves_more first).passes hmore).trans ((moves_string.under 1).passes hkey)).trans
    ((moves_expect (n := 1) rfl (Nat.le_refl 1)).passes hcolon)

/-- After a member that is not the first one a comma or the closing bracket has been found. -/
theorem delimited_of_members {key : Reader ε κ} {member : κ → σ → Reader ε σ} {turns : Nat}
    {built final : σ} (h : members key member turns false built s = .ok final r) : Delimited s := by
  obtain ⟨before, -, h | ⟨s₁, name, s₂, s₃, built', s₄, h, -⟩⟩ := members_ok h
  · rcases more_ok h.1 with ⟨-, t, hs, -⟩ | ⟨hanother, -⟩ | ⟨hanother, -⟩
    · exact ⟨_, t, hs, .inr rfl⟩
    · cases hanother
    · cases hanother
  · rcases more_ok h with ⟨hanother, -⟩ | ⟨-, hfirst, -⟩ | ⟨-, -, t, hs, -⟩
    · cases hanother
    · cases hfirst
    · exact ⟨_, t, hs, .inl rfl⟩

end Members

/-! ## Strings, seen from outside -/

/-- Whoever takes the inside of a string for blanks before another string gets out of it. -/
theorem walk_inside_quote {m : Nat} {s t : Source} (h : dropSpaces s = .char '"' :: t) :
    (inside m).walk s = (outside m).walk t := by
  obtain ⟨blanks, hblanks, hs⟩ := dropSpaces_eq s
  rw [h] at hs
  rw [hs, Place.walk_append, Place.walk_inside (fun c hc => ne_of_isSpace (hblanks c hc)) m]
  rfl

/-- A string whose inside can be walked through as the outside of strings has no escapes, and no
characters that cannot stand there. -/
theorem stringFrom_outside {strayed : Bool} {done : List Char} {s r : Source} {text : String}
    {m : Nat} {o : Place} (h : stringFrom (ε := ε) .plain strayed done s = .ok text r)
    (hwalk : (outside m).walk s = some o) :
    ∃ t, text = String.ofList (done.reverse ++ t) ∧
      ∀ c ∈ t, ∃ n q, Place.outsideStep n c = some q := by
  induction s generalizing strayed done m with
  | nil => cases h
  | cons piece s ih =>
    obtain ⟨q, hstep, hrest⟩ := Option.bind_eq_some_iff.mp hwalk
    cases piece with
    | stray byte => cases hstep
    | char c =>
      rw [stringFrom] at h
      rcases Place.outsideStep_cases hstep with ⟨rfl, rfl⟩ | ⟨hquote, hslash, k, rfl⟩
      · rw [if_pos rfl] at h
        split at h
        · cases h
        · cases h
          exact ⟨[], by rw [List.append_nil], fun _ hd => absurd hd List.not_mem_nil⟩
      · rw [if_neg hquote, if_neg hslash] at h
        split at h
        · cases h
        · obtain ⟨t, htext, ht⟩ := ih h hrest
          refine ⟨c :: t, ?_, fun d hd => ?_⟩
          · rw [htext, List.reverse_cons, List.append_assoc]
            rfl
          · rcases List.mem_cons.mp hd with rfl | hd
            · exact ⟨m, _, hstep⟩
            · exact ht d hd

/-! ## No way back -/

section Forgiving

variable {fields : List (Field ε σ)} (hfields : Forgiving fields)

include hfields

/-- The reading of a member ends at some place, if it can be gone on from there. -/
theorem drift_of_namedField {name : String} {d d' : σ} {s r : Source}
    (h : namedField fields name d s = .ok d' r) (hr : Delimited r) :
    ∃ q, Passes (outside 0) s r q := by
  rcases namedField_ok h with ⟨-, -, hskip⟩ | ⟨field, hfield, -, -, hread⟩
  · exact ⟨_, moves_skip.passes hskip⟩
  · rcases hfields.drifts field hfield hread with hpasses | ⟨byte, t, rfl⟩
    · exact hpasses
    · obtain ⟨c, t', hr, -⟩ := hr
      cases hr

/-- A name that is read where one walker takes the inside of strings for the outside is the name of
no field: the member is passed over. -/
theorem skip_of_walk {name : String} {d d' : σ} {s s₂ s₃ r : Source} {m : Nat} {o : Place}
    (hkey : string (ε := ε) (dropSpaces s) = .ok name s₂) (hwalk : (inside m).walk s = some o)
    (h : namedField fields name d s₃ = .ok d' r) : skip (ε := ε) s₃ = .ok () r := by
  obtain ⟨u, t, hquote, hname⟩ := bind_ok hkey
  have hs : dropSpaces s = .char '"' :: t := by
    rw [← dropSpaces_dropSpaces s]
    exact expect_ok hquote
  rw [walk_inside_quote hs] at hwalk
  obtain ⟨letters, hletters, houtside⟩ := stringFrom_outside hname hwalk
  rcases namedField_ok h with ⟨-, -, hskip⟩ | ⟨field, hfield, rfl, -, -⟩
  · exact hskip
  · obtain ⟨c, hc, hnone⟩ := hfields.quoted field hfield
    rw [hletters, String.toList_ofList] at hc
    obtain ⟨n, q, hstep⟩ := houtside c hc
    rw [hnone n] at hstep
    cases hstep

/-- **From a wrong place there is no way back.**  If the rest of an object's members can be read up
to the bracket that ends the text, and the text is walked through to its end from the place where
one is, then there is only one place where one can be: outside of strings, under one bracket. -/
theorem eq_outside_of_members {turns : Nat} {d d' : σ} {s r t : Source} {p : Place}
    (h : members string (namedField fields) turns false d s = .ok d' r)
    (hend : dropSpaces r = .char '\x7d' :: t) (hblank : dropSpaces t = [])
    (hwalk : p.walk s = some (outside 0)) : p = outside 1 := by
  induction turns generalizing d s p with
  | zero => cases h
  | succ turns ih =>
    obtain ⟨before, hturns, ⟨hmore, -⟩ | ⟨s₁, name, s₂, s₃, d₁, s₄, hmore, hkey, hcolon, hmember,
      hrest⟩⟩ := members_ok h
    · -- the bracket: it is the only one that is open, and blanks do not get one out of a string
      rcases more_ok hmore with ⟨-, t', hs, rfl⟩ | ⟨hanother, -⟩ | ⟨hanother, -⟩
      · rw [dropSpaces_char rfl] at hend
        obtain rfl : t' = t := (List.cons.inj hend).2
        obtain ⟨blanks, hblanks, ht⟩ := dropSpaces_eq t'
        rw [hblank, List.append_nil] at ht
        by_cases hp : p.mode = .outside
        · obtain ⟨mode, k⟩ := p
          obtain rfl : mode = .outside := hp
          rw [(passes_dropSpaces k s).walk_eq, hs] at hwalk
          cases k with
          | zero => cases hwalk
          | succ k =>
            have hrest : (outside k).walk t' = some (outside 0) := hwalk
            rw [(passes_dropSpaces k t').walk_eq, hblank] at hrest
            cases hrest
            rfl
        · rw [walk_blanks_mark hp hs ⟨by decide, by decide⟩, ht,
            Place.walk_inside fun c hc => ne_of_isSpace (hblanks c hc)] at hwalk
          cases hwalk
      · cases hanother
      · cases hanother
    · obtain rfl : turns = before := Nat.succ.inj hturns
      rcases more_ok hmore with ⟨hanother, -⟩ | ⟨-, hfirst, -⟩ | ⟨-, -, t', hs, rfl⟩
      · cases hanother
      · cases hfirst
      by_cases hp : p.mode = .outside
      · obtain ⟨mode, k⟩ := p
        obtain rfl : mode = .outside := hp
        cases k with
        | zero =>
          rw [(passes_dropSpaces 0 s).walk_eq, hs] at hwalk
          cases hwalk
        | succ k =>
          -- one bracket more than there seems to be stays one bracket more
          obtain ⟨q, hq⟩ := drift_of_namedField hfields hmember (delimited_of_members hrest)
          have hone : (outside 1).under k = outside (k + 1) :=
            congrArg (Place.mk .outside) (Nat.add_comm 1 k)
          have hzero : (outside 0).under (k + 1) = outside (k + 1) :=
            congrArg (Place.mk .outside) (Nat.zero_add (k + 1))
          change (outside (k + 1)).walk s = some (outside 0) at hwalk
          rw [← hone, ((passes_name hmore hkey hcolon).under k).walk_eq, hone, ← hzero,
            (hq.under (k + 1)).walk_eq] at hwalk
          have hopened := congrArg Place.opened (ih hrest hwalk)
          have hk : k = 0 := by
            change q.opened + (k + 1) = 1 at hopened
            omega
          rw [hk]
      · -- inside of a string one stays opposite to where one takes oneself to be
        rw [walk_blanks_mark hp hs ⟨by decide, by decide⟩] at hwalk
        have hskip := skip_of_walk hfields hkey hwalk hmember
        have hpasses : Passes (outside 1) t' s₄ (outside 1) :=
          (passes_dropSpaces 1 t').trans <| ((moves_string.under 1).passes hkey).trans <|
          ((moves_expect (n := 1) rfl (Nat.le_refl 1)).passes hcolon).trans <|
          (moves_skip.under 1).passes hskip
        obtain ⟨v, rfl, hv⟩ := hpasses
        rw [Place.walk_append] at hwalk
        obtain ⟨q, hq, hend'⟩ := Option.bind_eq_some_iff.mp hwalk
        have hopposite : Opposite (outside 1) q := Opposite.walk (.outer 1 p.opened) hv hq
        rw [ih hrest hend'] at hopposite
        cases hopposite

/-! ## The same members -/

variable {note : String → Source → τ → τ} {Inv : σ → τ → Prop}

/-- **A forgiving record meets the members that there are**: after each of them it is where whoever
passes over the value is, blanks apart. -/
theorem preserved_of_members (hnext : Preserves fields note Inv) {turns turns' : Nat}
    {first : Bool} {d d' : σ} {before found : τ} {s s' r r' t : Source}
    (h : members (ε := δ) string (passWith note) turns first before s = .ok found r)
    (h' : members string (namedField fields) turns' first d s' = .ok d' r')
    (hsame : dropSpaces s = dropSpaces s') (hwalk : (outside 1).walk s = some (outside 0))
    (hend : dropSpaces r' = .char '\x7d' :: t) (hblank : dropSpaces t = [])
    (hinv : Inv d before) : Inv d' found := by
  induction turns generalizing turns' first d before s s' with
  | zero => cases h
  | succ turns ih =>
    have hmore' {another : Bool} {s₁ : Source}
        (hmore : more (ε := δ) '\x7d' first s = .ok another s₁) :
        more (ε := ε) '\x7d' first s' = .ok another s₁ := by
      obtain ⟨_, hmore, rfl, -⟩ := follows_more (δ := ε) '\x7d' first (Nat.le_refl _) hmore
      rw [← more_congr hsame]
      exact hmore
    obtain ⟨_, hturns, ⟨hmore, rfl⟩ | ⟨s₁, name, s₂, s₃, built, s₄, hmore, hkey, hcolon, hmember,
      hrest⟩⟩ := members_ok h
    · obtain ⟨_, -, ⟨-, rfl⟩ | ⟨s₁, _, _, _, _, _, hother, -⟩⟩ := members_ok h'
      · exact hinv
      · rw [hmore' hmore] at hother
        cases hother
    · obtain rfl := Nat.succ.inj hturns
      obtain ⟨_, -, ⟨hother, -⟩ | ⟨_, _, _, _, d₁, s₄', hother, hkey', hcolon', hmember',
        hrest'⟩⟩ := members_ok h'
      · rw [hmore' hmore] at hother
        cases hother
      · rw [hmore' hmore] at hother
        cases hother
        obtain ⟨_, hkey'', rfl, -⟩ := follows_string (δ := ε) (Nat.le_refl _) hkey
        rw [hkey''] at hkey'
        cases hkey'
        obtain ⟨_, hcolon'', -, -⟩ := follows_expect (δ := ε) ':' (Nat.le_refl _) hcolon
        rw [hcolon''] at hcolon'
        cases hcolon'
        obtain ⟨hskip, rfl⟩ := passWith_ok hmember
        rw [(passes_name hmore hkey hcolon).walk_eq] at hwalk
        -- the attempt at the value has ended outside of strings and under no more brackets
        obtain ⟨q, hq⟩ := drift_of_namedField hfields hmember' (delimited_of_members hrest')
        have hplace : q.under 1 = outside 1 :=
          eq_outside_of_members hfields hrest' hend hblank ((hq.under 1).walk_eq ▸ hwalk)
        obtain rfl : q = outside 0 := by
          obtain ⟨mode, opened⟩ := q
          cases hplace
          rfl
        have hpasses := moves_skip.passes hskip
        have hagree := Delimited.agree hpasses hq (delimited_of_members hrest)
          (delimited_of_members hrest')
        exact ih hrest hrest' hagree ((hpasses.under 1).walk_eq ▸ hwalk)
          (hnext hinv hmember')

/-- **A forgiving record that is a whole text** has met its members, and so what they preserve holds
of it. -/
theorem preserved_of_object (hnext : Preserves fields note Inv) {initial d : σ} {nothing found : τ}
    {s t t' : Source} (hinitial : Inv initial nothing)
    (h : object string (namedField fields) initial s = .ok d t) (hblank : dropSpaces t = [])
    (hnames : object (ε := δ) string (passWith note) nothing s = .ok found t')
    (hblank' : dropSpaces t' = []) : Inv d found := by
  obtain ⟨u, s₁, hopen, h⟩ := bind_ok h
  obtain ⟨u', s₁', hopen', hnames⟩ := bind_ok hnames
  obtain ⟨_, hopen'', -, -⟩ := follows_expect (δ := δ) '\x7b' (Nat.le_refl _) hopen
  rw [hopen''] at hopen'
  cases hopen'
  obtain ⟨r, hmembers, hclose⟩ := closedBy_ok h
  obtain ⟨r', hmembers', hclose'⟩ := closedBy_ok hnames
  have hall : Passes (outside 1) s₁ r' (outside 1) :=
    (moves_members (moves_string.under 1)
      (fun name before => moves_passWith.under 1) _ _ _).passes hmembers'
  have hwalk : (outside 1).walk s₁ = some (outside 0) := by
    rw [hall.walk_eq, ((moves_close (.inr rfl)).passes hclose').walk_eq,
      (passes_dropSpaces 0 t').walk_eq, hblank']
    rfl
  exact preserved_of_members hfields hnext hmembers' hmembers rfl hwalk (close_ok hclose) hblank
    hinitial

/-- A forgiving record that is a whole text has met each of its fields as often as it has read
it. -/
theorem counts_of_object {initial d : σ} {s t t' : Source} {found : List String}
    (hinitial : Counts fields initial [])
    (h : object string (namedField fields) initial s = .ok d t) (hblank : dropSpaces t = [])
    (hnames : names (ε := δ) s = .ok found t') (hblank' : dropSpaces t' = []) :
    Counts fields d found :=
  preserved_of_object hfields
    (fun _ _ _ _ _ _ hcounts hread => hcounts.next hfields.marks hread) hinitial h hblank hnames
    hblank'

end Forgiving

end Reader

end ClusterAccess.Json
