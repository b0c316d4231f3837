import ClusterAccess.Proofs.Identity.Expiry

/-!
# More leeway

A leeway is how long after its end a token is still taken, so more of it should let in all that less
of it lets in.  More leeway indeed refuses nothing that less of it does not refuse, and for the same
reason (`Authenticator.verify_with_leeway`).  But it does not always let in what it does not refuse.
No leeway is too long for a configuration, and one that reaches back beyond the beginning of the
clock cannot be taken from the present time: whether a token has ended by then has no answer, however
far its end is, and verifying it overflows (`Authenticator.exists_leeway_overflow`).
-/

namespace ClusterAccess.Authenticator

/-! ## Configurations -/

/-- What an authenticator needs of a configuration does not concern the leeway. -/
theorem exists_ofConfig_withLeeway (auth : Authenticator) (leeway : UInt64) :
    ∃ auth', ofConfig { auth.toConfig with leeway } = .ok auth' := by
  unfold ofConfig
  rw [dif_neg auth.secret_ne_empty, dif_neg auth.algorithms_ne_nil]
  split
  · rename_i algorithm hfound
    have hnot := List.find?_some hfound
    rw [auth.sharedSecret algorithm (List.mem_of_find?_eq_some hfound)] at hnot
    cases hnot
  · exact ⟨_, rfl⟩

/-- Authenticators that differ in their leeway read tokens alike. -/
theorem readToken_withLeeway {config : Config} {leeway leeway' : UInt64}
    {auth auth' : Authenticator} (hauth : ofConfig { config with leeway } = .ok auth)
    (hauth' : ofConfig { config with leeway := leeway' } = .ok auth') :
    auth.leeway = leeway ∧ auth'.leeway = leeway' ∧
      ∀ text, auth'.readToken text = auth.readToken text := by
  have hconfig := toConfig_of_ofConfig hauth
  have hconfig' := toConfig_of_ofConfig hauth'
  refine ⟨congrArg Config.leeway hconfig, congrArg Config.leeway hconfig', readToken_congr ?_ ?_⟩
  · exact (congrArg Config.secret hconfig').trans (congrArg Config.secret hconfig).symm
  · exact (congrArg Config.algorithms hconfig').trans (congrArg Config.algorithms hconfig).symm

/-! ## Tokens -/

theorem sub_le_sub_of_le {now leeway leeway' : UInt64} (hle : leeway ≤ leeway')
    (hclock : leeway' ≤ now) : now - leeway' ≤ now - leeway := by
  have hle' := UInt64.le_iff_toNat_le.mp hle
  rw [UInt64.le_iff_toNat_le, UInt64.toNat_sub_of_le _ _ hclock,
    UInt64.toNat_sub_of_le _ _ (UInt64.le_trans hle hclock)]
  omega

/-- **More leeway refuses no more, and overflows beyond the clock.**  An authenticator can be made
with any leeway if it can with some.  A token that is refused with more leeway is refused with less,
for the same reason.  One that is accepted with less is accepted with more as the same claims, if
that is not beyond the clock or the token does not say when it ends, and overflows otherwise; and so
does what overflows with less.  Verifying overflows just when the leeway is beyond the clock and the
token can be read, and says when it ends. -/
theorem verify_with_leeway {config : Config} {leeway leeway' : UInt64} {auth : Authenticator}
    (hauth : ofConfig { config with leeway } = .ok auth) (hle : leeway ≤ leeway') :
    ∃ auth', ofConfig { config with leeway := leeway' } = .ok auth' ∧ ∀ now text,
      (∀ e, auth'.verify now text = .error e → auth.verify now text = .error e) ∧
      (∀ claims, auth.verify now text = .ok claims →
        ∃ registered, auth'.readToken text = .ok (claims, registered) ∧
          auth'.verify now text =
            if leeway' ≤ now ∨ registered.expires = none then .ok claims else .overflow) ∧
      (auth.verify now text = .overflow → auth'.verify now text = .overflow) ∧
      (auth'.verify now text = .overflow ↔ now < leeway' ∧
        ∃ claims registered, auth'.readToken text = .ok (claims, registered) ∧
          registered.expires ≠ none) := by
  obtain ⟨auth', hauth'⟩ := exists_ofConfig_withLeeway auth leeway'
  rw [toConfig_of_ofConfig hauth] at hauth'
  obtain ⟨rfl, rfl, hsame⟩ := readToken_withLeeway hauth hauth'
  refine ⟨auth', hauth', fun now text =>
    ⟨fun e h => ?refused, fun claims h => ?accepted, fun h => ?overflowed, fun h => ?beyond, ?reads⟩⟩
  case refused =>
    cases verify_eq_iff.mp h with
    | unread e read => exact Judges.eq (.unread e ((hsame text).symm.trans read))
    | ended claims registered e read ends clock ended =>
      have hended := UInt64.lt_of_lt_of_le ended (sub_le_sub_of_le hle clock)
      exact Judges.eq (.ended claims registered e ((hsame text).symm.trans read) ends
        (UInt64.le_trans hle clock) hended)
  case accepted =>
    cases verify_eq_iff.mp h with
    | endless _ registered read endless =>
      have hread := (hsame text).trans read
      refine ⟨registered, hread, ?_⟩
      rw [if_pos (.inr endless)]
      exact Judges.eq (.endless claims registered hread endless)
    | lasts _ registered e read ends clock lasts =>
      have hread := (hsame text).trans read
      refine ⟨registered, hread, ?_⟩
      rcases UInt64.lt_or_le now auth'.leeway with hclock | hclock
      · rw [if_neg (not_or.mpr ⟨UInt64.not_le.mpr hclock, by rw [ends]; exact nofun⟩)]
        exact Judges.eq (.beyond claims registered e hread ends hclock)
      · rw [if_pos (.inl hclock)]
        exact Judges.eq (.lasts claims registered e hread ends hclock
          (UInt64.le_trans (sub_le_sub_of_le hle hclock) lasts))
  case overflowed =>
    cases verify_eq_iff.mp h with
    | beyond claims registered e read ends clock =>
      exact Judges.eq (.beyond claims registered e ((hsame text).trans read) ends
        (UInt64.lt_of_lt_of_le clock hle))
  case beyond =>
    cases verify_eq_iff.mp h with
    | beyond claims registered e read ends clock =>
      exact ⟨clock, claims, registered, read, by rw [ends]; exact nofun⟩
  case reads =>
    rintro ⟨hclock, claims, registered, hread, hends⟩
    obtain ⟨e, hends⟩ := Option.ne_none_iff_exists'.mp hends
    exact Judges.eq (.beyond claims registered e hread hends hclock)

/-! ## A token of many years -/

/-- A payload that says that its token ends in many years. -/
def lastingYears : List Char := "\x7b\"user_id\":1,\"exp\":4102444800\x7d".toList

theorem readToken_lastingYears (auth : Authenticator) :
    auth.readToken (String.ofList (auth.signedParts lastingYears).text) =
      .ok ({ user := ⟨1⟩ }, { expires := some 4102444800 }) := by
  rw [readToken_signedParts rfl (List.head_mem _)]
  exact Json.eq_ok_of_toOption (by decide +kernel)

theorem verify_lastingYears {auth : Authenticator} (hleeway : auth.leeway = 0) :
    auth.verify 1767225600 (String.ofList (auth.signedParts lastingYears).text) =
      .ok { user := ⟨1⟩ } := by
  refine Judges.eq (.lasts _ _ _ auth.readToken_lastingYears rfl ?_ ?_)
  · rw [hleeway]
    decide
  · rw [hleeway]
    decide

/-- A token of many years is taken with a leeway of a minute, and has no verdict with a leeway of
centuries. -/
theorem verify_with_leeway_centuries :
    let config : Config := { secret := "s3cret" }
    let claims : Claims := { user := ⟨1⟩ }
    ∃ auth minute centuries, ofConfig config = .ok auth ∧
      ofConfig { config with leeway := 60 } = .ok minute ∧
      ofConfig { config with leeway := 10000000000 } = .ok centuries ∧
      let token := String.ofList (auth.signedParts lastingYears).text
      auth.verify 1767225600 token = .ok claims ∧ minute.verify 1767225600 token = .ok claims ∧
        centuries.verify 1767225600 token = .overflow := by
  intro config claims
  obtain ⟨auth, hauth⟩ : ∃ auth, ofConfig config = .ok auth := ⟨_, rfl⟩
  have hleeway : auth.leeway = 0 := congrArg Config.leeway (toConfig_of_ofConfig hauth)
  have hless (leeway' : UInt64) :=
    @verify_with_leeway config 0 leeway' auth hauth UInt64.zero_le
  obtain ⟨minute, hminute, hshort⟩ := hless 60
  obtain ⟨centuries, hcenturies, hlong⟩ := hless 10000000000
  obtain ⟨-, -, hsame⟩ := @readToken_withLeeway config 0 10000000000 _ _ hauth hcenturies
  have hread := (hsame _).trans auth.readToken_lastingYears
  have hverify := verify_lastingYears hleeway
  obtain ⟨_, -, hkept⟩ := (hshort _ _).2.1 _ hverify
  exact ⟨auth, minute, centuries, hauth, hminute, hcenturies, hverify,
    hkept.trans (if_pos (.inl (by decide))),
    (hlong _ _).2.2.2.mpr ⟨by decide, _, _, hread, nofun⟩⟩

/-- More leeway does not always let in what less leeway lets in, and verifying a token does not
always have an answer. -/
theorem exists_leeway_overflow :
    (¬ ∀ (config : Config) (leeway leeway' : UInt64) (auth auth' : Authenticator),
      leeway ≤ leeway' → ofConfig { config with leeway } = .ok auth →
        ofConfig { config with leeway := leeway' } = .ok auth' →
        ∀ now text claims, auth.verify now text = .ok claims →
          auth'.verify now text = .ok claims) ∧
    ¬ ∀ (auth : Authenticator) now text, auth.verify now text ≠ .overflow := by
  obtain ⟨auth, hauth⟩ : ∃ auth, ofConfig { secret := "s3cret" } = .ok auth := ⟨_, rfl⟩
  obtain ⟨auth', hauth'⟩ :
    ∃ auth', ofConfig { secret := "s3cret", leeway := 10000000000 } = .ok auth' := ⟨_, rfl⟩
  obtain ⟨hleeway, hleeway', hsame⟩ :=
    @readToken_withLeeway { secret := "s3cret" } 0 10000000000 _ _ hauth hauth'
  have hclock : 1767225600 < auth'.leeway := by
    rw [hleeway']
    decide
  have hread := (hsame _).trans auth.readToken_lastingYears
  have hoverflow := Judges.eq (.beyond _ _ _ hread rfl hclock)
  refine ⟨fun h => ?_, fun h => h auth' _ _ hoverflow⟩
  have haccepted := h { secret := "s3cret" } 0 10000000000 auth auth' UInt64.zero_le hauth hauth'
    _ _ _ (verify_lastingYears hleeway)
  rw [hoverflow] at haccepted
  cases haccepted

end ClusterAccess.Authenticator
