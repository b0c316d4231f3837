import ClusterAccess.Identity.Authenticator

/-!
# The verdict on a token

What a token says is read without a clock (`Authenticator.readToken`), and alike by all who have one
secret and allow the same algorithms.  The clock only decides whether it still counts, and not even
that for a token that does not say when it ends.  For all others the leeway is taken from the present
time, which cannot be done when it reaches back beyond the beginning of the clock.

`Authenticator.Judges` has one rule for each of these cases, and `Authenticator.verify_eq_iff` says
that these are the verdicts: whoever compares two of them goes through the rules, and does not take
the verification apart again.
-/

namespace ClusterAccess

namespace Verdict

theorem map_eq_ok_iff {ε α β : Type} {verdict : Verdict ε α} {f : α → β} {b : β} :
    verdict.map f = .ok b ↔ ∃ a, verdict = .ok a ∧ f a = b := by
  cases verdict <;> simp [map]

variable {ε : Type} {a b : UInt64}

theorem difference_of_le (h : b ≤ a) : (difference a b : Verdict ε UInt64) = .ok (a - b) :=
  if_pos h

theorem difference_of_lt (h : a < b) : (difference a b : Verdict ε UInt64) = .overflow :=
  if_neg (UInt64.not_le.mpr h)

end Verdict

namespace Authenticator

open Token (Registered)

variable {auth : Authenticator} {now : UInt64} {text : String}

/-- What is read of a token depends on the secret and on the algorithms, and on nothing else. -/
theorem readToken_congr {auth' : Authenticator} (hsecret : auth'.secret = auth.secret)
    (halgorithms : auth'.algorithms = auth.algorithms) (text : String) :
    auth'.readToken text = auth.readToken text := by
  unfold readToken
  rw [hsecret, halgorithms]

/-- Which verdict there is on a token, by what was read of it and by the clock. -/
inductive Judges (auth : Authenticator) (now : UInt64) (text : String) :
    Verdict IdentityError Claims → Prop where
  | unread (e : TokenError) (read : auth.readToken text = .error e) :
    Judges auth now text (.error (.invalidCredential e))
  | endless (claims : Claims) (registered : Registered)
    (read : auth.readToken text = .ok (claims, registered)) (endless : registered.expires = none) :
    Judges auth now text (.ok claims)
  | lasts (claims : Claims) (registered : Registered) (e : UInt64)
    (read : auth.readToken text = .ok (claims, registered)) (ends : registered.expires = some e)
    (clock : auth.leeway ≤ now) (lasts : now - auth.leeway ≤ e) :
    Judges auth now text (.ok claims)
  | ended (claims : Claims) (registered : Registered) (e : UInt64)
    (read : auth.readToken text = .ok (claims, registered)) (ends : registered.expires = some e)
    (clock : auth.leeway ≤ now) (ended : e < now - auth.leeway) :
    Judges auth now text (.error (.invalidCredential .expired))
  | beyond (claims : Claims) (registered : Registered) (e : UInt64)
    (read : auth.readToken text = .ok (claims, registered)) (ends : registered.expires = some e)
    (clock : now < auth.leeway) :
    Judges auth now text .overflow

theorem verify_of_read {claims : Claims} {registered : Registered}
    (h : auth.readToken text = .ok (claims, registered)) (now : UInt64) :
    auth.verify now text = ((registered.isExpired now auth.leeway).bind fun expired =>
      if expired then .error .expired else .ok claims).mapError .invalidCredential := by
  rw [verify, verifyToken, h]
  rfl

theorem Judges.eq {verdict : Verdict IdentityError Claims} (h : auth.Judges now text verdict) :
    auth.verify now text = verdict := by
  cases h with
  | unread e read =>
    rw [verify, verifyToken, read]
    rfl
  | endless claims registered read endless =>
    rw [verify_of_read read, Registered.isExpired, endless]
    rfl
  | lasts claims registered e read ends clock lasts =>
    rw [verify_of_read read, Registered.isExpired, ends]
    simp only [Verdict.difference_of_le clock, Verdict.map, Verdict.bind,
      decide_eq_false (UInt64.not_lt.mpr lasts)]
    rfl
  | ended claims registered e read ends clock ended =>
    rw [verify_of_read read, Registered.isExpired, ends]
    simp only [Verdict.difference_of_le clock, Verdict.map, Verdict.bind, decide_eq_true ended]
    rfl
  | beyond claims registered e read ends clock =>
    rw [verify_of_read read, Registered.isExpired, ends]
    simp only [Verdict.difference_of_lt clock]
    rfl

/-- There is a rule for every token at every time. -/
theorem exists_judges (auth : Authenticator) (now : UInt64) (text : String) :
    ∃ verdict, auth.Judges now text verdict := by
  cases hread : auth.readToken text with
  | error e => exact ⟨_, .unread e hread⟩
  | ok found =>
    obtain ⟨claims, registered⟩ := found
    cases hends : registered.expires with
    | none => exact ⟨_, .endless claims registered hread hends⟩
    | some e =>
      rcases UInt64.lt_or_le now auth.leeway with hclock | hclock
      · exact ⟨_, .beyond claims registered e hread hends hclock⟩
      · rcases UInt64.lt_or_le e (now - auth.leeway) with hended | hlasts
        · exact ⟨_, .ended claims registered e hread hends hclock hended⟩
        · exact ⟨_, .lasts claims registered e hread hends hclock hlasts⟩

/-- **The rules make the verdict.** -/
theorem verify_eq_iff {verdict : Verdict IdentityError Claims} :
    auth.verify now text = verdict ↔ auth.Judges now text verdict := by
  refine ⟨?_, Judges.eq⟩
  rintro rfl
  obtain ⟨verdict, h⟩ := auth.exists_judges now text
  exact h.eq ▸ h

/-- An accepted token has been read, and has not ended by a clock that the leeway does not exceed. -/
theorem read_of_verify {claims : Claims} (h : auth.verify now text = .ok claims) :
    ∃ registered, auth.readToken text = .ok (claims, registered) ∧
      ∀ e, registered.expires = some e → auth.leeway ≤ now ∧ now - auth.leeway ≤ e := by
  cases verify_eq_iff.mp h with
  | endless claims registered read endless =>
    refine ⟨registered, read, fun e hends => ?_⟩
    rw [endless] at hends
    cases hends
  | lasts claims registered e read ends clock lasts =>
    refine ⟨registered, read, fun e' hends => ?_⟩
    rw [ends] at hends
    cases hends
    exact ⟨clock, lasts⟩

end Authenticator

end ClusterAccess
