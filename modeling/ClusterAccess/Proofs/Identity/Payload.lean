import ClusterAccess.Identity.Token
import ClusterAccess.Proofs.Json.Forgiving

/-!
# Payloads

A payload is read twice, once for the claims about its bearer and once for the end of its validity.
The first reading takes whole values and passes over what it does not know.  The second one is
forgiving, and where an attempt of its fails it may go on in the middle of a value.  If both
succeed, the payload is an object and both have met the same members (`names_of_payload`): none of
those that one of them looks at is repeated.
-/

namespace ClusterAccess

open Json (Counts Field Follows Forgiving Ignored Marks Moves Passes Reader Source Strays outside)

namespace Json.Reader

variable {ε α σ : Type} {s r : Source}

/-- A record that begins with a brace is read as an object. -/
theorem record_of_brace {fields : Nat → List (Field ε σ)} {initial : σ} {nesting : Nat} {t : Source}
    (h : dropSpaces s = .char '\x7b' :: t) :
    record fields initial (nesting + 1) s =
      object string (namedField (fields nesting)) initial s := by
  have hlook : look (ε := ε) s = .ok (some '\x7b') (dropSpaces s) := by
    rw [h, look, h]
  rw [record, bind_of_ok hlook]
  exact object_dropSpaces initial s

end Json.Reader

/-! ## The claims -/

namespace Claims

theorem marks_fields (nesting : Nat) : Marks (Draft.fields nesting) := by
  intro field hfield d s d' r hread other hother
  simp only [Draft.fields, List.mem_cons, List.not_mem_nil, or_false] at hfield hother
  rcases hfield with rfl | rfl | rfl <;>
  · obtain ⟨a, t, -, hread⟩ := Reader.bind_ok hread
    cases hread
    rcases hother with rfl | rfl | rfl <;> simp

/-- At the start nothing has been met and nothing has been read. -/
theorem counts_nothing (nesting : Nat) : Counts (Draft.fields nesting) {} [] := by
  intro field hfield
  simp only [Draft.fields, List.mem_cons, List.not_mem_nil, or_false] at hfield
  rcases hfield with rfl | rfl | rfl <;> rfl

theorem skip_follows_subject {ε : Type} (nesting m : Nat) :
    Follows m Ignored (subject nesting) (Reader.skip (ε := ε)) := by
  intro s user r hlength hs
  obtain ⟨value, t, hvalue, hs⟩ := Reader.bind_ok hs
  cases hsubject : subjectOf value with
  | ok id =>
    rw [hsubject] at hs
    cases hs
    exact Reader.skip_follows Json.insertMember nesting m hlength hvalue
  | error reason =>
    rw [hsubject] at hs
    cases hs

theorem skip_follows_fields {ε : Type} (nesting m : Nat) :
    ∀ field ∈ Draft.fields nesting, ∀ d,
      Follows m Ignored (field.read d) (Reader.skip (ε := ε)) := by
  intro field hfield d s d' r hlength hs
  simp only [Draft.fields, List.mem_cons, List.not_mem_nil, or_false] at hfield
  rcases hfield with rfl | rfl | rfl
  · obtain ⟨user, t, huser, hs⟩ := Reader.bind_ok hs
    cases hs
    exact skip_follows_subject nesting m hlength huser
  · obtain ⟨value, t, hvalue, hs⟩ := Reader.bind_ok hs
    cases hs
    exact Reader.skip_follows Json.insertMember nesting m hlength hvalue
  · obtain ⟨value, t, hvalue, hs⟩ := Reader.bind_ok hs
    cases hs
    exact Reader.skip_follows Json.insertMember nesting m hlength hvalue

/-- What has been read when claims are. -/
theorem record_of_readAll {payload : Source} {claims : Claims} (h : readAll payload = .ok claims) :
    ∃ d r, Reader.record Draft.fields {} Reader.greatestNesting payload = .ok d r ∧
      Reader.dropSpaces r = [] ∧ d.user = some claims.user := by
  obtain ⟨r, hread, hblank⟩ := Reader.readAll_ok h
  obtain ⟨d, s, hrecord, hread⟩ := Reader.bind_ok hread
  obtain ⟨user, t, hrequire, hread⟩ := Reader.bind_ok hread
  cases hread
  obtain ⟨huser, rfl⟩ := Reader.require_ok hrequire
  exact ⟨d, s, hrecord, hblank, huser⟩

end Claims

/-! ## The claims about the token -/

namespace Token.Registered

theorem marks_fields {ε : Type} (nesting : Nat) : Marks (Draft.fields (ε := ε) nesting) := by
  have hnames : ∀ field ∈ Draft.fields (ε := ε) nesting,
      (∀ d, field.isRead d = d.names.contains field.name) ∧
        ∀ ⦃d s d' r⦄, field.read d s = .ok d' r → d'.names = field.name :: d.names := by
    intro field hfield
    simp only [Draft.fields, List.mem_cons, List.not_mem_nil, or_false] at hfield
    rcases hfield with rfl | rfl | rfl | rfl | rfl <;>
    · refine ⟨fun d => rfl, fun d s d' r hread => ?_⟩
      obtain ⟨a, t, -, hread⟩ := Reader.bind_ok hread
      cases hread
      rfl
  intro field hfield d s d' r hread other hother
  rw [(hnames other hother).1, (hnames other hother).1, (hnames field hfield).2 hread,
    List.contains_cons, Bool.or_comm]
  rfl

theorem counts_nothing {ε : Type} (nesting : Nat) :
    Counts (Draft.fields (ε := ε) nesting) {} [] := by
  intro field hfield
  simp only [Draft.fields, List.mem_cons, List.not_mem_nil, or_false] at hfield
  rcases hfield with rfl | rfl | rfl | rfl | rfl <;> rfl

/-- An attempt ends at some place, if not in the middle of a character. -/
theorem drifts_attempt {ε α : Type} {reader : Reader ε α} {s r : Source} {found : Option α}
    (hmoves : Moves 0 reader (outside 0) (outside 0)) (h : attempt reader s = .ok found r) :
    (∃ q, Passes (outside 0) s r q) ∨ Strays r := by
  have hlands := hmoves s
  unfold attempt at h
  cases hs : reader s with
  | ok a t =>
    rw [hs] at h hlands
    cases h
    exact .inl ⟨_, hlands⟩
  | error e t =>
    rw [hs] at h hlands
    cases h
    rcases hlands with ⟨q, hq, -⟩ | hstrays
    · exact .inl ⟨q, hq⟩
    · exact .inr hstrays

theorem drifts_seconds {ε : Type} {s r : Source} {found : Option UInt64}
    (h : seconds (ε := ε) s = .ok found r) : (∃ q, Passes (outside 0) s r q) ∨ Strays r := by
  obtain ⟨value, t, hattempt, h⟩ := Reader.bind_ok h
  cases h
  refine drifts_attempt (Reader.moves_scalarOr ?_ ?_) hattempt
  · exact .bind (Reader.moves_expect rfl (Nat.le_refl 0)) fun _ =>
      Reader.moves_closedBy (.inl rfl) (.unreadable (Nat.le_refl 1) _)
  · exact .bind (Reader.moves_expect rfl (Nat.le_refl 0)) fun _ =>
      Reader.moves_closedBy (.inr rfl) (.unreadable (Nat.le_refl 1) _)

theorem forgiving_fields {ε : Type} (nesting : Nat) :
    Forgiving (Draft.fields (ε := ε) nesting) where
  marks := marks_fields nesting
  drifts := by
    intro field hfield d s d' r hread
    simp only [Draft.fields, List.mem_cons, List.not_mem_nil, or_false] at hfield
    rcases hfield with rfl | rfl | rfl | rfl | rfl <;>
    obtain ⟨a, t, hclaim, hread⟩ := Reader.bind_ok hread <;> cases hread
    · exact drifts_seconds hclaim
    · obtain ⟨found, t, hseconds, hclaim⟩ := Reader.bind_ok hclaim
      cases hclaim
      exact drifts_seconds hseconds
    · obtain ⟨found, t, hattempt, hclaim⟩ := Reader.bind_ok hclaim
      cases hclaim
      exact drifts_attempt (Reader.moves_scalarOr (.unreadable (Nat.le_refl 0) _)
        (.unreadable (Nat.le_refl 0) _)) hattempt
    · obtain ⟨found, t, hattempt, hclaim⟩ := Reader.bind_ok hclaim
      cases hclaim
      exact drifts_attempt (Reader.moves_valueBy _ nesting) hattempt
    · obtain ⟨found, t, hattempt, hclaim⟩ := Reader.bind_ok hclaim
      cases hclaim
      exact drifts_attempt (Reader.moves_valueBy _ nesting) hattempt
  quoted := by
    intro field hfield
    simp only [Draft.fields, List.mem_cons, List.not_mem_nil, or_false] at hfield
    rcases hfield with rfl | rfl | rfl | rfl | rfl
    · exact ⟨'x', (by decide : 'x' ∈ "exp".toList), fun n => rfl⟩
    · exact ⟨'b', (by decide : 'b' ∈ "nbf".toList), fun n => rfl⟩
    · exact ⟨'b', (by decide : 'b' ∈ "sub".toList), fun n => rfl⟩
    · exact ⟨'i', (by decide : 'i' ∈ "iss".toList), fun n => rfl⟩
    · exact ⟨'d', (by decide : 'd' ∈ "aud".toList), fun n => rfl⟩

/-- The registered claims are read from an object. -/
theorem object_of_ofSource? {payload : Source} {registered : Registered}
    (h : ofSource? payload = some registered) :
    ∃ nesting d t u, Reader.dropSpaces payload = .char '\x7b' :: u ∧
      Reader.object Reader.string (Reader.namedField (Draft.fields (ε := Empty) nesting)) {}
        payload = .ok d t ∧ Reader.dropSpaces t = [] ∧ registered = d.toRegistered := by
  cases hread : (read Reader.greatestNesting : Reader Empty Registered).readAll payload with
  | error e =>
    rw [ofSource?, hread] at h
    cases h
  | ok result =>
    rw [ofSource?, hread] at h
    obtain rfl := Option.some.inj h
    obtain ⟨t, hread, hblank⟩ := Reader.readAll_ok hread
    obtain ⟨found, s, hlook, hread⟩ := Reader.bind_ok hread
    rcases Reader.look_cases (ε := Empty) payload with ⟨c, u, hdrop, hchar⟩ | ⟨-, hnone⟩
    · rw [hchar] at hlook
      cases hlook
      split at hread
      · rename_i hbrace
        obtain rfl : c = '\x7b' := Option.some.inj hbrace
        obtain ⟨d, t', hrecord, hread⟩ := Reader.bind_ok hread
        cases hread
        have hobject : Reader.record (Draft.fields (ε := Empty)) {} Reader.greatestNesting
            (.char '\x7b' :: u) = _ := Reader.record_of_brace rfl
        rw [hobject, ← hdrop, Reader.object_dropSpaces] at hrecord
        exact ⟨_, d, t, u, hdrop, hrecord, hblank, rfl⟩
      · cases hread
    · rw [hnone] at hlook
      cases hlook
      cases hread

end Token.Registered

/-! ## Both readings -/

namespace Token

/-- **The members of a payload that can be read both ways**: it is an object that has a subject, and
none of the members that are looked at is repeated. -/
theorem names_of_payload {payload : Source} {claims : Claims} {registered : Registered}
    (hclaims : Claims.readAll payload = .ok claims)
    (hregistered : Registered.ofSource? payload = some registered) :
    ∃ names, Json.names? payload = some names ∧ names.count "user_id" = 1 ∧
      ∀ name ∈ ["username", "auth_type", "exp"], names.count name ≤ 1 := by
  obtain ⟨nesting, d, t, u, hbrace, hobject, hblank, -⟩ :=
    Registered.object_of_ofSource? hregistered
  obtain ⟨draft, t', hrecord, hblank', huser⟩ := Claims.record_of_readAll hclaims
  have hfirst : Reader.record Claims.Draft.fields {} Reader.greatestNesting payload = _ :=
    Reader.record_of_brace hbrace
  rw [hfirst] at hrecord
  obtain ⟨names, hnames, hclaims, -⟩ := Reader.names_follow (δ := Empty) (Claims.marks_fields _)
    (fun field hfield d m => Claims.skip_follows_fields _ m field hfield d)
    (Claims.counts_nothing _) payload.length (Nat.le_succ _) hrecord
  have hregistered := Reader.counts_of_object (Registered.forgiving_fields nesting)
    (Registered.counts_nothing nesting) hobject hblank hnames hblank'
  refine ⟨names, ?_, ?_, ?_⟩
  · simp only [Json.names?, Reader.readAll, hnames, hblank', if_true]
  · have hcount : names.count "user_id" = draft.user.isSome.toNat := hclaims _ (.head _)
    rw [hcount, huser]
    rfl
  · intro name hname
    simp only [List.mem_cons, List.not_mem_nil, or_false] at hname
    rcases hname with rfl | rfl | rfl
    · exact hclaims.count_le_one (.tail _ (.head _))
    · exact hclaims.count_le_one (.tail _ (.tail _ (.head _)))
    · exact hregistered.count_le_one (.head _)

end Token

end ClusterAccess
