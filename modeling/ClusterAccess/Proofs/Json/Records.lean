import ClusterAccess.Proofs.Json.Entries

/-!
# What records keep

A record is built field by field, from an array or from an object.  What holds before any field is
read, and is kept by the reading of each, holds of the record (`Reader.record_keeps`): it does not
matter in which form the record is given, in which order its members stand, or which members it has
besides.
-/

namespace ClusterAccess.Json.Reader

variable {ε κ σ : Type} {P : σ → Prop} {d d' : σ} {s r : Source}

theorem members_keeps {key : Reader ε κ} {member : κ → σ → Reader ε σ}
    (hkeeps : ∀ name ⦃d s d' r⦄, member name d s = .ok d' r → P d → P d') {turns : Nat}
    {first : Bool} (h : members key member turns first d s = .ok d' r) (hP : P d) : P d' := by
  induction turns generalizing first d s with
  | zero => cases h
  | succ turns ih =>
    obtain ⟨before, hturns, ⟨-, rfl⟩ | ⟨s₁, name, s₂, s₃, built, s₄, -, -, -, hmember, hrest⟩⟩ :=
      members_ok h
    · exact hP
    · obtain rfl : turns = before := Nat.succ.inj hturns
      exact ih hrest (hkeeps name hmember hP)

theorem object_keeps {key : Reader ε κ} {member : κ → σ → Reader ε σ}
    (hkeeps : ∀ name ⦃d s d' r⦄, member name d s = .ok d' r → P d → P d')
    (h : object key member d s = .ok d' r) (hP : P d) : P d' := by
  obtain ⟨_, t, -, h⟩ := bind_ok h
  obtain ⟨u, hmembers, -⟩ := closedBy_ok h
  exact members_keeps hkeeps hmembers hP

/-- **What every field keeps, a record keeps.** -/
theorem record_keeps {fields : Nat → List (Field ε σ)}
    (hkeeps : ∀ nesting, ∀ field ∈ fields nesting, ∀ ⦃d s d' r⦄,
      field.read d s = .ok d' r → P d → P d') {nesting : Nat}
    (h : record fields d nesting s = .ok d' r) (hP : P d) : P d' := by
  cases nesting with
  | zero => cases h
  | succ nesting =>
    rcases record_ok h with ⟨_, _, -, harray⟩ | ⟨_, -, hobject⟩
    · exact positional_keeps (hkeeps nesting) harray hP
    · refine object_keeps (fun name d s d' r hmember hP => ?_) hobject hP
      rcases namedField_ok hmember with ⟨-, rfl, -⟩ | ⟨field, hfield, -, -, hread⟩
      · exact hP
      · exact hkeeps nesting field hfield hread hP

end ClusterAccess.Json.Reader
