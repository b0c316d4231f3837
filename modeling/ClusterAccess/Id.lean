/-!
# Identifiers

Users, groups, clusters and permissions are named by 64-bit words.  Each kind has a type of its
own, so that a user's id cannot be passed where a group's is expected.  All four are ordered as
their words are, which is the order in which tables list their rows.
-/

namespace ClusterAccess

/-- Names a user. -/
@[ext] structure UserId where
  value : UInt64
deriving DecidableEq

/-- Names a user group. -/
@[ext] structure GroupId where
  value : UInt64
deriving DecidableEq

/-- Names a cluster; clusters themselves are kept elsewhere. -/
@[ext] structure ClusterId where
  value : UInt64
deriving DecidableEq

/-- Names a permission on a cluster. -/
@[ext] structure PermissionId where
  value : UInt64
deriving DecidableEq

/-- A kind of key whose values are compared by a strict total order. -/
class Key (κ : Type) extends LT κ where
  decidableLt (a b : κ) : Decidable (a < b)
  lt_irrefl (a : κ) : ¬ a < a
  lt_trans {a b c : κ} : a < b → b < c → a < c
  lt_or_eq_or_gt (a b : κ) : a < b ∨ a = b ∨ b < a

instance Key.instDecidableLt {κ : Type} [Key κ] (a b : κ) : Decidable (a < b) :=
  Key.decidableLt a b

namespace Key

variable {κ : Type} [Key κ]

theorem ne_of_lt {a b : κ} (h : a < b) : a ≠ b := by
  rintro rfl
  exact lt_irrefl a h

theorem not_lt_of_lt {a b : κ} (h : a < b) : ¬ b < a :=
  fun h' => lt_irrefl a (lt_trans h h')

/-- A strict total order decides equality: two keys are equal when neither is below. -/
theorem eq_of_not_lt {a b : κ} (h : ¬ a < b) (h' : ¬ b < a) : a = b := by
  rcases lt_or_eq_or_gt a b with h₁ | h₁ | h₁
  · exact absurd h₁ h
  · exact h₁
  · exact absurd h₁ h'

end Key

/-- Words in their usual order. -/
instance : Key UInt64 where
  decidableLt := inferInstance
  lt_irrefl := UInt64.lt_irrefl
  lt_trans := UInt64.lt_trans
  lt_or_eq_or_gt a b := by
    by_cases h : a = b
    · exact .inr (.inl h)
    · exact (UInt64.lt_or_lt_of_ne h).imp id .inr

/-- Keys compared through an injective measure in another kind of key. -/
@[reducible] def Key.ofInjective {κ μ : Type} [Key μ] (measure : κ → μ)
    (injective : ∀ {a b}, measure a = measure b → a = b) : Key κ where
  lt a b := measure a < measure b
  decidableLt a b := Key.decidableLt (measure a) (measure b)
  lt_irrefl a := Key.lt_irrefl (measure a)
  lt_trans := Key.lt_trans
  lt_or_eq_or_gt a b := (Key.lt_or_eq_or_gt (measure a) (measure b)).imp id (.imp injective id)

instance : Key UserId := .ofInjective UserId.value UserId.ext
instance : Key GroupId := .ofInjective GroupId.value GroupId.ext
instance : Key ClusterId := .ofInjective ClusterId.value ClusterId.ext
instance : Key PermissionId := .ofInjective PermissionId.value PermissionId.ext

/-- Pairs in lexicographic order. -/
instance {κ μ : Type} [Key κ] [Key μ] : Key (κ × μ) where
  lt a b := a.1 < b.1 ∨ (a.1 = b.1 ∧ a.2 < b.2)
  decidableLt a b :=
    if h₁ : a.1 < b.1 then isTrue (.inl h₁)
    else if h₂ : b.1 < a.1 then isFalse fun h => h.elim h₁ fun h => Key.ne_of_lt h₂ h.1.symm
    else if h₃ : a.2 < b.2 then isTrue (.inr ⟨Key.eq_of_not_lt h₁ h₂, h₃⟩)
    else isFalse fun h => h.elim h₁ fun h => h₃ h.2
  lt_irrefl a h := h.elim (Key.lt_irrefl a.1) fun h => Key.lt_irrefl a.2 h.2
  lt_trans := by
    rintro a b c (h₁ | ⟨h₁, h₁'⟩) (h₂ | ⟨h₂, h₂'⟩)
    · exact .inl (Key.lt_trans h₁ h₂)
    · exact .inl (h₂ ▸ h₁)
    · exact .inl (h₁ ▸ h₂)
    · exact .inr ⟨h₁.trans h₂, Key.lt_trans h₁' h₂'⟩
  lt_or_eq_or_gt a b := by
    rcases Key.lt_or_eq_or_gt a.1 b.1 with h | h | h
    · exact .inl (.inl h)
    · rcases Key.lt_or_eq_or_gt a.2 b.2 with h' | h' | h'
      · exact .inl (.inr ⟨h, h'⟩)
      · exact .inr (.inl (Prod.ext h h'))
      · exact .inr (.inr (.inr ⟨h.symm, h'⟩))
    · exact .inr (.inr (.inl h))

end ClusterAccess
