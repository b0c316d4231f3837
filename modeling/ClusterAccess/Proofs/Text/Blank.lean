import ClusterAccess.Text.Blank
import Mathlib.Data.List.DropRight

/-!
# Trimmed texts

A text is trimmed if no blank is at either of its ends.  `trim_eq_iff` says what the trimmed form of
a text is without saying how it is found: the trimmed text that stands in it between blanks.
-/

namespace ClusterAccess.Text

/-- No blank is at either end of the text. -/
def IsTrimmed (text : String) : Prop :=
  (∀ c ∈ text.toList.head?, isBlank c = false) ∧ ∀ c ∈ text.toList.getLast?, isBlank c = false

/-- The text is empty, or blanks are all that is in it. -/
def AllBlank (text : String) : Prop := ∀ c ∈ text.toList, isBlank c = true

instance (text : String) : Decidable (AllBlank text) :=
  decidable_of_iff (text.toList.all isBlank = true) List.all_eq_true

theorem toList_trim (text : String) :
    (trim text).toList = (text.toList.dropWhile isBlank).rdropWhile isBlank := String.toList_ofList

/-! ## The ends of a list -/

section Ends

variable {p : Char → Bool} {chars : List Char}

theorem head?_rdropWhile (h : ∀ c ∈ chars.head?, p c = false) :
    ∀ c ∈ (chars.rdropWhile p).head?, p c = false := by
  obtain ⟨dropped, hchars⟩ := List.rdropWhile_prefix p (l := chars)
  cases hrest : chars.rdropWhile p with
  | nil => exact nofun
  | cons first rest =>
    rw [hrest] at hchars
    rw [← hchars] at h
    exact h

theorem head?_dropWhile : ∀ c ∈ (chars.dropWhile p).head?, p c = false := by
  intro c hc
  have hnot := List.head?_dropWhile_not p chars
  rw [Option.mem_def.mp hc] at hnot
  exact Bool.eq_false_iff.mpr fun h => by simp [h] at hnot

theorem getLast?_rdropWhile : ∀ c ∈ (chars.rdropWhile p).getLast?, p c = false := by
  intro c hc
  rw [List.rdropWhile, List.getLast?_reverse] at hc
  exact head?_dropWhile c hc

theorem dropWhile_blanks {before : List Char} (hbefore : ∀ c ∈ before, p c = true)
    (h : ∀ c ∈ chars.head?, p c = false) : (before ++ chars).dropWhile p = chars := by
  rw [List.dropWhile_append_of_pos hbefore]
  cases chars with
  | nil => rfl
  | cons first rest =>
    have hfirst : p first = false := h first rfl
    rw [List.dropWhile_cons_of_neg (Bool.eq_false_iff.mp hfirst)]

theorem rdropWhile_blanks {after : List Char} (hafter : ∀ c ∈ after, p c = true)
    (h : ∀ c ∈ chars.getLast?, p c = false) : (chars ++ after).rdropWhile p = chars := by
  rw [List.rdropWhile, List.reverse_append, dropWhile_blanks, List.reverse_reverse]
  · intro c hc
    exact hafter c (List.mem_reverse.mp hc)
  · rwa [List.head?_reverse]

end Ends

/-! ## Trimming -/

/-- **What trimming does**: it finds the trimmed text that stands between blanks. -/
theorem trim_eq_iff {text name : String} :
    trim text = name ↔ IsTrimmed name ∧
      ∃ before after : List Char, text.toList = before ++ name.toList ++ after ∧
        (∀ c ∈ before, isBlank c = true) ∧ ∀ c ∈ after, isBlank c = true := by
  constructor
  · rintro rfl
    refine ⟨⟨?_, ?_⟩, text.toList.takeWhile isBlank,
      (text.toList.dropWhile isBlank).rtakeWhile isBlank, ?_, ?_, ?_⟩
    · rw [toList_trim]
      exact head?_rdropWhile head?_dropWhile
    · rw [toList_trim]
      exact getLast?_rdropWhile
    · rw [toList_trim, List.append_assoc, List.rdropWhile_append_rtakeWhile,
        List.takeWhile_append_dropWhile]
    · exact fun c hc => List.mem_takeWhile_imp hc
    · exact fun c hc => List.mem_rtakeWhile_imp hc
  · rintro ⟨⟨hhead, hlast⟩, before, after, htext, hbefore, hafter⟩
    apply String.toList_injective
    rw [toList_trim, htext, List.append_assoc]
    by_cases hempty : name.toList = []
    · -- nothing stands between the blanks
      rw [hempty, List.nil_append, List.rdropWhile_eq_nil_iff]
      intro c hc
      have hall : ∀ c ∈ before ++ after, isBlank c = true :=
        fun c hc => (List.mem_append.mp hc).elim (hbefore c) (hafter c)
      rw [List.dropWhile_eq_nil_iff.mpr hall] at hc
      cases hc
    · rw [dropWhile_blanks hbefore, rdropWhile_blanks hafter hlast]
      intro c hc
      rw [List.head?_append_of_ne_nil _ hempty] at hc
      exact hhead c hc

theorem isTrimmed_trim (text : String) : IsTrimmed (trim text) := (trim_eq_iff.mp rfl).1

/-- Nothing is left of a text that is nothing but blanks, and of no other. -/
theorem trim_eq_empty_iff {text : String} : trim text = "" ↔ AllBlank text := by
  rw [trim_eq_iff]
  constructor
  · rintro ⟨-, before, after, htext, hbefore, hafter⟩ c hc
    rw [htext] at hc
    rcases List.mem_append.mp hc with hc | hc
    · rcases List.mem_append.mp hc with hc | hc
      · exact hbefore c hc
      · cases hc
    · exact hafter c hc
  · intro h
    refine ⟨⟨nofun, nofun⟩, text.toList, [], ?_, h, nofun⟩
    change text.toList = text.toList ++ [] ++ []
    rw [List.append_nil, List.append_nil]

end ClusterAccess.Text
