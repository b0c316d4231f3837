import ClusterAccess.Identity.Token
import ClusterAccess.Proofs.Text.Base64Url
import ClusterAccess.Proofs.Text.Utf8

/-!
# The parts of a token

A token is split at its last two dots, and put together again from what is found there; so its text
is known from its parts, and these from its text if they have no dots of their own.
-/

namespace ClusterAccess.Token

/-! ## Splitting at the last dot -/

theorem splitLast_eq_none {text : List Char} (h : '.' ∉ text) : splitLast text = none := by
  induction text with
  | nil => rfl
  | cons c text ih =>
    have hc : c ≠ '.' := fun hc => h (hc ▸ List.mem_cons_self)
    rw [splitLast, ih fun htext => h (List.mem_cons_of_mem _ htext)]
    exact if_neg hc

theorem splitLast_append (before : List Char) {after : List Char} (h : '.' ∉ after) :
    splitLast (before ++ '.' :: after) = some (before, after) := by
  induction before with
  | nil =>
    rw [List.nil_append, splitLast, splitLast_eq_none h]
    rfl
  | cons c before ih =>
    rw [List.cons_append, splitLast, ih]

theorem dot_not_mem_of_splitLast {text : List Char} (h : splitLast text = none) : '.' ∉ text := by
  induction text with
  | nil => exact List.not_mem_nil
  | cons c text ih =>
    rw [splitLast] at h
    cases hrest : splitLast text with
    | some parts =>
      rw [hrest] at h
      cases h
    | none =>
      rw [hrest] at h
      by_cases hc : c = '.'
      · rw [if_pos hc] at h
        cases h
      · intro hmem
        rcases List.mem_cons.mp hmem with hdot | hmem
        · exact hc hdot.symm
        · exact ih hrest hmem

theorem eq_of_splitLast {text before after : List Char}
    (h : splitLast text = some (before, after)) :
    text = before ++ '.' :: after ∧ '.' ∉ after := by
  induction text generalizing before with
  | nil => cases h
  | cons c text ih =>
    rw [splitLast] at h
    cases hrest : splitLast text with
    | some parts =>
      rw [hrest] at h
      cases h
      obtain ⟨rfl, hafter⟩ := ih hrest
      exact ⟨rfl, hafter⟩
    | none =>
      rw [hrest] at h
      by_cases hc : c = '.'
      · rw [if_pos hc] at h
        cases h
        rw [hc]
        exact ⟨rfl, dot_not_mem_of_splitLast hrest⟩
      · rw [if_neg hc] at h
        cases h

/-! ## Parts -/

/-- A token is split into the parts of which it was put together. -/
theorem Parts.ofText?_text {p : Parts} (hpayload : '.' ∉ p.payload)
    (hsignature : '.' ∉ p.signature) :
    Parts.ofText? p.text = some p := by
  have hsigned : splitLast p.signed = some (p.header, p.payload) := splitLast_append _ hpayload
  rw [ofText?, text, splitLast_append _ hsignature, Option.bind_eq_bind, Option.bind_some]
  simp only [hsigned]
  rfl

/-- The parts into which a token is split make up the token. -/
theorem Parts.text_of_ofText? {text : List Char} {p : Parts} (h : Parts.ofText? text = some p) :
    text = p.text ∧ '.' ∉ p.payload ∧ '.' ∉ p.signature := by
  obtain ⟨⟨signed, signature⟩, hlast, h⟩ := Option.bind_eq_some_iff.mp h
  obtain ⟨⟨header, payload⟩, hsigned, h⟩ := Option.bind_eq_some_iff.mp h
  cases h
  obtain ⟨rfl, hsignature⟩ := eq_of_splitLast hlast
  obtain ⟨rfl, hpayload⟩ := eq_of_splitLast hsigned
  exact ⟨rfl, hpayload, hsignature⟩

/-! ## What parts encode -/

theorem decodePart?_encodePart (text : List Char) :
    decodePart? (encodePart text) = some (text.map .char) := by
  rw [decodePart?, encodePart, Text.Base64Url.decode?_encode, Option.map_some,
    Text.Utf8.pieces_encode]

theorem dot_not_mem_of_decodePart? {part : List Char} {source : Json.Source}
    (h : decodePart? part = some source) : '.' ∉ part := by
  obtain ⟨bytes, hbytes, -⟩ := Option.map_eq_some_iff.mp h
  exact Text.Base64Url.dot_not_mem_of_decode? hbytes

end ClusterAccess.Token
