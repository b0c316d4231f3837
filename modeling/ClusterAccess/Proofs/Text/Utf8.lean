import ClusterAccess.Text.Utf8

/-!
# Text in bytes, read back

The bytes of a text are read as its characters, without a stray byte among them.  The first byte of
a character says how many there are, and each length is tried only for the bytes that begin so.
-/

namespace ClusterAccess.Text.Utf8

open String (utf8EncodeChar)

/-! ## Characters of each length -/

theorem char?_toNat (c : Char) : char? c.toNat = some c := by
  have hvalid : c.toNat.isValidChar := c.valid
  rw [char?, dif_pos hvalid]
  rfl

theorem toNat_lt (c : Char) : c.toNat < 0x110000 := by
  rcases c.valid with hlow | ⟨-, hhigh⟩
  · exact Nat.lt_trans hlow (by decide)
  · exact hhigh

section Bytes

variable {n : Nat}

theorem toNat_ofNat (h : n < 256) : (UInt8.ofNat n).toNat = n := UInt8.toNat_ofNat_of_lt' h

theorem continuation?_ofNat (h : n < 64) : continuation? (UInt8.ofNat (n + 0x80)) = some n := by
  have hrange : (0x80 ≤ n + 0x80 && n + 0x80 < 0xC0) = true := by
    simp only [Bool.and_eq_true, decide_eq_true_eq]
    omega
  rw [continuation?, toNat_ofNat (by omega), if_pos hrange, Nat.add_sub_cancel]

theorem one?_ofNat (h : n ≤ 0x7F) : one? (UInt8.ofNat n) = char? n := by
  rw [one?, toNat_ofNat (by omega), if_pos (by omega)]

theorem one?_eq_none (hlow : 0x80 ≤ n) (hhigh : n < 256) : one? (UInt8.ofNat n) = none := by
  rw [one?, toNat_ofNat hhigh, if_neg (by omega)]

theorem two?_ofNat (hlow : 0x7F < n) (hhigh : n ≤ 0x7FF) :
    two? (UInt8.ofNat (n / 64 % 0x20 + 0xC0)) (UInt8.ofNat (n % 0x40 + 0x80)) = char? n := by
  have hrange : (0xC2 ≤ n / 64 % 0x20 + 0xC0 && n / 64 % 0x20 + 0xC0 < 0xE0) = true := by
    simp only [Bool.and_eq_true, decide_eq_true_eq]
    omega
  have hpoint : (n / 64 % 0x20 + 0xC0 - 0xC0) * 0x40 + n % 0x40 = n := by omega
  rw [two?, continuation?_ofNat (by omega), Option.bind_eq_bind, Option.bind_some,
    toNat_ofNat (by omega), if_pos hrange, hpoint]

theorem two?_eq_none (hlow : 0xE0 ≤ n) (hhigh : n < 256) (b₁ : UInt8) :
    two? (UInt8.ofNat n) b₁ = none := by
  have hrange : ¬ (0xC2 ≤ n && n < 0xE0) = true := by
    simp only [Bool.and_eq_true, decide_eq_true_eq]
    omega
  simp only [two?, toNat_ofNat hhigh, if_neg hrange]
  cases continuation? b₁ <;> rfl

theorem three?_ofNat (hlow : 0x7FF < n) (hhigh : n ≤ 0xFFFF) :
    three? (UInt8.ofNat (n / 4096 % 0x10 + 0xE0)) (UInt8.ofNat (n / 64 % 0x40 + 0x80))
      (UInt8.ofNat (n % 0x40 + 0x80)) = char? n := by
  have hrange : (0xE0 ≤ n / 4096 % 0x10 + 0xE0 && n / 4096 % 0x10 + 0xE0 < 0xF0) = true := by
    simp only [Bool.and_eq_true, decide_eq_true_eq]
    omega
  have hpoint : ((n / 4096 % 0x10 + 0xE0 - 0xE0) * 0x40 + n / 64 % 0x40) * 0x40 + n % 0x40 = n := by
    omega
  rw [three?, continuation?_ofNat (by omega), Option.bind_eq_bind, Option.bind_some,
    continuation?_ofNat (by omega), Option.bind_some, toNat_ofNat (by omega), if_pos hrange, hpoint]
  exact if_pos hlow

theorem three?_eq_none (hlow : 0xF0 ≤ n) (hhigh : n < 256) (b₁ b₂ : UInt8) :
    three? (UInt8.ofNat n) b₁ b₂ = none := by
  have hrange : ¬ (0xE0 ≤ n && n < 0xF0) = true := by
    simp only [Bool.and_eq_true, decide_eq_true_eq]
    omega
  simp only [three?, toNat_ofNat hhigh, if_neg hrange]
  cases continuation? b₁ <;> cases continuation? b₂ <;> rfl

theorem four?_ofNat (hlow : 0xFFFF < n) (hhigh : n < 0x110000) :
    four? (UInt8.ofNat (n / 262144 % 0x08 + 0xF0)) (UInt8.ofNat (n / 4096 % 0x40 + 0x80))
      (UInt8.ofNat (n / 64 % 0x40 + 0x80)) (UInt8.ofNat (n % 0x40 + 0x80)) = char? n := by
  have hrange : (0xF0 ≤ n / 262144 % 0x08 + 0xF0 && n / 262144 % 0x08 + 0xF0 < 0xF5) = true := by
    simp only [Bool.and_eq_true, decide_eq_true_eq]
    omega
  have hpoint : (((n / 262144 % 0x08 + 0xF0 - 0xF0) * 0x40 + n / 4096 % 0x40) * 0x40 +
      n / 64 % 0x40) * 0x40 + n % 0x40 = n := by
    omega
  rw [four?, continuation?_ofNat (by omega), Option.bind_eq_bind, Option.bind_some,
    continuation?_ofNat (by omega), Option.bind_some, continuation?_ofNat (by omega),
    Option.bind_some, toNat_ofNat (by omega), if_pos hrange, hpoint]
  exact if_pos hlow

end Bytes

/-! ## Texts -/

/-- At the front of a text's bytes is its first character. -/
theorem front?_utf8EncodeChar (c : Char) (rest : List UInt8) :
    front? (utf8EncodeChar c ++ rest) = some (c, (utf8EncodeChar c).length - 1) := by
  have hmax : c.toNat < 0x110000 := toNat_lt c
  have hc : char? c.toNat = some c := char?_toNat c
  by_cases hone : c.toNat ≤ 0x7F
  · have hbytes : utf8EncodeChar c = [UInt8.ofNat c.toNat] := if_pos hone
    simp only [hbytes, List.cons_append, List.nil_append, front?, one?_ofNat hone, hc]
    rfl
  by_cases htwo : c.toNat ≤ 0x7FF
  · have hbytes : utf8EncodeChar c =
        [UInt8.ofNat (c.toNat / 64 % 0x20 + 0xC0), UInt8.ofNat (c.toNat % 0x40 + 0x80)] :=
      (if_neg hone).trans (if_pos htwo)
    simp only [hbytes, List.cons_append, List.nil_append, front?]
    rw [one?_eq_none (by omega) (by omega)]
    simp only [two?_ofNat (Nat.lt_of_not_le hone) htwo, hc]
    rfl
  by_cases hthree : c.toNat ≤ 0xFFFF
  · have hbytes : utf8EncodeChar c =
        [UInt8.ofNat (c.toNat / 4096 % 0x10 + 0xE0), UInt8.ofNat (c.toNat / 64 % 0x40 + 0x80),
          UInt8.ofNat (c.toNat % 0x40 + 0x80)] :=
      (if_neg hone).trans ((if_neg htwo).trans (if_pos hthree))
    simp only [hbytes, List.cons_append, List.nil_append, front?]
    rw [one?_eq_none (by omega) (by omega)]
    simp only [two?_eq_none (n := c.toNat / 4096 % 0x10 + 0xE0) (by omega) (by omega),
      three?_ofNat (Nat.lt_of_not_le htwo) hthree, hc]
    rfl
  · have hbytes : utf8EncodeChar c =
        [UInt8.ofNat (c.toNat / 262144 % 0x08 + 0xF0), UInt8.ofNat (c.toNat / 4096 % 0x40 + 0x80),
          UInt8.ofNat (c.toNat / 64 % 0x40 + 0x80), UInt8.ofNat (c.toNat % 0x40 + 0x80)] :=
      (if_neg hone).trans ((if_neg htwo).trans (if_neg hthree))
    simp only [hbytes, List.cons_append, List.nil_append, front?]
    rw [one?_eq_none (by omega) (by omega)]
    simp only [two?_eq_none (n := c.toNat / 262144 % 0x08 + 0xF0) (by omega) (by omega),
      three?_eq_none (n := c.toNat / 262144 % 0x08 + 0xF0) (by omega) (by omega),
      four?_ofNat (Nat.lt_of_not_le hthree) hmax, hc]
    rfl

theorem piecesAfter_append (owned rest : List UInt8) :
    piecesAfter owned.length (owned ++ rest) = pieces rest := by
  induction owned with
  | nil => rfl
  | cons byte owned ih => exact ih

theorem pieces_utf8EncodeChar (c : Char) (rest : List UInt8) :
    pieces (utf8EncodeChar c ++ rest) = .char c :: pieces rest := by
  have hfront := front?_utf8EncodeChar c rest
  cases hbytes : utf8EncodeChar c with
  | nil => exact absurd hbytes String.utf8EncodeChar_ne_nil
  | cons byte bytes =>
    rw [hbytes] at hfront
    rw [pieces, List.cons_append, piecesAfter, ← List.cons_append, hfront]
    exact congrArg (Piece.char c :: ·) (piecesAfter_append bytes rest)

/-- **The bytes of a text are read as its characters.** -/
theorem pieces_encode (chars : List Char) : pieces (encode chars) = chars.map .char := by
  induction chars with
  | nil => rfl
  | cons c chars ih =>
    rw [encode, List.flatMap_cons, pieces_utf8EncodeChar]
    exact congrArg (Piece.char c :: ·) ih

end ClusterAccess.Text.Utf8
