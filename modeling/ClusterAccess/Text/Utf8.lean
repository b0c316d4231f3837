/-!
# Text in bytes

The encoding of characters in one to four bytes, and its reading.  Bytes that encode nothing are
not an error here: reading a sequence of bytes gives a sequence of *pieces*, each a character or a
stray byte, so that a reader of the text can decide where strays are tolerated.  A byte is stray
when no well-formed sequence starts at it.
-/

namespace ClusterAccess.Text

/-- What is found in a sequence of bytes. -/
inductive Piece where
  | char (c : Char)
  | stray (byte : UInt8)
deriving DecidableEq

/-- The pieces of a text, all of them characters. -/
def pieces (text : String) : List Piece := text.toList.map .char

namespace Utf8

/-- The bytes of a text. -/
def encode (chars : List Char) : List UInt8 := chars.flatMap String.utf8EncodeChar

/-- The six payload bits of a continuation byte. -/
def continuation? (byte : UInt8) : Option Nat :=
  if 0x80 ≤ byte.toNat && byte.toNat < 0xC0 then some (byte.toNat - 0x80) else none

/-- A character from its code point, if that is none of the surrogates and not too large. -/
def char? (n : Nat) : Option Char :=
  if h : n.isValidChar then some (Char.ofNatAux n h) else none

/-- The character of one byte. -/
def one? (b₀ : UInt8) : Option Char :=
  if b₀.toNat < 0x80 then char? b₀.toNat else none

/-- The character of two bytes; a code point that fits one byte has no longer form. -/
def two? (b₀ b₁ : UInt8) : Option Char := do
  let x ← continuation? b₁
  if 0xC2 ≤ b₀.toNat && b₀.toNat < 0xE0 then char? ((b₀.toNat - 0xC0) * 0x40 + x) else none

/-- The character of three bytes; a code point that fits two bytes has no longer form. -/
def three? (b₀ b₁ b₂ : UInt8) : Option Char := do
  let x ← continuation? b₁
  let y ← continuation? b₂
  if 0xE0 ≤ b₀.toNat && b₀.toNat < 0xF0 then
    let n := ((b₀.toNat - 0xE0) * 0x40 + x) * 0x40 + y
    if 0x800 ≤ n then char? n else none
  else none

/-- The character of four bytes; a code point that fits three bytes has no longer form. -/
def four? (b₀ b₁ b₂ b₃ : UInt8) : Option Char := do
  let x ← continuation? b₁
  let y ← continuation? b₂
  let z ← continuation? b₃
  if 0xF0 ≤ b₀.toNat && b₀.toNat < 0xF5 then
    let n := (((b₀.toNat - 0xF0) * 0x40 + x) * 0x40 + y) * 0x40 + z
    if 0x10000 ≤ n then char? n else none
  else none

/-- The character at the front of a sequence of bytes, and how many further bytes belong to it.
No byte starts sequences of two lengths, so the order in which the lengths are tried is free. -/
def front? : List UInt8 → Option (Char × Nat)
  | [] => none
  | b₀ :: rest =>
    match one? b₀, rest with
    | some c, _ => some (c, 0)
    | none, b₁ :: rest =>
      match two? b₀ b₁, rest with
      | some c, _ => some (c, 1)
      | none, b₂ :: rest =>
        match three? b₀ b₁ b₂, rest with
        | some c, _ => some (c, 2)
        | none, b₃ :: _ => (four? b₀ b₁ b₂ b₃).map (·, 3)
        | none, [] => none
      | none, [] => none
    | none, [] => none

/-- The pieces of a sequence of bytes of which the first `owned` belong to a character that has
been read. -/
def piecesAfter : (owned : Nat) → List UInt8 → List Piece
  | _, [] => []
  | owned + 1, _ :: rest => piecesAfter owned rest
  | 0, byte :: rest =>
    match front? (byte :: rest) with
    | some (c, further) => .char c :: piecesAfter further rest
    | none => .stray byte :: piecesAfter 0 rest

/-- The pieces of a sequence of bytes. -/
def pieces (bytes : List UInt8) : List Piece := piecesAfter 0 bytes

/-- The characters of a sequence of bytes without strays. -/
def decode? (bytes : List UInt8) : Option (List Char) :=
  (pieces bytes).mapM fun
    | .char c => some c
    | .stray _ => none

end Utf8

end ClusterAccess.Text
