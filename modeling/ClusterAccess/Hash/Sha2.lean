/-!
# The SHA-2 family

The hash functions of the SHA-2 family on sequences of bytes, for words of 32 and of 64 bits.  A
message is padded to whole blocks of sixteen words; each block is mixed into a state of eight
words in as many rounds as there are round constants.  The message words of a block are taken from
a window of sixteen that moves on by one word a round.
-/

namespace ClusterAccess.Hash

/-! ## Parameters -/

/-- What tells the members of the family with words of `w` bits apart from the others. -/
structure Sha2 (w : Nat) where
  constants : List (BitVec w)
  /-- Rotations of the first and of the fifth word of the state. -/
  upper₀ : Nat × Nat × Nat
  upper₁ : Nat × Nat × Nat
  /-- Two rotations and a shift, for the second and for the fifteenth word of the window. -/
  lower₀ : Nat × Nat × Nat
  lower₁ : Nat × Nat × Nat

/-- The words that are mixed. -/
structure State (w : Nat) where
  a : BitVec w
  b : BitVec w
  c : BitVec w
  d : BitVec w
  e : BitVec w
  f : BitVec w
  g : BitVec w
  h : BitVec w
deriving DecidableEq

namespace State

variable {w : Nat}

def words (s : State w) : List (BitVec w) := [s.a, s.b, s.c, s.d, s.e, s.f, s.g, s.h]

def add (s t : State w) : State w :=
  ⟨s.a + t.a, s.b + t.b, s.c + t.c, s.d + t.d, s.e + t.e, s.f + t.f, s.g + t.g, s.h + t.h⟩

end State

namespace Sha2

variable {w : Nat}

/-! ## Rounds -/

def rotations (x : BitVec w) (amounts : Nat × Nat × Nat) : BitVec w :=
  x.rotateRight amounts.1 ^^^ x.rotateRight amounts.2.1 ^^^ x.rotateRight amounts.2.2

def rotationsAndShift (x : BitVec w) (amounts : Nat × Nat × Nat) : BitVec w :=
  x.rotateRight amounts.1 ^^^ x.rotateRight amounts.2.1 ^^^ x >>> amounts.2.2

/-- One round: the state with one constant and one message word mixed in. -/
def round (p : Sha2 w) (s : State w) (constant word : BitVec w) : State w :=
  let choice := (s.e &&& s.f) ^^^ (~~~s.e &&& s.g)
  let majority := (s.a &&& s.b) ^^^ (s.a &&& s.c) ^^^ (s.b &&& s.c)
  let t₁ := s.h + rotations s.e p.upper₁ + choice + constant + word
  let t₂ := rotations s.a p.upper₀ + majority
  ⟨t₁ + t₂, s.a, s.b, s.c, s.d + t₁, s.e, s.f, s.g⟩

/-- The window one word further on. -/
def slide (p : Sha2 w) (window : List (BitVec w)) : List (BitVec w) :=
  let next := rotationsAndShift (window.getD 14 0) p.lower₁ + window.getD 9 0 +
    rotationsAndShift (window.getD 1 0) p.lower₀ + window.getD 0 0
  window.tail ++ [next]

/-- Mixes a block of sixteen words into the state. -/
def mixBlock (p : Sha2 w) (s : State w) (block : List (BitVec w)) : State w :=
  s.add (p.constants.foldl
    (fun (t, window) constant => (p.round t constant (window.getD 0 0), p.slide window))
    (s, block)).1

/-! ## Messages -/

/-- Bytes of a number, the most significant one first. -/
def bigEndian (size n : Nat) : List UInt8 :=
  (List.range size).reverse.map fun i => .ofNat (n / 256 ^ i)

/-- The number that bytes are, the most significant one first. -/
def ofBigEndian (bytes : List UInt8) : Nat := bytes.foldl (fun n byte => n * 256 + byte.toNat) 0

/-- Pieces of a given size, up to a given number of them. -/
def chunks {α : Type} (size : Nat) : (most : Nat) → List α → List (List α)
  | 0, _ => []
  | most + 1, list =>
    if list.isEmpty then [] else list.take size :: chunks size most (list.drop size)

/-- The number of bytes in a block. -/
def blockSize (w : Nat) : Nat := 2 * w

/-- The message, a bit that is one, zeros up to a whole number of blocks, and the message's length
in bits at the very end. -/
def padded (w : Nat) (message : List UInt8) : List UInt8 :=
  let used := message.length + 1 + w / 4
  let zeros := (blockSize w - used % blockSize w) % blockSize w
  message ++ 0x80 :: List.replicate zeros 0 ++ bigEndian (w / 4) (8 * message.length)

/-- The words of a sequence of bytes. -/
def wordsOf (w : Nat) (bytes : List UInt8) : List (BitVec w) :=
  (chunks (w / 8) bytes.length bytes).map fun chunk => .ofNat w (ofBigEndian chunk)

/-- The hash of a message from an initial state. -/
def digest (p : Sha2 w) (initial : State w) (message : List UInt8) : List UInt8 :=
  let words := wordsOf w (padded w message)
  let final := (chunks 16 words.length words).foldl p.mixBlock initial
  final.words.flatMap fun word => bigEndian (w / 8) word.toNat

end Sha2

/-! ## Members of the family -/

/-- Words of 32 bits. -/
def sha2Narrow : Sha2 32 where
  constants := [
    0x428A2F98, 0x71374491, 0xB5C0FBCF, 0xE9B5DBA5, 0x3956C25B, 0x59F111F1, 0x923F82A4,
    0xAB1C5ED5, 0xD807AA98, 0x12835B01, 0x243185BE, 0x550C7DC3, 0x72BE5D74, 0x80DEB1FE,
    0x9BDC06A7, 0xC19BF174, 0xE49B69C1, 0xEFBE4786, 0x0FC19DC6, 0x240CA1CC, 0x2DE92C6F,
    0x4A7484AA, 0x5CB0A9DC, 0x76F988DA, 0x983E5152, 0xA831C66D, 0xB00327C8, 0xBF597FC7,
    0xC6E00BF3, 0xD5A79147, 0x06CA6351, 0x14292967, 0x27B70A85, 0x2E1B2138, 0x4D2C6DFC,
    0x53380D13, 0x650A7354, 0x766A0ABB, 0x81C2C92E, 0x92722C85, 0xA2BFE8A1, 0xA81A664B,
    0xC24B8B70, 0xC76C51A3, 0xD192E819, 0xD6990624, 0xF40E3585, 0x106AA070, 0x19A4C116,
    0x1E376C08, 0x2748774C, 0x34B0BCB5, 0x391C0CB3, 0x4ED8AA4A, 0x5B9CCA4F, 0x682E6FF3,
    0x748F82EE, 0x78A5636F, 0x84C87814, 0x8CC70208, 0x90BEFFFA, 0xA4506CEB, 0xBEF9A3F7,
    0xC67178F2]
  upper₀ := (2, 13, 22)
  upper₁ := (6, 11, 25)
  lower₀ := (7, 18, 3)
  lower₁ := (17, 19, 10)

/-- Words of 64 bits. -/
def sha2Wide : Sha2 64 where
  constants := [
    0x428A2F98D728AE22, 0x7137449123EF65CD, 0xB5C0FBCFEC4D3B2F, 0xE9B5DBA58189DBBC,
    0x3956C25BF348B538, 0x59F111F1B605D019, 0x923F82A4AF194F9B, 0xAB1C5ED5DA6D8118,
    0xD807AA98A3030242, 0x12835B0145706FBE, 0x243185BE4EE4B28C, 0x550C7DC3D5FFB4E2,
    0x72BE5D74F27B896F, 0x80DEB1FE3B1696B1, 0x9BDC06A725C71235, 0xC19BF174CF692694,
    0xE49B69C19EF14AD2, 0xEFBE4786384F25E3, 0x0FC19DC68B8CD5B5, 0x240CA1CC77AC9C65,
    0x2DE92C6F592B0275, 0x4A7484AA6EA6E483, 0x5CB0A9DCBD41FBD4, 0x76F988DA831153B5,
    0x983E5152EE66DFAB, 0xA831C66D2DB43210, 0xB00327C898FB213F, 0xBF597FC7BEEF0EE4,
    0xC6E00BF33DA88FC2, 0xD5A79147930AA725, 0x06CA6351E003826F, 0x142929670A0E6E70,
    0x27B70A8546D22FFC, 0x2E1B21385C26C926, 0x4D2C6DFC5AC42AED, 0x53380D139D95B3DF,
    0x650A73548BAF63DE, 0x766A0ABB3C77B2A8, 0x81C2C92E47EDAEE6, 0x92722C851482353B,
    0xA2BFE8A14CF10364, 0xA81A664BBC423001, 0xC24B8B70D0F89791, 0xC76C51A30654BE30,
    0xD192E819D6EF5218, 0xD69906245565A910, 0xF40E35855771202A, 0x106AA07032BBD1B8,
    0x19A4C116B8D2D0C8, 0x1E376C085141AB53, 0x2748774CDF8EEB99, 0x34B0BCB5E19B48A8,
    0x391C0CB3C5C95A63, 0x4ED8AA4AE3418ACB, 0x5B9CCA4F7763E373, 0x682E6FF3D6B2B8A3,
    0x748F82EE5DEFB2FC, 0x78A5636F43172F60, 0x84C87814A1F0AB72, 0x8CC702081A6439EC,
    0x90BEFFFA23631E28, 0xA4506CEBDE82BDE9, 0xBEF9A3F7B2C67915, 0xC67178F2E372532B,
    0xCA273ECEEA26619C, 0xD186B8C721C0C207, 0xEADA7DD6CDE0EB1E, 0xF57D4F7FEE6ED178,
    0x06F067AA72176FBA, 0x0A637DC5A2C898A6, 0x113F9804BEF90DAE, 0x1B710B35131C471B,
    0x28DB77F523047D84, 0x32CAAB7B40C72493, 0x3C9EBE0A15C9BEBC, 0x431D67C49C100D4C,
    0x4CC5D4BECB3E42B6, 0x597F299CFC657E2A, 0x5FCB6FAB3AD6FAEC, 0x6C44198C4A475817]
  upper₀ := (28, 34, 39)
  upper₁ := (14, 18, 41)
  lower₀ := (1, 8, 7)
  lower₁ := (19, 61, 6)

/-- A hash function and the size of its blocks in bytes. -/
structure HashFunction where
  blockSize : Nat
  hash : List UInt8 → List UInt8

def sha256 : HashFunction where
  blockSize := Sha2.blockSize 32
  hash := sha2Narrow.digest ⟨
    0x6A09E667, 0xBB67AE85, 0x3C6EF372, 0xA54FF53A,
    0x510E527F, 0x9B05688C, 0x1F83D9AB, 0x5BE0CD19⟩

def sha384 : HashFunction where
  blockSize := Sha2.blockSize 64
  hash message := (sha2Wide.digest ⟨
    0xCBBB9D5DC1059ED8, 0x629A292A367CD507, 0x9159015A3070DD17, 0x152FECD8F70E5939,
    0x67332667FFC00B31, 0x8EB44A8768581511, 0xDB0C2E0D64F98FA7, 0x47B5481DBEFA4FA4⟩
    message).take 48

def sha512 : HashFunction where
  blockSize := Sha2.blockSize 64
  hash := sha2Wide.digest ⟨
    0x6A09E667F3BCC908, 0xBB67AE8584CAA73B, 0x3C6EF372FE94F82B, 0xA54FF53A5F1D36F1,
    0x510E527FADE682D1, 0x9B05688C2B3E6C1F, 0x1F83D9ABFB41BD6B, 0x5BE0CD19137E2179⟩

end ClusterAccess.Hash
