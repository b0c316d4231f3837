import ClusterAccess.Json.Basic
import ClusterAccess.Text.Utf8
/-!
# Reading JSON

A reader takes what it needs from the front of a source, piece by piece from left to right, and
the first thing that is wrong ends it.  A reader that gives up leaves the source where it gave up:
whoever goes on after the failure goes on there.  An array or object whose content fails is still
looked through for its closing bracket, so that a failure right before the bracket is followed by
what comes after it.

There are two ways to read a value.  `value` builds it: numbers must be in range, strings must be
text, and at most a given number of brackets may be open.  `skip` passes over it and checks only
its grammar, at any depth.

Loops take as many turns as the source has pieces, which is enough, since each turn takes one.
-/

namespace ClusterAccess.Json

open Text (Piece)

/-- Why a reader gives up: what stands there cannot be read, or it can be read and is refused for
a reason of the reader's own. -/
inductive Failure (ε : Type) where
  | unreadable
  | rejected (reason : ε)
deriving DecidableEq

abbrev Source := List Piece

/-- A reader of `α` that may refuse what it reads for a reason in `ε`. -/
abbrev Reader (ε α : Type) := EStateM (Failure ε) Source α

namespace Reader

variable {ε α σ : Type}

def unreadable : Reader ε α := throw .unreadable

def reject (reason : ε) : Reader ε α := throw (.rejected reason)

/-- The value of an option, which must be there. -/
def require : Option α → Reader ε α
  | some a => pure a
  | none => unreadable

/-! ## Single characters -/

/-- The blanks that may stand between the parts of a text. -/
def isSpace (c : Char) : Bool := c = ' ' || c = '\t' || c = '\n' || c = '\r'

def dropSpaces : Source → Source
  | .char c :: rest => if isSpace c then dropSpaces rest else .char c :: rest
  | source => source

/-- Passes over blanks and looks at the character after them, if it is one. -/
def look : Reader ε (Option Char) := fun source =>
  match dropSpaces source with
  | .char c :: rest => .ok (some c) (.char c :: rest)
  | rest => .ok none rest

/-- Passes over one piece. -/
def advance : Reader ε Unit := modify List.tail

/-- Passes over blanks and a given character. -/
def expect (c : Char) : Reader ε Unit := do
  if (← look) = some c then advance else unreadable

/-- Passes over a character if it is the next one. -/
def accept (p : Char → Bool) : Reader ε (Option Char) := fun source =>
  match source with
  | .char c :: rest => if p c then .ok (some c) rest else .ok none source
  | _ => .ok none source

/-- Passes over the given characters. -/
def keyword : List Char → Reader ε Unit
  | [] => pure ()
  | c :: rest => do
    if (← accept (· = c)).isSome then keyword rest else unreadable

/-! ## Strings -/

/-- What a character after a backslash stands for, `u` apart. -/
def escaped? (c : Char) : Option Char :=
  if c = '"' then some '"'
  else if c = '\\' then some '\\'
  else if c = '/' then some '/'
  else if c = 'b' then some '\x08'
  else if c = 'f' then some '\x0c'
  else if c = 'n' then some '\n'
  else if c = 'r' then some '\r'
  else if c = 't' then some '\t'
  else none

/-- The number of a digit in base sixteen, of either case. -/
def hexValue? (c : Char) : Option Nat :=
  if '0' ≤ c ∧ c ≤ '9' then some (c.toNat - '0'.toNat)
  else if 'a' ≤ c ∧ c ≤ 'f' then some (c.toNat - 'a'.toNat + 10)
  else if 'A' ≤ c ∧ c ≤ 'F' then some (c.toNat - 'A'.toNat + 10)
  else none

/-- The first half of a pair of escapes for one character. -/
def isHighHalf (n : Nat) : Bool := 0xD800 ≤ n && n ≤ 0xDBFF

/-- The second half of a pair of escapes for one character. -/
def isLowHalf (n : Nat) : Bool := 0xDC00 ≤ n && n ≤ 0xDFFF

/-- The character of a pair of halves. -/
def joinHalves (high low : Nat) : Char :=
  Char.ofNat ((high - 0xD800) * 0x400 + (low - 0xDC00) + 0x10000)

/-- How far the reading of a string has come. -/
inductive StringState where
  | plain
  /-- After a backslash. -/
  | escape
  /-- Inside a numeric escape, after some of its four digits; `high` is the half before it. -/
  | numeric (high : Option Nat) (digits value : Nat)
  /-- After the escape of a first half. -/
  | half (high : Nat)
  /-- After the backslash that follows the escape of a first half. -/
  | halfEscape (high : Nat)
deriving DecidableEq

/-- What is left of a piece after its first byte, before the rest of the source: the other bytes
of a character belong to no character any more. -/
def dropByte (piece : Piece) (rest : Source) : Source :=
  match piece with
  | .char c => (String.utf8EncodeChar c).tail.map .stray ++ rest
  | .stray _ => rest

/-- The rest of a string up to its closing quotation mark.  `done` holds the characters so far,
last one first; `strayed` says that a stray byte was among them, which fails the string, but only
after its end has been found. -/
def stringFrom : StringState → (strayed : Bool) → (done : List Char) → Reader ε String
  | _, _, _, [] => .error .unreadable []
  | .plain, strayed, done, piece :: rest =>
    match piece with
    | .stray _ => stringFrom .plain true done rest
    | .char c =>
      if c = '"' then
        if strayed then .error .unreadable rest else .ok (String.ofList done.reverse) rest
      else if c = '\\' then stringFrom .escape strayed done rest
      else if c.toNat < 0x20 then .error .unreadable rest
      else stringFrom .plain strayed (c :: done) rest
  | .escape, strayed, done, piece :: rest =>
    match piece with
    | .stray _ => .error .unreadable rest
    | .char c =>
      match escaped? c with
      | some d => stringFrom .plain strayed (d :: done) rest
      | none =>
        if c = 'u' then stringFrom (.numeric none 0 0) strayed done rest
        else .error .unreadable rest
  | .numeric high digits value, strayed, done, piece :: rest =>
    match piece with
    | .stray _ => .error .unreadable rest
    | .char c =>
      match hexValue? c with
      | none => .error .unreadable rest
      | some h =>
        if digits < 3 then
          stringFrom (.numeric high (digits + 1) (value * 16 + h)) strayed done rest
        else
          match high with
          | none =>
            if isLowHalf (value * 16 + h) then .error .unreadable rest
            else if isHighHalf (value * 16 + h) then
              stringFrom (.half (value * 16 + h)) strayed done rest
            else stringFrom .plain strayed (Char.ofNat (value * 16 + h) :: done) rest
          | some high =>
            if isLowHalf (value * 16 + h) then
              stringFrom .plain strayed (joinHalves high (value * 16 + h) :: done) rest
            else .error .unreadable rest
  | .half high, strayed, done, piece :: rest =>
    if piece = .char '\\' then stringFrom (.halfEscape high) strayed done rest
    else .error .unreadable (dropByte piece rest)
  | .halfEscape high, strayed, done, piece :: rest =>
    if piece = .char 'u' then stringFrom (.numeric (some high) 0 0) strayed done rest
    else .error .unreadable (dropByte piece rest)

/-- A string. -/
def string : Reader ε String := do
  expect '"'
  stringFrom .plain false []

/-- How far the skipping of a string has come: `numeric` counts the digits still to come. -/
inductive SkipState where
  | plain
  | escape
  | numeric (missing : Nat)
deriving DecidableEq

/-- Passes over the rest of a string.  Stray bytes and halves of pairs are let pass. -/
def skipStringFrom : SkipState → Reader ε Unit
  | _, [] => .error .unreadable []
  | .plain, piece :: rest =>
    match piece with
    | .stray _ => skipStringFrom .plain rest
    | .char c =>
      if c = '"' then .ok () rest
      else if c = '\\' then skipStringFrom .escape rest
      else if c.toNat < 0x20 then .error .unreadable rest
      else skipStringFrom .plain rest
  | .escape, piece :: rest =>
    match piece with
    | .stray _ => .error .unreadable rest
    | .char c =>
      if (escaped? c).isSome then skipStringFrom .plain rest
      else if c = 'u' then skipStringFrom (.numeric 3) rest
      else .error .unreadable rest
  | .numeric missing, piece :: rest =>
    match piece with
    | .stray _ => .error .unreadable rest
    | .char c =>
      if (hexValue? c).isNone then .error .unreadable rest
      else
        match missing with
        | 0 => skipStringFrom .plain rest
        | missing + 1 => skipStringFrom (.numeric missing) rest

def skipString : Reader ε Unit := do
  expect '"'
  skipStringFrom .plain

/-! ## Numbers -/

def digit? (c : Char) : Option Digit :=
  if h : '0'.toNat ≤ c.toNat ∧ c.toNat < '0'.toNat + 10 then
    some ⟨c.toNat - '0'.toNat, Nat.sub_lt_left_of_lt_add h.1 h.2⟩
  else none

/-- The digits at the front of a source, and what comes after them. -/
def spanDigits : Source → List Digit × Source
  | [] => ([], [])
  | piece :: rest =>
    match piece with
    | .stray _ => ([], piece :: rest)
    | .char c =>
      match digit? c with
      | none => ([], piece :: rest)
      | some d => let (digits, rest) := spanDigits rest; (d :: digits, rest)

/-- At least one digit. -/
def digits : Reader ε (List Digit) := fun source =>
  match spanDigits source with
  | ([], rest) => .error .unreadable rest
  | (digits, rest) => .ok digits rest

/-- The digits of a whole number: a zero stands alone. -/
def wholeDigits : Reader ε (List Digit) := do
  match ← digits with
  | d :: e :: rest => if d = 0 then unreadable else return d :: e :: rest
  | single => return single

/-- A number literal. -/
def literal : Reader ε Literal := do
  let minus ← accept (· = '-')
  let whole ← wholeDigits
  let fraction ← if (← accept (· = '.')).isSome then digits else pure []
  let exponent ←
    if (← accept fun c => c = 'e' || c = 'E').isSome then do
      let sign ← accept fun c => c = '+' || c = '-'
      let power ← digits
      pure (some (decide (sign = some '-'), power))
    else pure none
  return { negative := minus.isSome, whole, fraction, exponent }

def digitPiece (d : Digit) : Piece := .char (Nat.digitChar d.val)

/-- A number.  A literal that is too large is given up at the point where that shows. -/
def number : Reader ε Number := do
  let l ← literal
  match l.number? with
  | some n => return n
  | none => fun source => .error .unreadable (l.unread.map digitPiece ++ source)

/-- A number of 64 bits without sign, written without fraction and exponent. -/
def word : Reader ε UInt64 := do
  let _ ← look
  require (← number).word?

/-! ## Arrays and objects -/

/-- Passes over a closing bracket.  A comma found in its place is taken along in an array. -/
def close (bracket : Char) : Reader ε Unit := do
  match ← look with
  | some c =>
    if c = bracket then advance
    else if c = ',' ∧ bracket = ']' then do
      advance
      let _ ← look
      unreadable
    else unreadable
  | none => unreadable

/-- The content of an array or object and its closing bracket, which is looked for also after the
content has failed. -/
def closedBy (bracket : Char) (content : Reader ε α) : Reader ε α := fun source =>
  match content source with
  | .ok a rest =>
    match close bracket rest with
    | .ok () rest => .ok a rest
    | .error e rest => .error e rest
  | .error e rest =>
    match close (ε := ε) bracket rest with
    | .ok () rest => .error e rest
    | .error _ rest => .error e rest

/-- Whether another item follows, which after the first one takes a comma. -/
def more (bracket : Char) (first : Bool) : Reader ε Bool := do
  match ← look with
  | none => unreadable
  | some c =>
    if c = bracket then return false
    else if first then return true
    else if c = ',' then do
      advance
      if (← look) = some bracket then unreadable else return true
    else unreadable

/-- Items up to a closing bracket, in at most `turns` turns. -/
def items (item : Reader ε α) : (turns : Nat) → (first : Bool) → Reader ε (List α)
  | 0, _ => unreadable
  | turns + 1, first => do
    if ← more ']' first then do
      let head ← item
      let rest ← items item turns false
      return head :: rest
    else return []

/-- An array of items. -/
def array (item : Reader ε α) : Reader ε (List α) := do
  expect '['
  let source ← get
  closedBy ']' (items item source.length true)

/-- Members up to a closing bracket, in at most `turns` turns.  Each is folded into what the
members before it have built. -/
def members {κ : Type} (key : Reader ε κ) (member : κ → σ → Reader ε σ) :
    (turns : Nat) → (first : Bool) → σ → Reader ε σ
  | 0, _, _ => unreadable
  | turns + 1, first, built => do
    if ← more '\x7d' first then do
      let name ← key
      expect ':'
      let built ← member name built
      members key member turns false built
    else return built

/-- An object, its members folded into an initial value from left to right. -/
def object {κ : Type} (key : Reader ε κ) (member : κ → σ → Reader ε σ) (initial : σ) :
    Reader ε σ := do
  expect '\x7b'
  let source ← get
  closedBy '\x7d' (members key member source.length true initial)

/-! ## Values -/

/-- A value that is neither array nor object; those two are left to the readers given. -/
def scalarOr (onArray onObject : Reader ε Json) : Reader ε Json := do
  match ← look with
  | none => unreadable
  | some c =>
    if c = '"' then .string <$> string
    else if c = '[' then onArray
    else if c = '\x7b' then onObject
    else if c = 'n' then do keyword ['n', 'u', 'l', 'l']; return .null
    else if c = 't' then do keyword ['t', 'r', 'u', 'e']; return .bool true
    else if c = 'f' then do keyword ['f', 'a', 'l', 's', 'e']; return .bool false
    else .number <$> number

/-- A value in which at most `nesting` brackets are open at a time, each member of an object being
put with those before it. -/
def valueBy (put : String → Json → List (String × Json) → List (String × Json)) :
    (nesting : Nat) → Reader ε Json
  | 0 => scalarOr unreadable unreadable
  | nesting + 1 =>
    scalarOr (.array <$> array (valueBy put nesting))
      (.object <$> object string
        (fun key built => do return put key (← valueBy put nesting) built) [])

/-- A value whose objects keep their members in the order of the keys, and of several members with
one key the last. -/
def value (nesting : Nat) : Reader ε Json := valueBy insertMember nesting

/-- A value whose objects keep all their members as they stand. -/
def verbatim (nesting : Nat) : Reader ε Json :=
  valueBy (fun key value built => built ++ [(key, value)]) nesting

/-- Passes over a value in which at most `nesting` brackets are open at a time. -/
def skipWithin : (nesting : Nat) → Reader ε Unit
  | 0 => unreadable
  | nesting + 1 => do
    match ← look with
    | none => unreadable
    | some c =>
      if c = '"' then skipString
      else if c = '[' then do let _ ← array (skipWithin nesting)
      else if c = '\x7b' then object skipString (fun () () => skipWithin nesting) ()
      else if c = 'n' then keyword ['n', 'u', 'l', 'l']
      else if c = 't' then keyword ['t', 'r', 'u', 'e']
      else if c = 'f' then keyword ['f', 'a', 'l', 's', 'e']
      else do let _ ← literal

/-- Passes over a value of any depth. -/
def skip : Reader ε Unit := do skipWithin ((← get).length + 1)

/-- `null`, or what another reader reads. -/
def optional (item : Reader ε α) : Reader ε (Option α) := do
  if (← look) = some 'n' then do keyword ['n', 'u', 'l', 'l']; return none
  else some <$> item

/-! ## Whole texts -/

/-- The number of brackets that may be open in a text. -/
def greatestNesting : Nat := 127

/-- Reads a whole source: after what is read only blanks may follow. -/
def readAll (reader : Reader ε α) (source : Source) : Except (Failure ε) α :=
  match reader source with
  | .ok a rest => if dropSpaces rest = [] then .ok a else .error .unreadable
  | .error e _ => .error e

end Reader

/-- The value that a text is. -/
def parse? (text : String) : Option Json :=
  match (Reader.value Reader.greatestNesting).readAll (ε := Empty) (Text.pieces text) with
  | .ok value => some value
  | .error _ => none

end ClusterAccess.Json
