import ClusterAccess.Json.Number
/-!
# JSON values and their text

A value is written without blanks, the members of an object in the order in which they are given.
Strings escape quotation marks, backslashes and the controls below the space; every other
character stands for itself.
-/

namespace ClusterAccess

inductive Json where
  | null
  | bool (b : Bool)
  | number (n : Json.Number)
  | string (text : String)
  | array (items : List Json)
  | object (members : List (String × Json))

namespace Json

/-- A word as a value. -/
def ofWord (n : UInt64) : Json := .number (.natural n)

/-- The value of an absent or present part. -/
def ofOption {α : Type} (f : α → Json) : Option α → Json
  | none => .null
  | some a => f a

/-! ## Text -/

/-- A digit in base sixteen, lower case. -/
def hexDigit (n : Nat) : Char := Nat.digitChar n

/-- A character as it stands in a string. -/
def writeChar (c : Char) : List Char :=
  if c = '"' then ['\\', '"']
  else if c = '\\' then ['\\', '\\']
  else if c = '\n' then ['\\', 'n']
  else if c = '\r' then ['\\', 'r']
  else if c = '\t' then ['\\', 't']
  else if c.toNat = 0x08 then ['\\', 'b']
  else if c.toNat = 0x0C then ['\\', 'f']
  else if c.toNat < 0x20 then
    ['\\', 'u', '0', '0', hexDigit (c.toNat / 16), hexDigit (c.toNat % 16)]
  else [c]

def writeString (text : String) : List Char :=
  '"' :: (text.toList.flatMap writeChar ++ ['"'])

mutual

/-- The text of a value. -/
def write : Json → List Char
  | .null => ['n', 'u', 'l', 'l']
  | .bool true => ['t', 'r', 'u', 'e']
  | .bool false => ['f', 'a', 'l', 's', 'e']
  | .number n => n.write
  | .string text => writeString text
  | .array items => '[' :: (writeItems false items ++ [']'])
  | .object members => '\x7b' :: (writeMembers false members ++ ['\x7d'])

/-- The items of an array, each after a comma if some other stands before it. -/
def writeItems (after : Bool) : List Json → List Char
  | [] => []
  | item :: rest => (if after then [','] else []) ++ (write item ++ writeItems true rest)

/-- The members of an object, each after a comma if some other stands before it. -/
def writeMembers (after : Bool) : List (String × Json) → List Char
  | [] => []
  | (key, value) :: rest =>
    (if after then [','] else []) ++
      (writeString key ++ ':' :: (write value ++ writeMembers true rest))

end

def render (value : Json) : String := String.ofList value.write

/-! ## Members -/

/-- Puts a member at the place of its key, in place of a member with the same key. -/
def insertMember (key : String) (value : Json) : List (String × Json) → List (String × Json)
  | [] => [(key, value)]
  | (head, old) :: rest =>
    if key < head then (key, value) :: (head, old) :: rest
    else if key = head then (key, value) :: rest
    else (head, old) :: insertMember key value rest

/-- The member of an object under a key. -/
def member? (key : String) : Json → Option Json
  | .object members => (members.find? fun m => decide (m.1 = key)).map (·.2)
  | _ => none

end Json

end ClusterAccess
