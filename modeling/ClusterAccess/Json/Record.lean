import ClusterAccess.Json.Reader
/-!
# Records and tags in JSON

A record is read from an object or from an array.  In an object its members stand in any order,
each at most once; members that the record does not know are skipped, however often they occur.
In an array the values stand in the order of the record's fields; fields at the end may be left
out, if the record has a value for them anyway, and nothing may follow the last one.

A tag is a name from a closed list: a string, or an object whose only member has that name and
the value `null`.
-/

namespace ClusterAccess.Json

/-- A field of a record that is being read into `σ`. -/
structure Field (ε σ : Type) where
  name : String
  /-- Whether the field has been read. -/
  isRead : σ → Bool
  read : σ → Reader ε σ

namespace Reader

variable {ε α σ : Type}

/-- The values of a record in the order of its fields. -/
def positional : List (Field ε σ) → (first : Bool) → σ → Reader ε σ
  | [], _, built => pure built
  | field :: rest, first, built => do
    if ← more ']' first then positional rest false (← field.read built) else return built

/-- One member of a record. -/
def namedField (fields : List (Field ε σ)) (name : String) (built : σ) : Reader ε σ :=
  match fields.find? fun field => decide (field.name = name) with
  | none => do skip; return built
  | some field => if field.isRead built then unreadable else field.read built

/-- A record.  Its fields are told how many brackets may be open inside it. -/
def record (fields : (nesting : Nat) → List (Field ε σ)) (initial : σ) :
    (nesting : Nat) → Reader ε σ
  | 0 => unreadable
  | nesting + 1 => do
    match ← look with
    | some '[' =>
      advance
      closedBy ']' (positional (fields nesting) true initial)
    | some '\x7b' => object string (namedField (fields nesting)) initial
    | _ => unreadable

/-- A name from a closed list, as a string. -/
def name (ofName? : String → Option α) : Reader ε α := do
  let _ ← look
  require (ofName? (← string))

/-- A tag. -/
def tag (ofName? : String → Option α) (nesting : Nat) : Reader ε α := do
  match ← look, nesting with
  | some '"', _ => require (ofName? (← string))
  | some '\x7b', _ + 1 =>
    advance
    let a ← require (ofName? (← string))
    expect ':'
    let _ ← look
    keyword ['n', 'u', 'l', 'l']
    expect '\x7d'
    return a
  | _, _ => unreadable

end Reader

/-- Values with a form on the wire: how they are read when at most `nesting` brackets may be open,
and the JSON value that is written for them. -/
class Wire (α : Type) where
  read {ε : Type} (nesting : Nat) : Reader ε α
  write : α → Json

namespace Wire

variable {α : Type} [Wire α]

/-- Reads a whole text. -/
def parse? (text : String) : Option α :=
  match (read Reader.greatestNesting : Reader Empty α).readAll (Text.pieces text) with
  | .ok a => some a
  | .error _ => none

/-- The text of a value. -/
def render (a : α) : String := (write a).render

/-- Reads what a JSON value says. -/
def ofJson? (json : Json) : Option α := parse? json.render

end Wire

/-! ## Common forms -/

instance : Wire UInt64 where
  read _ := Reader.word
  write := .ofWord

instance : Wire Bool where
  read _ := do
    match ← Reader.look with
    | some 't' => do Reader.keyword ['t', 'r', 'u', 'e']; return true
    | some 'f' => do Reader.keyword ['f', 'a', 'l', 's', 'e']; return false
    | _ => Reader.unreadable
  write := .bool

instance : Wire String where
  read _ := Reader.string
  write := .string

instance {α : Type} [Wire α] : Wire (List α) where
  read
    | 0 => Reader.unreadable
    | nesting + 1 => Reader.array (Wire.read nesting)
  write items := .array (items.map Wire.write)

instance {α : Type} [Wire α] : Wire (Option α) where
  read nesting := Reader.optional (Wire.read nesting)
  write := .ofOption Wire.write

end ClusterAccess.Json
