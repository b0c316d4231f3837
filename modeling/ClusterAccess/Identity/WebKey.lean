import ClusterAccess.Identity.Algorithm
/-!
# Keys in headers

The header of a token may carry a key.  The key is never used, but it has to be well-formed: it is
an object of one of four types, with the members of that type, and what it says besides about the
key's use must be of the right kinds.  None of these members may be repeated; others are ignored.
-/

namespace ClusterAccess.WebKey

open Json (Reader)

/-! ## Forms of values -/

def isText : Json → Bool
  | .string _ => true
  | _ => false

def isTexts : Json → Bool
  | .array items => items.all isText
  | _ => false

def isNull : Json → Bool
  | .null => true
  | _ => false

/-- Null, or an object without members. -/
def isVoid : Json → Bool
  | .null | .object [] => true
  | _ => false

/-- A tag: a name, or an object whose only member has the name and carries nothing. -/
def isTag (isName : String → Bool) (isNothing : Json → Bool) : Json → Bool
  | .string name => isName name
  | .object [(name, value)] => isName name && isNothing value
  | _ => false

/-! ## Members -/

/-- A member by its name and the form that its value has to have. -/
abbrev Member := String × (Json → Bool)

/-- The values that an object gives to a member. -/
def valuesOf (name : String) (members : List (String × Json)) : List Json :=
  (members.filter fun m => decide (m.1 = name)).map (·.2)

/-- Whether a member is there, once. -/
def isGiven (members : List (String × Json)) (member : Member) : Bool :=
  match valuesOf member.1 members with
  | [value] => member.2 value
  | _ => false

/-- Whether a member is left out, or there once and perhaps null. -/
def isAllowed (members : List (String × Json)) (member : Member) : Bool :=
  match valuesOf member.1 members with
  | [] => true
  | [value] => isNull value || member.2 value
  | _ => false

/-! ## Types of keys -/

/-- The names of the algorithms that a key can be for: those that sign, and those that encrypt. -/
def algorithmNames : List String :=
  Algorithm.all.map Algorithm.name ++ ["RSA1_5", "RSA-OAEP", "RSA-OAEP-256"]

/-- The members that a key of any type may have. -/
def commonMembers : List Member := [
  ("use", isText), ("key_ops", isTexts), ("alg", isTag algorithmNames.contains isVoid),
  ("kid", isText), ("x5u", isText), ("x5c", isTexts), ("x5t", isText), ("x5t#S256", isText)]

/-- The member that names a key's type. -/
def typeMember (type : String) : Member := ("kty", isTag (fun name => decide (name = type)) isNull)

/-- The member that names a curve. -/
def curveMember : Member :=
  ("crv", isTag (fun name => ["P-256", "P-384", "P-521", "Ed25519"].contains name) isNull)

/-- The members of the four types: keys on an elliptic curve, RSA keys, plain secrets, and pairs of
octet strings. -/
def types : List (List Member) := [
  [typeMember "EC", curveMember, ("x", isText), ("y", isText)],
  [typeMember "RSA", ("n", isText), ("e", isText)],
  [typeMember "oct", ("k", isText)],
  [typeMember "OKP", curveMember, ("x", isText)]]

/-- Whether the members of an object are those of a key. -/
def isKey (members : List (String × Json)) : Bool :=
  commonMembers.all (isAllowed members) && types.any (·.all (isGiven members))

/-- Passes over a key. -/
def read {ε : Type} (nesting : Nat) : Reader ε Unit := do
  match ← Reader.verbatim nesting with
  | .object members => if isKey members then return () else Reader.unreadable
  | _ => Reader.unreadable

end ClusterAccess.WebKey
