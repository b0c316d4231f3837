import ClusterAccess.Directory.Wire
/-!
# Claims and principals

What a token says about its bearer.  The subject is checked when it is read: a token whose
`user_id` is not a whole number that fits a user id never becomes claims.  A number written with a
fraction or an exponent is taken for what its double is.  The bearer's name and way of signing in
are informative only: a value of the wrong kind counts as absent.
-/

namespace ClusterAccess

open Json (Field Number Reader Wire)

/-- The statements of a token about its bearer. -/
structure Claims where
  user : UserId
  username : Option String := none
  authType : Option AuthType := none
deriving DecidableEq

/-- A bearer whose token has been verified. -/
structure Principal where
  user : UserId
  username : Option String
  authType : Option AuthType
deriving DecidableEq

def Claims.principal (claims : Claims) : Principal :=
  { user := claims.user, username := claims.username, authType := claims.authType }

/-- Why a well-formed value is no subject. -/
inductive SubjectError where
  | notNumeric (value : Json)
  | notNatural (number : Number)

def SubjectError.message : SubjectError → String
  | .notNumeric value => "user_id must be numeric, got " ++ value.render
  | .notNatural number =>
    "user_id must be a non-negative integer, got " ++ String.ofList number.write

namespace Claims

/-- The user that a number names. -/
def subjectOfNumber? : Number → Option UserId
  | .natural n => some ⟨n⟩
  | .negative _ => none
  | .double x => if x.isWord && x.isWhole then some ⟨.ofNat x.floor⟩ else none

/-- The user that a value names. -/
def subjectOf : Json → Except SubjectError UserId
  | .number n =>
    match subjectOfNumber? n with
    | some id => .ok id
    | none => .error (.notNatural n)
  | value => .error (.notNumeric value)

/-- A subject. -/
def subject (nesting : Nat) : Reader SubjectError UserId := do
  match subjectOf (← Reader.value nesting) with
  | .ok id => return id
  | .error reason => Reader.reject reason

/-- The text that a value is; none if it is of another kind. -/
def textOf? : Json → Option String
  | .string text => some text
  | _ => none

/-- The claims that have been read.  An informative claim may have been read and be absent. -/
structure Draft where
  user : Option UserId := none
  username : Option (Option String) := none
  authType : Option (Option AuthType) := none

def Draft.fields (nesting : Nat) : List (Field SubjectError Draft) := [
  ⟨"user_id", (·.user.isSome), fun d => do return { d with user := some (← subject nesting) }⟩,
  ⟨"username", (·.username.isSome),
    fun d => do return { d with username := some (textOf? (← Reader.value nesting)) }⟩,
  ⟨"auth_type", (·.authType.isSome),
    fun d => do
      return { d with authType := some ((textOf? (← Reader.value nesting)).map .ofName) }⟩]

/-- Reads claims from the front of a source. -/
def read (nesting : Nat) : Reader SubjectError Claims := do
  let d ← Reader.record Draft.fields {} nesting
  return {
    user := ← Reader.require d.user
    username := d.username.getD none
    authType := d.authType.getD none }

/-- Reads claims from a whole source. -/
def readAll (source : Json.Source) : Except (Json.Failure SubjectError) Claims :=
  (read Reader.greatestNesting).readAll source

/-- The members of the claims; absent ones are left out. -/
def members (claims : Claims) : List (String × Json) :=
  ("user_id", Wire.write claims.user) ::
    ((claims.username.map fun name => ("username", Wire.write name)).toList ++
      (claims.authType.map fun auth => ("auth_type", Wire.write auth)).toList)

def write (claims : Claims) : Json := .object claims.members

end Claims

/-- Every member of a principal is written; an absent one is `null`. -/
def Principal.write (principal : Principal) : Json := .object [
  ("user_id", Wire.write principal.user), ("username", Wire.write principal.username),
  ("auth_type", Wire.write principal.authType)]

end ClusterAccess
