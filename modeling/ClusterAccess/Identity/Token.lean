import ClusterAccess.Identity.Error
import ClusterAccess.Identity.Verdict
import ClusterAccess.Identity.WebKey
import ClusterAccess.Text.Base64Url
/-!
# Signed tokens

A token is three texts joined by dots: a header that names an algorithm, a payload, and the code
that authenticates the two under a secret.  Header and payload are JSON in base64url.

The payload is read twice.  The first reading takes the claims about the bearer.  The second one
takes the claims about the token itself, of which only the end of its validity is looked at.  It
is forgiving: a registered claim of an unexpected kind counts as absent, and reading goes on where
the attempt at it ended.
-/

namespace ClusterAccess

open Json (Field Number Reader Wire)

namespace Token

/-! ## The three parts -/

/-- A token's text in parts: what is signed is `header`, a dot, and `payload`. -/
structure Parts where
  header : List Char
  payload : List Char
  signature : List Char
deriving DecidableEq

/-- The text before the last dot and the text after it. -/
def splitLast : List Char → Option (List Char × List Char)
  | [] => none
  | c :: rest =>
    match splitLast rest with
    | some (before, after) => some (c :: before, after)
    | none => if c = '.' then some ([], rest) else none

/-- The signature comes after the last dot and the payload after the last but one; the header is
everything before that, dots included. -/
def Parts.ofText? (text : List Char) : Option Parts := do
  let (signed, signature) ← splitLast text
  let (header, payload) ← splitLast signed
  return { header, payload, signature }

/-- The text that is signed. -/
def Parts.signed (p : Parts) : List Char := p.header ++ '.' :: p.payload

def Parts.text (p : Parts) : List Char := p.signed ++ '.' :: p.signature

/-- The signature of a text. -/
def signature (algorithm : Algorithm) (secret : String) (signed : List Char) : List Char :=
  Text.Base64Url.encode
    (algorithm.sign (Text.Utf8.encode secret.toList) (Text.Utf8.encode signed))

/-- A text as a part of a token. -/
def encodePart (text : List Char) : List Char := Text.Base64Url.encode (Text.Utf8.encode text)

/-- The source of the text that a part encodes. -/
def decodePart? (part : List Char) : Option Json.Source :=
  (Text.Base64Url.decode? part).map Text.Utf8.pieces

/-! ## Headers -/

/-- What a header says; only the algorithm matters, but the other members must be of their kinds. -/
structure Header where
  algorithm : Algorithm
deriving DecidableEq

namespace Header

/-- The members that have been read. -/
structure Draft where
  algorithm : Option Algorithm := none
  /-- The names of the other members that have been read. -/
  others : List String := []

/-- A member that has to be of some kind, but is not used. -/
def Draft.other {ε α : Type} (name : String) (item : Reader ε (Option α)) : Field ε Draft :=
  ⟨name, (·.others.contains name),
    fun d => do
      let _ ← item
      return { d with others := name :: d.others }⟩

def Draft.fields {ε : Type} (nesting : Nat) : List (Field ε Draft) :=
  let text := Wire.read (α := Option String) nesting
  [other "typ" text,
    ⟨"alg", (·.algorithm.isSome),
      fun d => do return { d with algorithm := some (← Wire.read nesting) }⟩,
    other "cty" text, other "jku" text,
    other "jwk" (Reader.optional (WebKey.read nesting)),
    other "kid" text, other "x5u" text,
    other "x5c" (Wire.read (α := Option (List String)) nesting),
    other "x5t" text, other "x5t#S256" text]

/-- Whether all the members have been read. -/
def Draft.isComplete (d : Draft) : Bool := d.algorithm.isSome && d.others.length = 9

/-- A header.  In an object only the algorithm has to be there; in an array no member may be left
out. -/
def read {ε : Type} (nesting : Nat) : Reader ε Header := do
  let listed := decide ((← Reader.look) = some '[')
  let d ← Reader.record Draft.fields {} nesting
  if listed && !d.isComplete then Reader.unreadable
  else return { algorithm := ← Reader.require d.algorithm }

def ofSource? (source : Json.Source) : Option Header :=
  match (read Reader.greatestNesting : Reader Empty Header).readAll source with
  | .ok header => some header
  | .error _ => none

def write (header : Header) : Json :=
  .object [("typ", .string "JWT"), ("alg", Wire.write header.algorithm)]

end Header

/-! ## Registered claims -/

/-- What a payload says about the token itself. -/
structure Registered where
  /-- The last second in which the token is valid. -/
  expires : Option UInt64 := none
deriving DecidableEq

namespace Registered

/-- Tries to read; a failure counts as nothing, and reading goes on where the attempt ended. -/
def attempt {ε α : Type} (reader : Reader ε α) : Reader ε (Option α) := fun source =>
  match reader source with
  | .ok a rest => .ok (some a) rest
  | .error _ rest => .ok none rest

/-- The second that a number stands for, a half going up. -/
def secondsOf? : Json → Option UInt64
  | .number (.natural n) => some n
  | .number (.double x) => if x.isWord then some (.ofNat (min x.roundHalfUp (2 ^ 64 - 1))) else none
  | _ => none

/-- A point in time, which is a number.  Arrays and objects are given up at their first item. -/
def seconds {ε : Type} : Reader ε (Option UInt64) := do
  let found ← attempt (Reader.scalarOr
    (do Reader.expect '['; Reader.closedBy ']' Reader.unreadable)
    (do Reader.expect '\x7b'; Reader.closedBy '\x7d' Reader.unreadable) : Reader ε Json)
  return found.bind secondsOf?

/-- The claims that have been read. -/
structure Draft extends Registered where
  names : List String := []

/-- A claim that is read and not used. -/
def Draft.other {ε : Type} (name : String) (claim : Reader ε Unit) : Field ε Draft :=
  ⟨name, (·.names.contains name),
    fun d => do
      claim
      return { d with names := name :: d.names }⟩

def Draft.fields {ε : Type} (nesting : Nat) : List (Field ε Draft) := [
  ⟨"exp", (·.names.contains "exp"),
    fun d => do return { d with expires := ← seconds, names := "exp" :: d.names }⟩,
  other "nbf" (do let _ ← seconds (ε := ε)),
  other "sub" (do
    let _ ← attempt (Reader.scalarOr Reader.unreadable Reader.unreadable : Reader ε _)),
  other "iss" (do let _ ← attempt (Reader.value nesting : Reader ε _)),
  other "aud" (do let _ ← attempt (Reader.value nesting : Reader ε _))]

/-- The registered claims of a payload, which is an object. -/
def read {ε : Type} (nesting : Nat) : Reader ε Registered := do
  if (← Reader.look) = some '\x7b' then
    return (← Reader.record Draft.fields {} nesting).toRegistered
  else Reader.unreadable

def ofSource? (source : Json.Source) : Option Registered :=
  match (read Reader.greatestNesting : Reader Empty Registered).readAll source with
  | .ok registered => some registered
  | .error _ => none

/-- Whether the token's time is over.  The leeway is taken from the present time only where there is
an end to compare it with; one that reaches back beyond the beginning of the clock overflows. -/
def isExpired {ε : Type} (registered : Registered) (now leeway : UInt64) : Verdict ε Bool :=
  match registered.expires with
  | some expires => (Verdict.difference now leeway).map fun earliest => decide (expires < earliest)
  | none => .ok false

end Registered

/-! ## Payloads -/

/-- A payload, read for the claims about the bearer and for those about the token. -/
def readPayload (source : Json.Source) : Except TokenError (Claims × Registered) :=
  match Claims.readAll source with
  | .error (.rejected error) => .error (.subject error)
  | .error .unreadable => .error .unreadable
  | .ok claims =>
    match Registered.ofSource? source with
    | none => .error .unreadable
    | some registered => .ok (claims, registered)

/-- The payload of a token: the claims, when it was issued, and when it ends. -/
def payload (claims : Claims) (issued expires : UInt64) : Json :=
  .object (claims.members ++ [("iat", .ofWord issued), ("exp", .ofWord expires)])

end Token

end ClusterAccess
