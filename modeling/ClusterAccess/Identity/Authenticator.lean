import ClusterAccess.Access.Resolution
import ClusterAccess.Identity.Config
import ClusterAccess.Identity.Token
/-!
# Authentication

An authenticator finds the token in a request, verifies it, and says whose it is; and it issues
tokens.  It is made of a configuration that has a secret and whose algorithms, of which there is at
least one, all sign with it.  The time at which it does something is given to it.
-/

namespace ClusterAccess

/-- The parts of a request in which a token may be. -/
structure Request where
  /-- The text of the header `Authorization`. -/
  authorization : Option String := none
  /-- The pairs of the query, in order. -/
  query : List (String × String) := []
deriving DecidableEq

/-- A length of time. -/
structure Span where
  seconds : UInt64
  nanoseconds : UInt64 := 0
deriving DecidableEq

/-- A configuration with which tokens can be verified and issued. -/
structure Authenticator extends Config where
  secret_ne_empty : secret ≠ ""
  algorithms_ne_nil : algorithms ≠ []
  sharedSecret : ∀ a ∈ algorithms, a.isSharedSecret = true

namespace Authenticator

/-! ## Making one -/

/-- The first thing that is wrong with a configuration decides how it is refused. -/
def ofConfig (config : Config) : Except ConfigError Authenticator :=
  if secret : config.secret = "" then .error .emptySecret
  else if algorithms : config.algorithms = [] then .error .noAlgorithms
  else
    match found : config.algorithms.find? fun a => !a.isSharedSecret with
    | some algorithm => .error (.notSharedSecret algorithm)
    | none => .ok {
        config with
        secret_ne_empty := secret
        algorithms_ne_nil := algorithms
        sharedSecret := fun a h => by simpa using List.find?_eq_none.mp found a h }

/-- The authenticator's text in diagnostics, which never shows the secret. -/
def describe (auth : Authenticator) : String :=
  "IdentityExtractor \x7b algorithms: [" ++
    String.intercalate ", " (auth.algorithms.map Algorithm.name) ++ "], query_param: " ++
    Text.quoted auth.queryParam ++ ", .. \x7d"

/-- The algorithm that signs the tokens issued. -/
def signingAlgorithm (auth : Authenticator) : Algorithm :=
  auth.algorithms.head auth.algorithms_ne_nil

/-! ## Finding the token -/

/-- The token of a header, which has to begin with the word that says what follows. -/
def bearerToken (header : String) : Except IdentityError String :=
  match "Bearer ".toList.isPrefixOf? header.toList with
  | some token => .ok (String.ofList token)
  | none => .error .malformedCredential

/-- The token of a request.  A header that is not empty wins over the query; of the query's pairs
the first with the right key counts. -/
def token (auth : Authenticator) (request : Request) : Except IdentityError String := do
  let token ←
    match request.authorization.filter fun header => decide (header ≠ "") with
    | some header => bearerToken header
    | none =>
      .ok ((request.query.find? fun pair => decide (pair.1 = auth.queryParam)).elim "" (·.2))
  if token = "" then throw .missingCredential else return token

/-! ## Verification -/

/-- What a token says, if its algorithm is allowed and its signature is that of the secret.  The
time does not matter yet. -/
def readToken (auth : Authenticator) (text : String) :
    Except TokenError (Claims × Token.Registered) := do
  let some parts := Token.Parts.ofText? text.toList | throw .invalidToken
  let some source := Token.decodePart? parts.header | throw .base64
  let some header := Token.Header.ofSource? source | throw .unreadable
  if header.algorithm ∉ auth.algorithms then throw .invalidAlgorithm
  else if parts.signature ≠ Token.signature header.algorithm auth.secret parts.signed then
    throw .invalidSignature
  else
    let some payload := Token.decodePart? parts.payload | throw .base64
    Token.readPayload payload

/-- The claims of a token that is valid at a time. -/
def verifyToken (auth : Authenticator) (now : UInt64) (text : String) :
    Verdict TokenError Claims := do
  let (claims, registered) ← auth.readToken text
  if ← registered.isExpired now auth.leeway then .error .expired else return claims

def verify (auth : Authenticator) (now : UInt64) (text : String) : Verdict IdentityError Claims :=
  (auth.verifyToken now text).mapError .invalidCredential

/-- The principal of a request. -/
def authenticate (auth : Authenticator) (now : UInt64) (request : Request) :
    Verdict IdentityError Principal := do
  return (← auth.verify now (← auth.token request)).principal

/-- What is noted of an attempt to authenticate that has come to an end. -/
def event? : Verdict IdentityError Principal → Option Event
  | .ok principal => some (.principalEstablished principal.user)
  | .error e => some (.credentialRejected e)
  | .overflow => none

/-! ## Issuing -/

/-- The second in which a token ends that is issued now; a second that is begun does not count. -/
def expiry (now : UInt64) (validity : Span) : UInt64 :=
  .ofNat (min (now.toNat + validity.seconds.toNat + validity.nanoseconds.toNat / 10 ^ 9)
    (2 ^ 64 - 1))

/-- The header of the tokens issued. -/
def header (auth : Authenticator) : Token.Header := { algorithm := auth.signingAlgorithm }

/-- A token that says the claims, from now on for a length of time. -/
def issue (auth : Authenticator) (now : UInt64) (claims : Claims) (validity : Span) : String :=
  let header := Token.encodePart auth.header.write.write
  let payload := Token.encodePart (Token.payload claims now (expiry now validity)).write
  let parts : Token.Parts := { header, payload, signature := [] }
  let signature := Token.signature auth.signingAlgorithm auth.secret parts.signed
  String.ofList { parts with signature }.text

/-! ## Requests for access -/

/-- Finds out whose a request is, and lets that principal pass to a cluster. -/
def authorizeRequest (auth : Authenticator) (now : UInt64) (request : Request)
    (cluster : ClusterId) :
    Conversation (Verdict IdentityError (Principal × Except AccessDenied Unit)) := do
  let found := auth.authenticate now request
  if let some event := event? found then Dialogue.log event
  match found with
  | .ok principal => return .ok (principal, ← (Access.authorize principal cluster).run)
  | .error e => return .error e
  | .overflow => return .overflow

end Authenticator

end ClusterAccess
