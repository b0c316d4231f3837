import ClusterAccess.Identity.Claims
import ClusterAccess.Identity.Algorithm
/-!
# Errors of identity

Why a credential is refused, and why no authenticator can be made of a configuration.
-/

namespace ClusterAccess

/-- Why a token is refused. -/
inductive TokenError where
  /-- The token does not have three parts. -/
  | invalidToken
  | base64
  /-- The header or the payload cannot be read. -/
  | unreadable
  /-- The payload can be read, but its subject is none. -/
  | subject (error : SubjectError)
  | invalidAlgorithm
  | invalidSignature
  | expired

def TokenError.message : TokenError → String
  | .invalidToken => "InvalidToken"
  | .base64 => "Base64 error"
  | .unreadable => "JSON error"
  | .subject error => "JSON error: " ++ error.message
  | .invalidAlgorithm => "InvalidAlgorithm"
  | .invalidSignature => "InvalidSignature"
  | .expired => "ExpiredSignature"

/-- What is wrong with a configuration. -/
inductive ConfigError where
  | emptySecret
  | noAlgorithms
  | notSharedSecret (algorithm : Algorithm)
  | other (detail : String)
deriving DecidableEq

def ConfigError.message : ConfigError → String
  | .emptySecret => "secret must not be empty"
  | .noAlgorithms => "no algorithms configured"
  | .notSharedSecret algorithm => algorithm.name ++ " is not a shared-secret algorithm"
  | .other detail => detail

inductive IdentityError where
  | missingCredential
  | malformedCredential
  | invalidCredential (error : TokenError)
  | invalidConfig (error : ConfigError)
  | issue (detail : String)

def IdentityError.message : IdentityError → String
  | .missingCredential => "Missing credential"
  | .malformedCredential => "Malformed credential: expected `Bearer <token>`"
  | .invalidCredential error => "Invalid credential: " ++ error.message
  | .invalidConfig error => "Invalid identity configuration: " ++ error.message
  | .issue detail => "Failed to issue credential: " ++ detail

end ClusterAccess
