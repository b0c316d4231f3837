import ClusterAccess.Hash.Hmac
import ClusterAccess.Json.Record
/-!
# Signature algorithms

The algorithms that a token's header can name.  Only those that sign with a shared secret are ever
used; the others are known so that naming one can be told from naming nothing.
-/

namespace ClusterAccess

open Json (Reader Wire)

inductive Algorithm where
  | hs256
  | hs384
  | hs512
  | es256
  | es384
  | rs256
  | rs384
  | rs512
  | ps256
  | ps384
  | ps512
  | edDsa
deriving DecidableEq

namespace Algorithm

def name : Algorithm → String
  | .hs256 => "HS256"
  | .hs384 => "HS384"
  | .hs512 => "HS512"
  | .es256 => "ES256"
  | .es384 => "ES384"
  | .rs256 => "RS256"
  | .rs384 => "RS384"
  | .rs512 => "RS512"
  | .ps256 => "PS256"
  | .ps384 => "PS384"
  | .ps512 => "PS512"
  | .edDsa => "EdDSA"

def all : List Algorithm :=
  [.hs256, .hs384, .hs512, .es256, .es384, .rs256, .rs384, .rs512, .ps256, .ps384, .ps512, .edDsa]

/-- Names are compared exactly. -/
def ofName? (name : String) : Option Algorithm := all.find? fun a => decide (a.name = name)

theorem ofName?_name (a : Algorithm) : ofName? a.name = some a := by cases a <;> decide

/-- The hash function with which an algorithm signs under a shared secret, if it does so. -/
def hashFunction? : Algorithm → Option Hash.HashFunction
  | .hs256 => some Hash.sha256
  | .hs384 => some Hash.sha384
  | .hs512 => some Hash.sha512
  | _ => none

def isSharedSecret (a : Algorithm) : Bool := a.hashFunction?.isSome

/-- The code that authenticates a message under a secret; nothing for algorithms without one. -/
def sign (a : Algorithm) (secret message : List UInt8) : List UInt8 :=
  match a.hashFunction? with
  | some f => f.hmac secret message
  | none => []

end Algorithm

instance : Wire Algorithm where
  read := Reader.tag Algorithm.ofName?
  write a := .string a.name

end ClusterAccess
