import ClusterAccess.Identity.Algorithm
import ClusterAccess.Text.Quoted
/-!
# Configuration of identity

The secret under which tokens are signed, the algorithms that are accepted, how long after its end
a token is still taken, and the query parameter that may carry a token.  Only the secret has to be
given.
-/

namespace ClusterAccess

open Json (Field Reader Wire)

structure Config where
  secret : String
  algorithms : List Algorithm := [.hs256]
  /-- Seconds. -/
  leeway : UInt64 := 0
  queryParam : String := "token"
deriving DecidableEq

namespace Config

/-- The configuration's text in diagnostics, which never shows the secret. -/
def describe (config : Config) : String :=
  "IdentityConfig \x7b secret: \"<redacted>\", algorithms: [" ++
    String.intercalate ", " (config.algorithms.map Algorithm.name) ++ "], leeway_secs: " ++
    toString config.leeway ++ ", query_param: " ++ Text.quoted config.queryParam ++ " \x7d"

/-- The parts that have been read. -/
structure Draft where
  secret : Option String := none
  algorithms : Option (List Algorithm) := none
  leeway : Option UInt64 := none
  queryParam : Option String := none

def Draft.fields {ε : Type} (nesting : Nat) : List (Field ε Draft) := [
  ⟨"secret", (·.secret.isSome),
    fun d => do return { d with secret := some (← Wire.read nesting) }⟩,
  ⟨"algorithms", (·.algorithms.isSome),
    fun d => do return { d with algorithms := some (← Wire.read nesting) }⟩,
  ⟨"leeway_secs", (·.leeway.isSome),
    fun d => do return { d with leeway := some (← Wire.read nesting) }⟩,
  ⟨"query_param", (·.queryParam.isSome),
    fun d => do return { d with queryParam := some (← Wire.read nesting) }⟩]

end Config

instance : Wire Config where
  read nesting := do
    let d ← Reader.record Config.Draft.fields {} nesting
    let secret ← Reader.require d.secret
    let plain : Config := { secret }
    return {
      secret
      algorithms := d.algorithms.getD plain.algorithms
      leeway := d.leeway.getD plain.leeway
      queryParam := d.queryParam.getD plain.queryParam }
  write config := .object [
    ("secret", Wire.write config.secret), ("algorithms", Wire.write config.algorithms),
    ("leeway_secs", Wire.write config.leeway), ("query_param", Wire.write config.queryParam)]

end ClusterAccess
