/-!
# Verdicts

What becomes of a credential that is looked at: a value, an error that its bearer is told, or no
answer at all.  The last is what comes of it when the arithmetic of words fails on the way.  Nobody
is told of that, and nothing that waits for the verdict goes on.
-/

namespace ClusterAccess

inductive Verdict (ε α : Type) where
  | ok (value : α)
  | error (e : ε)
  /-- A word that was to be computed does not exist. -/
  | overflow
deriving DecidableEq

namespace Verdict

variable {ε ε' α β : Type}

def ofExcept : Except ε α → Verdict ε α
  | .ok a => .ok a
  | .error e => .error e

def bind : Verdict ε α → (α → Verdict ε β) → Verdict ε β
  | .ok a, next => next a
  | .error e, _ => .error e
  | .overflow, _ => .overflow

instance : Monad (Verdict ε) where
  pure := .ok
  bind := bind

instance : MonadLift (Except ε) (Verdict ε) where
  monadLift := ofExcept

def map (f : α → β) : Verdict ε α → Verdict ε β
  | .ok a => .ok (f a)
  | .error e => .error e
  | .overflow => .overflow

def mapError (f : ε → ε') : Verdict ε α → Verdict ε' α
  | .ok a => .ok a
  | .error e => .error (f e)
  | .overflow => .overflow

/-- The difference of two words.  It is never taken around the end of the words: where the second
is greater, there is none. -/
def difference (a b : UInt64) : Verdict ε UInt64 := if b ≤ a then .ok (a - b) else .overflow

end Verdict

end ClusterAccess
