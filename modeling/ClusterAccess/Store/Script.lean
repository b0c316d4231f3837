import ClusterAccess.Store.Dialogue
/-!
# Scripts

A transaction that is written down: the actions of a list, one after the other.  An action that
fails breaks the transaction off, unless it is to keep going; and it can be broken off on purpose at
its end.
-/

namespace ClusterAccess

structure Script where
  actions : List Action
  /-- Whether the transaction is broken off after its last action. -/
  abort : Bool := false
  /-- Whether actions that fail are passed over. -/
  keepGoing : Bool := false

/-- Why a script did not take effect. -/
inductive ScriptError where
  /-- The transaction could not be started or committed. -/
  | store (error : StoreError)
  /-- An action failed. -/
  | stopped
  /-- The script was broken off at its end. -/
  | aborted
deriving DecidableEq

/-- The error as one of the store. -/
def ScriptError.toStoreError : ScriptError → StoreError
  | .store error => error
  | .stopped => .internal "stopped"
  | .aborted => .internal "abort"

namespace Script

/-- The actions of a script. -/
def perform (keepGoing : Bool) : List Action → ExceptT ScriptError Transaction Unit
  | [] => return ()
  | a :: rest => do
    match ← ExceptT.lift (Dialogue.request a) with
    | .ok _ => perform keepGoing rest
    | .error _ => if keepGoing then perform keepGoing rest else throw .stopped

/-- A script as a transaction. -/
def body (script : Script) : ExceptT ScriptError Transaction Unit := do
  perform script.keepGoing script.actions
  if script.abort then throw .aborted

def conversation (script : Script) : ExceptT ScriptError Conversation Unit :=
  Conversation.transaction .store script.body

end Script

end ClusterAccess
