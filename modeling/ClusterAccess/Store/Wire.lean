import ClusterAccess.Directory.Wire
import ClusterAccess.Store.Call
/-!
# Answers on the wire

The answers to calls in the form in which their parts are written, so that what a store answers can
be reported, and given in advance.
-/

namespace ClusterAccess

open Json (Reader Wire)

/-- Nothing is written as `null`. -/
instance : Wire Unit where
  read _ := do
    let _ ← Reader.look
    Reader.keyword ['n', 'u', 'l', 'l']
  write _ := .null

instance (hook : Hook) : Wire hook.Answer := by
  cases hook <;> infer_instance

end ClusterAccess
