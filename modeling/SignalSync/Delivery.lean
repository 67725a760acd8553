import SignalSync.Ids

/-!
# What a handler and a request come to
-/

namespace SignalSync

inductive DeliveryResult
  | success
  | retry (errorCode : String)
  | dead_letter (errorCode : String)
deriving DecidableEq, Repr

/-- An `HTTPException`. -/
structure HttpError where
  status : Nat
  detail : String
deriving DecidableEq

end SignalSync
