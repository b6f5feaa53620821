/-!
# Errors

A raw producer reports a `ClientError`; its kind alone decides whether the producer is lost for good.
The pool reports a `PoolError`: the client's error passed through unchanged, or its own reason to
refuse.  `message` is the wording of each.
-/

set_option autoImplicit false

namespace ProducerPool

inductive ClientError where
  | fenced (detail : String)
  | unknownProducerId (detail : String)
  | invalidTransition (detail : String)
  | timeout (detail : String)
  | other (detail : String)
deriving DecidableEq, Repr

namespace ClientError

/-- Whether the producer that reported this error can never be used again. -/
def isFatal : ClientError → Bool
  | .fenced _ | .unknownProducerId _ | .invalidTransition _ => true
  | .timeout _ | .other _ => false

def message : ClientError → String
  | .fenced detail => "Producer fenced: " ++ detail
  | .unknownProducerId detail => "Unknown producer id: " ++ detail
  | .invalidTransition detail => "Invalid transition: " ++ detail
  | .timeout detail => "Timeout: " ++ detail
  | .other detail => detail

end ClientError

inductive PoolError where
  | client (error : ClientError)
  | illegalState (detail : String)
  | notTransactional
  | factoryDestroyed
  | configuration (detail : String)
  | cannotCreateTransaction (cause : PoolError)
deriving DecidableEq, Repr

namespace PoolError

/-- The producer's connection is closed. -/
def closed (id : Nat) : PoolError := .illegalState s!"producer {id} has been closed"

/-- The producer is parked, or has been handed out again since. -/
def returned (id : Nat) : PoolError := .illegalState s!"producer {id} was returned to the factory"

def message : PoolError → String
  | .client error => "Client error: " ++ error.message
  | .illegalState detail => "Illegal state: " ++ detail
  | .notTransactional => "No transaction id prefix configured"
  | .factoryDestroyed => "Producer factory has been destroyed"
  | .configuration detail => "Configuration error: " ++ detail
  | .cannotCreateTransaction cause => "Could not create transaction: " ++ cause.message

def clientError? : PoolError → Option ClientError
  | .client error => some error
  | .cannotCreateTransaction cause => cause.clientError?
  | _ => none

end PoolError

end ProducerPool
