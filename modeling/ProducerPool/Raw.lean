import ProducerPool.Duration
import ProducerPool.Record

/-!
# Raw producers

The pool talks to a messaging client only through the calls listed here.  `Operation` is the kind of
a call, `RawCall` the call with what it carries.
-/

set_option autoImplicit false

namespace ProducerPool

inductive Operation where
  | initTransactions
  | beginTransaction
  | commitTransaction
  | abortTransaction
  | sendOffsets
  | send
  | flush
  | close
deriving DecidableEq, Repr

inductive RawCall where
  | initTransactions
  | beginTransaction
  | commitTransaction
  | abortTransaction
  | sendOffsets (group : String) (offsets : Offsets)
  | send (topic : String)
  | flush
  | close (timeout : Duration)
deriving DecidableEq

def RawCall.operation : RawCall → Operation
  | .initTransactions => .initTransactions
  | .beginTransaction => .beginTransaction
  | .commitTransaction => .commitTransaction
  | .abortTransaction => .abortTransaction
  | .sendOffsets .. => .sendOffsets
  | .send _ => .send
  | .flush => .flush
  | .close _ => .close

abbrev Reply := Except ClientError Unit

end ProducerPool
