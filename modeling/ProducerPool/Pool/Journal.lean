import ProducerPool.Pool.Producer

/-!
# The journal of a pool

A pool writes down everything that crosses its border, in order: the requests that end a generation,
every attempt to connect and every raw call with its reply, every lease, every notification and
delivery with its beginning and its end, and every line of its log.  Callers may add marks of their
own.
-/

set_option autoImplicit false

namespace ProducerPool

inductive HostEvent where
  | started
  | stopped
deriving DecidableEq, Repr

/-- The requests that may end a generation. -/
inductive Request where
  | reset
  | destroy
  | lifecycle (event : HostEvent)
deriving DecidableEq, Repr

inductive NoticeKind where
  | added
  | removed
deriving DecidableEq, Repr

structure Notice where
  kind : NoticeKind
  /-- The client id under which the producer is known to listeners. -/
  id : String
  handle : Handle
deriving DecidableEq

inductive LogLevel where
  | info
  | warn
deriving DecidableEq, Repr

inductive LogLine where
  | destroying
  | resetting (idle : Nat)
  | unusable (id : Nat) (transactionalId : Option String) (error : ClientError)
  | closeFailed (id : Nat) (error : ClientError)
  | closeAfterInitFailed (error : ClientError)
  | abortFailed (id : Nat) (error : PoolError)
  | listenerFailed (kind : NoticeKind) (id : String) (message : String)
deriving DecidableEq

def NoticeKind.method : NoticeKind → String
  | .added => "producer_added"
  | .removed => "producer_removed"

namespace LogLine

def level : LogLine → LogLevel
  | .destroying | .resetting _ => .info
  | _ => .warn

def text : LogLine → String
  | .destroying => "destroying producer factory"
  | .resetting idle => s!"resetting producer factory, closing {idle} idle producer(s)"
  | .unusable id transactionalId error =>
    "producer " ++ toString id ++ " (transactional id " ++ Text.quotedOption transactionalId ++
      ") is no longer usable: " ++ error.message
  | .closeFailed id error => "failed to close producer " ++ toString id ++ ": " ++ error.message
  | .closeAfterInitFailed error => "failed to close producer after init failure: " ++ error.message
  | .abortFailed id error =>
    "abort after failed work also failed on producer " ++ toString id ++ ": " ++ error.message
  | .listenerFailed kind id message =>
    "listener failed on " ++ kind.method ++ " for '" ++ id ++ "': " ++ message

end LogLine

/-- A send that was accepted: the producer it went through and the number of its callback. -/
structure Delivery where
  producer : Ref
  callback : Nat
deriving DecidableEq

inductive Event (μ : Type) where
  | requested (request : Request)
  | connecting (conn : Nat) (placement : Placement) (properties : Properties)
  | connected (conn : Nat) (reply : Reply)
  | called (conn : Nat) (call : RawCall)
  | replied (conn : Nat) (operation : Operation) (reply : Reply)
  /-- A lease begins: the producer has been built, or has left its queue again. -/
  | leased (handle : Handle)
  /-- A listener is about to be told; the producer is shown as it is then. -/
  | notifying (listener : String) (notice : Notice) (shown : Producer)
  | notified (listener : String) (notice : Notice)
  /-- The callback of a send is about to run; a fatal outcome has been recorded before. -/
  | delivering (delivery : Delivery) (outcome : Outcome)
  | delivered (delivery : Delivery)
  | logged (line : LogLine)
  | marked (mark : μ)

end ProducerPool
