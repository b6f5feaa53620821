import ProducerPool.Pool.Transaction
import ProducerPool.Scripted

/-!
# The language of scenarios

A scenario is a list of turns: in each a thread takes a step with a pool, or a thread ends.  Handles
are kept in named slots.  Where a step runs inside a listener or a unit of work, `$` names the handle
at hand; elsewhere it is the name of a slot like any other.  Listeners, callbacks and units of work are
lists of steps themselves, taken by the thread that is running.
-/

set_option autoImplicit false

namespace ProducerPool.Scenario

/-- A step straight on a scripted producer. -/
inductive ScriptedStep where
  | call (call : RawCall)
  | send (record : Record)
  | failNext (operation : Operation) (error : ClientError)
  | failDeliveries (error : ClientError)
  | calls
  | count (operation : Operation)
  | records
  | metrics
  | clientId
  | unknown

inductive Step where
  -- the factory
  | create (slot : Option String)
  | createFor (slot : Option String) (scope : TransactionScope)
  | reset
  | destroy
  | closeBound
  | lifecycle (event : HostEvent)
  | isDestroyed
  | closeFor (scope : TransactionScope)
  | cachedCount (key : String)
  | stats
  | config
  | addListener (name : String)
  | removeListener (name : String)
  | listeners
  | dropFactory
  /-- The work ends early with the error of a step if `propagate` is set; else it fails with `failure`,
  or yields `value`. -/
  | execute (scope : TransactionScope) (work : List Step) (propagate : Bool)
      (failure : Option PoolError) (value : Json)
  -- handles
  | call (handle : String) (call : HandleCall)
  | send (handle : String) (record : Record) (callback : List Step)
  | metrics (handle : String)
  | close (handle : String) (timeout : Option Duration)
  | info (handle : String)
  | debug (handle : String)
  | same (first second : String)
  | clone (handle : String) (slot : Option String)
  | drop (handle : String)
  | dropHandles
  -- raw producers
  | scripted (conn : Nat) (step : ScriptedStep)
  | deliver (conn : Nat) (failure : Option ClientError)
  -- producers without a factory, and a cache of their own
  | detached (slot : Option String) (id : Option Nat) (transactionalId clientId : Option String)
      (key : String)
  | park (handle : String)
  | reopen (handle : String) (slot : Option String)
  | shut (handle : String) (timeout : Duration)
  | storeRelease (key handle : String)
  | storeAcquire (key : String) (slot : Option String)
  | storeEnsure (key : String)
  | storeRemove (key handle : String)
  | storeDrain (key : String)
  | storeDrainAll
  | storeCounts (key : String)
  | unknown

instance : Inhabited Step := ⟨.unknown⟩

/-- Whether a step may close several producers whose order is free. -/
def Step.sweeps : Step → Bool
  | .reset | .destroy | .lifecycle _ | .dropFactory => true
  | _ => false

/-- What happens next in a scenario.  Threads end between steps and never within one, so ending a thread
is not a step: no listener, callback or unit of work can do it. -/
inductive Turn where
  | step (thread : Int) (step : Step)
  | endThread (thread : Int)

inductive Fault where
  | badInput
  | noHandle
  | noRaw
  | noFactory
  | noListener
deriving DecidableEq, Repr

inductive Answer where
  | nothing
  | ok
  | flag (b : Bool)
  | count (n : Nat)
  | ids (ids : List Nat)
  | id (id : Option Nat)
  | text (s : String)
  | texts (ss : List String)
  | info (shown : Producer)
  | config (config : Config)
  | metrics (ms : List Metric)
  | calls (calls : List RawCall)
  | records (records : List Record)
  | sent (result : Except ClientError Outcome)
  | executed (value : Json) (scope : TransactionScope) (live : Nat)
  | rejected (id : Nat)
  | storeCounts (length total keys : Nat)
  | clientFailure (error : ClientError)
  | failed (error : PoolError)
  | fault (fault : Fault)

/-- What a caller marks in the journal: where a step begins and ends, and where a unit of work does. -/
inductive Mark where
  | began (sweeps : Bool)
  | ended (answer : Answer) (stats : Option Pool.Stats)
  | workBegan
  | workEnded

/-- How a connection comes about and what its scripted producer is told beforehand. -/
structure ConnectionSpec where
  connectError : Option ClientError := none
  clientId : Option String := none
  failNext : List (Operation × ClientError) := []
  failDeliveries : Option ClientError := none
  /-- Reported instead of the metrics of the scripted producer. -/
  metrics : Option (List Metric) := none
  /-- Sends wait until they are delivered by a step. -/
  deferred : Bool := false

structure ConnectorSpec where
  plan : List (Option ConnectionSpec) := []
  fallback : ConnectionSpec := {}
  /-- All connections share the first scripted producer. -/
  same : Bool := false
  clientIdFromProperties : Bool := false

structure ListenerSpec where
  mute : Bool := false
  /-- The messages of its error, root first; without any it does not fail. -/
  failure : List String := []
  added : List Step := []
  removed : List Step := []
  /-- How many notices of a kind run its steps. -/
  times : Nat := 1

/-! ## How much can happen -/

mutual

def stepSize : Step → Nat
  | .execute _ work _ _ _ => 1 + scriptSize work
  | .send _ _ callback => 1 + scriptSize callback
  | _ => 1

def scriptSize : List Step → Nat
  | [] => 0
  | s :: rest => stepSize s + scriptSize rest

end

def Turn.size : Turn → Nat
  | .step _ s => stepSize s
  | .endThread _ => 0

end ProducerPool.Scenario

namespace ProducerPool

structure Scenario where
  /-- Without a configuration there is no factory. -/
  config : Option Config
  connector : Scenario.ConnectorSpec := {}
  listeners : List (String × Scenario.ListenerSpec) := []
  turns : List Scenario.Turn := []

/-- A bound on the steps taken in the course of a scenario: each script of a listener runs a limited
number of times, and every other step runs once for each time the script it stands in does. -/
def Scenario.bound (s : Scenario) : Nat :=
  let runs := s.listeners.foldl (fun n entry => n + 2 * entry.2.times) 0
  let scripts := s.listeners.foldl (fun n entry =>
    n + scriptSize entry.2.added + scriptSize entry.2.removed) 0
  (s.turns.foldl (fun n turn => n + turn.size) scripts + 3) * (runs + 1) + 1

end ProducerPool
