import ProducerPool.Scenario.Step

/-!
# The stage of a scenario

What lies beyond the border of a pool while a scenario runs: the connections with their scripted
producers and waiting sends, the listeners and what they have heard, the callers' slots, and their
threads.
-/

set_option autoImplicit false

namespace ProducerPool.Scenario

structure Connection where
  /-- The place of its scripted producer; connections may share one. -/
  scripted : Nat
  metrics : Option (List Metric)
  deferred : Bool
  waiting : List (Record × Delivery) := []

structure Heard where
  added : Nat := 0
  removed : Nat := 0

structure Stage where
  connector : ConnectorSpec
  listeners : List (String × ListenerSpec)
  heard : SortedMap String Heard := []
  connections : List (Option Connection) := []
  scripted : List Scripted := []
  callbacks : List (List Step) := []
  slots : SortedMap String Handle := []
  hasFactory : Bool
  store : Cache Handle := {}
  threads : List (Int × ThreadId) := []
  nextThread : ThreadId := 1
  current : ThreadId := 0

namespace Stage

def spec (s : Stage) (conn : Nat) : ConnectionSpec :=
  ((s.connector.plan[conn]?).getD none).getD s.connector.fallback

def connection? (s : Stage) (conn : Nat) : Option Connection := (s.connections[conn]?).getD none

def producer (s : Stage) (c : Connection) : Scripted := s.scripted.getD c.scripted { clientId := "" }

def setProducer (c : Connection) (q : Scripted) (s : Stage) : Stage :=
  { s with scripted := s.scripted.set c.scripted q }

def setConnection (conn : Nat) (c : Connection) (s : Stage) : Stage :=
  { s with connections := s.connections.set conn (some c) }

/-- The client id of a new scripted producer: the one planned, or the one configured if the connector
looks there, or one made from the number of the connection. -/
def clientIdFor (s : Stage) (conn : Nat) (properties : Properties) : String :=
  match (s.spec conn).clientId with
  | some id => id
  | none =>
    let configured :=
      if s.connector.clientIdFromProperties then (properties.get? clientIdKey).bind Json.text?
      else none
    configured.getD ("p-" ++ toString conn)

/-- What a specification tells a scripted producer. -/
def prepare (spec : ConnectionSpec) (q : Scripted) : Scripted :=
  let q := spec.failNext.foldl (fun q failure => q.failNext failure.1 failure.2) q
  match spec.failDeliveries with
  | some error => q.failDeliveries error
  | none => q

def connect (conn : Nat) (properties : Properties) (s : Stage) : Stage × Reply :=
  let spec := s.spec conn
  match spec.connectError with
  | some error => ({ s with connections := s.connections ++ [none] }, .error error)
  | none =>
    let shared := s.connector.same && !s.scripted.isEmpty
    let place := if shared then 0 else s.scripted.length
    let s :=
      if shared then s
      else { s with scripted := s.scripted ++ [{ clientId := s.clientIdFor conn properties }] }
    let c : Connection := { scripted := place, metrics := spec.metrics, deferred := spec.deferred }
    let s := s.setProducer c (prepare spec (s.producer c))
    ({ s with connections := s.connections ++ [some c] }, .ok ())

def invoke (conn : Nat) (call : RawCall) (s : Stage) : Stage × Reply :=
  match s.connection? conn with
  | none => (s, .ok ())
  | some c =>
    let (q, reply) := (s.producer c).respond call
    (s.setProducer c q, reply)

def metrics (conn : Nat) (s : Stage) : List Metric :=
  match s.connection? conn with
  | none => []
  | some c => c.metrics.getD (s.producer c).metrics

def listenerSpec (s : Stage) (name : String) : ListenerSpec :=
  (s.listeners.lookup name).getD {}

/-- Counts a notice and tells the steps that it runs. -/
def hear (name : String) (kind : NoticeKind) (s : Stage) : Stage × List Step :=
  let spec := s.listenerSpec name
  let heard := (SortedMap.find? name s.heard).getD {}
  let set := fun h => { s with heard := SortedMap.insert textBefore name h s.heard }
  match kind with
  | .added =>
    (set { heard with added := heard.added + 1 }, if heard.added < spec.times then spec.added else [])
  | .removed =>
    (set { heard with removed := heard.removed + 1 },
      if heard.removed < spec.times then spec.removed else [])

/-- The identity of a thread; one that is not in use yet is started.  Number 0 is the main thread. -/
def enterThread (thread : Int) (s : Stage) : Stage :=
  if thread = 0 then { s with current := 0 }
  else
    match s.threads.lookup thread with
    | some id => { s with current := id }
    | none =>
      { s with
        threads := (thread, s.nextThread) :: s.threads
        nextThread := s.nextThread + 1
        current := s.nextThread }

/-- Ends a thread and tells whether it was in use.  A later use of its number starts another one. -/
def endThread (thread : Int) (s : Stage) : Stage × Bool :=
  ({ s with threads := s.threads.filter fun entry => entry.1 ≠ thread },
    s.threads.any fun entry => entry.1 = thread)

end Stage

/-- The text of a listener's error: the outermost message first, the root last. -/
def errorText (messages : List String) : Option String :=
  if messages.isEmpty then none else some (": ".intercalate messages.reverse)

end ProducerPool.Scenario
