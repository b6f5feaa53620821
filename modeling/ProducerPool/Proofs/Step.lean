import ProducerPool.Proofs.Run
import Mathlib.Logic.Relation

/-!
# The steps that operations are made of

Between two moments at which code of callers runs, an operation changes the pool in a few small steps.
`Step` lists these steps with what an operation may rely on when it takes them.  A hook is made of the
same steps, so a whole run is one `Path`, however deep its operations nest: what every step keeps holds
at every moment at which code of callers runs.
-/

set_option autoImplicit false

namespace ProducerPool

/-! ## What a step writes down -/

/-- Events that tell nothing about connections or leases, or only what a handle was answered. -/
def Event.isPlain {μ : Type} : Event μ → Bool
  | .requested _ | .notifying .. | .notified .. | .delivering .. | .delivered _ | .logged _ => true
  | .replied _ operation _ => operation ≠ .initTransactions
  | _ => false

/-- The events of closing a connection, the latest first. -/
inductive Closing {μ : Type} (conn : Nat) : List (Event μ) → Prop
  | closed (timeout : Duration) :
      Closing conn [.replied conn .close (.ok ()), .called conn (.close timeout)]
  | failed (timeout : Duration) (error : ClientError) (line : LogLine) :
      Closing conn
        [.logged line, .replied conn .close (.error error), .called conn (.close timeout)]

/-- The events of a connection that comes about, the latest first. -/
inductive Connecting {μ : Type} (conn : Nat) : List (Event μ) → Prop
  | bare (placement : Placement) (properties : Properties) :
      Connecting conn [.connected conn (.ok ()), .connecting conn placement properties]
  | initialised (placement : Placement) (properties : Properties) :
      Connecting conn
        [.replied conn .initTransactions (.ok ()), .called conn .initTransactions,
          .connected conn (.ok ()), .connecting conn placement properties]

/-- The events of a connection that does not come about or cannot be initialised, the latest first. -/
inductive Failing {μ : Type} (conn : Nat) : List (Event μ) → Prop
  | refused (placement : Placement) (properties : Properties) (error : ClientError) :
      Failing conn [.connected conn (.error error), .connecting conn placement properties]
  | uninitialised (placement : Placement) (properties : Properties) (error : ClientError)
      (closing : List (Event μ)) (closed : Closing conn closing) :
      Failing conn
        (closing ++ [.replied conn .initTransactions (.error error), .called conn .initTransactions,
          .connected conn (.ok ()), .connecting conn placement properties])

/-! ## References and places -/

namespace Pool

variable {σ μ : Type}

/-- The pool after the connection of a producer has been closed; `events` were written down. -/
def closed (r : Ref) (outside : σ) (events : List (Event μ)) (p : Pool σ μ) : Pool σ μ :=
  { p with
    producers := p.producers.modify r fun q => { q with phase := .disposed }
    outside := outside
    journal := events ++ p.journal }

/-- The pool once the sequence of transactional ids stands at `n`. -/
def numbered (n : Nat) (p : Pool σ μ) : Pool σ μ := p.onFactory fun f => { f with sequence := n }

/-- The pool after a producer has been built under its first lease; `events` were written down. -/
def built (placement : Placement) (transactionalId clientId : Option String) (outside : σ)
    (events : List (Event μ)) (p : Pool σ μ) : Pool σ μ :=
  { p with
    factory := { p.factory with nextId := p.factory.nextId + 1, live := p.factory.live + 1 }
    producers := p.producers ++
      [{ id := p.factory.nextId, conn := p.connections, transactionalId := transactionalId,
         clientId := clientId, placement := placement, epoch := p.factory.epoch, owned := true }]
    connections := p.connections + 1
    pinned := ⟨p.producers.length, 0⟩ :: p.pinned
    outside := outside
    journal := .leased ⟨p.producers.length, 0⟩ :: (events ++ p.journal) }

/-- The pool after a producer could not be built; `events` were written down. -/
def unbuilt (outside : σ) (events : List (Event μ)) (p : Pool σ μ) : Pool σ μ :=
  { p with
    factory := { p.factory with nextId := p.factory.nextId + 1 }
    connections := p.connections + 1
    outside := outside
    journal := events ++ p.journal }

/-- The handle under which a parked producer is opened again. -/
def renewed (h : Handle) (p : Pool σ μ) : Handle := ⟨h.producer, (p.get h.producer).lease + 1⟩

/-- The pool after a producer has left its queue again; `cache` is what is left parked. -/
def reopened (h : Handle) (cache : Cache Handle) (p : Pool σ μ) : Pool σ μ :=
  { p with
    factory := { p.factory with cache := cache }
    producers := p.producers.modify h.producer fun q =>
      { q with phase := .opened, lease := q.lease + 1 }
    pinned := p.renewed h :: p.pinned
    journal := .leased (p.renewed h) :: p.journal }

/-- `p.LetsGo r q`: in `q` one reference of `p` to the producer `r` is given up. -/
inductive LetsGo (p : Pool σ μ) : Ref → Pool σ μ → Prop
  | held (h : Handle) : p.LetsGo h.producer { p with held := p.held.erase h }
  | pinned (h : Handle) : p.LetsGo h.producer { p with pinned := p.pinned.erase h }
  | shared (r : Ref) : p.LetsGo r (p.unshare r)
  | bound (t : ThreadId) (r : Ref) : p.LetsGo r (p.unbind t r)
  /-- Another handle takes the place of `old` in the table of threads. -/
  | seat (t : ThreadId) (h old : Handle) (found : p.factory.threads.lookup t = some old)
      (there : h ∈ p.pinned) (placed : (p.get h.producer).placement = .thread t)
      (alive : p.alive = true) : p.LetsGo old.producer (p.seat t h)

end Pool

/-- `f.GivesUp hs g`: the factory `g` is `f` without the handles `hs`. -/
inductive Factory.GivesUp (f : Factory) : List Handle → Factory → Prop
  | popped (key : String) (h : Handle) (cache : Cache Handle)
      (found : f.cache.pop? key = some (h, cache)) : f.GivesUp [h] { f with cache := cache }
  | drained (key : String) : f.GivesUp (f.cache.drain key).1 { f with cache := (f.cache.drain key).2 }
  | unseated (t : ThreadId) (h : Handle) (found : f.threads.lookup t = some h) :
      f.GivesUp [h] { f with threads := f.threads.filter fun entry => entry.1 ≠ t }
  | cleared : f.GivesUp (f.threads.map Prod.snd) { f with threads := [] }
  /-- A new generation begins; `out` tells which producers of threads are checked out. -/
  | swept (out : Handle → Bool) :
      f.GivesUp
        (f.shared.toList ++ f.cache.items ++
          (f.threads.filter fun entry => !out entry.2).map Prod.snd)
        { f with
          epoch := f.epoch + 1
          shared := none
          cache := f.cache.drainAll.2
          threads := f.threads.filter fun entry => out entry.2 }

/-- `f.Names placement id n`: a new producer of this placement has the transactional id `id`, after
which the sequence stands at `n`. -/
inductive Factory.Names (f : Factory) : Placement → Option String → Nat → Prop
  | shared : f.Names .shared none f.sequence
  | bound (t : ThreadId) (bare : f.config.idPrefix = none) : f.Names (.thread t) none f.sequence
  | boundDrawn (t : ThreadId) (idPrefix : String) (drawn : f.config.idPrefix = some idPrefix) :
      f.Names (.thread t) (some (idPrefix ++ toString f.sequence)) (f.sequence + 1)
  | keyed (key : String) (partitioned : f.config.perPartition = true) :
      f.Names (.pooled key) (some key) f.sequence
  | drawn (idPrefix : String) :
      f.Names (.pooled idPrefix) (some (idPrefix ++ toString f.sequence)) (f.sequence + 1)

/-! ## Steps -/

open Pool in
/-- One step of an operation or of code of callers. -/
inductive Step {σ : Type} : Pool σ Snapshot → Pool σ Snapshot → Prop
  | elsewhere (p : Pool σ Snapshot) (outside : σ) : Step p { p with outside := outside }
  | look (p : Pool σ Snapshot) : Step p p.look
  | note (p : Pool σ Snapshot) (e : Event Snapshot) (plain : e.isPlain = true) : Step p (p.record e)
  -- references
  | pin (p : Pool σ Snapshot) (h : Handle) (there : h ∈ p.handles) : Step p (p.pin h)
  | hold (p : Pool σ Snapshot) (h : Handle) (there : h ∈ p.handles) : Step p (p.hold h)
  | handOver (p : Pool σ Snapshot) (h : Handle) (there : h ∈ p.pinned) : Step p (p.handOver h)
  | recount (p : Pool σ Snapshot) (owners running : Nat) (before : p.alive = true)
      (after : 0 < owners + running) : Step p { p with owners := owners, running := running }
  /-- The factory goes; its handles are held until they are let go of one by one. -/
  | expire (p : Pool σ Snapshot) :
      Step p
        { p with
          owners := 0, running := 0, factory := p.factory.emptied
          pinned := p.factory.handles.reverse ++ p.pinned }
  -- giving up a reference
  | kept (p : Pool σ Snapshot) (r : Ref) (q : Pool σ Snapshot) (letsGo : p.LetsGo r q)
      (kept : q.isLost r = false) : Step p q
  | lost (p : Pool σ Snapshot) (r : Ref) (q : Pool σ Snapshot) (letsGo : p.LetsGo r q)
      (lost : q.isLost r = true) (alone : q.alive = true → (q.get r).owned = false)
      (outside : σ) (events : List (Event Snapshot)) (closing : Closing (q.get r).conn events) :
      Step p (q.closed r outside events)
  /-- The factory accounts for the loss and begins to tell its listeners. -/
  | lostOwned (p : Pool σ Snapshot) (r : Ref) (q : Pool σ Snapshot) (letsGo : p.LetsGo r q)
      (lost : q.isLost r = true) (owned : (q.get r).owned = true) (alive : q.alive = true)
      (outside : σ) (events : List (Event Snapshot)) (closing : Closing (q.get r).conn events) :
      Step p
        { q.closed r outside events with
          running := q.running + 1
          factory := { q.factory with live := q.factory.live - 1 }
          producers := (q.closed r outside events).producers ++ [(q.get r).closedCopy]
          pinned := ⟨q.producers.length, 0⟩ :: q.pinned }
  -- the life of a producer
  | build (p : Pool σ Snapshot) (placement : Placement) (transactionalId clientId : Option String)
      (sequence : Nat) (outside : σ) (events : List (Event Snapshot))
      (names : p.factory.Names placement transactionalId sequence)
      (connecting : Connecting p.connections events) :
      Step p ((p.numbered sequence).built placement transactionalId clientId outside events)
  | fail (p : Pool σ Snapshot) (placement : Placement) (transactionalId : Option String)
      (sequence : Nat) (outside : σ) (events : List (Event Snapshot))
      (names : p.factory.Names placement transactionalId sequence)
      (failing : Failing p.connections events) :
      Step p ((p.numbered sequence).unbuilt outside events)
  | call (p : Pool σ Snapshot) (h : Handle) (call : RawCall) (may : p.refusal? h = none)
      (use : call.operation ≠ .initTransactions ∧ call.operation ≠ .close) :
      Step p (p.record (.called (p.get h.producer).conn call))
  | spoil (p : Pool σ Snapshot) (r : Ref) (error : ClientError) (line : LogLine)
      (sound : (p.get r).isSpoiled = false) :
      Step p
        { p with
          producers := p.producers.modify r fun q => { q with failure := some error }
          journal := .logged line :: p.journal }
  | check (p : Pool σ Snapshot) (r : Ref) (out : Bool) :
      Step p (p.modify r fun q => { q with checkedOut := out })
  | shelve (p : Pool σ Snapshot) (h : Handle) (key : String) (there : h ∈ p.handles)
      (opened : (p.get h.producer).phase = .opened)
      (placed : (p.get h.producer).placement = .pooled key)
      (current : (p.get h.producer).epoch = p.factory.epoch) (alive : p.alive = true) :
      Step p
        { p with
          factory := { p.factory with cache := p.factory.cache.push key h }
          producers := p.producers.modify h.producer fun q => { q with phase := .cached } }
  | reopen (p : Pool σ Snapshot) (key : String) (h : Handle) (cache : Cache Handle)
      (found : p.factory.cache.pop? key = some (h, cache))
      (cached : (p.get h.producer).phase = .cached)
      (sound : (p.get h.producer).isSpoiled = false) :
      Step p (p.reopened h cache)
  | retire (p : Pool σ Snapshot) (r : Ref) (undisposed : (p.get r).phase ≠ .disposed)
      (outside : σ) (events : List (Event Snapshot)) (closing : Closing (p.get r).conn events) :
      Step p
        { p.closed r outside events with
          factory := { p.factory with live := p.factory.live - 1 } }
  /-- A producer is closed that no factory accounts for. -/
  | shut (p : Pool σ Snapshot) (r : Ref) (undisposed : (p.get r).phase ≠ .disposed)
      (alone : p.alive = true → (p.get r).owned = false)
      (outside : σ) (events : List (Event Snapshot)) (closing : Closing (p.get r).conn events) :
      Step p (p.closed r outside events)
  -- the places of the factory
  | share (p : Pool σ Snapshot) (h : Handle) (there : h ∈ p.pinned)
      (placed : (p.get h.producer).placement = .shared) (alive : p.alive = true) :
      Step p
        { p with
          factory := { p.factory with shared := some h }
          pinned := p.factory.shared.toList ++ p.pinned }
  | seat (p : Pool σ Snapshot) (t : ThreadId) (h : Handle)
      (free : p.factory.threads.lookup t = none) (there : h ∈ p.pinned)
      (placed : (p.get h.producer).placement = .thread t) (alive : p.alive = true) :
      Step p (p.seat t h)
  | ensure (p : Pool σ Snapshot) (key : String) :
      Step p { p with factory := { p.factory with cache := p.factory.cache.ensure key } }
  | giveUp (p : Pool σ Snapshot) (hs : List Handle) (f : Factory) (givesUp : p.factory.GivesUp hs f) :
      Step p { p with factory := f, pinned := hs.reverse ++ p.pinned }
  | settings (p : Pool σ Snapshot) (listeners : List String) (destroyed stopHandled : Bool)
      (final : p.factory.destroyed = true → destroyed = true) :
      Step p
        { p with
          factory :=
            { p.factory with
              listeners := listeners, destroyed := destroyed, stopHandled := stopHandled } }

/-- Any number of steps. -/
abbrev Path {σ : Type} : Pool σ Snapshot → Pool σ Snapshot → Prop := Relation.ReflTransGen Step

end ProducerPool
