import ProducerPool.Cache
import ProducerPool.Config
import ProducerPool.Pool.Journal

/-!
# The state of a pool

A `Pool` is a factory of producers together with all that keeps producers alive: the producers ever
built, the handles in callers' hands, the handles that operations in progress hold, and the journal.
`outside` is the state of what lies beyond the border, and an `Environment` says how that answers.

Code of the caller runs inside the pool's operations: listeners, callbacks of sends, and whatever a
raw call runs.  Each such hook takes the whole pool and returns it, so it may call any operation
again.  Connecting, initialising, reading metrics and closing run no code of the caller.
-/

set_option autoImplicit false

namespace ProducerPool

/-- What the factory itself keeps. -/
structure Factory where
  config : Config
  shared : Option Handle := none
  threads : List (ThreadId × Handle) := []
  cache : Cache Handle := {}
  /-- Registered listeners in order of registration; one may be registered several times. -/
  listeners : List String := []
  /-- The current generation; producers of an earlier one are never handed out again. -/
  epoch : Nat := 0
  destroyed : Bool := false
  /-- A stop has been handled and no start has been seen since. -/
  stopHandled : Bool := false
  nextId : Nat := 1
  sequence : Nat := 0
  /-- Producers built and not yet closed. -/
  live : Nat := 0

namespace Factory

/-- The handles that the factory keeps: the shared one, those of the threads, the parked ones. -/
def handles (f : Factory) : List Handle :=
  f.shared.toList ++ f.threads.map Prod.snd ++ f.cache.items

def emptied (f : Factory) : Factory := { f with shared := none, threads := [], cache := {} }

end Factory

structure Pool (σ μ : Type) where
  factory : Factory
  /-- References to the factory in callers' hands. -/
  owners : Nat
  /-- Operations in progress that keep the factory alive. -/
  running : Nat := 0
  producers : List Producer := []
  /-- Handles in callers' hands, one entry for each clone. -/
  held : List Handle := []
  /-- Handles that operations in progress hold. -/
  pinned : List Handle := []
  connections : Nat := 0
  /-- What has crossed the border, the latest first. -/
  journal : List (Event μ) := []
  outside : σ

/-- The calls that a handle passes on to its raw producer; sending apart. -/
inductive HandleCall where
  | begin
  | commit
  | abort
  | sendOffsets (group : String) (offsets : Offsets)
  | flush
deriving DecidableEq

namespace HandleCall

def toRaw : HandleCall → RawCall
  | .begin => .beginTransaction
  | .commit => .commitTransaction
  | .abort => .abortTransaction
  | .sendOffsets group offsets => .sendOffsets group offsets
  | .flush => .flush

/-- Which errors of a call make the producer unusable: every one when a transaction begins, none of a
flush, and the fatal ones of the others. -/
def spoils (call : HandleCall) (error : ClientError) : Bool :=
  match call with
  | .begin => true
  | .flush => false
  | _ => error.isFatal

end HandleCall

structure Environment (σ μ : Type) where
  /-- Answers an attempt to connect; the connection is known by its number from then on. -/
  connect : Nat → Properties → σ → σ × Reply
  initTransactions : Nat → σ → σ × Reply
  metrics : Nat → σ → List Metric
  close : Nat → Duration → σ → σ × Reply
  call : Nat → HandleCall → Pool σ μ → Pool σ μ × Reply
  /-- Takes a record; the delivery is completed by `Pool.deliver`, at once or later. -/
  send : Nat → Record → Delivery → Pool σ μ → Pool σ μ × Reply
  /-- Tells a listener; a failing listener returns the text of its error. -/
  listen : String → Notice → Pool σ μ → Pool σ μ × Option String
  /-- A bound on the producers that code of the caller parks in the course of one acquisition. -/
  refills : Nat

namespace Pool

variable {σ μ : Type}

/-- A pool around a new factory, which its caller holds. -/
def new (config : Config) (outside : σ) : Pool σ μ :=
  { factory := { config := config }, owners := 1, outside := outside }

/-- The factory exists as long as a caller or an operation in progress holds it. -/
def alive (p : Pool σ μ) : Bool := 0 < p.owners + p.running

theorem alive_of_owners {p : Pool σ μ} (owned : 0 < p.owners) : p.alive = true := by
  simp only [alive, decide_eq_true_eq]
  omega

theorem alive_of_running {p : Pool σ μ} (busy : 0 < p.running) : p.alive = true := by
  simp only [alive, decide_eq_true_eq]
  omega

def get (p : Pool σ μ) (r : Ref) : Producer := p.producers.getD r .absent

def modify (r : Ref) (f : Producer → Producer) (p : Pool σ μ) : Pool σ μ :=
  { p with producers := p.producers.modify r f }

def onFactory (f : Factory → Factory) (p : Pool σ μ) : Pool σ μ :=
  { p with factory := f p.factory }

def record (e : Event μ) (p : Pool σ μ) : Pool σ μ := { p with journal := e :: p.journal }

def log (line : LogLine) (p : Pool σ μ) : Pool σ μ := p.record (.logged line)

def mark (m : μ) (p : Pool σ μ) : Pool σ μ := p.record (.marked m)

def hold (h : Handle) (p : Pool σ μ) : Pool σ μ := { p with held := h :: p.held }

def pin (h : Handle) (p : Pool σ μ) : Pool σ μ := { p with pinned := h :: p.pinned }

/-- An operation gets hold of a producer under a lease that begins now. -/
def lend (h : Handle) (p : Pool σ μ) : Pool σ μ := (p.pin h).record (.leased h)

/-- An operation passes a handle that it holds on to its caller. -/
def handOver (h : Handle) (p : Pool σ μ) : Pool σ μ :=
  { p with pinned := p.pinned.erase h, held := h :: p.held }

def referenced (p : Pool σ μ) (r : Ref) : Bool :=
  (p.held ++ p.pinned ++ p.factory.handles).any fun h => h.producer = r

def enlist (q : Producer) (p : Pool σ μ) : Pool σ μ × Ref :=
  ({ p with producers := p.producers ++ [q] }, p.producers.length)

/-- Open, without a failure, and of the current generation. -/
def isUsable (p : Pool σ μ) (h : Handle) : Bool :=
  let q := p.get h.producer
  q.phase = .opened && !q.isSpoiled && q.epoch = p.factory.epoch

/-! ## Looking up producers -/

theorem get_eq_absent {p : Pool σ μ} {r : Ref} (out : p.producers.length ≤ r) : p.get r = .absent := by
  simp [get, List.getElem?_eq_none out]

theorem lt_of_phase {p : Pool σ μ} {r : Ref} (undisposed : (p.get r).phase ≠ .disposed) :
    r < p.producers.length := by
  refine Nat.lt_of_not_le fun out => undisposed ?_
  rw [get_eq_absent out]
  rfl

theorem get_mem {p : Pool σ μ} {r : Ref} (inside : r < p.producers.length) : p.get r ∈ p.producers := by
  simp [get, inside]

theorem getD_modify (f : Producer → Producer) (producers : List Producer) (r s : Ref) :
    (producers.modify r f).getD s .absent =
      if r = s ∧ s < producers.length then f (producers.getD s .absent)
      else producers.getD s .absent := by
  by_cases inside : s < producers.length
  · by_cases same : r = s <;> simp [same, inside]
  · simp [inside]

theorem getD_append (producers : List Producer) (q : Producer) (s : Ref) :
    (producers ++ [q]).getD s .absent =
      if s = producers.length then q else producers.getD s .absent := by
  rcases Nat.lt_trichotomy s producers.length with before | same | after
  · rw [List.getD_eq_getElem?_getD, List.getElem?_append_left before, if_neg (Nat.ne_of_lt before),
      List.getD_eq_getElem?_getD]
  · rw [List.getD_eq_getElem?_getD, if_pos same, same, List.getElem?_concat_length]
    rfl
  · have out : (producers ++ [q]).length ≤ s := by
      rw [List.length_append]
      exact after
    rw [List.getD_eq_getElem?_getD, List.getElem?_eq_none out, if_neg (Nat.ne_of_gt after),
      List.getD_eq_getElem?_getD, List.getElem?_eq_none (Nat.le_of_lt after)]

/-! ## Calls to raw producers -/

def callConnect (E : Environment σ μ) (placement : Placement) (properties : Properties)
    (p : Pool σ μ) : Pool σ μ × Nat × Reply :=
  let conn := p.connections
  let p := { p with connections := conn + 1 }.record (.connecting conn placement properties)
  let (outside, reply) := E.connect conn properties p.outside
  ({ p with outside := outside }.record (.connected conn reply), conn, reply)

def callInit (E : Environment σ μ) (conn : Nat) (p : Pool σ μ) : Pool σ μ × Reply :=
  let p := p.record (.called conn .initTransactions)
  let (outside, reply) := E.initTransactions conn p.outside
  ({ p with outside := outside }.record (.replied conn .initTransactions reply), reply)

def callClose (E : Environment σ μ) (conn : Nat) (timeout : Duration) (p : Pool σ μ) :
    Pool σ μ × Reply :=
  let p := p.record (.called conn (.close timeout))
  let (outside, reply) := E.close conn timeout p.outside
  ({ p with outside := outside }.record (.replied conn .close reply), reply)

def callHandle (E : Environment σ μ) (conn : Nat) (call : HandleCall) (p : Pool σ μ) :
    Pool σ μ × Reply :=
  let (p, reply) := E.call conn call (p.record (.called conn call.toRaw))
  (p.record (.replied conn call.toRaw.operation reply), reply)

def callSend (E : Environment σ μ) (conn : Nat) (r : Record) (d : Delivery) (p : Pool σ μ) :
    Pool σ μ × Reply :=
  let (p, reply) := E.send conn r d (p.record (.called conn (.send r.topic)))
  (p.record (.replied conn .send reply), reply)

end Pool

end ProducerPool
