import ProducerPool.Proofs.Points

/-!
# The course of a run

A path of steps tells how references and producers move, but not why a connection is made, what a request
does to the generation, or which answer makes a producer unusable.  A `Course` tells just that: it follows
what is fixed about producers, the counters and flags of the factory, and the events that bear on them, and
it takes each of them together with its cause.

Code of callers runs inside of a raw call, between the call and its reply; so a course has courses within.
-/

set_option autoImplicit false

namespace ProducerPool

variable {σ : Type} {p q m : Pool σ Snapshot}

/-! ## What is followed -/

/-- The error of a reply that makes the producer unusable: any error when a transaction begins, a fatal one
when it ends, when it takes in offsets and when a record is sent. -/
def Operation.mishap? (operation : Operation) : Reply → Option ClientError
  | .ok () => none
  | .error error =>
    match operation with
    | .beginTransaction => some error
    | .commitTransaction | .abortTransaction | .sendOffsets | .send =>
      if error.isFatal then some error else none
    | .initTransactions | .flush | .close => none

/-- Whether an event bears on requests, on connections or on failures. -/
def Event.matters {μ : Type} : Event μ → Bool
  | .requested _ | .connecting .. | .delivering .. => true
  | .leased h => h.lease = 0
  | .replied _ operation reply => (operation.mishap? reply).isSome
  | _ => false

/-- A producer without its phase and its lease. -/
def Producer.essence (x : Producer) : Producer :=
  { x with phase := .opened, lease := 0, checkedOut := false }

theorem map_essence_modify (xs : List Producer) (r : Ref) (f g : Producer → Producer)
    (agree : ∀ x, xs[r]? = some x → (f x).essence = g x.essence) :
    (xs.modify r f).map Producer.essence = (xs.map Producer.essence).modify r g := by
  refine List.ext_getElem? fun s => ?_
  simp only [List.getElem?_map, List.getElem?_modify]
  by_cases here : r = s
  · subst here
    cases there : xs[r]? with
    | none => simp
    | some x => simp [agree x there]
  · simp [here]

/-- What a course follows. -/
structure Essence where
  config : Config
  nextId : Nat
  connections : Nat
  epoch : Nat
  destroyed : Bool
  stopHandled : Bool
  producers : List Producer
  /-- The events that matter, the latest first. -/
  events : List (Event Snapshot)

def Pool.essence (p : Pool σ Snapshot) : Essence where
  config := p.factory.config
  nextId := p.factory.nextId
  connections := p.connections
  epoch := p.factory.epoch
  destroyed := p.factory.destroyed
  stopHandled := p.factory.stopHandled
  producers := p.producers.map Producer.essence
  events := p.journal.filter Event.matters

namespace Essence

def get (x : Essence) (r : Ref) : Producer := x.producers.getD r Producer.absent.essence

def note (e : Event Snapshot) (x : Essence) : Essence := { x with events := e :: x.events }

/-- Only the first error of a producer counts. -/
def spoil (r : Ref) (error : ClientError) (x : Essence) : Essence :=
  { x with producers := x.producers.modify r fun y => { y with failure := y.failure.or (some error) } }

/-- After a raw call of the producer `r` has been answered. -/
def answered (r : Ref) (conn : Nat) (operation : Operation) (reply : Reply) (x : Essence) : Essence :=
  match operation.mishap? reply with
  | none => x
  | some error => (x.note (.replied conn operation reply)).spoil r error

/-- After a delivery; `there` tells whether its producer still exists. -/
def delivered (there : Bool) (d : Delivery) (outcome : Outcome) (x : Essence) : Essence :=
  match outcome with
  | .ok _ => x.note (.delivering d outcome)
  | .error error =>
    (if error.isFatal && there then x.spoil d.producer error else x).note (.delivering d outcome)

/-- After an attempt to connect. -/
def attempted (placement : Placement) (transactionalId : Option String) (x : Essence) : Essence :=
  { x with
    nextId := x.nextId + 1
    connections := x.connections + 1
    events :=
      .connecting x.connections placement
        (Pool.connectionProperties x.config x.nextId transactionalId) :: x.events }

/-- After an attempt that has succeeded. -/
def built (placement : Placement) (transactionalId clientId : Option String) (x : Essence) : Essence :=
  { (x.attempted placement transactionalId).note (.leased ⟨x.producers.length, 0⟩) with
    producers := x.producers ++
      [Producer.essence
        { id := x.nextId, conn := x.connections, transactionalId := transactionalId,
          clientId := clientId, placement := placement, epoch := x.epoch, owned := true }] }

/-- With the closed copy of a producer. -/
def copied (r : Ref) (x : Essence) : Essence :=
  { x with producers := x.producers ++ [(x.get r).closedCopy.essence] }

/-- What a request does at once. -/
def requested (request : Request) (x : Essence) : Essence :=
  let x := x.note (.requested request)
  match request with
  | .reset => { x with epoch := x.epoch + 1 }
  | .destroy => if x.destroyed then x else { x with destroyed := true, epoch := x.epoch + 1 }
  | .lifecycle .started => { x with stopHandled := false }
  | .lifecycle .stopped =>
    if x.stopHandled then x else { x with stopHandled := true, epoch := x.epoch + 1 }

/-- Beside the request itself only the generation and the flags have changed. -/
theorem requested_eq (request : Request) (x : Essence) : ∃ epoch destroyed stopHandled,
    x.requested request =
      { x.note (.requested request) with
        epoch := epoch, destroyed := destroyed, stopHandled := stopHandled } := by
  unfold requested
  dsimp only
  split
  case h_1 | h_3 => exact ⟨_, _, _, rfl⟩
  case h_2 | h_4 => split <;> exact ⟨_, _, _, rfl⟩

theorem get_eq_absent {x : Essence} {r : Ref} (out : x.producers.length ≤ r) :
    x.get r = Producer.absent.essence := by
  simp [get, List.getElem?_eq_none out]

theorem lt_of_owned {x : Essence} {r : Ref} (owned : (x.get r).owned = true) :
    r < x.producers.length := by
  refine Nat.lt_of_not_le fun out => ?_
  rw [get_eq_absent out] at owned
  cases owned

theorem get_spoil (r s : Ref) (error : ClientError) (x : Essence) :
    (x.spoil r error).get s =
      if r = s ∧ s < x.producers.length then
        { x.get s with failure := (x.get s).failure.or (some error) }
      else x.get s := by
  by_cases inside : s < x.producers.length
  · by_cases same : r = s <;> simp [get, spoil, same, inside]
  · simp [get, spoil, inside]

/-- A producer that is added comes last. -/
theorem get_append {x y : Essence} {z : Producer} (producers : y.producers = x.producers ++ [z])
    (s : Ref) : y.get s = if s = x.producers.length then z else x.get s := by
  rcases Nat.lt_trichotomy s x.producers.length with before | same | after
  · rw [get, producers, List.getD_eq_getElem?_getD, List.getElem?_append_left before,
      if_neg (Nat.ne_of_lt before), get, List.getD_eq_getElem?_getD]
  · simp [get, producers, same]
  · have out : (x.producers ++ [z]).length ≤ s := by
      rw [List.length_append]
      exact after
    rw [get_eq_absent (producers ▸ out), if_neg (Nat.ne_of_gt after), get_eq_absent (Nat.le_of_lt after)]

end Essence

theorem Pool.essence_get (p : Pool σ Snapshot) (r : Ref) : p.essence.get r = (p.get r).essence := by
  simp only [Essence.get, Pool.essence, Pool.get, List.getD_eq_getElem?_getD, List.getElem?_map]
  cases p.producers[r]? <;> rfl

theorem Pool.essence_owned (p : Pool σ Snapshot) (r : Ref) :
    (p.essence.get r).owned = (p.get r).owned := by
  rw [essence_get]
  rfl

theorem Pool.essence_conn (p : Pool σ Snapshot) (r : Ref) :
    (p.essence.get r).conn = (p.get r).conn := by
  rw [essence_get]
  rfl

theorem Pool.essence_events (p : Pool σ Snapshot) : p.essence.events = p.journal.filter Event.matters :=
  rfl

theorem Pool.essence_length (p : Pool σ Snapshot) : p.essence.producers.length = p.producers.length :=
  List.length_map ..

/-! ## Turns -/

namespace Pool

/-- The copies of lost producers are closed. -/
def Sealed (p : Pool σ Snapshot) : Prop := ∀ r, (p.get r).owned = false → (p.get r).phase = .disposed

/-- From `p` to `q` the essence has become `x`; code of callers has not looked at the pool in between, and
copies stay closed. -/
structure Turns (p : Pool σ Snapshot) (x : Essence) (q : Pool σ Snapshot) : Prop where
  essence : q.essence = x
  journal : ∃ events, (∀ e ∈ events, e.isMark = false) ∧ q.journal = events ++ p.journal
  sealing : p.Sealed → q.Sealed

/-- Nothing has changed that a course follows. -/
abbrev Still (p q : Pool σ Snapshot) : Prop := p.Turns p.essence q

namespace Turns

variable {x y : Essence}

theorem trans (first : p.Turns x m) (second : m.Turns y q) : p.Turns y q where
  essence := second.essence
  journal := unmarked_trans first.journal second.journal
  sealing := second.sealing ∘ first.sealing

/-- An event that matters is noted. -/
theorem record (p : Pool σ Snapshot) {e : Event Snapshot} (matters : e.matters = true)
    (unmarked : e.isMark = false) : p.Turns (p.essence.note e) (p.record e) where
  essence := by simp [Pool.essence, Pool.record, matters, Essence.note]
  journal := ⟨[e], by simpa using unmarked, rfl⟩
  sealing := id

theorem written (turns : p.Turns x q) (outside : σ) :
    Pool.written outside q.journal = Pool.written outside p.journal := by
  obtain ⟨events, unmarked, journal⟩ := turns.journal
  rw [journal, written_append _ _ unmarked]

end Turns

namespace Still

/-- Only references and the places of the factory have changed, or what lies beyond the border. -/
theorem of_eq (essence : q.essence = p.essence) (journal : q.journal = p.journal)
    (producers : q.producers = p.producers) : p.Still q where
  essence := essence
  journal := ⟨[], List.forall_mem_nil _, journal⟩
  sealing closed r := by
    rw [get, producers]
    exact closed r

theorem refl (p : Pool σ Snapshot) : p.Still p := of_eq rfl rfl rfl

theorem trans (first : p.Still m) (second : m.Still q) : p.Still q := by
  have whole := Turns.trans first second
  rwa [first.essence] at whole

/-- Events are written down that do not matter. -/
theorem write (p : Pool σ Snapshot) {events : List (Event Snapshot)}
    (idle : ∀ e ∈ events, e.matters = false) (unmarked : ∀ e ∈ events, e.isMark = false) :
    p.Still { p with journal := events ++ p.journal } where
  essence := by
    have none : events.filter Event.matters = [] :=
      List.filter_eq_nil_iff.mpr fun e member => by simp [idle e member]
    simp only [Pool.essence, List.filter_append, none, List.nil_append]
  journal := ⟨events, unmarked, rfl⟩
  sealing := id

theorem record (p : Pool σ Snapshot) {e : Event Snapshot} (idle : e.matters = false)
    (unmarked : e.isMark = false) : p.Still (p.record e) :=
  @write _ p [e] (by simpa using idle) (by simpa using unmarked)

theorem log (p : Pool σ Snapshot) (line : LogLine) : p.Still (p.log line) := record p rfl rfl

/-- A producer changes in phase or lease. -/
theorem modify (p : Pool σ Snapshot) (r : Ref) (f : Producer → Producer)
    (essence : ∀ x, (f x).essence = x.essence)
    (closed : (p.get r).phase = .disposed → (f (p.get r)).phase = .disposed) :
    p.Still (p.modify r f) where
  essence := by
    have same := map_essence_modify p.producers r f id fun x _ => essence x
    rw [List.modify_id] at same
    simp only [Pool.essence, Pool.modify, same]
  journal := ⟨[], List.forall_mem_nil _, rfl⟩
  sealing shut s := by
    have changed : (p.modify r f).get s = _ := getD_modify f p.producers r s
    rw [changed]
    split
    · rename_i here
      intro unowned
      have owned := congrArg Producer.owned (essence (p.get r))
      rw [← here.1] at unowned ⊢
      exact closed (shut r (owned.symm.trans unowned))
    · exact shut s

end Still

end Pool

/-! ## Courses -/

/-- What an operation brings about by itself. -/
inductive Pool.Changes (p : Pool σ Snapshot) : Essence → Prop
  | still : p.Changes p.essence
  /-- Listeners will be shown a closed copy of a producer of the factory. -/
  | copy (r : Ref) (owned : (p.get r).owned = true) : p.Changes (p.essence.copied r)
  | build (placement : Placement) (transactionalId clientId : Option String) (n : Nat)
      (names : p.factory.Names placement transactionalId n) :
      p.Changes (p.essence.built placement transactionalId clientId)
  | fail (placement : Placement) (transactionalId : Option String) (n : Nat)
      (names : p.factory.Names placement transactionalId n) :
      p.Changes (p.essence.attempted placement transactionalId)
  | request (request : Request) : p.Changes (p.essence.requested request)

inductive Course {σ : Type} : Pool σ Snapshot → Pool σ Snapshot → Prop
  | turn {p q : Pool σ Snapshot} {x : Essence} (changes : p.Changes x) (turns : p.Turns x q) : Course p q
  | look (p : Pool σ Snapshot) : Course p p.look
  | trans {p m q : Pool σ Snapshot} (first : Course p m) (second : Course m q) : Course p q
  /-- A raw call, in the course of which code of callers runs, and its reply. -/
  | call {p m q : Pool σ Snapshot} (h : Handle) (may : p.refusal? h = none) (inner : Course p m)
      (operation : Operation) (reply : Reply)
      (turns : m.Turns (m.essence.answered h.producer (p.get h.producer).conn operation reply) q) :
      Course p q
  /-- A delivery is completed, of which the producer may be gone by then. -/
  | deliver (p : Pool σ Snapshot) {q : Pool σ Snapshot} (d : Delivery) (outcome : Outcome)
      (turns : p.look.Turns (p.essence.delivered (p.referenced d.producer) d outcome) q) :
      Course p.look q

/-! ### What does not change -/

/-- The configuration is fixed, and producers are only added; of those there are no more than the failure
changes. -/
structure Essence.Grows (x y : Essence) : Prop where
  config : y.config = x.config
  length : x.producers.length ≤ y.producers.length
  get : ∀ r < x.producers.length, y.get r = { x.get r with failure := (y.get r).failure }

namespace Essence.Grows

variable {x y z : Essence}

theorem of_producers (config : y.config = x.config) (producers : y.producers = x.producers) :
    x.Grows y where
  config := config
  length := by rw [producers]
  get r _ := by rw [Essence.get, producers, Essence.get]

theorem refl (x : Essence) : x.Grows x := of_producers rfl rfl

theorem trans (first : x.Grows y) (second : y.Grows z) : x.Grows z where
  config := second.config.trans first.config
  length := Nat.le_trans first.length second.length
  get r inside := by rw [second.get r (Nat.lt_of_lt_of_le inside first.length), first.get r inside]

theorem append {y : Producer} (config : z.config = x.config)
    (producers : z.producers = x.producers ++ [y]) : x.Grows z where
  config := config
  length := by simp [producers]
  get r inside := by rw [get_append producers, if_neg (Nat.ne_of_lt inside)]

theorem spoil (r : Ref) (error : ClientError) (x : Essence) : x.Grows (x.spoil r error) where
  config := rfl
  length := Nat.le_of_eq (List.length_modify ..).symm
  get s _ := by
    rw [get_spoil]
    split <;> rfl

theorem answered (r : Ref) (conn : Nat) (operation : Operation) (reply : Reply) (x : Essence) :
    x.Grows (x.answered r conn operation reply) := by
  unfold Essence.answered
  split
  · exact refl x
  · exact trans (of_producers (y := x.note (.replied conn operation reply)) rfl rfl) (spoil ..)

theorem delivered (there : Bool) (d : Delivery) (outcome : Outcome) (x : Essence) :
    x.Grows (x.delivered there d outcome) := by
  have noted (y : Essence) : y.Grows (y.note (.delivering d outcome)) := of_producers rfl rfl
  unfold Essence.delivered
  split
  · exact noted x
  · split
    · exact (spoil ..).trans (noted _)
    · exact noted x

theorem changes {p : Pool σ Snapshot} (changes : p.Changes x) : p.essence.Grows x := by
  cases changes with
  | still => exact refl _
  | copy => exact append rfl rfl
  | build => exact append rfl rfl
  | fail => exact of_producers rfl rfl
  | request request =>
    obtain ⟨_, _, _, requested⟩ := p.essence.requested_eq request
    rw [requested]
    exact of_producers rfl rfl

end Essence.Grows

theorem Pool.essence_look (p : Pool σ Snapshot) : p.look.essence = p.essence := by
  simp [essence, look, mark, record, Event.matters]

namespace Course

theorem still (still : p.Still q) : Course p q := .turn .still still

theorem refl (p : Pool σ Snapshot) : Course p p := still (.refl p)

theorem foldl {α : Type} {f : Pool σ Snapshot → α → Pool σ Snapshot} (each : ∀ p x, Course p (f p x))
    (xs : List α) (p : Pool σ Snapshot) : Course p (xs.foldl f p) := by
  induction xs generalizing p with
  | nil => exact refl p
  | cons x xs ih => exact (each p x).trans (ih (f p x))

theorem grows (course : Course p q) : p.essence.Grows q.essence := by
  induction course with
  | turn changes turns =>
    rw [turns.essence]
    exact .changes changes
  | look p =>
    rw [p.essence_look]
    exact .refl _
  | trans _ _ first second => exact first.trans second
  | call h may inner operation reply turns first =>
    rw [turns.essence]
    exact first.trans (.answered ..)
  | deliver p d outcome turns =>
    rw [turns.essence, p.essence_look]
    exact .delivered ..

end Course

/-! ## What stays true -/

/-- What stays true on every course. -/
structure Keeps (holds : Pool σ Snapshot → Prop) : Prop where
  turn (p q : Pool σ Snapshot) (x : Essence) (first : holds p) (changes : p.Changes x)
    (turns : p.Turns x q) : holds q
  look (p : Pool σ Snapshot) (first : holds p) : holds p.look
  call (p m q : Pool σ Snapshot) (h : Handle) (operation : Operation) (reply : Reply) (first : holds p)
    (may : p.refusal? h = none) (inner : Course p m) (meanwhile : holds m)
    (turns : m.Turns (m.essence.answered h.producer (p.get h.producer).conn operation reply) q) : holds q
  deliver (p q : Pool σ Snapshot) (d : Delivery) (outcome : Outcome) (first : holds p.look)
    (turns : p.look.Turns (p.essence.delivered (p.referenced d.producer) d outcome) q) : holds q

namespace Keeps

variable {holds : Pool σ Snapshot → Prop} (keeps : Keeps holds)
include keeps

theorem course (course : Course p q) (first : holds p) : holds q := by
  induction course with
  | turn changes turns => exact keeps.turn _ _ _ first changes turns
  | look p => exact keeps.look p first
  | trans _ _ ih ih' => exact ih' (ih first)
  | call h may inner operation reply turns ih =>
    exact keeps.call _ _ _ h operation reply first may inner (ih first) turns
  | deliver p d outcome turns => exact keeps.deliver p _ d outcome first turns

theorem elsewhere (first : holds p) (outside : σ) : holds { p with outside := outside } :=
  keeps.turn _ _ _ first .still (Pool.Still.of_eq rfl rfl rfl)

/-- It also holds where callers look at the pool in the course of it. -/
theorem written (course : Course p q) (first : holds p) (outside : σ) :
    ∀ x ∈ Pool.written outside q.journal, x ∈ Pool.written outside p.journal ∨ holds x := by
  induction course with
  | look p =>
    intro x passed
    rcases List.mem_cons.mp passed with rfl | earlier
    · exact Or.inr (keeps.elsewhere first outside)
    · exact Or.inl earlier
  | trans early _ ih ih' =>
    intro x passed
    rcases ih' (keeps.course early first) x passed with earlier | holds
    · exact ih first x earlier
    · exact Or.inr holds
  | call h may inner operation reply turns ih =>
    intro x passed
    rw [turns.written] at passed
    exact ih first x passed
  | turn _ turns | deliver _ _ _ turns =>
    intro x passed
    rw [turns.written] at passed
    exact Or.inl passed

end Keeps

end ProducerPool
