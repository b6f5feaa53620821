import ProducerPool.Proofs.Run

/-!
# Pools that differ in failures that are only logged

How a close of a connection fails and how a listener fails concerns nobody but the log.  Two pools are
alike if they agree in everything else: in all that a snapshot shows, and in the order of all events apart
from the replies to closes and the lines about such failures.  What lies beyond the border of alike pools is
related in a way that a client chooses.
-/

set_option autoImplicit false

namespace ProducerPool

variable {σ : Type} {S : σ → σ → Prop} {E F : Environment σ Snapshot} {p q : Pool σ Snapshot}

/-! ## What a journal tells apart from failures -/

/-- Lines about failures that are only logged, those of closes and of listeners. -/
def LogLine.isSoft : LogLine → Bool
  | .closeFailed .. | .closeAfterInitFailed _ | .listenerFailed .. => true
  | _ => false

theorem LogLine.level_of_isSoft {line : LogLine} (soft : line.isSoft = true) : line.level = .warn := by
  cases line <;> first | rfl | cases soft

/-- What is left of an event where nothing is told about failures of closes and listeners. -/
def Event.softened {μ : Type} : Event μ → Option (Event μ)
  | .replied conn .close _ => some (.replied conn .close (.ok ()))
  | .logged line => if line.isSoft then none else some (.logged line)
  | e => some e

/-- All that a transcript does not keep is what closes reply and lines that warn. -/
theorem Event.softened_cases {μ : Type} (e : Event μ) :
    e.softened = some e ∨ (∃ conn reply, e = .replied conn .close reply) ∨
      ∃ line, e = .logged line ∧ line.level = .warn := by
  cases e with
  | replied conn operation reply =>
    cases operation with
    | close => exact Or.inr (Or.inl ⟨conn, reply, rfl⟩)
    | _ => exact Or.inl rfl
  | logged line =>
    cases soft : line.isSoft with
    | true => exact Or.inr (Or.inr ⟨line, rfl, line.level_of_isSoft soft⟩)
    | false => exact Or.inl (by simp [Event.softened, soft])
  | _ => exact Or.inl rfl

namespace Pool

/-- The journal without failures of closes and listeners. -/
def transcript {μ : Type} (p : Pool σ μ) : List (Event μ) := p.journal.filterMap Event.softened

/-- `S` relates what lies beyond the borders of the two pools. -/
structure Alike (S : σ → σ → Prop) (p q : Pool σ Snapshot) : Prop where
  snapshot : p.snapshot = q.snapshot
  transcript : p.transcript = q.transcript
  outside : S p.outside q.outside

/-- Alike pools and the same answer. -/
structure Agree {α : Type} (S : σ → σ → Prop) (x y : Pool σ Snapshot × α) : Prop where
  alike : x.1.Alike S y.1
  answer : x.2 = y.2

theorem Agree.split {α : Type} {x y : Pool σ Snapshot × α} (agree : Agree S x y) :
    ∃ p q a, p.Alike S q ∧ x = (p, a) ∧ y = (q, a) :=
  ⟨x.1, y.1, x.2, agree.alike, rfl, Prod.ext rfl agree.answer.symm⟩

namespace Alike

/-! ## Reading and changing alike pools -/

theorem eq (alike : p.Alike S q) : { p with journal := q.journal, outside := q.outside } = q :=
  congrArg (fun v => restored v q.journal q.outside) alike.snapshot

theorem exists_eq (alike : p.Alike S q) :
    ∃ journal outside, q = { p with journal := journal, outside := outside } := ⟨_, _, alike.eq.symm⟩

/-- What is read off a pool without its journal is the same. -/
theorem read {α : Type} (alike : p.Alike S q) (f : Pool σ Snapshot → α)
    (frame : ∀ (p : Pool σ Snapshot) journal outside,
      f { p with journal := journal, outside := outside } = f p) : f p = f q :=
  (frame p q.journal q.outside).symm.trans (congrArg f alike.eq)

theorem factory (alike : p.Alike S q) : p.factory = q.factory :=
  alike.read (fun p => p.factory) fun _ _ _ => rfl

theorem alive (alike : p.Alike S q) : p.alive = q.alive :=
  alike.read (fun p => p.alive) fun _ _ _ => rfl

theorem get (alike : p.Alike S q) (r : Ref) : p.get r = q.get r :=
  alike.read (fun p => p.get r) fun _ _ _ => rfl

theorem isUsable (alike : p.Alike S q) (h : Handle) : p.isUsable h = q.isUsable h :=
  alike.read (fun p => p.isUsable h) fun _ _ _ => rfl

theorem refusal (alike : p.Alike S q) (h : Handle) : p.refusal? h = q.refusal? h :=
  alike.read (fun p => p.refusal? h) fun _ _ _ => rfl

/-- A change that neither reads the journal nor writes in it keeps pools alike. -/
theorem update (alike : p.Alike S q) (f : Pool σ Snapshot → Pool σ Snapshot)
    (frame : ∀ (p : Pool σ Snapshot) journal outside,
      f { p with journal := journal, outside := outside } =
        { f p with journal := journal, outside := outside }) : (f p).Alike S (f q) := by
  have left : f p = { f p with journal := p.journal, outside := p.outside } :=
    frame p p.journal p.outside
  have right : f q = { f p with journal := q.journal, outside := q.outside } := by
    rw [← frame, alike.eq]
  rw [left, right]
  exact ⟨rfl, alike.transcript, alike.outside⟩

theorem onFactory (alike : p.Alike S q) (f : Factory → Factory) :
    (p.onFactory f).Alike S (q.onFactory f) := alike.update _ fun _ _ _ => rfl

theorem modify (alike : p.Alike S q) (r : Ref) (f : Producer → Producer) :
    (p.modify r f).Alike S (q.modify r f) := alike.update _ fun _ _ _ => rfl

theorem pin (alike : p.Alike S q) (h : Handle) : (p.pin h).Alike S (q.pin h) :=
  alike.update _ fun _ _ _ => rfl

theorem release (alike : p.Alike S q) (h : Handle) :
    Alike S { p with pinned := p.pinned.erase h } { q with pinned := q.pinned.erase h } :=
  alike.update (fun p => { p with pinned := p.pinned.erase h }) fun _ _ _ => rfl

theorem elsewhere (alike : p.Alike S q) {s t : σ} (related : S s t) :
    Alike S { p with outside := s } { q with outside := t } :=
  ⟨alike.snapshot, alike.transcript, related⟩

/-! ## Writing in the journals of alike pools -/

theorem record_softened (alike : p.Alike S q) {e e' : Event Snapshot} (same : e.softened = e'.softened) :
    (p.record e).Alike S (q.record e') where
  snapshot := alike.snapshot
  transcript := by
    have before := alike.transcript
    simp only [Pool.transcript, Pool.record, List.filterMap_cons, same] at before ⊢
    rw [before]
  outside := alike.outside

theorem record (alike : p.Alike S q) (e : Event Snapshot) : (p.record e).Alike S (q.record e) :=
  alike.record_softened rfl

/-- The pools are written down in the same way. -/
theorem look (alike : p.Alike S q) : p.look.Alike S q.look := by
  rw [Pool.look, Pool.look, alike.snapshot]
  exact alike.record _

theorem lend (alike : p.Alike S q) (h : Handle) : (p.lend h).Alike S (q.lend h) :=
  (alike.pin h).record _

variable {line : LogLine}

theorem log_left (alike : p.Alike S q) (soft : line.isSoft = true) : (p.log line).Alike S q where
  snapshot := alike.snapshot
  transcript := by
    rw [← alike.transcript]
    simp [Pool.transcript, Pool.log, Pool.record, Event.softened, soft]
  outside := alike.outside

theorem log_right (alike : p.Alike S q) (soft : line.isSoft = true) : p.Alike S (q.log line) where
  snapshot := alike.snapshot
  transcript := by
    rw [alike.transcript]
    simp [Pool.transcript, Pool.log, Pool.record, Event.softened, soft]
  outside := alike.outside

/-! ## Repeated changes -/

theorem foldl {α : Type} {f g : Pool σ Snapshot → α → Pool σ Snapshot}
    (each : ∀ p q x, p.Alike S q → (f p x).Alike S (g q x)) (xs : List α) (alike : p.Alike S q) :
    (xs.foldl f p).Alike S (xs.foldl g q) := by
  induction xs generalizing p q with
  | nil => exact alike
  | cons x xs ih => exact ih (each p q x alike)

end Alike

end Pool

/-! ## Environments that answer alike -/

/-- What the environments answer by themselves.  A close may reply anything. -/
structure Environment.Corresponds (S : σ → σ → Prop) (E F : Environment σ Snapshot) : Prop where
  connects : ∀ conn properties {s t}, S s t →
    S (E.connect conn properties s).1 (F.connect conn properties t).1 ∧
      (E.connect conn properties s).2 = (F.connect conn properties t).2
  initialises : ∀ conn {s t}, S s t →
    S (E.initTransactions conn s).1 (F.initTransactions conn t).1 ∧
      (E.initTransactions conn s).2 = (F.initTransactions conn t).2
  measures : ∀ conn {s t}, S s t → E.metrics conn s = F.metrics conn t
  closes : ∀ conn timeout {s t}, S s t → S (E.close conn timeout s).1 (F.close conn timeout t).1
  calls : ∀ conn call {p q}, p.Alike S q → (E.call conn call p).2 = (F.call conn call q).2
  sends : ∀ conn r d {p q}, p.Alike S q → (E.send conn r d p).2 = (F.send conn r d q).2
  refills : E.refills = F.refills

/-- The same hook of two environments. -/
inductive Environment.RunsBoth {μ : Type} (E F : Environment σ μ) :
    (Pool σ μ → Pool σ μ) → (Pool σ μ → Pool σ μ) → Prop
  | call (conn : Nat) (call : HandleCall) :
      RunsBoth E F (fun p => (E.call conn call p).1) fun p => (F.call conn call p).1
  | send (conn : Nat) (r : Record) (d : Delivery) :
      RunsBoth E F (fun p => (E.send conn r d p).1) fun p => (F.send conn r d p).1
  | listen (listener : String) (notice : Notice) :
      RunsBoth E F (fun p => (E.listen listener notice p).1) fun p => (F.listen listener notice p).1

/-- Environments that answer alike and whose hooks keep pools alike; a listener may fail or not. -/
structure Environment.Twins (S : σ → σ → Prop) (E F : Environment σ Snapshot) : Prop
    extends E.Corresponds S F where
  hooks : ∀ f g, E.RunsBoth F f g → ∀ {p q : Pool σ Snapshot}, p.Alike S q → (f p).Alike S (g q)

end ProducerPool
