import ProducerPool.Proofs.Invariant.Code
import ProducerPool.Proofs.Numbers

/-!
# Listeners that have been there all the time

Listeners are registered and removed by code of callers only, which writes the pool down before it goes
on.  So the pools that have been written down since before a producer was built tell how often a listener
has been registered at any moment since then, also in the middle of operations.
-/

set_option autoImplicit false

namespace ProducerPool

variable {σ : Type} {p q m : Pool σ Snapshot} {h : Handle} {r : Ref} {due left : List Duty}
  {parks : Handle → Prop} {binds : ThreadId → Option Handle → Prop} {times : Nat → Prop}
  {listener : String}

/-! ## What a move changes -/

namespace Move

/-- The factory does not come back. -/
theorem alive (move : Move parks binds due p left q) (alive : q.alive = true) : p.alive = true := by
  cases move with
  | still _ _ _ _ stays => exact stays.alive alive
  | build _ _ _ _ _ _ stays _ _ _ _ seats => exact stays.alive (seats.alive ▸ alive)
  | vacate _ _ _ _ _ vacates => exact vacates.alive ▸ alive
  | retire _ _ _ _ _ _ _ stays => exact stays.alive alive
  | forget _ _ _ _ _ _ stays => exact stays.alive alive
  | shut _ _ _ _ _ _ stays => exact stays.alive alive
  | expire => cases alive
  | _ => exact alive

/-- Somebody is told something only when it is due. -/
theorem tellings (move : Move parks binds due p left q) :
    q.tellings = p.tellings ∨ ∃ listener notice, due = .tell listener notice :: left ∧
      q = p.record (.notifying listener notice (p.get notice.handle.producer)) := by
  cases move with
  | still _ _ _ _ stays => exact Or.inl stays.tellings
  | build _ _ _ _ _ _ stays _ _ _ _ seats => exact Or.inl (seats.tellings.trans stays.tellings)
  | vacate _ _ _ _ _ vacates => exact Or.inl (by cases vacates <;> rfl)
  | retire _ _ _ _ _ _ _ stays => exact Or.inl stays.tellings
  | forget _ _ _ _ _ _ stays => exact Or.inl stays.tellings
  | shut _ _ _ _ _ _ stays => exact Or.inl stays.tellings
  | tell _ _ listener notice => exact Or.inr ⟨listener, notice, rfl, rfl⟩
  | _ => exact Or.inl rfl

end Move

/-! ## The pools that have been written down -/

namespace Pool

/-- The pools that code of callers has written down, the latest first. -/
def marks (p : Pool σ Snapshot) : List Snapshot := p.points.map snapshot

theorem marks_look (p : Pool σ Snapshot) : p.look.marks = p.snapshot :: p.marks := rfl

theorem marks_of_unmarked {events : List (Event Snapshot)} (unmarked : ∀ e ∈ events, e.isMark = false)
    (journal : q.journal = events ++ p.journal) : q.marks = p.marks := by
  rw [marks, points_of_unmarked unmarked journal, List.map_map]
  rfl

end Pool

/-- Listeners change only where the pool is written down then. -/
theorem Move.marks (move : Move parks binds due p left q) :
    q.marks = p.marks ∧ q.factory.listeners = p.factory.listeners ∨ q.marks = q.snapshot :: p.marks := by
  rcases move.journal with ⟨m, points, rfl⟩ | ⟨events, unmarked, journal⟩
  · refine Or.inr ?_
    rw [Pool.marks_look, Pool.marks, points]
    rfl
  · have marks := Pool.marks_of_unmarked unmarked journal
    cases move with
    | register => exact Or.inr rfl
    | still _ _ _ _ stays => exact Or.inl ⟨marks, stays.places.listeners⟩
    | build _ _ _ _ _ _ stays _ _ _ _ seats =>
      exact Or.inl ⟨marks, seats.listeners.trans stays.places.listeners⟩
    | giveUp _ _ _ _ givesUp => exact Or.inl ⟨marks, by cases givesUp <;> rfl⟩
    | vacate _ _ _ _ _ vacates => exact Or.inl ⟨marks, by cases vacates <;> rfl⟩
    | retire _ _ _ _ _ _ _ stays => exact Or.inl ⟨marks, stays.places.listeners⟩
    | forget _ _ _ _ _ _ stays => exact Or.inl ⟨marks, stays.places.listeners⟩
    | shut _ _ _ _ _ _ stays => exact Or.inl ⟨marks, stays.places.listeners⟩
    | _ => exact Or.inl ⟨marks, rfl⟩

namespace Pool

/-- The listeners are those of the pool that was written down last. -/
def Current (p : Pool σ Snapshot) : Prop :=
  ∀ v, p.marks.head? = some v → v.factory.listeners = p.factory.listeners

theorem Current.move (current : p.Current) (move : Move parks binds due p left q) : q.Current := by
  intro v latest
  rcases move.marks with ⟨marks, listeners⟩ | marks
  · rw [marks] at latest
    rw [listeners]
    exact current v latest
  · rw [marks] at latest
    obtain rfl := Option.some.inj latest
    rfl

/-- At every moment since one before the producer was built, `times` holds of the number of times that
the listener has been registered. -/
def Attends (times : Nat → Prop) (listener : String) (r : Ref) (p : Pool σ Snapshot) : Prop :=
  ∃ since v earlier, p.marks = since ++ v :: earlier ∧ v.producers.length ≤ r ∧
    ∀ w ∈ since ++ [v], times (w.factory.listeners.count listener)

namespace Attends

/-- A listener that has been there since before a producer was built has been there earlier on. -/
theorem before (attends : q.Attends times listener r) (move : Move parks binds due p left q)
    (known : r < p.producers.length) : p.Attends times listener r := by
  obtain ⟨since, v, earlier, marks, unborn, count⟩ := attends
  rcases move.marks with ⟨same, -⟩ | new
  · exact ⟨since, v, earlier, same ▸ marks, unborn, count⟩
  · rw [new] at marks
    cases since with
    | nil =>
      obtain ⟨rfl, -⟩ := List.cons.inj marks
      have grown := (Later.of_path move.path).producers.length
      exact absurd known (Nat.not_lt.mpr (Nat.le_trans grown unborn))
    | cons w since =>
      exact ⟨since, v, earlier, (List.cons.inj marks).2, unborn,
        fun x member => count x (List.mem_cons_of_mem _ member)⟩

theorem of_marks (k : Nat) (inside : k < p.marks.length) (unborn : p.marks[k].producers.length ≤ r)
    (count : ∀ w ∈ p.marks.take (k + 1), times (w.factory.listeners.count listener)) :
    p.Attends times listener r := by
  refine ⟨p.marks.take k, p.marks[k], p.marks.drop (k + 1), ?_, unborn, ?_⟩
  · rw [← List.drop_eq_getElem_cons inside, List.take_append_drop]
  · rw [← List.take_succ_eq_append_getElem inside]
    exact count

theorem count (attends : p.Attends times listener r) (current : p.Current) :
    times (p.factory.listeners.count listener) := by
  obtain ⟨since, v, earlier, marks, -, count⟩ := attends
  obtain ⟨w, latest, member⟩ : ∃ w, p.marks.head? = some w ∧ w ∈ since ++ [v] := by
    cases since with
    | nil => exact ⟨v, by rw [marks]; rfl, List.mem_cons_self⟩
    | cons w since => exact ⟨w, by rw [marks]; rfl, List.mem_cons_self⟩
  rw [← current w latest]
  exact count w member

end Attends

end Pool

end ProducerPool
