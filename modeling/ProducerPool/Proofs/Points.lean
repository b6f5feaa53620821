import ProducerPool.Proofs.Flow.Code

/-!
# The points of a run

Every point of a run lies on the path that the run has taken: a path leads to it from the beginning,
and another one from it to the end.  So whatever steps preserve holds at every point.
-/

set_option autoImplicit false

namespace ProducerPool

variable {σ : Type} {p q start : Pool σ Snapshot}

/-- What every step preserves is preserved along a path. -/
theorem Path.preserves {holds : Pool σ Snapshot → Prop}
    (preserved : ∀ p q, holds p → Step p q → holds q) (path : Path p q) (first : holds p) :
    holds q := by
  induction path with
  | refl => exact first
  | tail _ step ih => exact preserved _ _ ih step

/-! ## Marks -/

def Event.isMark {μ : Type} : Event μ → Bool
  | .marked _ => true
  | _ => false

theorem Event.isMark_of_isPlain {μ : Type} {e : Event μ} (plain : e.isPlain = true) :
    e.isMark = false := by
  cases e with
  | marked m => cases plain
  | _ => rfl

theorem Closing.unmarked {μ : Type} {conn : Nat} {events : List (Event μ)}
    (closing : Closing conn events) : ∀ e ∈ events, e.isMark = false := by
  cases closing <;> simp [Event.isMark]

theorem Connecting.unmarked {μ : Type} {conn : Nat} {events : List (Event μ)}
    (connecting : Connecting conn events) : ∀ e ∈ events, e.isMark = false := by
  cases connecting <;> simp [Event.isMark]

theorem Failing.unmarked {μ : Type} {conn : Nat} {events : List (Event μ)}
    (failing : Failing conn events) : ∀ e ∈ events, e.isMark = false := by
  cases failing with
  | refused => simp [Event.isMark]
  | uninitialised _ _ _ closing closed =>
    intro e member
    rcases List.mem_append.mp member with closes | opens
    · exact closed.unmarked e closes
    · simp only [List.mem_cons, List.not_mem_nil, or_false] at opens
      rcases opens with rfl | rfl | rfl | rfl <;> rfl

theorem Pool.LetsGo.journal {r : Ref} (letsGo : p.LetsGo r q) : q.journal = p.journal := by
  cases letsGo <;> rfl

/-- A look writes the pool down; no other step writes a mark. -/
theorem Step.journal (step : Step p q) :
    q = p.look ∨ ∃ events, (∀ e ∈ events, e.isMark = false) ∧ q.journal = events ++ p.journal := by
  cases step with
  | look => exact Or.inl rfl
  | note e plain => exact Or.inr ⟨[e], by simpa using Event.isMark_of_isPlain plain, rfl⟩
  | kept r q letsGo => exact Or.inr ⟨[], List.forall_mem_nil _, letsGo.journal⟩
  | lost r m letsGo _ _ outside events closing =>
    exact Or.inr ⟨events, closing.unmarked, by rw [← letsGo.journal]; rfl⟩
  | lostOwned r m letsGo _ _ _ outside events closing =>
    exact Or.inr ⟨events, closing.unmarked, by rw [← letsGo.journal]; rfl⟩
  | build placement transactionalId clientId n outside events names connecting =>
    refine Or.inr ⟨.leased ⟨p.producers.length, 0⟩ :: events, ?_, rfl⟩
    intro e member
    rcases List.mem_cons.mp member with rfl | opens
    · rfl
    · exact connecting.unmarked e opens
  | fail placement transactionalId n outside events names failing =>
    exact Or.inr ⟨events, failing.unmarked, rfl⟩
  | call h call => exact Or.inr ⟨[_], by simp [Event.isMark], rfl⟩
  | spoil r error line => exact Or.inr ⟨[.logged line], by simp [Event.isMark], rfl⟩
  | reopen key h cache => exact Or.inr ⟨[.leased (p.renewed h)], by simp [Event.isMark], rfl⟩
  | retire r undisposed outside events closing => exact Or.inr ⟨events, closing.unmarked, rfl⟩
  | shut r undisposed alone outside events closing => exact Or.inr ⟨events, closing.unmarked, rfl⟩
  | _ => exact Or.inr ⟨[], List.forall_mem_nil _, rfl⟩

/-! ## Points -/

namespace Pool

theorem written_append (outside : σ) (before : List (Event Snapshot)) {events : List (Event Snapshot)}
    (unmarked : ∀ e ∈ events, e.isMark = false) :
    written outside (events ++ before) = written outside before := by
  induction events with
  | nil => rfl
  | cons e events ih =>
    have rest := ih fun e member => unmarked e (List.mem_cons_of_mem _ member)
    have first := unmarked e List.mem_cons_self
    cases e with
    | marked v => cases first
    | _ => exact rest

theorem written_outside (first last : σ) (journal : List (Event Snapshot)) :
    written last journal = (written first journal).map fun p => { p with outside := last } := by
  induction journal with
  | nil => rfl
  | cons e journal ih =>
    cases e with
    | marked v =>
      simp only [written, List.map_cons, ih]
      rfl
    | _ => exact ih

/-- Where what lies beyond the border has changed, the points are the same apart from it. -/
theorem points_of_unmarked {events : List (Event Snapshot)}
    (unmarked : ∀ e ∈ events, e.isMark = false) (journal : q.journal = events ++ p.journal) :
    q.points = p.points.map fun x => { x with outside := q.outside } := by
  rw [points, journal, written_append _ _ unmarked, written_outside p.outside]
  rfl

theorem unmarked_trans {m : Pool σ Snapshot}
    (first : ∃ events, (∀ e ∈ events, e.isMark = false) ∧ m.journal = events ++ p.journal)
    (second : ∃ events, (∀ e ∈ events, e.isMark = false) ∧ q.journal = events ++ m.journal) :
    ∃ events, (∀ e ∈ events, e.isMark = false) ∧ q.journal = events ++ p.journal := by
  obtain ⟨early, unmarked, journal⟩ := first
  obtain ⟨late, unmarked', journal'⟩ := second
  refine ⟨late ++ early, fun e member => ?_, ?_⟩
  · exact (List.mem_append.mp member).elim (unmarked' e) (unmarked e)
  · rw [journal', journal, List.append_assoc]

end Pool

/-- The run passes each of its points. -/
theorem Path.through (path : Path start p) (fresh : start.points = []) :
    ∀ q ∈ p.points, Path start q ∧ Path q p := by
  induction path with
  | refl =>
    rw [fresh]
    exact List.forall_mem_nil _
  | @tail m p before step ih =>
    intro q member
    rcases step.journal with rfl | ⟨events, unmarked, journal⟩
    · rw [Pool.points_look] at member
      rcases List.mem_cons.mp member with rfl | earlier
      · exact ⟨before, .single step⟩
      · exact ⟨(ih q earlier).1, (ih q earlier).2.tail step⟩
    · rw [Pool.points_of_unmarked unmarked journal] at member
      obtain ⟨x, earlier, rfl⟩ := List.mem_map.mp member
      obtain ⟨first, last⟩ := ih x earlier
      exact ⟨first.tail (.elsewhere x p.outside),
        .head (.elsewhere { x with outside := p.outside } x.outside) (last.tail step)⟩

/-- Of two points the run passes the earlier one first. -/
theorem Path.pairwise (path : Path start p) (fresh : start.points = []) :
    p.points.Pairwise fun later earlier => Path earlier later := by
  induction path with
  | refl =>
    rw [fresh]
    exact .nil
  | @tail m p before step ih =>
    rcases step.journal with rfl | ⟨events, unmarked, journal⟩
    · rw [Pool.points_look]
      exact List.pairwise_cons.mpr ⟨fun q earlier => (Path.through before fresh q earlier).2, ih⟩
    · rw [Pool.points_of_unmarked unmarked journal, List.pairwise_map]
      refine ih.imp fun {later earlier} path => ?_
      exact .head (.elsewhere { earlier with outside := p.outside } earlier.outside)
        (path.tail (.elsewhere later p.outside))

/-- Whatever is held on the way is held at every point that is passed. -/
theorem Above.written {base : Multiset Handle} (above : Above base p q) (outside : σ)
    {r : Pool σ Snapshot} (point : r ∈ Pool.written outside q.journal) :
    r ∈ Pool.written outside p.journal ∨ base ≤ r.pinned := by
  induction above with
  | refl => exact Or.inl point
  | @tail m q _ last ih =>
    rcases last.1.journal with rfl | ⟨events, unmarked, journal⟩
    · rcases List.mem_cons.mp point with rfl | earlier
      · exact Or.inr last.2
      · exact ih earlier
    · rw [journal, Pool.written_append _ _ unmarked] at point
      exact ih point

/-- The run passes its points, whatever may lie beyond the border. -/
theorem Path.of_written (path : Path start p) (fresh : start.points = []) {outside : σ}
    (point : q ∈ Pool.written outside p.journal) : Path q p := by
  rw [Pool.written_outside p.outside] at point
  obtain ⟨x, passed, rfl⟩ := List.mem_map.mp point
  exact .head (.elsewhere { x with outside := outside } x.outside) (Path.through path fresh x passed).2

/-! ## Runs of a configuration -/

section Runs

variable {config : Config}

theorem Reached.path (reached : Reached config p) : ∃ outside, Path (Pool.new config outside) p := by
  obtain ⟨outside, code⟩ := reached
  exact ⟨outside, .head (.look _) code.balanced.path⟩

theorem Visited.path (visited : Visited config p) : ∃ outside, Path (Pool.new config outside) p := by
  obtain ⟨last, reached, point⟩ := visited
  obtain ⟨outside, path⟩ := reached.path
  have passed := (Path.through path rfl _ point).1
  exact ⟨outside, passed.tail (.elsewhere { p with outside := last.outside } p.outside)⟩

/-- A pool that comes before another in a run of the configuration leads to it. -/
theorem Precedes.path (before : Precedes p q) (visited : Visited config q) : Path p q := by
  obtain ⟨outside, path⟩ := visited.path
  have moved : Step p { p with outside := q.outside } := .elsewhere p q.outside
  rcases List.mem_cons.mp before with same | point
  · rw [same] at moved
    exact .single moved
  · exact .head moved (Path.through path rfl _ point).2

end Runs

end ProducerPool
