import ProducerPool.Proofs.Course.Create

/-!
# Runs are courses

Sweeps, requests, units of work, and with them everything that code of callers does.  A request changes the
generation before any code of callers can run, so it is one turn.
-/

set_option autoImplicit false

namespace ProducerPool

variable {σ : Type} {E : Environment σ Snapshot} {p q m : Pool σ Snapshot}

namespace Pool

section Hooks

variable (steers : E.Steers)
include steers

/-! ## Sweeps -/

theorem retireTogether_course (hs : List Handle) (p : Pool σ Snapshot) :
    Course p (p.retireTogether E hs) := by
  have pinned := Course.foldl (fun p h => .still (still_pin h p)) hs p
  have retired (timeout : Duration) (p : Pool σ Snapshot) : Course p (p.retireAll E timeout hs) :=
    .foldl (fun p h => retire_course steers h timeout p) hs p
  exact (pinned.trans (retired _ _)).trans (.foldl (fun p h => unpin_course steers h p) hs _)

theorem retireInTurn_course (timeout : Duration) (hs : List Handle) (p : Pool σ Snapshot) :
    Course p (p.retireInTurn E timeout hs) := by
  have pinned := Course.foldl (fun p h => .still (still_pin h p)) hs p
  exact pinned.trans (.foldl (fun p h => discard_course steers h timeout p) hs _)

theorem retireBound_course (p : Pool σ Snapshot) : Course p (p.retireBound E) := by
  have cleared : p.Still (p.onFactory fun f => { f with threads := [] }) := .of_eq rfl rfl rfl
  exact (Course.still cleared).trans (retireInTurn_course steers _ _ _)

/-- Where giving up what is idle is the turn of a request, the sweep is the rest of it. -/
theorem sweep_course (begins : Course p (m.giveUpIdle.log (.resetting m.idle.length))) :
    Course p (m.sweep E) :=
  begins.trans (retireTogether_course steers _ _)

/-! ## Requests -/

theorem reset_course (p : Pool σ Snapshot) : Course p (p.reset E) := by
  refine withinFactory_course (sweep_course steers (.turn (.request .reset) ⟨rfl, ?_, ?_⟩))
  · exact ⟨[.logged _, .requested .reset], by simp [Event.isMark], rfl⟩
  · exact id

theorem destroy_course (p : Pool σ Snapshot) : Course p (p.destroy E) := by
  refine withinFactory_course ?_
  cases destroyed : p.factory.destroyed with
  | true =>
    rw [if_pos (show (p.record (.requested .destroy)).factory.destroyed = true from destroyed)]
    refine .turn (.request .destroy) ⟨?_, ?_, ?_⟩
    · exact (if_pos (c := (p.essence.note (.requested .destroy)).destroyed = true) destroyed).symm
    · exact ⟨[.requested .destroy], by simp [Event.isMark], rfl⟩
    · exact id
  | false =>
    have runs : (p.record (.requested .destroy)).factory.destroyed ≠ true := by
      simp [record, destroyed]
    rw [if_neg runs]
    refine (sweep_course steers ?_).trans (retireBound_course steers _)
    refine .turn (.request .destroy) ⟨?_, ?_, ?_⟩
    · exact (if_neg (c := (p.essence.note (.requested .destroy)).destroyed = true) runs).symm
    · exact ⟨[.logged _, .logged _, .requested .destroy], by simp [Event.isMark], rfl⟩
    · exact id

theorem onHostEvent_course (event : HostEvent) (p : Pool σ Snapshot) :
    Course p (p.onHostEvent E event) := by
  refine withinFactory_course ?_
  cases event with
  | started =>
    refine .turn (.request (.lifecycle .started)) ⟨rfl, ?_, ?_⟩
    · exact ⟨[.requested (.lifecycle .started)], by simp [Event.isMark], rfl⟩
    · exact id
  | stopped =>
    dsimp only
    cases handled : p.factory.stopHandled with
    | true =>
      rw [if_pos (show (p.record (.requested (.lifecycle .stopped))).factory.stopHandled = true from
        handled)]
      refine .turn (.request (.lifecycle .stopped)) ⟨?_, ?_, ?_⟩
      · exact (if_pos (c := (p.essence.note _).stopHandled = true) handled).symm
      · exact ⟨[.requested (.lifecycle .stopped)], by simp [Event.isMark], rfl⟩
      · exact id
    | false =>
      have fresh : (p.record (.requested (.lifecycle .stopped))).factory.stopHandled ≠ true := by
        simp [record, handled]
      rw [if_neg fresh]
      refine sweep_course steers (.turn (.request (.lifecycle .stopped)) ⟨?_, ?_, ?_⟩)
      · exact (if_neg (c := (p.essence.note _).stopHandled = true) fresh).symm
      · exact ⟨[.logged _, .requested (.lifecycle .stopped)], by simp [Event.isMark], rfl⟩
      · exact id

theorem closeBound_course (t : ThreadId) (p : Pool σ Snapshot) : Course p (p.closeBound E t) := by
  refine withinFactory_course ((Course.still (still_enter p)).trans ?_)
  dsimp only
  split
  · exact .refl _
  · rename_i h _
    generalize ({ p with running := p.running + 1 } : Pool σ Snapshot) = m
    have given : m.Still ((m.onFactory fun f =>
        { f with threads := f.threads.filter fun entry => entry.1 ≠ t }).pin h) := .of_eq rfl rfl rfl
    exact (Course.still given).trans (discard_course steers h _ _)

theorem closeFor_course (scope : TransactionScope) (p : Pool σ Snapshot) :
    Course p (p.closeFor E scope).1 := by
  refine withFactory_course ((Course.still (still_enter p)).trans ?_)
  generalize ({ p with running := p.running + 1 } : Pool σ Snapshot) = m
  dsimp only
  split
  · exact .refl _
  · split
    · rename_i k _ _
      have drained : m.Still (m.onFactory fun f => { f with cache := (m.factory.cache.drain k.key).2 }) :=
        .of_eq rfl rfl rfl
      exact (Course.still drained).trans (retireTogether_course steers _ _)
    · exact .refl _

/-! ## Units of work -/

section Work

variable {α : Type} {work : Handle → Pool σ Snapshot → Pool σ Snapshot × Except PoolError α}

theorem conclude_course (h : Handle) (outcome : Except PoolError α) (p : Pool σ Snapshot) :
    Course p (p.conclude E h outcome).1 := by
  unfold conclude
  rcases outcome with error | value
  · have aborted := operate_course steers h .abort p
    rcases ends : p.operate E h .abort with ⟨m, abortError | done⟩
    all_goals
      rw [ends] at aborted
      dsimp only
    · exact aborted.trans (.still (.log m _))
    · exact aborted
  · have committed := operate_course steers h .commit p
    rcases ends : p.operate E h .commit with ⟨m, error | done⟩
    all_goals
      rw [ends] at committed
      dsimp only
      exact committed

theorem transact_course (works : ∀ h p, Course p (work h p).1) (h : Handle) (p : Pool σ Snapshot) :
    Course p (p.transact E work h).1 := by
  unfold transact
  have begun := operate_course steers h .begin p
  rcases begins : p.operate E h .begin with ⟨m, error | done⟩
  all_goals
    rw [begins] at begun
    dsimp only
  · exact begun.trans (close_course steers h none m)
  · exact ((begun.trans (works h m)).trans (conclude_course steers h _ _)).trans
      (close_course steers h none _)

theorem execute_course (works : ∀ h p, Course p (work h p).1) (scope : TransactionScope)
    (p : Pool σ Snapshot) : Course p (p.execute E scope work).1 := by
  refine withFactory_course ((Course.still (still_enter p)).trans ?_)
  generalize ({ p with running := p.running + 1 } : Pool σ Snapshot) = m
  have obtained := obtainFor_course steers scope m
  rcases obtains : m.obtainFor E scope with ⟨n, error | h⟩
  all_goals
    rw [obtains] at obtained
    dsimp only
  · exact obtained
  · exact (obtained.trans (transact_course steers works h n)).trans (unpin_course steers h _)

end Work

end Hooks

end Pool

/-! ## Code of callers -/

theorem Act.run_course (steers : E.Steers) (a : Act σ) (passed : ∀ f, a.Passes f → ∀ p, Course p (f p))
    (x : Pool σ Snapshot) : Course x.look (a.run E x.look) := by
  cases a with
  | create t => exact Pool.create_course steers t _
  | createFor scope => exact Pool.createFor_course steers scope _
  | execute scope work => exact Pool.execute_course steers (fun h => passed _ (.work scope work h)) scope _
  | reset => exact Pool.reset_course steers _
  | destroy => exact Pool.destroy_course steers _
  | onHostEvent event => exact Pool.onHostEvent_course steers event _
  | closeBound t => exact Pool.closeBound_course steers t _
  | closeFor scope => exact Pool.closeFor_course steers scope _
  | dropFactory => exact Pool.dropFactory_course E _
  | operate h call => exact Pool.operate_course steers h call _
  | send h r callback => exact Pool.send_course steers h r callback _
  | close h timeout => exact Pool.close_course steers h timeout _
  | drop h => exact Pool.drop_course steers h _
  | deliver callback d outcome =>
    exact Pool.deliver_course (passed _ (.callback callback d outcome)) x
  | addListener | removeListener | shareFactory | clone | elsewhere =>
    exact .still (Pool.Still.of_eq rfl rfl rfl)

/-- Code of callers, which begins by looking at the pool, is a course. -/
theorem Code.course (code : Code p q) : ∀ x : Pool σ Snapshot, p = x.look → Course p q := by
  induction code with
  | done p => exact fun _ _ => .refl p
  | act E a _ _ _ _ hooks passed rest =>
    rintro x rfl
    have steers : E.Steers := fun f runs p => (Course.look p).trans (hooks f runs p p rfl)
    have ran := a.run_course steers (fun f passes p => (Course.look p).trans (passed f passes p p rfl)) x
    exact ran.trans ((Course.look _).trans (rest _ rfl))

/-! ## Runs of a configuration -/

section Runs

variable {config : Config} {holds : Pool σ Snapshot → Prop}

theorem Reached.course (reached : Reached config p) :
    ∃ outside, Course (Pool.new config outside) p := by
  obtain ⟨outside, code⟩ := reached
  exact ⟨outside, (Course.look _).trans (code.course _ rfl)⟩

/-- What stays true on every course, and is true at its beginning, is true at every point of a run. -/
theorem Keeps.visited (keeps : Keeps holds) (first : ∀ outside : σ, holds (Pool.new config outside))
    (visited : Visited config p) : holds p := by
  obtain ⟨q, reached, point⟩ := visited
  obtain ⟨outside, course⟩ := reached.course
  rcases keeps.written course (first outside) q.outside _ point with none | passed
  · cases none
  · exact keeps.elsewhere passed p.outside

end Runs

end ProducerPool
