import ProducerPool.Proofs.Course.Use

/-!
# Handing out producers

A request for a producer is a course: it searches, disposes of what it passes over, and makes at most one
attempt to build.
-/

set_option autoImplicit false

namespace ProducerPool.Pool

variable {σ : Type} {E : Environment σ Snapshot} {p q m : Pool σ Snapshot}

/-! ## Building -/

/-- Of the events of an attempt only the attempt itself matters. -/
theorem Trial.matter {conn : Nat} {placement : Placement} {properties : Properties}
    {timeout : Duration} {transactionalId : Option String} {answer : Reply}
    {events : List (Event Snapshot)}
    (trial : Trial conn placement properties timeout transactionalId answer events) :
    events.filter Event.matters = [.connecting conn placement properties] := by
  cases trial with
  | refused | bare | initialised => rfl
  | uninitialised name error closing closed =>
    have idle : closing.filter Event.matters = [] :=
      List.filter_eq_nil_iff.mpr fun e member => by simp [closed.idle e member]
    rw [List.filter_append, idle]
    rfl

theorem build_course {placement : Placement} {transactionalId : Option String} {n : Nat}
    (E : Environment σ Snapshot) (names : p.factory.Names placement transactionalId n) :
    Course p (build E placement transactionalId (p.numbered n)).1 := by
  rcases build_tries E placement transactionalId (p.numbered n) with
    ⟨error, outside, events, trial, failed⟩ | ⟨clientId, outside, events, trial, -, done⟩
  · rw [failed]
    refine .turn (.fail placement transactionalId n names) ⟨?_, ?_, id⟩
    · simp only [essence, unbuilt, List.filter_append, trial.matter]
      rfl
    · exact ⟨events, trial.failing.unmarked, rfl⟩
  · rw [done]
    refine .turn (.build placement transactionalId clientId n names) ⟨?_, ?_, fun shut s unowned => ?_⟩
    · have leased : Event.matters (.leased ⟨p.producers.length, 0⟩ : Event Snapshot) = true := rfl
      simp [essence, built, numbered, onFactory, List.filter_append, trial.matter, leased,
        Essence.built, Essence.attempted, Essence.note]
    · refine ⟨.leased ⟨p.producers.length, 0⟩ :: events, fun e member => ?_, rfl⟩
      rcases List.mem_cons.mp member with rfl | member
      · rfl
      · exact trial.connecting.unmarked e member
    · have grown := getD_append p.producers
        { id := p.factory.nextId, conn := p.connections, transactionalId := transactionalId,
          clientId := clientId, placement := placement, epoch := p.factory.epoch, owned := true } s
      rw [get, built] at unowned ⊢
      dsimp only [numbered, onFactory] at unowned ⊢
      rw [grown] at unowned ⊢
      split
      · rename_i last
        rw [if_pos last] at unowned
        cases unowned
      · rename_i old
        rw [if_neg old] at unowned
        exact shut s unowned

theorem still_reopened (h : Handle) (cache : Cache Handle) (p : Pool σ Snapshot)
    (cached : (p.get h.producer).phase = .cached) : p.Still (p.reopened h cache) := by
  have opened : p.Still (p.modify h.producer fun q =>
      { q with phase := .opened, lease := q.lease + 1 }) :=
    .modify p h.producer _ (fun _ => rfl) fun disposed => by cases cached.symm.trans disposed
  have leased := opened.trans (.record _ (e := .leased (p.renewed h)) (by simp [Event.matters, renewed])
    rfl)
  exact leased.trans (.of_eq rfl rfl rfl)

section Hooks

variable (steers : E.Steers)
include steers

/-! ## The shared producer -/

theorem renewShared_course (p : Pool σ Snapshot) : Course p (p.renewShared E).1 := by
  have built := build_course E (Factory.Names.shared (f := p.factory))
  have same : p.numbered p.factory.sequence = p := rfl
  rw [same] at built
  unfold renewShared
  rcases builds : build E .shared none p with ⟨m, error | h⟩
  · rw [builds] at built
    exact built
  · rw [builds] at built
    have placed : m.Still (m.onFactory fun f => { f with shared := some h }) := .of_eq rfl rfl rfl
    have before := built.trans (.still placed)
    dsimp only
    split
    · exact before.trans (tellAll_course steers .added h _)
    · rename_i s _
      have held := before.trans (.still (still_pin s _))
      exact (held.trans (discard_course steers s _ _)).trans (tellAll_course steers .added h _)

theorem obtainShared_course (p : Pool σ Snapshot) : Course p (p.obtainShared E).1 := by
  unfold obtainShared
  split
  · exact renewShared_course steers p
  · split
    · exact .still (still_pin _ p)
    · exact renewShared_course steers p

/-! ## Producers of threads -/

theorem bindThread_course (t : ThreadId) (h : Handle) (p : Pool σ Snapshot) :
    Course p (p.bindThread E t h) := by
  have seated : p.Still (p.seat t h) := .of_eq rfl rfl rfl
  unfold bindThread
  split
  · exact .still seated
  · exact (Course.still seated).trans (settle_course steers _ _)

theorem renewBound_course (t : ThreadId) (p : Pool σ Snapshot) : Course p (p.renewBound E t).1 := by
  obtain ⟨transactionalId, n, named, names⟩ := nameBound_names t p
  have built := build_course E names
  simp only [renewBound, named]
  rcases builds : build E (.thread t) transactionalId (p.numbered n) with ⟨m, error | h⟩
  · rw [builds] at built
    exact built
  · rw [builds] at built
    exact (built.trans (bindThread_course steers t h m)).trans (tellAll_course steers .added h _)

theorem obtainBound_course (t : ThreadId) (p : Pool σ Snapshot) : Course p (p.obtainBound E t).1 := by
  unfold obtainBound
  split
  · exact renewBound_course steers t p
  · rename_i h _
    have taken : p.Still (p.modify h.producer fun q => { q with checkedOut := true }) :=
      .modify p h.producer _ (fun _ => rfl) id
    have out := taken.trans (still_pin h _)
    dsimp only
    generalize (p.modify h.producer fun q => { q with checkedOut := true }).pin h = m at out
    split
    · exact .still out
    · have unbound : m.Still (m.unbind t h.producer) := .of_eq rfl rfl rfl
      have discarded := (Course.still (out.trans unbound)).trans (discard_course steers h
        m.factory.config.closeTimeout _)
      exact discarded.trans (renewBound_course steers t _)

/-! ## Pooled producers -/

theorem takeParked_course (key : String) (epoch fuel : Nat) (p : Pool σ Snapshot) :
    Course p (p.takeParked E key epoch fuel).1 := by
  induction fuel generalizing p with
  | zero => exact .refl p
  | succ fuel ih =>
    rcases takeParked_turn E key epoch fuel p with
      empty | ⟨h, cache, found, ⟨cached, sound, fits⟩ | passedOver⟩
    · rw [empty]
      exact .refl p
    · rw [fits]
      exact .still (still_reopened h cache p cached)
    · rw [passedOver]
      have popped : p.Still ((p.onFactory fun f => { f with cache := cache }).pin h) :=
        .of_eq rfl rfl rfl
      exact ((Course.still popped).trans (discard_course steers h _ _)).trans (ih _)

theorem renewPooled_course {scope : TransactionScope} {k : Config.PoolKey} (p : Pool σ Snapshot)
    (known : p.factory.config.poolKey scope = .ok k) : Course p (p.renewPooled E k).1 := by
  obtain ⟨transactionalId, n, named, names⟩ := namePooled_names p known
  have built := build_course E names
  simp only [renewPooled, named]
  rcases builds : build E (.pooled k.key) (some transactionalId) (p.numbered n) with ⟨m, error | h⟩
  · rw [builds] at built
    exact built
  · rw [builds] at built
    have ensured : m.Still (m.onFactory fun f => { f with cache := f.cache.ensure k.key }) :=
      .of_eq rfl rfl rfl
    exact (built.trans (.still ensured)).trans (tellAll_course steers .added h _)

theorem obtainPooled_course (scope : TransactionScope) (p : Pool σ Snapshot) :
    Course p (p.obtainPooled E scope).1 := by
  unfold obtainPooled
  split
  · exact .refl p
  · rename_i k known
    have searched := takeParked_course steers k.key p.factory.epoch (p.parkedBound E k.key) p
    split
    · rename_i m h found
      rw [found] at searched
      exact searched
    · rename_i m found
      rw [found] at searched
      have config : m.factory.config = p.factory.config := searched.grows.config
      rw [← config] at known
      exact searched.trans (renewPooled_course steers m known)

/-! ## Requests -/

theorem obtain_course (t : ThreadId) (p : Pool σ Snapshot) : Course p (p.obtain E t).1 := by
  unfold obtain
  split
  · exact .refl p
  · split
    · exact obtainBound_course steers t p
    · split
      · exact obtainPooled_course steers .empty p
      · exact obtainShared_course steers p

theorem obtainFor_course (scope : TransactionScope) (p : Pool σ Snapshot) :
    Course p (p.obtainFor E scope).1 := by
  unfold obtainFor
  split
  · exact .refl p
  · exact obtainPooled_course steers scope p

omit steers in
theorem handOverResult_course {result : Pool σ Snapshot × Except PoolError Handle}
    (course : Course p result.1) : Course p (handOverResult result).1 := by
  obtain ⟨m, error | h⟩ := result
  · exact course
  · have given : m.Still (m.handOver h) := .of_eq rfl rfl rfl
    exact course.trans (.still given)

theorem create_course (t : ThreadId) (p : Pool σ Snapshot) : Course p (p.create E t).1 :=
  withFactory_course ((Course.still (still_enter p)).trans
    (handOverResult_course (obtain_course steers t _)))

theorem createFor_course (scope : TransactionScope) (p : Pool σ Snapshot) :
    Course p (p.createFor E scope).1 :=
  withFactory_course ((Course.still (still_enter p)).trans
    (handOverResult_course (obtainFor_course steers scope _)))

end Hooks

end ProducerPool.Pool
