import ProducerPool.Proofs.Obtain

/-!
# What is handed out again

A producer that a request hands out again is open, has no failure and is of the current generation at
that moment, under each of the three policies and whatever code of callers has done meanwhile.  So no
producer outlives a reset or an effective stop in the pool, and none that has failed comes back.
-/

set_option autoImplicit false

namespace ProducerPool

variable {σ : Type} {E : Environment σ Snapshot} {p q m r : Pool σ Snapshot} {h : Handle}
  {config : Config}

/-! ## Usable producers -/

namespace Pool

theorem isUsable_iff : p.isUsable h = true ↔
    (p.get h.producer).phase = .opened ∧ (p.get h.producer).failure = none ∧
      (p.get h.producer).epoch = p.factory.epoch := by
  simp [isUsable, Producer.isSpoiled, and_assoc]

/-- A parked producer is of the current generation, so that it is usable as soon as it is open. -/
theorem Placed.isUsable_reopened {key : String} {cache : Cache Handle} (placed : p.Placed)
    (found : p.factory.cache.pop? key = some (h, cache))
    (cached : (p.get h.producer).phase = .cached) (sound : (p.get h.producer).isSpoiled = false) :
    (p.reopened h cache).isUsable (p.renewed h) = true := by
  have inside : h.producer < p.producers.length := lt_of_phase (by simp [cached])
  have current := (placed.parked key h (Cache.parked_pop found)).2
  have opened := getD_modify (fun x => { x with phase := .opened, lease := x.lease + 1 }) p.producers
    h.producer h.producer
  rw [if_pos ⟨rfl, inside⟩] at opened
  have failure : (p.get h.producer).failure = none := by simpa [Producer.isSpoiled] using sound
  refine isUsable_iff.mpr ⟨?_, ?_, ?_⟩
  · exact congrArg Producer.phase opened
  · exact (congrArg Producer.failure opened).trans failure
  · exact (congrArg Producer.epoch opened).trans current

end Pool

/-- A request that yields a producer from before yields a usable one. -/
theorem Yields.isUsable (ordered : p.Ordered) (yields : Yields p m q h)
    (known : h.producer < p.producers.length) : q.isUsable h = true := by
  have fetched : m.isUsable h = true := by
    cases yields.source with
    | fresh x y path _ new =>
      have first := Nat.le_trans (Later.of_path path).producers.length new
      exact absurd known (Nat.not_lt.mpr first)
    | parked x path key old cache found cached sound lent =>
      rw [lent]
      exact (ordered.path path).placed.isUsable_reopened found cached sound
    | shared x path _ found usable lent =>
      rw [lent]
      exact usable
    | bound x path t _ found usable lent =>
      rw [lent]
      exact usable
  rw [Pool.isUsable_iff] at fetched ⊢
  rw [yields.same, yields.epoch]
  exact fetched

/-! ## New generations -/

namespace Pool

theorem sweep_epoch (tame : E.Tame) (p : Pool σ Snapshot) :
    p.factory.epoch < (p.sweep E).factory.epoch := by
  generalize marked : p.giveUpIdle.log (.resetting p.idle.length) = x
  have epoch : x.factory.epoch = p.factory.epoch + 1 := by
    rw [← marked]
    rfl
  generalize given : p.idle.foldl (fun p h => p.pin h) x = y
  have kept : y.factory = x.factory := by
    rw [← given, foldl_pin]
  have swept : Path y (p.sweep E) := by
    rw [sweep, marked, ← given]
    exact (retireTogether_leads tame (pinAll_leads p.idle x)).path
  have later := (Later.of_path swept).epoch
  rw [kept, epoch] at later
  exact later

/-- An operation in the factory ends in no earlier generation than it works in. -/
theorem withinFactory_epoch {f : Pool σ Snapshot → Pool σ Snapshot} {x : Pool σ Snapshot}
    (answer : f { p with running := p.running + 1 } = x)
    (inner : Balanced { p with running := p.running + 1 } x) :
    x.factory.epoch ≤ (p.withinFactory E f).factory.epoch := by
  have busy : 0 < x.running := by
    rw [inner.running]
    exact Nat.succ_pos _
  have left : Path x (p.withinFactory E f) :=
    withFactory_path (f := fun p => (f p, ())) (a := ()) (by simp only [answer]) busy
  exact (Later.of_path left).epoch

theorem reset_epoch (tame : E.Tame) (p : Pool σ Snapshot) :
    p.factory.epoch < (p.reset E).factory.epoch :=
  Nat.lt_of_lt_of_le
    (sweep_epoch tame { p.record (.requested .reset) with running := p.running + 1 })
    (withinFactory_epoch rfl (sweep_balanced tame _))

/-- The first stop since a start begins a new generation. -/
theorem stopped_epoch (tame : E.Tame) (p : Pool σ Snapshot)
    (unhandled : p.factory.stopHandled = false) :
    p.factory.epoch < (p.onHostEvent E .stopped).factory.epoch := by
  generalize marked : ({ p.record (.requested (.lifecycle .stopped)) with
    running := p.running + 1 } : Pool σ Snapshot).onFactory
      (fun f => { f with stopHandled := true }) = y
  have swept : p.factory.epoch < (y.sweep E).factory.epoch := by
    have later := sweep_epoch tame y
    rwa [show y.factory.epoch = p.factory.epoch by rw [← marked]; rfl] at later
  refine Nat.lt_of_lt_of_le swept (withinFactory_epoch ?_ ?_)
  · show (if p.factory.stopHandled = true then _ else _) = _
    rw [if_neg (by simp [unhandled]), ← marked]
    rfl
  · rw [← marked]
    exact (settings_balanced _ _ _ true id).balanced (sweep_balanced tame _)

end Pool

/-! ## Requests in a run -/

/-- What a request that begins in `p` and yields `h` in `q` keeps away from. -/
structure Reuses (config : Config) (p q : Pool σ Snapshot) (h : Handle) : Prop where
  /-- A producer from before is open, has no failure and is of the current generation. -/
  usable : h.producer < p.producers.length → (q.get h.producer).phase = .opened ∧
    (q.get h.producer).failure = none ∧ (q.get h.producer).epoch = q.factory.epoch
  /-- No producer is from before a reset. -/
  afterReset : ∀ (E : Environment σ Snapshot) (r : Pool σ Snapshot), E.Lawful → 0 < r.owners →
    Visited config r → Precedes (r.reset E) p → r.producers.length ≤ h.producer
  /-- None is from before a stop that had an effect. -/
  afterStop : ∀ (E : Environment σ Snapshot) (r : Pool σ Snapshot), E.Lawful → 0 < r.owners →
    Visited config r → r.factory.stopHandled = false → Precedes (r.onHostEvent E .stopped) p →
      r.producers.length ≤ h.producer
  /-- None has failed before. -/
  sound : ∀ r : Pool σ Snapshot, Precedes r p → (r.get h.producer).failure = none

/-- Where a new generation has begun since `r`, no producer of `r` is usable. -/
theorem Pool.Ordered.new_of_epoch (ordered : r.Ordered) (path : Path r p) (onward : Path p q)
    (newer : r.factory.epoch < p.factory.epoch)
    (usable : h.producer < p.producers.length → (q.get h.producer).epoch = q.factory.epoch) :
    r.producers.length ≤ h.producer := by
  refine Nat.le_of_not_lt fun old => ?_
  have later := Later.of_path path
  have last := Later.of_path onward
  have known : h.producer < p.producers.length := Nat.lt_of_lt_of_le old later.producers.length
  have current := usable known
  rw [((later.trans last).get old).epoch] at current
  have bound := ordered.placed.epochs h.producer old
  have grown := last.epoch
  omega

theorem requests_reuse_safely {E : Environment σ Snapshot} {p q : Pool σ Snapshot} {h : Handle}
    (visited : Visited config p) (lawful : E.Lawful) (owned : 0 < p.owners)
    (obtains : Obtains E p q h) : Reuses config p q h := by
  obtain ⟨m, yields⟩ := obtains.yields lawful
  obtain ⟨outside, path⟩ := visited.enters owned
  have entered : Path p { p with running := p.running + 1 } :=
    .single (.recount p p.owners (p.running + 1) (Pool.alive_of_owners owned) (by omega))
  have whole : Path p q := (entered.trans yields.before).trans yields.after
  have usable (known : h.producer < p.producers.length) :=
    Pool.isUsable_iff.mp (yields.isUsable ((Pool.Ordered.new config outside).path path) known)
  have ordered {r : Pool σ Snapshot} (point : Visited config r) : r.Ordered := by
    obtain ⟨first, reach⟩ := point.path
    exact (Pool.Ordered.new config first).path reach
  refine ⟨usable, ?_, ?_, ?_⟩
  · intro E' r lawful' owned' point before
    have alive : r.alive = true := Pool.alive_of_owners owned'
    have since := before.path visited
    have newer := Nat.lt_of_lt_of_le (Pool.reset_epoch lawful'.tame r) (Later.of_path since).epoch
    exact (ordered point).new_of_epoch ((Pool.reset_balanced lawful'.tame alive).path.trans since)
      whole newer fun known => (usable known).2.2
  · intro E' r lawful' owned' point unhandled before
    have alive : r.alive = true := Pool.alive_of_owners owned'
    have since := before.path visited
    have newer := Nat.lt_of_lt_of_le (Pool.stopped_epoch lawful'.tame r unhandled)
      (Later.of_path since).epoch
    exact (ordered point).new_of_epoch
      ((Pool.onHostEvent_balanced lawful'.tame .stopped alive).path.trans since) whole newer
      fun known => (usable known).2.2
  · intro r before
    have since := Later.of_path ((before.path visited).trans whole)
    cases failed : (r.get h.producer).failure with
    | none => rfl
    | some error =>
      have inside : h.producer < r.producers.length := by
        refine Nat.lt_of_not_le fun out => ?_
        rw [Pool.get_eq_absent out] at failed
        cases failed
      have known := Nat.lt_of_lt_of_le inside (Later.of_path (before.path visited)).producers.length
      have still := (since.get inside).failure error failed
      cases (usable known).2.1.symm.trans still

/-- A pooled producer is created and handed back, and a request yields it again. -/
theorem requests_reuse_safely_after_close :
    let p := (Pool.new { idPrefix := some "a" } ()).look.perform .quiet
      [.create 0, .close ⟨0, 0⟩ none]
    Obtains .quiet p (p.create .quiet 0).1 ⟨0, 1⟩ ∧
      Reuses { idPrefix := some "a" } p (p.create .quiet 0).1 ⟨0, 1⟩ := by
  intro p
  have reached := (Reached.start { idPrefix := some "a" } ()).perform Environment.quiet_lawful
    [.create 0, .close ⟨0, 0⟩ none] (by decide +kernel)
  have owned : 0 < p.owners := by decide +kernel
  have obtains : Obtains .quiet p (p.create .quiet 0).1 ⟨0, 1⟩ := .create 0 _ _ (Prod.ext rfl rfl)
  exact ⟨obtains, requests_reuse_safely reached.visited Environment.quiet_lawful owned obtains⟩

end ProducerPool
