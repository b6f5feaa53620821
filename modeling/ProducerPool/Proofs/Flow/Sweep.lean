import ProducerPool.Proofs.Flow.Create

/-!
# Requests to the factory and units of work are paths

Sweeps, the requests that close what the factory keeps, and `execute`.
-/

set_option autoImplicit false

namespace ProducerPool.Pool

variable {σ : Type} {E : Environment σ Snapshot} {p q : Pool σ Snapshot} {pins : Multiset Handle}

/-! ## Handles that the factory has given up -/

/-- The operation holds what the factory gives up. -/
theorem giveUp_leads {hs : List Handle} {f : Factory} (givesUp : p.factory.GivesUp hs f) :
    Leads p (hs.foldl (fun p h => p.pin h) { p with factory := f }) (hs + p.pinned) := by
  rw [foldl_pin]
  refine .step (.giveUp p hs f givesUp) ?_ rfl
  rw [← Multiset.coe_add, Multiset.coe_reverse]

theorem retireTogether_leads (tame : E.Tame) {hs : List Handle}
    (given : Leads p (hs.foldl (fun p h => p.pin h) q) (hs + pins)) :
    Leads p (q.retireTogether E hs) pins :=
  unpinAll_leads tame hs (given.balanced (retireAll_balanced tame _ hs _))

/-- The operation holds the handles that it has just pinned. -/
theorem pinAll_leads (hs : List Handle) (p : Pool σ Snapshot) :
    Leads (hs.foldl (fun p h => p.pin h) p) (hs.foldl (fun p h => p.pin h) p) (hs + p.pinned) := by
  refine ⟨.refl, ?_, rfl⟩
  rw [foldl_pin, ← Multiset.coe_add, Multiset.coe_reverse]

theorem retireTogether_disposed (tame : E.Tame) {hs : List Handle}
    (inside : ∀ h ∈ hs, h.producer < p.producers.length) :
    ∀ h ∈ hs, ((p.retireTogether E hs).get h.producer).phase = .disposed := by
  intro h member
  have closes := (pinAll_leads hs p).balanced
    (retireAll_balanced tame p.factory.config.closeTimeout hs _)
  have settled : Path ((hs.foldl (fun p h => p.pin h) p).retireAll E p.factory.config.closeTimeout hs)
      (p.retireTogether E hs) := (unpinAll_leads tame hs ⟨.refl, closes.pinned, rfl⟩).path
  have pinned : (hs.foldl (fun p h => p.pin h) p).producers = p.producers := by rw [foldl_pin]
  rw [← pinned] at inside
  have still := Nat.lt_of_lt_of_le (inside h member) (Later.of_path closes.path).producers.length
  exact ((Later.of_path settled).get still).disposed (retireAll_disposed tame _ inside h member)

theorem retireInTurn_leads (tame : E.Tame) {hs : List Handle} (timeout : Duration)
    (given : Leads p (hs.foldl (fun p h => p.pin h) q) (hs + pins)) :
    Leads p (q.retireInTurn E timeout hs) pins := by
  unfold retireInTurn
  generalize hs.foldl (fun p h => p.pin h) q = m at given
  induction hs generalizing m with
  | nil => rwa [Multiset.coe_nil, Multiset.zero_add] at given
  | cons h hs ih =>
    rw [← Multiset.cons_coe, Multiset.cons_add] at given
    exact ih _ (unpin_of_cons tame (given.balanced (retire_balanced tame h timeout m)))

/-! ## Sweeps -/

theorem sweep_balanced (tame : E.Tame) (p : Pool σ Snapshot) : Balanced p (p.sweep E) := by
  have given : Leads p (p.idle.foldl (fun p h => p.pin h) p.giveUpIdle) (p.idle + p.pinned) :=
    giveUp_leads (.swept fun h => (p.get h.producer).checkedOut)
  have logged : Leads p
      (p.idle.foldl (fun p h => p.pin h) (p.giveUpIdle.log (.resetting p.idle.length)))
      (p.idle + p.pinned) := by
    have noted := given.balanced (.note _ (.logged (.resetting p.idle.length)) rfl)
    rw [foldl_pin] at noted ⊢
    exact noted
  exact retireTogether_leads tame logged

theorem retireBound_balanced (tame : E.Tame) (p : Pool σ Snapshot) :
    Balanced p (p.retireBound E) :=
  retireInTurn_leads tame _ (giveUp_leads .cleared)

theorem settings_balanced (p : Pool σ Snapshot) (listeners : List String)
    (destroyed stopHandled : Bool) (final : p.factory.destroyed = true → destroyed = true) :
    Balanced p (p.onFactory fun f =>
      { f with listeners := listeners, destroyed := destroyed, stopHandled := stopHandled }) :=
  .step (.settings p listeners destroyed stopHandled final) rfl rfl

/-! ## Requests -/

theorem reset_balanced (tame : E.Tame) (alive : p.alive = true) : Balanced p (p.reset E) := by
  have noted : Balanced p (p.record (.requested .reset)) := .note p _ rfl
  exact noted.balanced (withinFactory_balanced alive (sweep_balanced tame _))

theorem destroyNow_balanced (tame : E.Tame) (p : Pool σ Snapshot) : Balanced p (p.destroyNow E) := by
  have marked := settings_balanced p p.factory.listeners true p.factory.stopHandled fun _ => rfl
  have logged := marked.balanced (.note _ (.logged .destroying) rfl)
  exact (logged.balanced (sweep_balanced tame _)).balanced (retireBound_balanced tame _)

theorem destroyOnce_balanced (tame : E.Tame) (p : Pool σ Snapshot) :
    Balanced p (if p.factory.destroyed then p else p.destroyNow E) := by
  split
  · exact .refl p
  · exact destroyNow_balanced tame p

theorem destroy_balanced (tame : E.Tame) (alive : p.alive = true) : Balanced p (p.destroy E) := by
  have noted : Balanced p (p.record (.requested .destroy)) := .note p _ rfl
  exact noted.balanced (withinFactory_balanced alive (destroyOnce_balanced tame _))

theorem heed_balanced (tame : E.Tame) (event : HostEvent) (p : Pool σ Snapshot) :
    Balanced p
      (match event with
        | .started => p.onFactory fun f => { f with stopHandled := false }
        | .stopped =>
          if p.factory.stopHandled then p
          else (p.onFactory fun f => { f with stopHandled := true }).sweep E) := by
  cases event with
  | started => exact settings_balanced _ _ _ false id
  | stopped =>
    dsimp only
    split
    · exact .refl p
    · exact (settings_balanced _ _ _ true id).balanced (sweep_balanced tame _)

theorem onHostEvent_balanced (tame : E.Tame) (event : HostEvent) (alive : p.alive = true) :
    Balanced p (p.onHostEvent E event) := by
  have noted : Balanced p (p.record (.requested (.lifecycle event))) := .note p _ rfl
  exact noted.balanced (withinFactory_balanced alive (heed_balanced tame event _))

theorem unseat_balanced (tame : E.Tame) (t : ThreadId) (p : Pool σ Snapshot) :
    Balanced p
      (match p.factory.threads.lookup t with
        | none => p
        | some h =>
          let p := (p.onFactory fun f =>
            { f with threads := f.threads.filter fun entry => entry.1 ≠ t }).pin h
          (p.retire E h p.factory.config.closeTimeout).unpin E h) := by
  cases found : p.factory.threads.lookup t with
  | none => exact .refl p
  | some h =>
    have given : Leads p ((p.onFactory fun f =>
        { f with threads := f.threads.filter fun entry => entry.1 ≠ t }).pin h) (h ::ₘ p.pinned) :=
      .step (.giveUp p [h] _ (.unseated t h found)) rfl rfl
    exact unpin_of_cons tame (given.balanced (retire_balanced tame h _ _))

theorem closeBound_balanced (tame : E.Tame) (t : ThreadId) (alive : p.alive = true) :
    Balanced p (p.closeBound E t) := withinFactory_balanced alive (unseat_balanced tame t _)

theorem drain_balanced (tame : E.Tame) (scope : TransactionScope) (p : Pool σ Snapshot) :
    Balanced p
      (match p.factory.config.poolKey scope with
        | .error error => (p, .error error)
        | .ok k =>
          if k.perPartition then
            let (handles, cache) := p.factory.cache.drain k.key
            let p := p.onFactory fun f => { f with cache := cache }
            (p.retireTogether E handles, .ok handles.length)
          else (p, .ok 0) : Pool σ Snapshot × Except PoolError Nat).1 := by
  split
  · exact .refl p
  · rename_i k known
    split
    · exact retireTogether_leads tame (giveUp_leads (.drained k.key))
    · exact .refl p

theorem closeFor_balanced (tame : E.Tame) (scope : TransactionScope) (alive : p.alive = true) :
    Balanced p (p.closeFor E scope).1 := withFactory_balanced alive (drain_balanced tame scope _)

theorem dropFactory_balanced (E : Environment σ Snapshot) (p : Pool σ Snapshot) :
    Balanced p (p.dropFactory E) := by
  unfold dropFactory
  split
  · exact .refl p
  · rename_i owned
    have left := recount_leads E p (p.owners - 1) p.running (alive_of_owners (Nat.pos_of_ne_zero owned))
    exact ⟨left.1.mono Multiset.inter_le_left, left.2.1, left.2.2⟩

/-! ## Units of work -/

section Work

variable {α : Type} {work : Handle → Pool σ Snapshot → Pool σ Snapshot × Except PoolError α}
  {h : Handle}

theorem conclude_balanced (tame : E.Tame) (there : h ∈ p.pinned) (outcome : Except PoolError α) :
    Balanced p (p.conclude E h outcome).1 := by
  cases outcome with
  | ok value =>
    have committed := operate_balanced tame (mem_handles_of_pinned there) .commit
    simp only [conclude]
    split <;> simp_all only
  | error error =>
    have aborted := operate_balanced tame (mem_handles_of_pinned there) .abort
    simp only [conclude]
    rcases answer : p.operate E h .abort with ⟨q, abortError | done⟩
    all_goals rw [answer] at aborted
    · exact aborted.balanced (.note _ _ rfl)
    · exact aborted

theorem transact_balanced (tame : E.Tame) (works : ∀ h p, Balanced p (work h p).1)
    (there : h ∈ p.pinned) : Balanced p (p.transact E work h).1 := by
  have begun := operate_balanced tame (mem_handles_of_pinned there) .begin
  unfold transact
  rcases answer : p.operate E h .begin with ⟨q, error | done⟩
  all_goals rw [answer] at begun
  · have still : h ∈ q.pinned := (begun.mem_pinned h).mpr there
    exact begun.balanced (close_balanced tame (mem_handles_of_pinned still) none)
  · have worked := begun.balanced (works h q)
    have still : h ∈ (work h q).1.pinned := (worked.mem_pinned h).mpr there
    have concluded := worked.balanced (conclude_balanced tame still (work h q).2)
    have yet : h ∈ ((work h q).1.conclude E h (work h q).2).1.pinned :=
      (concluded.mem_pinned h).mpr there
    exact concluded.balanced (close_balanced tame (mem_handles_of_pinned yet) none)

/-- A unit of work for which a producer has been obtained, to the end of its transaction. -/
theorem served_balanced (tame : E.Tame) (works : ∀ h p, Balanced p (work h p).1)
    {scope : TransactionScope} (yields : p.obtainFor E scope = (q, .ok h)) :
    Balanced p ((q.transact E work h).1.unpin E h) := by
  have fetches := obtainFor_fetches (p := p) tame scope
  rw [yields] at fetches
  cases fetches with
  | fetched _ _ leads =>
    have there : h ∈ q.pinned := (leads.mem_pinned h).mpr (Multiset.mem_cons_self h _)
    exact unpin_of_cons tame (leads.balanced (transact_balanced tame works there))

theorem refused_balanced (tame : E.Tame) {scope : TransactionScope} {error : PoolError}
    (refuses : p.obtainFor E scope = (q, .error error)) : Balanced p q := by
  have fetches := obtainFor_fetches (p := p) tame scope
  rw [refuses] at fetches
  cases fetches with
  | refused _ _ balanced => exact balanced

theorem execute_balanced (tame : E.Tame) (works : ∀ h p, Balanced p (work h p).1)
    (scope : TransactionScope) (alive : p.alive = true) :
    Balanced p (p.execute E scope work).1 := by
  refine withFactory_balanced alive ?_
  rcases answer : obtainFor E scope { p with running := p.running + 1 } with ⟨q, error | h⟩
  · exact refused_balanced tame answer
  · exact served_balanced tame works answer

end Work

end ProducerPool.Pool
