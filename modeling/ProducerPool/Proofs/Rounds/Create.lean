import ProducerPool.Proofs.Rounds.Use

/-!
# Rounds while producers are handed out

Searching, disposing of what is passed over and building only adds what can happen.
-/

set_option autoImplicit false

namespace ProducerPool.Pool

variable {σ : Type} {E : Environment σ Snapshot} {p q : Pool σ Snapshot}

/-! ## Building -/

theorem Trial.unnoticed {conn : Nat} {placement : Placement} {properties : Properties}
    {timeout : Duration} {transactionalId : Option String} {answer : Reply}
    {events : List (Event Snapshot)}
    (trial : Trial conn placement properties timeout transactionalId answer events) :
    ∀ e ∈ events, e.heard = false := by
  cases trial with
  | refused | bare | initialised => simp [Event.heard]
  | uninitialised name error closing closed =>
    intro e member
    rcases List.mem_append.mp member with closes | opens
    · exact closed.unheard e closes
    · simp only [List.mem_cons, List.not_mem_nil, or_false] at opens
      rcases opens with rfl | rfl | rfl | rfl <;> rfl

theorem build_recounts (E : Environment σ Snapshot) (placement : Placement)
    (transactionalId : Option String) (p : Pool σ Snapshot) :
    p.Recounts (build E placement transactionalId p).1 := by
  rcases build_tries E placement transactionalId p with
    ⟨error, outside, events, trial, failed⟩ | ⟨clientId, outside, events, trial, -, done⟩
  · rw [failed]
    exact Unheard.recounts ⟨rfl, events, trial.unnoticed, rfl⟩
  · rw [done]
    refine Unheard.recounts ⟨rfl, .leased ⟨p.producers.length, 0⟩ :: events, ?_, rfl⟩
    exact List.forall_mem_cons.mpr ⟨rfl, trial.unnoticed⟩

theorem drawTransactionalId_recounts (idPrefix : String) (p : Pool σ Snapshot) :
    p.Recounts (p.drawTransactionalId idPrefix).1 := .of_eq rfl rfl

section Hooks

variable (recounting : E.Recounting)
include recounting

/-! ## The shared producer -/

theorem renewShared_recounts (p : Pool σ Snapshot) : p.Recounts (p.renewShared E).1 := by
  have built := build_recounts E .shared none p
  unfold renewShared
  rcases builds : build E .shared none p with ⟨m, error | h⟩
  · rw [builds] at built
    exact built
  · rw [builds] at built
    have placed : p.Recounts (m.onFactory fun f => { f with shared := some h }) :=
      built.trans (.of_eq rfl rfl)
    dsimp only
    split
    · exact placed.trans (tellAll_recounts recounting .added h _)
    · rename_i s _
      have held := placed.trans (pin_recounts s _)
      exact (held.trans (discard_recounts recounting s _ _)).trans
        (tellAll_recounts recounting .added h _)

theorem obtainShared_recounts (p : Pool σ Snapshot) : p.Recounts (p.obtainShared E).1 := by
  unfold obtainShared
  split
  · exact renewShared_recounts recounting p
  · split
    · exact pin_recounts _ p
    · exact renewShared_recounts recounting p

/-! ## Producers of threads -/

theorem bindThread_recounts (t : ThreadId) (h : Handle) (p : Pool σ Snapshot) :
    p.Recounts (p.bindThread E t h) := by
  have seated : p.Recounts (p.seat t h) := .of_eq rfl rfl
  unfold bindThread
  split
  · exact seated
  · exact seated.trans (settle_recounts recounting _ _)

theorem renewBound_recounts (t : ThreadId) (p : Pool σ Snapshot) :
    p.Recounts (p.renewBound E t).1 := by
  have named : p.Recounts p.nameBound.1 := by
    unfold nameBound
    split
    · exact .refl p
    · rename_i idPrefix _
      exact drawTransactionalId_recounts idPrefix p
  unfold renewBound
  rcases names : p.nameBound with ⟨m, transactionalId⟩
  rw [names] at named
  have built := named.trans (build_recounts E (.thread t) transactionalId m)
  dsimp only
  rcases builds : build E (.thread t) transactionalId m with ⟨n, error | h⟩
  · rw [builds] at built
    exact built
  · rw [builds] at built
    exact (built.trans (bindThread_recounts recounting t h n)).trans
      (tellAll_recounts recounting .added h _)

theorem obtainBound_recounts (t : ThreadId) (p : Pool σ Snapshot) :
    p.Recounts (p.obtainBound E t).1 := by
  unfold obtainBound
  split
  · exact renewBound_recounts recounting t p
  · rename_i h _
    have taken : p.Recounts ((p.modify h.producer fun q => { q with checkedOut := true }).pin h) :=
      .of_eq rfl rfl
    dsimp only
    generalize (p.modify h.producer fun q => { q with checkedOut := true }).pin h = m at taken
    split
    · exact taken
    · have unbound : m.Recounts (m.unbind t h.producer) := .of_eq rfl rfl
      have discarded := (taken.trans unbound).trans
        (discard_recounts recounting h m.factory.config.closeTimeout _)
      exact discarded.trans (renewBound_recounts recounting t _)

/-! ## Pooled producers -/

theorem takeParked_recounts (key : String) (epoch fuel : Nat) (p : Pool σ Snapshot) :
    p.Recounts (p.takeParked E key epoch fuel).1 := by
  induction fuel generalizing p with
  | zero => exact .refl p
  | succ fuel ih =>
    rcases takeParked_turn E key epoch fuel p with
      empty | ⟨h, cache, found, ⟨cached, sound, fits⟩ | passedOver⟩
    · rw [empty]
      exact .refl p
    · rw [fits]
      exact Unheard.recounts ⟨rfl, [.leased (p.renewed h)], by simp [Event.heard], rfl⟩
    · rw [passedOver]
      have popped : p.Recounts ((p.onFactory fun f => { f with cache := cache }).pin h) :=
        .of_eq rfl rfl
      exact (popped.trans (discard_recounts recounting h _ _)).trans (ih _)

theorem renewPooled_recounts (k : Config.PoolKey) (p : Pool σ Snapshot) :
    p.Recounts (p.renewPooled E k).1 := by
  have named : p.Recounts (p.namePooled k).1 := by
    unfold namePooled
    split
    · exact .refl p
    · exact drawTransactionalId_recounts _ p
  unfold renewPooled
  rcases names : p.namePooled k with ⟨m, transactionalId⟩
  rw [names] at named
  have built := named.trans (build_recounts E (.pooled k.key) (some transactionalId) m)
  dsimp only
  rcases builds : build E (.pooled k.key) (some transactionalId) m with ⟨n, error | h⟩
  · rw [builds] at built
    exact built
  · rw [builds] at built
    have ensured : p.Recounts (n.onFactory fun f => { f with cache := f.cache.ensure k.key }) :=
      built.trans (.of_eq rfl rfl)
    exact ensured.trans (tellAll_recounts recounting .added h _)

theorem obtainPooled_recounts (scope : TransactionScope) (p : Pool σ Snapshot) :
    p.Recounts (p.obtainPooled E scope).1 := by
  unfold obtainPooled
  split
  · exact .refl p
  · rename_i k _
    have searched :=
      takeParked_recounts recounting k.key p.factory.epoch (p.parkedBound E k.key) p
    split
    · rename_i m h found
      rw [found] at searched
      exact searched
    · rename_i m found
      rw [found] at searched
      exact searched.trans (renewPooled_recounts recounting k m)

/-! ## Requests -/

theorem obtain_recounts (t : ThreadId) (p : Pool σ Snapshot) : p.Recounts (p.obtain E t).1 := by
  unfold obtain
  split
  · exact .refl p
  · split
    · exact obtainBound_recounts recounting t p
    · split
      · exact obtainPooled_recounts recounting .empty p
      · exact obtainShared_recounts recounting p

theorem obtainFor_recounts (scope : TransactionScope) (p : Pool σ Snapshot) :
    p.Recounts (p.obtainFor E scope).1 := by
  unfold obtainFor
  split
  · exact .refl p
  · exact obtainPooled_recounts recounting scope p

omit recounting in
theorem handOverResult_recounts {result : Pool σ Snapshot × Except PoolError Handle}
    (before : p.Recounts result.1) : p.Recounts (handOverResult result).1 := by
  obtain ⟨m, error | h⟩ := result
  · exact before
  · exact before.trans (.of_eq rfl rfl)

theorem create_recounts (t : ThreadId) (p : Pool σ Snapshot) : p.Recounts (p.create E t).1 :=
  withFactory_recounts (fun p => handOverResult_recounts (obtain_recounts recounting t p)) p

theorem createFor_recounts (scope : TransactionScope) (p : Pool σ Snapshot) :
    p.Recounts (p.createFor E scope).1 :=
  withFactory_recounts (fun p => handOverResult_recounts (obtainFor_recounts recounting scope p)) p

end Hooks

end ProducerPool.Pool
