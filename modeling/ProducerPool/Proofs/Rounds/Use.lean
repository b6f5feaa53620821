import ProducerPool.Proofs.Rounds.Basic

/-!
# Rounds while producers are used

Closing connections, letting go of handles and passing calls on only adds what can happen, if the hooks of
the environment do.
-/

set_option autoImplicit false

namespace ProducerPool

variable {σ : Type} {E : Environment σ Snapshot} {p q m : Pool σ Snapshot}

/-- Code of callers that the environment runs adds only what can happen. -/
def Environment.Recounting (E : Environment σ Snapshot) : Prop :=
  ∀ f, E.Runs f → ∀ p, Pool.Recounts p (f p)

theorem Closing.unheard {conn : Nat} {events : List (Event Snapshot)} (closing : Closing conn events) :
    ∀ e ∈ events, e.heard = false := by
  cases closing <;> simp [Event.heard]

namespace Pool

/-! ## Small changes -/

theorem shut_unheard (E : Environment σ Snapshot) (r : Ref) (timeout : Duration) (p : Pool σ Snapshot) :
    p.Unheard (p.shut E r timeout) := by
  obtain ⟨outside, events, closing, shut⟩ := shut_eq E r timeout p
  rw [shut]
  exact ⟨rfl, events, closing.unheard, rfl⟩

theorem pin_recounts (h : Handle) (p : Pool σ Snapshot) : p.Recounts (p.pin h) := .of_eq rfl rfl

theorem spoil_recounts (r : Ref) (error : ClientError) (p : Pool σ Snapshot) :
    p.Recounts (p.spoil r error) := by
  unfold spoil
  dsimp only
  split
  · exact .refl p
  · exact (Unheard.recounts ⟨rfl, [_], by simp [Event.heard], rfl⟩)

/-! ## The factory's own life -/

theorem teardownIfUnowned_recounts (E : Environment σ Snapshot) (p : Pool σ Snapshot) :
    p.Recounts (p.teardownIfUnowned E) := by
  unfold teardownIfUnowned
  split
  · exact .refl p
  · rw [teardown, foldl_pin]
    refine (Recounts.of_eq rfl rfl).trans (.foldl (fun p h => ?_) _ _)
    refine Recounts.trans (m := { p with pinned := p.pinned.erase h }) (.of_eq rfl rfl) ?_
    unfold shutLost
    split
    · exact (shut_unheard E _ _ _).recounts
    · exact .refl _

theorem dropFactory_recounts (E : Environment σ Snapshot) (p : Pool σ Snapshot) :
    p.Recounts (p.dropFactory E) := by
  unfold dropFactory
  split
  · exact .refl p
  · exact (Recounts.of_eq rfl rfl).trans (teardownIfUnowned_recounts E _)

theorem withFactory_recounts {α : Type} {f : Pool σ Snapshot → Pool σ Snapshot × α}
    (inner : ∀ p, Recounts p (f p).1) (p : Pool σ Snapshot) : p.Recounts (p.withFactory E f).1 := by
  have entered : p.Recounts { p with running := p.running + 1 } := .of_eq rfl rfl
  have worked := entered.trans (inner _)
  exact (worked.trans (.of_eq rfl rfl)).trans (teardownIfUnowned_recounts E _)

theorem withinFactory_recounts {f : Pool σ Snapshot → Pool σ Snapshot} (inner : ∀ p, Recounts p (f p))
    (p : Pool σ Snapshot) : p.Recounts (p.withinFactory E f) :=
  withFactory_recounts (f := fun p => (f p, ())) inner p

section Hooks

variable (recounting : E.Recounting)
include recounting

theorem retire_recounts (h : Handle) (timeout : Duration) (p : Pool σ Snapshot) :
    p.Recounts (p.retire E h timeout) := by
  unfold retire
  split
  · exact .refl p
  · have closed := (shut_unheard E h.producer timeout p).recounts
    exact (closed.trans (.of_eq rfl rfl)).trans
      (tellAll_recounts recounting .removed h _)

/-! ## Letting go of handles -/

theorem reportLost_recounts (r : Ref) (p : Pool σ Snapshot) : p.Recounts (p.reportLost E r) := by
  unfold reportLost
  have copied : p.Recounts (((p.onFactory fun f => { f with live := f.live - 1 }).enlist
      (p.get r).closedCopy).1.pin ⟨p.producers.length, 0⟩) := .of_eq rfl rfl
  have told := copied.trans (tellAll_recounts recounting .removed ⟨p.producers.length, 0⟩ _)
  exact told.trans (.of_eq rfl rfl)

theorem settle_recounts (r : Ref) (p : Pool σ Snapshot) : p.Recounts (p.settle E r) := by
  unfold settle
  split
  · have closed := (shut_unheard E r defaultCloseTimeout p).recounts
    dsimp only
    split
    · exact closed.trans (withinFactory_recounts (reportLost_recounts recounting r) _)
    · exact closed
  · exact .refl p

theorem drop_recounts (h : Handle) (p : Pool σ Snapshot) : p.Recounts (p.drop E h) := by
  have erased : p.Recounts { p with held := p.held.erase h } := .of_eq rfl rfl
  exact erased.trans (settle_recounts recounting h.producer _)

theorem unpin_recounts (h : Handle) (p : Pool σ Snapshot) : p.Recounts (p.unpin E h) := by
  have erased : p.Recounts { p with pinned := p.pinned.erase h } := .of_eq rfl rfl
  exact erased.trans (settle_recounts recounting h.producer _)

/-- An operation disposes of a producer and lets go of it. -/
theorem discard_recounts (h : Handle) (timeout : Duration) (p : Pool σ Snapshot) :
    p.Recounts ((p.retire E h timeout).unpin E h) :=
  (retire_recounts recounting h timeout p).trans (unpin_recounts recounting h _)

theorem withHandle_recounts {α : Type} {f : Pool σ Snapshot → Pool σ Snapshot × α}
    (inner : ∀ p, Recounts p (f p).1) (h : Handle) (p : Pool σ Snapshot) :
    p.Recounts (p.withHandle E h f).1 :=
  ((pin_recounts h p).trans (inner _)).trans (unpin_recounts recounting h _)

/-! ## Calls -/

theorem callHandle_recounts (conn : Nat) (call : HandleCall) (p : Pool σ Snapshot) :
    p.Recounts (p.callHandle E conn call).1 := by
  have called := (Unheard.record p (e := .called conn call.toRaw) rfl).recounts
  exact (called.trans (recounting _ (.call conn call) _)).trans (Unheard.record _ rfl).recounts

theorem callSend_recounts (conn : Nat) (r : Record) (d : Delivery) (p : Pool σ Snapshot) :
    p.Recounts (p.callSend E conn r d).1 := by
  have called := (Unheard.record p (e := .called conn (.send r.topic)) rfl).recounts
  exact (called.trans (recounting _ (.send conn r d) _)).trans (Unheard.record _ rfl).recounts

theorem operate_recounts (h : Handle) (call : HandleCall) (p : Pool σ Snapshot) :
    p.Recounts (p.operate E h call).1 := by
  unfold operate
  split
  · exact .refl p
  · refine withHandle_recounts recounting (fun p => ?_) h p
    have asked := callHandle_recounts recounting (p.get h.producer).conn call p
    split
    · rename_i m answered
      rwa [answered] at asked
    · rename_i m error answered
      rw [answered] at asked
      dsimp only
      split
      · exact asked.trans (spoil_recounts ..)
      · exact asked

theorem send_recounts (h : Handle) (r : Record) (callback : Nat) (p : Pool σ Snapshot) :
    p.Recounts (p.send E h r callback).1 := by
  unfold send
  split
  · exact .refl p
  · refine withHandle_recounts recounting (fun p => ?_) h p
    have asked := callSend_recounts recounting (p.get h.producer).conn r ⟨h.producer, callback⟩ p
    split
    · rename_i m answered
      rwa [answered] at asked
    · rename_i m error answered
      rw [answered] at asked
      dsimp only
      split
      · exact asked.trans (spoil_recounts ..)
      · exact asked

/-! ## Closing a handle -/

theorem takeBack_recounts (h : Handle) (timeout : Duration) (p : Pool σ Snapshot) :
    p.Recounts (p.takeBack E h timeout) := by
  unfold takeBack
  dsimp only
  split
  · exact .refl p
  · rename_i opened
    rw [ne_eq, not_not] at opened
    split
    · rename_i healthy
      split
      · rw [shelve_healthy _ timeout opened healthy]
        exact .of_eq rfl rfl
      · exact .refl p
      · exact .of_eq rfl rfl
    · split
      · exact retire_recounts recounting h timeout p
      · exact (Recounts.of_eq rfl rfl).trans (retire_recounts recounting h timeout _)
      · exact (Recounts.of_eq rfl rfl).trans (retire_recounts recounting h timeout _)

theorem close_recounts (h : Handle) (timeout : Option Duration) (p : Pool σ Snapshot) :
    p.Recounts (p.close E h timeout) := by
  unfold close
  split
  · exact .refl p
  · split
    · refine withHandle_recounts recounting (fun p => ?_) h p
      exact withinFactory_recounts (takeBack_recounts recounting h _) p
    · unfold shutHandle
      split
      · exact .refl p
      · exact (shut_unheard E _ _ p).recounts

end Hooks

/-- A delivery is completed, and the callback runs. -/
theorem deliver_recounts {callback : Nat → Outcome → Pool σ Snapshot → Pool σ Snapshot} {d : Delivery}
    {outcome : Outcome} (runs : ∀ p, Recounts p (callback d.callback outcome p)) (p : Pool σ Snapshot) :
    p.Recounts (p.deliver callback d outcome) := by
  have completed (p : Pool σ Snapshot) : p.Recounts
      ((callback d.callback outcome (p.record (.delivering d outcome))).record (.delivered d)) :=
    ((Unheard.record p rfl).recounts.trans (runs _)).trans (Unheard.record _ rfl).recounts
  refine Recounts.trans ?_ (completed _)
  split
  · split
    · exact spoil_recounts ..
    · exact .refl p
  · exact .refl p

end Pool

end ProducerPool
