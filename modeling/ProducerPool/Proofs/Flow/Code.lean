import ProducerPool.Proofs.Flow.Sweep

/-!
# Runs are paths

Code of callers takes a pool along a path of steps and leaves what operations in progress hold as it
was, so an invariant of the steps holds at every point of a run.
-/

set_option autoImplicit false

namespace ProducerPool

variable {σ : Type} {E : Environment σ Snapshot} {p q : Pool σ Snapshot}

theorem Act.run_balanced (tame : E.Tame) (a : Act σ)
    (passed : ∀ f, a.Passes f → ∀ p, Balanced p (f p)) (allowed : a.Allowed p) :
    Balanced p (a.run E p) := by
  have alive (owned : 0 < p.owners) : p.alive = true := Pool.alive_of_owners owned
  have handle {h : Handle} (there : h ∈ p.held ++ p.pinned) : h ∈ p.handles :=
    List.mem_append_left _ there
  cases a with
  | create t => exact Pool.create_balanced tame t (alive allowed)
  | createFor scope => exact Pool.createFor_balanced tame scope (alive allowed)
  | execute scope work =>
    exact Pool.execute_balanced tame (fun h => passed _ (.work scope work h)) scope (alive allowed)
  | reset => exact Pool.reset_balanced tame (alive allowed)
  | destroy => exact Pool.destroy_balanced tame (alive allowed)
  | onHostEvent event => exact Pool.onHostEvent_balanced tame event (alive allowed)
  | closeBound t => exact Pool.closeBound_balanced tame t (alive allowed)
  | closeFor scope => exact Pool.closeFor_balanced tame scope (alive allowed)
  | addListener name => exact Pool.settings_balanced p _ _ _ id
  | removeListener name => exact Pool.settings_balanced p _ _ _ id
  | shareFactory =>
    exact .step (.recount p (p.owners + 1) p.running (alive allowed) (by omega)) rfl rfl
  | dropFactory => exact Pool.dropFactory_balanced E p
  | operate h call => exact Pool.operate_balanced tame (handle allowed) call
  | send h r callback => exact Pool.send_balanced tame (handle allowed) r callback
  | close h timeout => exact Pool.close_balanced tame (handle allowed) timeout
  | clone h => exact .step (.hold p h (handle allowed)) rfl rfl
  | drop h => exact Pool.drop_balanced tame h p
  | deliver callback d outcome =>
    exact Pool.deliver_balanced (passed _ (.callback callback d outcome)) p
  | elsewhere outside => exact .step (.elsewhere p outside) rfl rfl

theorem Pool.look_balanced (p : Pool σ Snapshot) : Balanced p p.look := .step (.look p) rfl rfl

/-- Code of callers takes a pool along a path. -/
theorem Code.balanced (code : Code p q) : Balanced p q := by
  induction code with
  | done p => exact .refl p
  | act E a _ _ allowed _ hooks passed rest =>
    have tame : E.Tame := fun f runs p => (Pool.look_balanced p).balanced (hooks f runs p)
    have ran := Act.run_balanced tame a
      (fun f passes p => (Pool.look_balanced p).balanced (passed f passes p)) allowed
    exact (ran.balanced (Pool.look_balanced _)).balanced rest

theorem Environment.Lawful.tame (lawful : E.Lawful) : E.Tame := fun f runs p =>
  (Pool.look_balanced p).balanced (lawful f runs p).balanced

end ProducerPool
