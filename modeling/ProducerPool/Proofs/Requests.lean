import ProducerPool.Proofs.Course.Code

/-!
# What begins a generation

A generation begins with every request to reset, with the first request to destroy, and with a stop that
is the first one since the last start.  So the requests that have been written down tell the number of the
generation, at every point of a run, and in whatever order listeners add requests to those of others.
-/

set_option autoImplicit false

namespace ProducerPool

variable {σ μ : Type} {p : Pool σ Snapshot} {config : Config}

/-! ## Requests -/

/-- The requests of a run, the latest first. -/
abbrev Requests := List Request

namespace Requests

/-- Whether a stop has been reported and no start since. -/
def stopPending : Requests → Bool
  | [] => false
  | .lifecycle .stopped :: _ => true
  | .lifecycle .started :: _ => false
  | _ :: earlier => stopPending earlier

/-- The stops before which there was no other since the last start. -/
def firstStops : Requests → Nat
  | [] => 0
  | .lifecycle .stopped :: earlier => firstStops earlier + if stopPending earlier then 0 else 1
  | _ :: earlier => firstStops earlier

/-- The number of the generation and the flags that the requests lead to. -/
structure Determine (requests : Requests) (epoch : Nat) (destroyed stopHandled : Bool) : Prop where
  epoch : epoch =
    requests.count .reset + (if .destroy ∈ requests then 1 else 0) + requests.firstStops
  destroyed : destroyed = decide (.destroy ∈ requests)
  stopHandled : stopHandled = requests.stopPending

theorem stopPending_of_split {later earlier : Requests}
    (unstarted : Request.lifecycle .started ∉ later) :
    stopPending (later ++ .lifecycle .stopped :: earlier) = true := by
  induction later with
  | nil => rfl
  | cons request later ih =>
    have rest := ih fun member => unstarted (List.mem_cons_of_mem _ member)
    cases request with
    | reset | destroy => exact rest
    | lifecycle event =>
      cases event with
      | started => exact absurd List.mem_cons_self unstarted
      | stopped => rfl

namespace Determine

variable {requests : Requests} {epoch : Nat} {destroyed stopHandled : Bool}

theorem reset (before : requests.Determine epoch destroyed stopHandled) :
    Determine (.reset :: requests) (epoch + 1) destroyed stopHandled where
  epoch := by
    simp [firstStops, before.epoch]
    omega
  destroyed := by simp [before.destroyed]
  stopHandled := before.stopHandled

theorem destroy (before : requests.Determine epoch false stopHandled) :
    Determine (.destroy :: requests) (epoch + 1) true stopHandled where
  epoch := by
    have first : Request.destroy ∉ requests := of_decide_eq_false before.destroyed.symm
    have counted := before.epoch
    simp [firstStops, first] at counted ⊢
    omega
  destroyed := by simp
  stopHandled := before.stopHandled

theorem destroyAgain (before : requests.Determine epoch true stopHandled) :
    Determine (.destroy :: requests) epoch true stopHandled where
  epoch := by
    have again : Request.destroy ∈ requests := of_decide_eq_true before.destroyed.symm
    have counted := before.epoch
    simp [firstStops, again] at counted ⊢
    exact counted
  destroyed := by simp
  stopHandled := before.stopHandled

theorem started (before : requests.Determine epoch destroyed stopHandled) :
    Determine (.lifecycle .started :: requests) epoch destroyed false where
  epoch := by simp [firstStops, before.epoch]
  destroyed := by simp [before.destroyed]
  stopHandled := rfl

theorem stopped (before : requests.Determine epoch destroyed false) :
    Determine (.lifecycle .stopped :: requests) (epoch + 1) destroyed true where
  epoch := by simp [firstStops, before.epoch, ← before.stopHandled, Nat.add_assoc]
  destroyed := by simp [before.destroyed]
  stopHandled := rfl

theorem stoppedAgain (before : requests.Determine epoch destroyed true) :
    Determine (.lifecycle .stopped :: requests) epoch destroyed true where
  epoch := by simp [firstStops, before.epoch, ← before.stopHandled]
  destroyed := by simp [before.destroyed]
  stopHandled := rfl

end Determine

end Requests

def Event.request? : Event μ → Option Request
  | .requested request => some request
  | _ => none

def Pool.requests (p : Pool σ Snapshot) : Requests := p.journal.filterMap Event.request?

/-- Only events that matter are requests. -/
theorem requests_filter (events : List (Event μ)) :
    (events.filter Event.matters).filterMap Event.request? = events.filterMap Event.request? := by
  rw [List.filterMap_filter]
  refine List.filterMap_congr fun e _ => ?_
  cases e with
  | requested => rfl
  | _ => exact ite_self none

/-! ## What stays true -/

namespace Essence

variable {x y : Essence}

def requests (x : Essence) : Requests := x.events.filterMap Event.request?

/-- The requests so far have led to the generation and to the flags of the factory. -/
def Counted (x : Essence) : Prop := x.requests.Determine x.epoch x.destroyed x.stopHandled

namespace Counted

theorem answered (counted : x.Counted) (r : Ref) (conn : Nat) (operation : Operation) (reply : Reply) :
    (x.answered r conn operation reply).Counted := by
  unfold Essence.answered
  split <;> exact counted

theorem delivered (counted : x.Counted) (there : Bool) (d : Delivery) (outcome : Outcome) :
    (x.delivered there d outcome).Counted := by
  unfold Essence.delivered
  split
  · exact counted
  · split <;> exact counted

theorem requested (counted : x.Counted) (request : Request) : (x.requested request).Counted := by
  unfold Counted at counted
  unfold Essence.requested
  dsimp only
  split
  case h_1 => exact counted.reset
  case h_2 =>
    split
    case isTrue again =>
      have destroyed : x.destroyed = true := again
      rw [destroyed] at counted
      have next := counted.destroyAgain
      rwa [← destroyed] at next
    case isFalse first =>
      rw [show x.destroyed = false from Bool.eq_false_iff.mpr first] at counted
      exact counted.destroy
  case h_3 => exact counted.started
  case h_4 =>
    split
    case isTrue again =>
      have handled : x.stopHandled = true := again
      rw [handled] at counted
      have next := counted.stoppedAgain
      rwa [← handled] at next
    case isFalse first =>
      rw [show x.stopHandled = false from Bool.eq_false_iff.mpr first] at counted
      exact counted.stopped

end Counted

end Essence

theorem Pool.counted_keeps : Keeps (σ := σ) fun p => p.essence.Counted where
  turn p q x counted changes turns := by
    rw [turns.essence]
    cases changes with
    | request request => exact counted.requested request
    | _ => exact counted
  look p counted := by
    rw [essence_look]
    exact counted
  call p m q h operation reply first may inner counted turns := by
    rw [turns.essence]
    exact counted.answered ..
  deliver p q d outcome counted turns := by
    rw [essence_look] at counted
    rw [turns.essence]
    exact counted.delivered ..

/-! ## Requests of a run -/

theorem Visited.counted (visited : Visited config p) :
    p.requests.Determine p.factory.epoch p.factory.destroyed p.factory.stopHandled := by
  have counted := Pool.counted_keeps.visited (fun outside => ⟨rfl, rfl, rfl⟩) visited
  rw [Essence.Counted, Essence.requests, p.essence_events, requests_filter] at counted
  exact counted

namespace Pool

/-- A stop that is reported while another one is pending is only written down. -/
theorem onHostEvent_again (handled : p.factory.stopHandled = true) (owned : 0 < p.owners)
    (E : Environment σ Snapshot) :
    p.onHostEvent E .stopped = p.record (.requested (.lifecycle .stopped)) := by
  generalize noted : p.record (.requested (.lifecycle .stopped)) = q
  have handled : q.factory.stopHandled = true := by rw [← noted]; exact handled
  have alive : q.alive = true := by rw [← noted]; exact alive_of_owners owned
  simp [onHostEvent, noted, withinFactory, withFactory, handled, teardownIfUnowned, alive]

/-- What the requests so far have led to. -/
structure Generated (p : Pool σ Snapshot) : Prop where
  /-- Every reset has begun a generation, the first request to destroy has, and so have the first stops. -/
  epoch : p.factory.epoch =
    p.requests.count .reset + (if .destroy ∈ p.requests then 1 else 0) + p.requests.firstStops
  /-- After a stop, without a start since, a further stop is written down, and nothing else happens. -/
  again : ∀ later earlier, p.requests = later ++ .lifecycle .stopped :: earlier →
    .lifecycle .started ∉ later → ∀ E : Environment σ Snapshot, 0 < p.owners →
      p.onHostEvent E .stopped = p.record (.requested (.lifecycle .stopped))

end Pool

theorem epoch_counts_requests (visited : Visited config p) : p.Generated where
  epoch := visited.counted.epoch
  again later earlier split unstarted E owned := by
    have pending : Requests.stopPending (later ++ .lifecycle .stopped :: earlier) = true :=
      Requests.stopPending_of_split unstarted
    rw [← split, ← visited.counted.stopHandled] at pending
    exact Pool.onHostEvent_again pending owned E

/-- What a listener does that hears of a removal: it reports a stop, a start and a stop, and destroys. -/
def upheaval : List (Act Unit) :=
  [.onHostEvent .stopped, .onHostEvent .started, .onHostEvent .stopped, .destroy]

def Environment.unruly : Environment Unit Snapshot :=
  { Environment.quiet with
    metrics := fun _ _ => [.ofParts "" "" 0 [(Metric.clientIdTag, "c")]]
    listen := fun _ notice p =>
      if notice.kind = .removed ∧ p.look.Permits .quiet upheaval then
        (p.look.perform .quiet upheaval, none)
      else (p.look, none) }

theorem Environment.unruly_lawful : Environment.unruly.Lawful := by
  refine .of_listen (fun _ _ _ => rfl) (fun _ _ _ _ => rfl) fun listener notice p => ?_
  dsimp only [Environment.unruly]
  split
  case isTrue both => exact ⟨upheaval, both.2, rfl⟩
  case isFalse => exact ⟨[], trivial, rfl⟩

/-- In the course of the sweep of a stop the next one is ignored, and the one after a start is not. -/
theorem epoch_counts_requests_of_unruly :
    let p := (Pool.new {} ()).look.perform .unruly [.addListener "l", .create 0, .onHostEvent .stopped]
    Visited {} p ∧ p.Generated ∧ p.factory.epoch = 3 ∧
      p.requests = [.destroy, .lifecycle .stopped, .lifecycle .started, .lifecycle .stopped,
        .lifecycle .stopped] ∧
      p.onHostEvent .unruly .stopped = p.record (.requested (.lifecycle .stopped)) := by
  intro p
  have visited : Visited {} p := ((Reached.start ({} : Config) ()).perform Environment.unruly_lawful
    [.addListener "l", .create 0, .onHostEvent .stopped] (by decide +kernel)).visited
  have generated := epoch_counts_requests visited
  have requests : p.requests = [.destroy, .lifecycle .stopped, .lifecycle .started,
    .lifecycle .stopped, .lifecycle .stopped] := by decide +kernel
  refine ⟨visited, generated, ?_, requests, ?_⟩
  · rw [generated.epoch, requests]
    decide
  · exact generated.again [.destroy] _ requests (by decide) .unruly (by decide +kernel)

end ProducerPool
