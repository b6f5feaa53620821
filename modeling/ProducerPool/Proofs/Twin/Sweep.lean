import ProducerPool.Proofs.Twin.Create

/-!
# Sweeps and units of work in alike pools

A sweep closes everything that is idle although closes on its way fail, so alike pools stay alike.  So they
do in the course of a unit of work, if the work itself takes alike pools to alike pools.
-/

set_option autoImplicit false

namespace ProducerPool.Environment.Twins

open Pool

variable {σ α : Type} {S : σ → σ → Prop} {E F : Environment σ Snapshot} {p q : Pool σ Snapshot}

variable (twins : E.Twins S F)
include twins

/-! ## Sweeps -/

theorem retireTogether (hs : List Handle) (alike : p.Alike S q) :
    (p.retireTogether E hs).Alike S (q.retireTogether F hs) := by
  have pinned := Alike.foldl (fun _ _ h alike => alike.pin h) hs alike
  unfold Pool.retireTogether
  rw [alike.factory]
  exact twins.unpinAll hs (twins.retireAll _ hs pinned)

theorem sweep (alike : p.Alike S q) : (p.sweep E).Alike S (q.sweep F) := by
  have idle : p.idle = q.idle := alike.read (fun p => p.idle) fun _ _ _ => rfl
  have given := (alike.update (fun p => p.giveUpIdle) fun _ _ _ => rfl).record
    (.logged (.resetting q.idle.length))
  unfold Pool.sweep
  rw [idle]
  exact twins.retireTogether q.idle given

theorem retireInTurn (timeout : Duration) (hs : List Handle) (alike : p.Alike S q) :
    (p.retireInTurn E timeout hs).Alike S (q.retireInTurn F timeout hs) := by
  have pinned := Alike.foldl (fun _ _ h alike => alike.pin h) hs alike
  exact .foldl (fun _ _ h alike => twins.unpin h (twins.retire h timeout alike)) hs pinned

theorem retireBound (alike : p.Alike S q) : (p.retireBound E).Alike S (q.retireBound F) := by
  unfold Pool.retireBound
  rw [alike.factory]
  exact twins.retireInTurn _ _ (alike.onFactory _)

theorem destroyNow (alike : p.Alike S q) : (p.destroyNow E).Alike S (q.destroyNow F) :=
  twins.retireBound (twins.sweep ((alike.onFactory _).record _))

/-! ## Requests -/

theorem reset (alike : p.Alike S q) : (p.reset E).Alike S (q.reset F) :=
  twins.withinFactory (fun alike => twins.sweep alike) (alike.record _)

theorem destroy (alike : p.Alike S q) : (p.destroy E).Alike S (q.destroy F) := by
  refine twins.withinFactory (fun {p q} alike => ?_) (alike.record _)
  rw [alike.factory]
  split
  · exact alike
  · exact twins.destroyNow alike

theorem onHostEvent (event : HostEvent) (alike : p.Alike S q) :
    (p.onHostEvent E event).Alike S (q.onHostEvent F event) := by
  refine twins.withinFactory (fun {p q} alike => ?_) (alike.record _)
  cases event with
  | started => exact alike.onFactory _
  | stopped =>
    dsimp only
    rw [alike.factory]
    split
    · exact alike
    · exact twins.sweep (alike.onFactory _)

theorem closeBound (t : ThreadId) (alike : p.Alike S q) :
    (p.closeBound E t).Alike S (q.closeBound F t) := by
  refine twins.withinFactory (fun {p q} alike => ?_) alike
  dsimp only
  rw [alike.factory]
  split
  · exact alike
  · rename_i h _
    have given := (alike.onFactory fun f =>
      { f with threads := f.threads.filter fun entry => entry.1 ≠ t }).pin h
    rw [given.factory]
    exact twins.unpin h (twins.retire h _ given)

theorem closeFor (scope : TransactionScope) (alike : p.Alike S q) :
    Agree S (p.closeFor E scope) (q.closeFor F scope) := by
  refine twins.withFactory (fun {p q} alike => ?_) alike
  dsimp only
  rw [alike.factory]
  split
  · exact ⟨alike, rfl⟩
  · split
    · exact ⟨twins.retireTogether _ (alike.onFactory _), rfl⟩
    · exact ⟨alike, rfl⟩

/-! ## Units of work -/

section Work

variable {work work' : Handle → Pool σ Snapshot → Pool σ Snapshot × Except PoolError α}

theorem conclude (h : Handle) (outcome : Except PoolError α) (alike : p.Alike S q) :
    Agree S (p.conclude E h outcome) (q.conclude F h outcome) := by
  unfold Pool.conclude
  rcases outcome with error | value
  · obtain ⟨p, q, result, aborted, left, right⟩ := (twins.operate h .abort alike).split
    dsimp only
    rw [left, right]
    rcases result with abortError | done
    · dsimp only
      rw [aborted.get]
      exact ⟨aborted.record _, rfl⟩
    · exact ⟨aborted, rfl⟩
  · obtain ⟨p, q, result, committed, left, right⟩ := (twins.operate h .commit alike).split
    dsimp only
    rw [left, right]
    rcases result with error | done
    · exact ⟨committed, rfl⟩
    · exact ⟨committed, rfl⟩

theorem transact (works : ∀ h {p q}, p.Alike S q → Agree S (work h p) (work' h q)) (h : Handle)
    (alike : p.Alike S q) : Agree S (p.transact E work h) (q.transact F work' h) := by
  unfold Pool.transact
  obtain ⟨p, q, result, begun, left, right⟩ := (twins.operate h .begin alike).split
  rw [left, right]
  rcases result with error | done
  · exact ⟨twins.close h none begun, rfl⟩
  · obtain ⟨p, q, outcome, worked, left, right⟩ := (works h begun).split
    dsimp only
    rw [left, right]
    have concluded := twins.conclude h outcome worked
    exact ⟨twins.close h none concluded.alike, concluded.answer⟩

theorem execute (works : ∀ h {p q}, p.Alike S q → Agree S (work h p) (work' h q))
    (scope : TransactionScope) (alike : p.Alike S q) :
    Agree S (p.execute E scope work) (q.execute F scope work') := by
  refine twins.withFactory (fun {p q} alike => ?_) alike
  obtain ⟨p, q, result, obtained, left, right⟩ := (twins.obtainFor scope alike).split
  rw [left, right]
  rcases result with error | h
  · exact ⟨obtained, rfl⟩
  · have ended := twins.transact works h obtained
    exact ⟨twins.unpin h ended.alike, ended.answer⟩

end Work

end ProducerPool.Environment.Twins
