import ProducerPool.Proofs.Twin.Lifetime

/-!
# Working through handles of alike pools

The operations that work through a handle give the same answer in alike pools and lead to alike pools.
-/

set_option autoImplicit false

namespace ProducerPool

open Pool

variable {σ α : Type} {S : σ → σ → Prop} {E F : Environment σ Snapshot} {p q : Pool σ Snapshot}

theorem Pool.Alike.spoil (alike : p.Alike S q) (r : Ref) (error : ClientError) :
    (p.spoil r error).Alike S (q.spoil r error) := by
  simp only [Pool.spoil, alike.get]
  split
  · exact alike
  · exact (alike.record _).modify r _

theorem Pool.Alike.spoil_if (alike : p.Alike S q) (r : Ref) (error : ClientError) (spoils : Bool) :
    Alike S (if spoils then p.spoil r error else p) (if spoils then q.spoil r error else q) := by
  split
  · exact alike.spoil r error
  · exact alike

theorem Pool.Alike.isHealthy (alike : p.Alike S q) (h : Handle) : p.isHealthy h = q.isHealthy h :=
  alike.read (fun p => p.isHealthy h) fun _ _ _ => rfl

theorem Pool.Alike.shelve (alike : p.Alike S q) (h : Handle) (key : String) (timeout : Duration)
    (opened : (q.get h.producer).phase = .opened) (healthy : q.isHealthy h = true) :
    (p.shelve E h key timeout).Alike S (q.shelve F h key timeout) := by
  rw [Pool.shelve_healthy key timeout opened healthy,
    Pool.shelve_healthy key timeout (alike.get _ ▸ opened) (alike.isHealthy h ▸ healthy)]
  exact (alike.modify h.producer _).onFactory _

/-- A delivery leads to alike pools where the callbacks do. -/
theorem Pool.Alike.deliver {f g : Nat → Outcome → Pool σ Snapshot → Pool σ Snapshot} {d : Delivery}
    {outcome : Outcome}
    (runs : ∀ {p q}, p.Alike S q → (f d.callback outcome p).Alike S (g d.callback outcome q))
    (alike : p.Alike S q) : (p.deliver f d outcome).Alike S (q.deliver g d outcome) := by
  have same : p.referenced d.producer = q.referenced d.producer :=
    alike.read (fun p => p.referenced d.producer) fun _ _ _ => rfl
  unfold Pool.deliver
  rw [same]
  split
  · exact (runs ((alike.spoil_if d.producer _ _).record _)).record _
  · exact (runs (alike.record _)).record _

namespace Environment.Twins

variable (twins : E.Twins S F)
include twins

theorem operate (h : Handle) (call : HandleCall) (alike : p.Alike S q) :
    Agree S (p.operate E h call) (q.operate F h call) := by
  unfold Pool.operate
  rw [alike.refusal]
  split
  · exact ⟨alike, rfl⟩
  · refine twins.withHandle (fun {p q} alike => ?_) alike
    rw [alike.get]
    obtain ⟨p, q, reply, ran, left, right⟩ := (twins.callHandle _ call alike).split
    rw [left, right]
    rcases reply with error | done
    · exact ⟨ran.spoil_if h.producer error _, rfl⟩
    · exact ⟨ran, rfl⟩

theorem send (h : Handle) (r : Record) (callback : Nat) (alike : p.Alike S q) :
    Agree S (p.send E h r callback) (q.send F h r callback) := by
  unfold Pool.send
  rw [alike.refusal]
  split
  · exact ⟨alike, rfl⟩
  · refine twins.withHandle (fun {p q} alike => ?_) alike
    rw [alike.get]
    obtain ⟨p, q, reply, ran, left, right⟩ := (twins.callSend _ r _ alike).split
    rw [left, right]
    rcases reply with error | done
    · exact ⟨ran.spoil_if h.producer error _, rfl⟩
    · exact ⟨ran, rfl⟩

theorem metrics (h : Handle) (alike : p.Alike S q) : p.metrics E h = q.metrics F h := by
  unfold Pool.metrics
  rw [alike.refusal, alike.get, twins.measures _ alike.outside]

/-! ## Closing a handle -/

theorem takeBack (h : Handle) (timeout : Duration) (alike : p.Alike S q) :
    (p.takeBack E h timeout).Alike S (q.takeBack F h timeout) := by
  simp only [Pool.takeBack, alike.get, alike.isHealthy h]
  split
  case isTrue => exact alike
  case isFalse opened =>
  split
  case isTrue healthy =>
    split
    case h_1 key _ => exact alike.shelve h key timeout (Classical.not_not.mp opened) healthy
    case h_2 => exact alike
    case h_3 => exact alike.modify h.producer _
  case isFalse =>
    split
    case h_1 => exact twins.retire h timeout alike
    case h_2 => exact twins.retire h timeout (alike.onFactory _)
    case h_3 => exact twins.retire h timeout (alike.onFactory _)

theorem close (h : Handle) (timeout : Option Duration) (alike : p.Alike S q) :
    (p.close E h timeout).Alike S (q.close F h timeout) := by
  simp only [Pool.close, Pool.shutHandle, alike.get, alike.alive]
  split
  case isTrue => exact alike
  case isFalse =>
  split
  case isTrue =>
    refine (twins.withHandle (fun {p q} alike => ?_) alike).alike
    rw [alike.factory]
    exact ⟨twins.withinFactory (twins.takeBack h _) alike, rfl⟩
  case isFalse =>
    split
    · exact alike
    · exact twins.shut h.producer _ alike

end Environment.Twins

end ProducerPool
