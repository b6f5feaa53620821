import ProducerPool.Proofs.Twin.Alike

/-!
# Closing and notifying in alike pools

Whatever a close replies and however a listener fails, the operations that close connections, tell
listeners and let go of handles lead from alike pools to alike pools, and those that work through a handle
give the same answer.
-/

set_option autoImplicit false

namespace ProducerPool.Environment.Twins

open Pool

variable {σ α : Type} {S : σ → σ → Prop} {E F : Environment σ Snapshot} {p q : Pool σ Snapshot}

variable (twins : E.Twins S F)
include twins

/-! ## Calls to raw producers -/

theorem callConnect (placement : Placement) (properties : Properties) (alike : p.Alike S q) :
    Agree S (p.callConnect E placement properties) (q.callConnect F placement properties) := by
  obtain ⟨related, reply⟩ := twins.connects p.connections properties alike.outside
  have tried := (alike.update (fun p => { p with connections := p.connections + 1 })
    fun _ _ _ => rfl).record (.connecting p.connections placement properties)
  have connected := (tried.elsewhere related).record_softened
    (congrArg (fun reply => (Event.connected p.connections reply).softened) reply)
  obtain ⟨journal, outside, rfl⟩ := alike.exists_eq
  exact ⟨connected, Prod.ext rfl reply⟩

theorem callInit (conn : Nat) (alike : p.Alike S q) :
    Agree S (p.callInit E conn) (q.callInit F conn) := by
  obtain ⟨related, reply⟩ := twins.initialises conn alike.outside
  have called := (alike.record (.called conn .initTransactions)).elsewhere related
  exact ⟨called.record_softened
    (congrArg (fun reply => (Event.replied conn .initTransactions reply).softened) reply), reply⟩

/-- The replies may differ. -/
theorem callClose (conn : Nat) (timeout : Duration) (alike : p.Alike S q) :
    (p.callClose E conn timeout).1.Alike S (q.callClose F conn timeout).1 := by
  have called := (alike.record (.called conn (.close timeout))).elsewhere
    (twins.closes conn timeout alike.outside)
  exact called.record_softened rfl

theorem callHandle (conn : Nat) (call : HandleCall) (alike : p.Alike S q) :
    Agree S (p.callHandle E conn call) (q.callHandle F conn call) := by
  have called := alike.record (.called conn call.toRaw)
  have reply := twins.calls conn call called
  have ran := twins.hooks _ _ (.call conn call) called
  exact ⟨ran.record_softened
    (congrArg (fun reply => (Event.replied conn call.toRaw.operation reply).softened) reply), reply⟩

theorem callSend (conn : Nat) (r : Record) (d : Delivery) (alike : p.Alike S q) :
    Agree S (p.callSend E conn r d) (q.callSend F conn r d) := by
  have called := alike.record (.called conn (.send r.topic))
  have reply := twins.sends conn r d called
  have ran := twins.hooks _ _ (.send conn r d) called
  exact ⟨ran.record_softened (congrArg (fun reply => (Event.replied conn .send reply).softened) reply),
    reply⟩

/-! ## Notifications -/

theorem tell (notice : Notice) (listener : String) (alike : p.Alike S q) :
    (p.tell E notice listener).Alike S (q.tell F notice listener) := by
  have told := alike.record (.notifying listener notice (p.get notice.handle.producer))
  have ended := (twins.hooks _ _ (.listen listener notice) told).record (.notified listener notice)
  rw [alike.get] at ended
  simp only [Pool.tell, alike.get]
  -- Either listener may fail, and only the line about it tells.
  split <;> split
  · exact ended
  · exact ended.log_right rfl
  · exact ended.log_left rfl
  · exact (ended.log_left rfl).log_right rfl

theorem tellAll (kind : NoticeKind) (h : Handle) (alike : p.Alike S q) :
    (p.tellAll E kind h).Alike S (q.tellAll F kind h) := by
  unfold Pool.tellAll
  rw [alike.get, alike.factory]
  split
  · exact alike
  · exact .foldl (fun _ _ listener alike => twins.tell _ listener alike) _ alike

/-! ## Closing a connection -/

theorem shut (r : Ref) (timeout : Duration) (alike : p.Alike S q) :
    (p.shut E r timeout).Alike S (q.shut F r timeout) := by
  have closed := twins.callClose (q.get r).conn timeout
    (alike.modify r fun q => { q with phase := .disposed })
  simp only [Pool.shut, alike.get]
  split <;> split
  · exact closed
  · exact closed.log_right rfl
  · exact closed.log_left rfl
  · exact (closed.log_left rfl).log_right rfl

theorem retire (h : Handle) (timeout : Duration) (alike : p.Alike S q) :
    (p.retire E h timeout).Alike S (q.retire F h timeout) := by
  unfold Pool.retire
  rw [alike.get]
  split
  · exact alike
  · exact twins.tellAll .removed h ((twins.shut h.producer timeout alike).onFactory _)

theorem retireAll (timeout : Duration) (hs : List Handle) (alike : p.Alike S q) :
    (p.retireAll E timeout hs).Alike S (q.retireAll F timeout hs) :=
  .foldl (fun _ _ h alike => twins.retire h timeout alike) hs alike

/-! ## The factory's own life -/

theorem shutLost (r : Ref) (alike : p.Alike S q) : (p.shutLost E r).Alike S (q.shutLost F r) := by
  have same : p.isLost r = q.isLost r := alike.read (fun p => p.isLost r) fun _ _ _ => rfl
  unfold Pool.shutLost
  rw [same]
  split
  · exact twins.shut r defaultCloseTimeout alike
  · exact alike

theorem teardown (alike : p.Alike S q) : (p.teardown E).Alike S (q.teardown F) := by
  have pinned := Alike.foldl (fun _ _ h alike => alike.pin h) q.factory.handles
    (alike.onFactory Factory.emptied)
  unfold Pool.teardown
  rw [alike.factory]
  exact .foldl (fun _ _ h alike => twins.shutLost h.producer (alike.release h)) _ pinned

theorem teardownIfUnowned (alike : p.Alike S q) :
    (p.teardownIfUnowned E).Alike S (q.teardownIfUnowned F) := by
  unfold Pool.teardownIfUnowned
  rw [alike.alive]
  split
  · exact alike
  · exact twins.teardown alike

theorem dropFactory (alike : p.Alike S q) : (p.dropFactory E).Alike S (q.dropFactory F) := by
  have dropped := alike.update (fun p => { p with owners := p.owners - 1 }) fun _ _ _ => rfl
  have same : p.owners = q.owners := alike.read (fun p => p.owners) fun _ _ _ => rfl
  simp only [Pool.dropFactory, same] at dropped ⊢
  split
  · exact alike
  · exact twins.teardownIfUnowned dropped

theorem withFactory {f g : Pool σ Snapshot → Pool σ Snapshot × α}
    (inner : ∀ {p q}, p.Alike S q → Agree S (f p) (g q)) (alike : p.Alike S q) :
    Agree S (p.withFactory E f) (q.withFactory F g) := by
  have done := inner (alike.update (fun p => { p with running := p.running + 1 }) fun _ _ _ => rfl)
  exact ⟨twins.teardownIfUnowned
    (done.alike.update (fun p => { p with running := p.running - 1 }) fun _ _ _ => rfl), done.answer⟩

theorem withinFactory {f g : Pool σ Snapshot → Pool σ Snapshot}
    (inner : ∀ {p q}, p.Alike S q → (f p).Alike S (g q)) (alike : p.Alike S q) :
    (p.withinFactory E f).Alike S (q.withinFactory F g) :=
  (twins.withFactory (f := fun p => (f p, ())) (g := fun q => (g q, ()))
    (fun alike => ⟨inner alike, rfl⟩) alike).alike

/-! ## Letting go of handles -/

theorem reportLost (r : Ref) (alike : p.Alike S q) :
    (p.reportLost E r).Alike S (q.reportLost F r) := by
  have counted := alike.onFactory fun f => { f with live := f.live - 1 }
  have copied := counted.update (fun m => (m.enlist (p.get r).closedCopy).1) fun _ _ _ => rfl
  have told := twins.tellAll .removed ⟨p.producers.length, 0⟩ (copied.pin ⟨p.producers.length, 0⟩)
  have released := told.release ⟨p.producers.length, 0⟩
  obtain ⟨journal, outside, rfl⟩ := alike.exists_eq
  exact released

theorem settle (r : Ref) (alike : p.Alike S q) : (p.settle E r).Alike S (q.settle F r) := by
  have closed := twins.shut r defaultCloseTimeout alike
  have same : p.isLost r = q.isLost r := alike.read (fun p => p.isLost r) fun _ _ _ => rfl
  simp only [Pool.settle, same, closed.get, closed.alive]
  split
  · split
    · exact twins.withinFactory (twins.reportLost r) closed
    · exact closed
  · exact alike

theorem drop (h : Handle) (alike : p.Alike S q) : (p.drop E h).Alike S (q.drop F h) :=
  twins.settle h.producer
    (alike.update (fun p => { p with held := p.held.erase h }) fun _ _ _ => rfl)

theorem unpin (h : Handle) (alike : p.Alike S q) : (p.unpin E h).Alike S (q.unpin F h) :=
  twins.settle h.producer (alike.release h)

theorem unpinAll (hs : List Handle) (alike : p.Alike S q) :
    (p.unpinAll E hs).Alike S (q.unpinAll F hs) :=
  .foldl (fun _ _ h alike => twins.unpin h alike) hs alike

theorem withHandle {h : Handle} {f g : Pool σ Snapshot → Pool σ Snapshot × α}
    (inner : ∀ {p q}, p.Alike S q → Agree S (f p) (g q)) (alike : p.Alike S q) :
    Agree S (p.withHandle E h f) (q.withHandle F h g) :=
  ⟨twins.unpin h (inner (alike.pin h)).alike, (inner (alike.pin h)).answer⟩

end ProducerPool.Environment.Twins
