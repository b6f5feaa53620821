import ProducerPool.Proofs.Twin.Use

/-!
# Handing out producers of alike pools

A request for a producer gets the same answer in alike pools, whatever becomes of the producers that are
disposed of on its way, and leads to alike pools.
-/

set_option autoImplicit false

namespace ProducerPool

open Pool

variable {σ : Type} {S : σ → σ → Prop} {E F : Environment σ Snapshot} {p q : Pool σ Snapshot}

theorem Pool.Alike.drawTransactionalId (alike : p.Alike S q) (idPrefix : String) :
    Agree S (p.drawTransactionalId idPrefix) (q.drawTransactionalId idPrefix) :=
  ⟨alike.onFactory fun f => { f with sequence := f.sequence + 1 },
    congrArg (fun f : Factory => idPrefix ++ toString f.sequence) alike.factory⟩

theorem Pool.Alike.nameBound (alike : p.Alike S q) : Agree S p.nameBound q.nameBound := by
  unfold Pool.nameBound
  rw [alike.factory]
  split
  · exact ⟨alike, rfl⟩
  · rename_i idPrefix _
    have drawn := alike.drawTransactionalId idPrefix
    exact ⟨drawn.alike, congrArg some drawn.answer⟩

theorem Pool.Alike.namePooled (alike : p.Alike S q) (k : Config.PoolKey) :
    Agree S (p.namePooled k) (q.namePooled k) := by
  unfold Pool.namePooled
  split
  · exact ⟨alike, rfl⟩
  · exact alike.drawTransactionalId k.idPrefix

/-- A parked producer that is taken is opened again in both pools, and one that is not is left in both. -/
theorem Pool.Alike.reopen (alike : p.Alike S q) (epoch : Nat) (h : Handle) :
    (∃ p' q' fresh, p'.Alike S q' ∧
        (if p.isReusable epoch h then p.reopen? h else none) = some (p', fresh) ∧
        (if q.isReusable epoch h then q.reopen? h else none) = some (q', fresh)) ∨
      (if p.isReusable epoch h then p.reopen? h else none) = none ∧
        (if q.isReusable epoch h then q.reopen? h else none) = none := by
  have same : p.isReusable epoch h = q.isReusable epoch h :=
    alike.read (fun p => p.isReusable epoch h) fun _ _ _ => rfl
  rw [same]
  unfold Pool.reopen?
  rw [alike.get]
  by_cases reusable : q.isReusable epoch h = true
  · by_cases cached : (q.get h.producer).phase = .cached
    · simp only [reusable, cached, if_true]
      exact Or.inl ⟨_, _, _, alike.modify h.producer _, rfl, rfl⟩
    · refine Or.inr ?_
      simp [cached]
  · refine Or.inr ?_
    simp [reusable]

theorem Pool.Agree.handOverResult {x y : Pool σ Snapshot × Except PoolError Handle}
    (agree : Agree S x y) : Agree S (Pool.handOverResult x) (Pool.handOverResult y) := by
  obtain ⟨p, q, result, alike, rfl, rfl⟩ := agree.split
  rcases result with error | h
  · exact ⟨alike, rfl⟩
  · exact ⟨alike.update (fun p => p.handOver h) fun _ _ _ => rfl, rfl⟩

namespace Environment.Twins

variable (twins : E.Twins S F)
include twins

/-! ## Building -/

theorem establish (placement : Placement) (id : Nat) (transactionalId : Option String)
    (alike : p.Alike S q) :
    Agree S (p.establish E placement id transactionalId) (q.establish F placement id transactionalId) := by
  unfold Pool.establish
  rw [alike.factory]
  obtain ⟨p, q, ⟨conn, reply⟩, connected, left, right⟩ := (twins.callConnect placement _ alike).split
  rw [left, right]
  rcases reply with error | ready
  · exact ⟨connected, rfl⟩
  · dsimp only
    split
    · exact ⟨connected, rfl⟩
    · obtain ⟨p, q, reply, called, left, right⟩ := (twins.callInit conn connected).split
      rw [left, right]
      rcases reply with error | ready
      · dsimp only
        rw [called.factory]
        -- The connection is given up whatever either close replies.
        have closed := twins.callClose conn q.factory.config.closeTimeout called
        rcases left : Pool.callClose E conn q.factory.config.closeTimeout p with ⟨p', failed | ready⟩ <;>
          rcases right : Pool.callClose F conn q.factory.config.closeTimeout q with ⟨q', failed' | ready'⟩
        all_goals rw [left, right] at closed
        · exact ⟨(closed.log_left rfl).log_right rfl, rfl⟩
        · exact ⟨closed.log_left rfl, rfl⟩
        · exact ⟨closed.log_right rfl, rfl⟩
        · exact ⟨closed, rfl⟩
      · exact ⟨called, rfl⟩

theorem build (placement : Placement) (transactionalId : Option String) (alike : p.Alike S q) :
    Agree S (p.build E placement transactionalId) (q.build F placement transactionalId) := by
  unfold Pool.build
  rw [alike.factory]
  obtain ⟨p', q', result, established, left, right⟩ := (twins.establish placement q.factory.nextId
    transactionalId (alike.onFactory fun f => { f with nextId := f.nextId + 1 })).split
  dsimp only
  rw [left, right]
  rcases result with error | conn
  · exact ⟨established, rfl⟩
  · have measured := twins.measures conn established.outside
    have listed := ((established.onFactory fun f => { f with live := f.live + 1 }).update
      (fun m => (m.enlist
        { id := q.factory.nextId, conn := conn, transactionalId := transactionalId
          clientId := (Metric.clientId? (F.metrics conn q'.outside)).map (listenerId p'.factory.config)
          placement := placement, epoch := p'.factory.epoch, owned := true }).1) fun _ _ _ => rfl).lend
      ⟨p'.producers.length, 0⟩
    dsimp only
    rw [measured]
    obtain ⟨journal, outside, rfl⟩ := established.exists_eq
    exact ⟨listed, rfl⟩

/-! ## The shared producer -/

theorem renewShared (alike : p.Alike S q) : Agree S (p.renewShared E) (q.renewShared F) := by
  unfold Pool.renewShared
  obtain ⟨p', q', result, built, left, right⟩ := (twins.build .shared none alike).split
  rw [left, right]
  rcases result with error | h
  · exact ⟨built, rfl⟩
  · have placed := built.onFactory fun f => { f with shared := some h }
    refine ⟨twins.tellAll .added h ?_, rfl⟩
    rw [built.factory, placed.factory]
    split
    · exact placed
    · rename_i s _
      exact twins.unpin s (twins.retire s _ (placed.pin s))

theorem obtainShared (alike : p.Alike S q) : Agree S (p.obtainShared E) (q.obtainShared F) := by
  unfold Pool.obtainShared
  rw [alike.factory]
  split
  · exact twins.renewShared alike
  · rename_i h _
    rw [alike.isUsable]
    split
    · exact ⟨alike.pin h, rfl⟩
    · exact twins.renewShared alike

/-! ## Producers of threads -/

theorem bindThread (t : ThreadId) (h : Handle) (alike : p.Alike S q) :
    (p.bindThread E t h).Alike S (q.bindThread F t h) := by
  have seated := alike.update (fun p => p.seat t h) fun _ _ _ => rfl
  unfold Pool.bindThread
  rw [alike.factory]
  split
  · exact seated
  · exact twins.settle _ seated

theorem renewBound (t : ThreadId) (alike : p.Alike S q) :
    Agree S (p.renewBound E t) (q.renewBound F t) := by
  unfold Pool.renewBound
  obtain ⟨p', q', transactionalId, named, left, right⟩ := alike.nameBound.split
  rw [left, right]
  dsimp only
  obtain ⟨p', q', result, built, left, right⟩ := (twins.build (.thread t) transactionalId named).split
  rw [left, right]
  rcases result with error | h
  · exact ⟨built, rfl⟩
  · exact ⟨twins.tellAll .added h (twins.bindThread t h built), rfl⟩

theorem obtainBound (t : ThreadId) (alike : p.Alike S q) :
    Agree S (p.obtainBound E t) (q.obtainBound F t) := by
  unfold Pool.obtainBound
  rw [alike.factory]
  split
  · exact twins.renewBound t alike
  · rename_i h _
    have out := (alike.modify h.producer fun q => { q with checkedOut := true }).pin h
    dsimp only
    rw [out.isUsable, out.factory]
    split
    · exact ⟨out, rfl⟩
    · exact twins.renewBound t (twins.unpin h (twins.retire h _
        (out.update (fun p => p.unbind t h.producer) fun _ _ _ => rfl)))

/-! ## Pooled producers -/

theorem takeParked (key : String) (epoch : Nat) (fuel : Nat) (alike : p.Alike S q) :
    Agree S (p.takeParked E key epoch fuel) (q.takeParked F key epoch fuel) := by
  induction fuel generalizing p q with
  | zero => exact ⟨alike, rfl⟩
  | succ fuel ih =>
    unfold Pool.takeParked
    rw [alike.factory]
    split
    · exact ⟨alike, rfl⟩
    · rename_i h cache _
      have popped := alike.onFactory fun f => { f with cache := cache }
      -- The queues are the same, so the same producer is met in both; if it is unusable, the search goes on.
      rcases popped.reopen epoch h with ⟨p', q', fresh, opened, left, right⟩ | ⟨left, right⟩
      all_goals
        dsimp only
        rw [left, right]
      · exact ⟨opened.lend fresh, rfl⟩
      · rw [popped.factory]
        exact ih (twins.unpin h (twins.retire h _ (popped.pin h)))

theorem renewPooled (k : Config.PoolKey) (alike : p.Alike S q) :
    Agree S (p.renewPooled E k) (q.renewPooled F k) := by
  unfold Pool.renewPooled
  obtain ⟨p', q', transactionalId, named, left, right⟩ := (alike.namePooled k).split
  rw [left, right]
  dsimp only
  obtain ⟨p', q', result, built, left, right⟩ :=
    (twins.build (.pooled k.key) (some transactionalId) named).split
  rw [left, right]
  rcases result with error | h
  · exact ⟨built, rfl⟩
  · exact ⟨twins.tellAll .added h (built.onFactory _), rfl⟩

theorem obtainPooled (scope : TransactionScope) (alike : p.Alike S q) :
    Agree S (p.obtainPooled E scope) (q.obtainPooled F scope) := by
  unfold Pool.obtainPooled Pool.parkedBound
  rw [alike.factory, twins.refills]
  split
  · exact ⟨alike, rfl⟩
  · rename_i k _
    obtain ⟨p', q', result, taken, left, right⟩ := (twins.takeParked k.key q.factory.epoch
      (q.factory.cache.length k.key + F.refills + 1) alike).split
    rw [left, right]
    cases result with
    | none => exact twins.renewPooled k taken
    | some h => exact ⟨taken, rfl⟩

/-! ## Requests -/

theorem obtain (t : ThreadId) (alike : p.Alike S q) : Agree S (p.obtain E t) (q.obtain F t) := by
  unfold Pool.obtain
  rw [alike.factory]
  split
  · exact ⟨alike, rfl⟩
  · split
    · exact twins.obtainBound t alike
    · split
      · exact twins.obtainPooled .empty alike
      · exact twins.obtainShared alike

theorem obtainFor (scope : TransactionScope) (alike : p.Alike S q) :
    Agree S (p.obtainFor E scope) (q.obtainFor F scope) := by
  unfold Pool.obtainFor
  rw [alike.factory]
  split
  · exact ⟨alike, rfl⟩
  · exact twins.obtainPooled scope alike

theorem create (t : ThreadId) (alike : p.Alike S q) : Agree S (p.create E t) (q.create F t) :=
  twins.withFactory (fun alike => (twins.obtain t alike).handOverResult) alike

theorem createFor (scope : TransactionScope) (alike : p.Alike S q) :
    Agree S (p.createFor E scope) (q.createFor F scope) :=
  twins.withFactory (fun alike => (twins.obtainFor scope alike).handOverResult) alike

end Environment.Twins

end ProducerPool
