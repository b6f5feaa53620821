import ProducerPool.Proofs.Invariant.Create

/-!
# Requests to the factory and units of work keep invariants

Sweeps, the requests that close what the factory keeps, and `execute`.
-/

set_option autoImplicit false

namespace ProducerPool

variable {σ : Type} {E : Environment σ Snapshot} {I : Invariant σ} {p q : Pool σ Snapshot}
  {due left : List Duty} {h : Handle} {r : Ref}

/-! ## Handles that the factory has given up -/

namespace Invariant

/-- What the factory gives up is due, and the operation holds it. -/
theorem giveUp (holds : I.holds due p) {hs : List Handle} {f : Factory}
    (givesUp : p.factory.GivesUp hs f) (kept : f.shared = p.factory.shared) :
    I.holds (hs.map (fun h => .close h.producer) ++ due)
      (hs.foldl (fun p h => p.pin h) { p with factory := f }) := by
  rw [Pool.foldl_pin]
  exact I.move holds (.giveUp due p hs f givesUp kept)

theorem settings (holds : I.holds due p) (destroyed stopHandled : Bool)
    (final : p.factory.destroyed = true → destroyed = true) :
    I.holds due (p.onFactory fun f =>
      { f with destroyed := destroyed, stopHandled := stopHandled }) :=
  I.rest holds (.settings p p.factory.listeners destroyed stopHandled final)
    ⟨id, ⟨rfl, rfl, rfl, rfl⟩, rfl, .refl _⟩ rfl

theorem dropFactory (E : Environment σ Snapshot) (holds : I.holds due p) :
    I.holds due (p.dropFactory E) := by
  unfold Pool.dropFactory
  split
  · exact holds
  · rename_i owned
    exact I.leave E holds _ _ (Pool.alive_of_owners (Nat.pos_of_ne_zero owned))

end Invariant

namespace Environment.Upholds

variable (up : E.Upholds I)
include up

theorem retireTogether {hs : List Handle}
    (given : I.holds (hs.map (fun h => .close h.producer) ++ due) (hs.foldl (fun p h => p.pin h) p)) :
    I.holds due (p.retireTogether E hs) :=
  up.unpinAll hs (up.retireAll _ hs given)

theorem retireInTurn {hs : List Handle} (timeout : Duration)
    (given : I.holds (hs.map (fun h => .close h.producer) ++ due) (hs.foldl (fun p h => p.pin h) p)) :
    I.holds due (p.retireInTurn E timeout hs) := by
  unfold Pool.retireInTurn
  generalize hs.foldl (fun p h => p.pin h) p = m at given
  induction hs generalizing m with
  | nil => exact given
  | cons h hs ih => exact ih _ (up.unpin (up.retire given h timeout (.due _)) h)

/-! ## Sweeps -/

theorem sweep (holds : I.holds due p) : I.holds due (p.sweep E) := by
  have swept : p.factory.GivesUp p.idle p.giveUpIdle.factory :=
    .swept fun h => (p.get h.producer).checkedOut
  cases shared : p.factory.shared with
  | none =>
    have given := I.giveUp holds swept (by rw [shared]; rfl)
    have logged := I.note given (.logged (.resetting p.idle.length)) rfl rfl
    refine up.retireTogether ?_
    rw [Pool.foldl_pin] at logged ⊢
    exact logged
  | some s =>
    -- The shared producer comes first, so it is closed before anybody is told of a removal.
    obtain ⟨rest, first⟩ : ∃ rest, p.idle = s :: rest :=
      ⟨_, by rw [Pool.idle, shared, Option.toList_some, List.singleton_append, List.cons_append]⟩
    have exposes : Exposes I.parks I.binds due p _ _ s.producer := .sweep due p shared
    rw [Pool.sweep, Pool.retireTogether, Pool.foldl_pin]
    rw [first] at exposes ⊢
    exact up.unpinAll _ (up.retireAll _ rest
      ((up.hears .removed).retireExposed holds exposes _ (.due _)))

theorem retireBound (holds : I.holds due p) : I.holds due (p.retireBound E) :=
  up.retireInTurn _ (I.giveUp holds .cleared rfl)

/-! ## Requests -/

theorem reset (holds : I.holds due p) (alive : p.alive = true) : I.holds due (p.reset E) :=
  I.withinFactory E (I.note holds (.requested .reset) rfl rfl) alive (Pool.sweep_balanced up.tame _)
    up.sweep

theorem destroyNow (holds : I.holds due p) : I.holds due (p.destroyNow E) := by
  have marked := I.settings holds true p.factory.stopHandled fun _ => rfl
  have logged := I.note marked (.logged .destroying) rfl rfl
  exact up.retireBound (up.sweep logged)

theorem destroy (holds : I.holds due p) (alive : p.alive = true) : I.holds due (p.destroy E) := by
  refine I.withinFactory E (I.note holds (.requested .destroy) rfl rfl) alive
    (Pool.destroyOnce_balanced up.tame _) fun holds => ?_
  split
  · exact holds
  · exact up.destroyNow holds

theorem onHostEvent (holds : I.holds due p) (event : HostEvent) (alive : p.alive = true) :
    I.holds due (p.onHostEvent E event) := by
  refine I.withinFactory E (I.note holds (.requested (.lifecycle event)) rfl rfl) alive
    (Pool.heed_balanced up.tame event _) fun holds => ?_
  cases event with
  | started => exact I.settings holds _ false id
  | stopped =>
    dsimp only
    split
    · exact holds
    · exact up.sweep (I.settings holds _ true id)

theorem closeBound (holds : I.holds due p) (t : ThreadId) (alive : p.alive = true) :
    I.holds due (p.closeBound E t) := by
  refine I.withinFactory E holds alive (Pool.unseat_balanced up.tame t _) ?_
  generalize ({ p with running := p.running + 1 } : Pool σ Snapshot) = m
  intro holds
  cases found : m.factory.threads.lookup t with
  | none => exact holds
  | some h =>
    have given : I.holds (.close h.producer :: due) ((m.onFactory fun f =>
        { f with threads := f.threads.filter fun entry => entry.1 ≠ t }).pin h) :=
      I.move holds (.giveUp due m [h] _ (.unseated t h found) rfl)
    exact up.unpin (up.retire given h _ (.due due)) h

theorem closeFor (holds : I.holds due p) (scope : TransactionScope) (alive : p.alive = true) :
    I.holds due (p.closeFor E scope).1 := by
  refine I.withFactory E holds alive (Pool.drain_balanced up.tame scope _) fun holds => ?_
  dsimp only
  split
  · exact holds
  · rename_i k known
    split
    · exact up.retireTogether (I.giveUp holds (.drained k.key) rfl)
    · exact holds

/-! ## Units of work -/

section Work

variable {α : Type} {work : Handle → Pool σ Snapshot → Pool σ Snapshot × Except PoolError α}

theorem conclude (holds : I.holds due p) (there : h ∈ p.pinned) (outcome : Except PoolError α) :
    I.holds due (p.conclude E h outcome).1 := by
  cases outcome with
  | ok value =>
    have committed := up.operate holds (Pool.mem_handles_of_pinned there) .commit
    simp only [Pool.conclude]
    split <;> simp_all only
  | error error =>
    have aborted := up.operate holds (Pool.mem_handles_of_pinned there) .abort
    simp only [Pool.conclude]
    rcases answer : p.operate E h .abort with ⟨q, abortError | done⟩
    all_goals rw [answer] at aborted
    · exact I.note aborted _ rfl rfl
    · exact aborted

theorem transact (holds : I.holds due p) (works : ∀ h p, Balanced p (work h p).1)
    (keeps : ∀ h p, I.holds due p → I.holds due (work h p).1) (there : h ∈ p.pinned)
    (parks : I.parks h) : I.holds due (p.transact E work h).1 := by
  have begun := up.operate holds (Pool.mem_handles_of_pinned there) .begin
  have balanced := Pool.operate_balanced up.tame (Pool.mem_handles_of_pinned there) .begin
  unfold Pool.transact
  rcases answer : p.operate E h .begin with ⟨q, error | done⟩
  all_goals rw [answer] at begun balanced
  · have still : h ∈ q.pinned := (balanced.mem_pinned h).mpr there
    exact up.close begun (Pool.mem_handles_of_pinned still) none fun _ _ => parks
  · have worked := balanced.balanced (works h q)
    have still : h ∈ (work h q).1.pinned := (worked.mem_pinned h).mpr there
    have concluded := worked.balanced (Pool.conclude_balanced up.tame still (work h q).2)
    have yet : h ∈ ((work h q).1.conclude E h (work h q).2).1.pinned :=
      (concluded.mem_pinned h).mpr there
    exact up.close (up.conclude (keeps h q begun) still (work h q).2)
      (Pool.mem_handles_of_pinned yet) none fun _ _ => parks

end Work

end Environment.Upholds

namespace Pool

/-- A pooled request yields a new producer, or one under a new lease. -/
theorem Pools.new {k : Config.PoolKey} (pools : Pools p k q h) : p.New h := by
  obtain ⟨⟨m, path, old, cache, found, cached, sound⟩⟩ | ⟨m, b, before, new, named, after⟩ := pools
  · exact New.before path (Or.inr (Nat.lt_succ_self _))
  · refine New.before before (Or.inl ?_)
    rw [new.handle]

end Pool

theorem Environment.Upholds.execute {α : Type}
    {work : Handle → Pool σ Snapshot → Pool σ Snapshot × Except PoolError α} (up : E.Upholds I)
    (holds : I.holds due p) (works : ∀ h p, Balanced p (work h p).1)
    (keeps : ∀ h p, I.holds due p → I.holds due (work h p).1) (scope : TransactionScope)
    (alive : p.alive = true) : I.holds due (p.execute E scope work).1 := by
  have entered := I.recount holds p.owners (p.running + 1) alive (by omega)
  have obtained := up.obtainFor entered scope
  refine I.withFactory E holds alive ?_ fun _ => ?_
  all_goals
    rcases answer : Pool.obtainFor E scope { p with running := p.running + 1 } with ⟨q, error | h⟩
    all_goals rw [answer] at obtained
  · exact Pool.refused_balanced up.tame answer
  · exact Pool.served_balanced up.tame works answer
  · exact obtained
  · have fetches := Pool.obtainFor_fetches (p := { p with running := p.running + 1 }) up.tame scope
    rw [answer] at fetches
    cases fetches with
    | fetched _ _ leads =>
      have there : h ∈ q.pinned := (leads.mem_pinned h).mpr (Multiset.mem_cons_self h _)
      obtain ⟨k, -, pools⟩ := Pool.obtainFor_pools up.tame answer
      have parks := I.own entered pools.new
      exact up.unpin (up.transact obtained works keeps there parks) h

end ProducerPool
