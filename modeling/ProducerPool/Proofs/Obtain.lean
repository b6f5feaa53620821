import ProducerPool.Proofs.Places

/-!
# What a request yields

`Obtains E p q h` says that a request for a producer, begun in `p`, yields the handle `h` in `q`: to the
caller of `create` or `createFor`, or to the work that `execute` is about to begin.  Such a handle is
that of a new producer, or of one that is handed out again, which is usable then.
-/

set_option autoImplicit false

namespace ProducerPool

variable {σ : Type} {E : Environment σ Snapshot} {p q m : Pool σ Snapshot} {h : Handle} {r : Ref}

open Pool in
inductive Obtains (E : Environment σ Snapshot) (p : Pool σ Snapshot) :
    Pool σ Snapshot → Handle → Prop
  | create (t : ThreadId) (q : Pool σ Snapshot) (h : Handle) (yields : p.create E t = (q, .ok h)) :
      Obtains E p q h
  | createFor (scope : TransactionScope) (q : Pool σ Snapshot) (h : Handle)
      (yields : p.createFor E scope = (q, .ok h)) : Obtains E p q h
  /-- The work of `execute` begins in `q`, while the operation keeps the factory alive. -/
  | execute (scope : TransactionScope) (q : Pool σ Snapshot) (h : Handle)
      (yields : obtainFor E scope { p with running := p.running + 1 } = (q, .ok h)) :
      Obtains E p q h

/-! ## The end of the factory spares producers that callers hold -/

namespace Pool

/-- What the end of the factory leaves as it is; no code of callers runs meanwhile. -/
structure Spares (p q : Pool σ Snapshot) : Prop where
  epoch : q.factory.epoch = p.factory.epoch
  held : q.held = p.held
  get : ∀ h ∈ p.held, q.get h.producer = p.get h.producer
  journal : ∃ events, (∀ e ∈ events, e.isMark = false) ∧ q.journal = events ++ p.journal

theorem Spares.refl (p : Pool σ Snapshot) : p.Spares p :=
  ⟨rfl, rfl, fun _ _ => rfl, [], List.forall_mem_nil _, rfl⟩

theorem Spares.trans (first : p.Spares m) (second : m.Spares q) : p.Spares q where
  epoch := second.epoch.trans first.epoch
  held := second.held.trans first.held
  get h there := by
    have still : h ∈ m.held := by
      rw [first.held]
      exact there
    exact (second.get h still).trans (first.get h there)
  journal := unmarked_trans first.journal second.journal

theorem shutLost_spares (E : Environment σ Snapshot) (r : Ref) (p : Pool σ Snapshot) :
    p.Spares (shutLost E r p) := by
  unfold shutLost
  split
  · rename_i lost
    obtain ⟨outside, events, closing, shut⟩ := shut_eq E r defaultCloseTimeout p
    rw [shut]
    refine ⟨rfl, rfl, fun h held => ?_, events, closing.unmarked, rfl⟩
    have other : r ≠ h.producer := by
      rintro rfl
      have referenced := referenced_of_mem (mem_handles.mpr (Or.inl held))
      cases (isLost_iff.mp lost).1.symm.trans referenced
    rw [get_closed, if_neg fun both => other both.1]
  · exact .refl p

theorem letGoAll_spares (E : Environment σ Snapshot) (hs : List Handle) (p : Pool σ Snapshot) :
    p.Spares (hs.foldl (fun p h => shutLost E h.producer { p with pinned := p.pinned.erase h }) p) := by
  induction hs generalizing p with
  | nil => exact .refl p
  | cons x hs ih =>
    have erased : p.Spares { p with pinned := p.pinned.erase x } :=
      ⟨rfl, rfl, fun _ _ => rfl, [], List.forall_mem_nil _, rfl⟩
    exact (erased.trans (shutLost_spares E x.producer _)).trans (ih _)

theorem teardownIfUnowned_spares (E : Environment σ Snapshot) (p : Pool σ Snapshot) :
    p.Spares (teardownIfUnowned E p) := by
  unfold teardownIfUnowned
  split
  · exact .refl p
  · unfold teardown
    rw [foldl_pin]
    have emptied : p.Spares
        { p.onFactory Factory.emptied with
          pinned := p.factory.handles.reverse ++ (p.onFactory Factory.emptied).pinned } :=
      ⟨rfl, rfl, fun _ _ => rfl, [], List.forall_mem_nil _, rfl⟩
    exact emptied.trans (letGoAll_spares E p.factory.handles _)

end Pool

/-! ## Where the handle comes from -/

/-- The request has fetched the handle in `m`, and the producer is in `q` as it was then. -/
structure Yields (p m q : Pool σ Snapshot) (h : Handle) : Prop where
  source : Pool.Source p m h
  there : h ∈ m.pinned
  before : Path p m
  after : Path m q
  same : q.get h.producer = m.get h.producer
  epoch : q.factory.epoch = m.factory.epoch
  journal : ∃ events, (∀ e ∈ events, e.isMark = false) ∧ q.journal = events ++ m.journal

theorem Yields.of_withFactory (result : Pool σ Snapshot → Pool σ Snapshot × Except PoolError Handle)
    (fetches : Pool.Fetches { p with running := p.running + 1 }
      (result { p with running := p.running + 1 }))
    (yields : p.withFactory E (fun p => Pool.handOverResult (result p)) = (q, .ok h)) :
    ∃ m, result { p with running := p.running + 1 } = (m, .ok h) ∧
      Yields { p with running := p.running + 1 } m q h := by
  generalize entered : ({ p with running := p.running + 1 } : Pool σ Snapshot) = start at fetches ⊢
  generalize answer : result start = answered at fetches
  cases fetches with
  | refused m error balanced =>
    simp only [Pool.withFactory, entered, answer, Pool.handOverResult] at yields
    cases (Prod.mk.inj yields).2
  | fetched m x leads source =>
    simp only [Pool.withFactory, entered, answer, Pool.handOverResult] at yields
    obtain ⟨left, same⟩ := Prod.mk.inj yields
    obtain rfl : x = h := Except.ok.inj same
    have there : x ∈ m.pinned := (leads.mem_pinned x).mpr (Multiset.mem_cons_self x _)
    have busy : 0 < m.running := by
      rw [leads.running, ← entered]
      exact Nat.succ_pos _
    have back := Pool.recount_leads E (m.handOver x) (m.handOver x).owners
      ((m.handOver x).running - 1) (Pool.alive_of_running busy)
    have spared := Pool.teardownIfUnowned_spares E
      { m.handOver x with running := (m.handOver x).running - 1 }
    refine ⟨m, rfl, source, there, leads.path, ?_, ?_, ?_, ?_⟩
    · rw [← left]
      exact .head (.handOver m x there) back.1.path
    · rw [← left]
      exact spared.get x List.mem_cons_self
    · rw [← left]
      exact spared.epoch
    · rw [← left]
      exact spared.journal

theorem Obtains.yields (lawful : E.Lawful) (obtains : Obtains E p q h) :
    ∃ m, Yields { p with running := p.running + 1 } m q h := by
  cases obtains with
  | create t _ _ answer =>
    obtain ⟨m, -, yields⟩ := Yields.of_withFactory (fun p => p.obtain E t)
      (Pool.obtain_fetches lawful.tame t (Nat.succ_pos _)) answer
    exact ⟨m, yields⟩
  | createFor scope _ _ answer =>
    obtain ⟨m, -, yields⟩ := Yields.of_withFactory (fun p => p.obtainFor E scope)
      (Pool.obtainFor_fetches lawful.tame scope) answer
    exact ⟨m, yields⟩
  | execute scope _ _ answer =>
    have fetches := Pool.obtainFor_fetches (p := { p with running := p.running + 1 }) lawful.tame scope
    rw [answer] at fetches
    cases fetches with
    | fetched _ _ leads source =>
      have there : h ∈ q.pinned := (leads.mem_pinned h).mpr (Multiset.mem_cons_self h _)
      exact ⟨q, source, there, leads.path, .refl, rfl, rfl, [], List.forall_mem_nil _, rfl⟩

/-! ## The end of a request -/

section Work

variable {α : Type} {work : Handle → Pool σ Snapshot → Pool σ Snapshot × Except PoolError α}
  {scope : TransactionScope}

/-- What follows on the transaction of `execute`. -/
theorem Pool.execute_path (tame : E.Tame) (works : ∀ h p, Balanced p (work h p).1)
    (yields : obtainFor E scope { p with running := p.running + 1 } = (m, .ok h)) :
    h ∈ m.pinned ∧ Path (m.transact E work h).1 (p.execute E scope work).1 := by
  have fetches := obtainFor_fetches (p := { p with running := p.running + 1 }) tame scope
  rw [yields] at fetches
  cases fetches with
  | fetched _ _ leads =>
    have there : h ∈ m.pinned := (leads.mem_pinned h).mpr (Multiset.mem_cons_self h _)
    have kept := transact_balanced tame works there
    have released := unpin_leads tame h (m.transact E work h).1
    have busy : 0 < ((m.transact E work h).1.unpin E h).running := by
      rw [released.running, kept.running, leads.running]
      exact Nat.succ_pos _
    have left : Path ((m.transact E work h).1.unpin E h) (p.execute E scope work).1 :=
      withFactory_path (a := (m.transact E work h).2) (by simp only [yields]) busy
    exact ⟨there, released.path.trans left⟩

end Work

open Pool in
/-- A request that was begun in `p` and has yielded the handle has ended in `q`. -/
inductive Serves (E : Environment σ Snapshot) (p : Pool σ Snapshot) :
    Pool σ Snapshot → Handle → Prop
  | create (t : ThreadId) (q : Pool σ Snapshot) (h : Handle) (yields : p.create E t = (q, .ok h)) :
      Serves E p q h
  | createFor (scope : TransactionScope) (q : Pool σ Snapshot) (h : Handle)
      (yields : p.createFor E scope = (q, .ok h)) : Serves E p q h
  | execute {α : Type} (scope : TransactionScope)
      (work : Handle → Pool σ Snapshot → Pool σ Snapshot × Except PoolError α)
      (works : ∀ h p, Code p.look (work h p).1) (m : Pool σ Snapshot) (h : Handle)
      (yields : obtainFor E scope { p with running := p.running + 1 } = (m, .ok h)) :
      Serves E p (p.execute E scope work).1 h

/-- The code of a unit of work holds in the end what it held at its beginning. -/
theorem Code.works_balanced {α : Type}
    {work : Handle → Pool σ Snapshot → Pool σ Snapshot × Except PoolError α}
    (works : ∀ h p, Code p.look (work h p).1) (h : Handle) (p : Pool σ Snapshot) :
    Balanced p (work h p).1 := (Pool.look_balanced p).balanced (works h p).balanced

theorem Serves.balanced (serves : Serves E p q h) (lawful : E.Lawful) (alive : p.alive = true) :
    Balanced p q := by
  cases serves with
  | create t _ _ yields =>
    have balanced := Pool.create_balanced lawful.tame t alive
    rwa [yields] at balanced
  | createFor scope _ _ yields =>
    have balanced := Pool.createFor_balanced lawful.tame scope alive
    rwa [yields] at balanced
  | execute scope work works =>
    exact Pool.execute_balanced lawful.tame (Code.works_balanced works) scope alive

theorem Serves.obtains (serves : Serves E p q h) (lawful : E.Lawful) :
    ∃ m, Obtains E p m h ∧ Path m q := by
  cases serves with
  | create t _ _ yields => exact ⟨q, .create t q h yields, .refl⟩
  | createFor scope _ _ yields => exact ⟨q, .createFor scope q h yields, .refl⟩
  | execute scope work works m _ yields =>
    obtain ⟨there, ended⟩ := Pool.execute_path lawful.tame (Code.works_balanced works) yields
    have worked := Pool.transact_balanced lawful.tame (Code.works_balanced works) there
    exact ⟨m, .execute scope m h yields, worked.path.trans ended⟩

/-- A request that begins in a visited pool begins on a path. -/
theorem Visited.enters {config : Config} (visited : Visited config p) (owned : 0 < p.owners) :
    ∃ outside, Path (Pool.new config outside) { p with running := p.running + 1 } := by
  obtain ⟨outside, path⟩ := visited.path
  have entered : Step p { p with running := p.running + 1 } :=
    .recount p p.owners (p.running + 1) (Pool.alive_of_owners owned) (by omega)
  exact ⟨outside, path.tail entered⟩

/-- A producer that has been obtained for a unit of work is held by the operation. -/
theorem Visited.obtains {config : Config} {scope : TransactionScope} (visited : Visited config p)
    (tame : E.Tame) (owned : 0 < p.owners)
    (yields : Pool.obtainFor E scope { p with running := p.running + 1 } = (m, .ok h)) :
    (∃ outside, Path (Pool.new config outside) m) ∧ h ∈ m.pinned ∧ 0 < m.running := by
  obtain ⟨outside, entered⟩ := visited.enters owned
  have fetches := Pool.obtainFor_fetches (p := { p with running := p.running + 1 }) tame scope
  rw [yields] at fetches
  cases fetches with
  | fetched _ _ leads =>
    refine ⟨⟨outside, entered.trans leads.path⟩,
      (leads.mem_pinned h).mpr (Multiset.mem_cons_self h _), ?_⟩
    rw [leads.running]
    exact Nat.succ_pos _

end ProducerPool
