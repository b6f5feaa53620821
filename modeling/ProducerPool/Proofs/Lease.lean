import ProducerPool.Proofs.Obtain

/-!
# One lease at a time

A pooled producer that leaves its queue again does so under a new lease, which no other request begins,
not even one that is made in the course of it.  From then on handles under earlier leases are inert:
what they ask is refused and their close changes nothing.  Between parking and the new lease nobody
operates at all, so a handle that has been closed never operates again.
-/

set_option autoImplicit false

namespace ProducerPool

variable {σ : Type} {E : Environment σ Snapshot} {p q m : Pool σ Snapshot} {h : Handle}
  {key : String}

/-! ## Handles that may not operate -/

namespace Pool

/-- Every call through the handle is refused and nothing is asked of the raw producer. -/
def Refuses (p : Pool σ Snapshot) (h : Handle) : Prop :=
  ∀ E : Environment σ Snapshot,
    (∀ call, ∃ error, p.operate E h call = (p, .error error)) ∧
      ∀ record callback, ∃ error, p.send E h record callback = (p, .error error)

/-- Moreover closing the handle changes nothing. -/
def Inert (p : Pool σ Snapshot) (h : Handle) : Prop :=
  p.Refuses h ∧ ∀ (E : Environment σ Snapshot) (timeout : Option Duration), p.close E h timeout = p

theorem refusal?_eq_none : p.refusal? h = none ↔
    (p.get h.producer).phase = .opened ∧ (p.get h.producer).lease = h.lease := by
  unfold refusal? Producer.refusal?
  cases (p.get h.producer).phase <;> simp

theorem refuses_of_refusal (refusal : p.refusal? h ≠ none) : p.Refuses h := by
  obtain ⟨error, refused⟩ := Option.ne_none_iff_exists'.mp refusal
  intro E
  refine ⟨fun call => ⟨error, ?_⟩, fun record callback => ⟨error, ?_⟩⟩
  · simp only [operate, refused]
  · simp only [send, refused]

/-- A handle under an earlier lease than the current one is inert. -/
theorem inert_of_lt (outdated : h.lease < (p.get h.producer).lease) : p.Inert h := by
  refine ⟨refuses_of_refusal fun may => ?_, fun E timeout => ?_⟩
  · have current := (refusal?_eq_none.mp may).2
    omega
  · unfold close
    rw [if_pos (by omega)]

/-! ## Handles that have been closed -/

/-- The lease of the handle is over: it is outdated, or its producer is parked or closed. -/
structure Spent (p : Pool σ Snapshot) (h : Handle) : Prop where
  inside : h.producer < p.producers.length
  begun : h.lease ≤ (p.get h.producer).lease
  ended : (p.get h.producer).phase = .opened → h.lease < (p.get h.producer).lease

namespace Spent

theorem later (spent : p.Spent h) (later : Later p q) : q.Spent h := by
  have change := later.get spent.inside
  refine ⟨Nat.lt_of_lt_of_le spent.inside later.producers.length,
    Nat.le_trans spent.begun change.lease, fun opened => ?_⟩
  rcases change.reopened opened with before | higher
  · exact Nat.lt_of_lt_of_le (spent.ended before) change.lease
  · exact Nat.lt_of_le_of_lt spent.begun higher

theorem path (spent : p.Spent h) (path : Path p q) : q.Spent h := spent.later (Later.of_path path)

theorem refuses (spent : p.Spent h) : p.Refuses h := by
  refine refuses_of_refusal fun may => ?_
  obtain ⟨opened, current⟩ := refusal?_eq_none.mp may
  have outdated := spent.ended opened
  omega

theorem of_phase (inside : h.producer < p.producers.length)
    (begun : h.lease ≤ (p.get h.producer).lease) (closed : (p.get h.producer).phase ≠ .opened) :
    p.Spent h := ⟨inside, begun, fun opened => absurd opened closed⟩

end Spent

theorem closed_spent (begun : h.lease ≤ (p.get h.producer).lease)
    (undisposed : (p.get h.producer).phase ≠ .disposed) (outside : σ)
    (events : List (Event Snapshot)) : (p.closed h.producer outside events).Spent h := by
  have inside := lt_of_phase undisposed
  have closed := get_closed h.producer h.producer outside events p
  rw [if_pos ⟨rfl, inside⟩] at closed
  refine Spent.of_phase ?_ ?_ ?_
  · show h.producer < (p.producers.modify _ _).length
    rw [List.length_modify]
    exact inside
  · rw [closed]
    exact begun
  · rw [closed]
    simp

theorem retire_spent (tame : E.Tame) (timeout : Duration) (inside : h.producer < p.producers.length)
    (begun : h.lease ≤ (p.get h.producer).lease) : (p.retire E h timeout).Spent h := by
  have later := Later.of_path (retire_balanced tame h timeout p).path
  refine .of_phase (Nat.lt_of_lt_of_le inside later.producers.length)
    (Nat.le_trans begun (later.get inside).lease) ?_
  rw [retire_disposed tame timeout inside]
  simp

theorem takeBack_spent (tame : E.Tame) (timeout : Duration) (inside : h.producer < p.producers.length)
    (begun : h.lease ≤ (p.get h.producer).lease)
    (pooled : (p.get h.producer).placement = .pooled key) : (p.takeBack E h timeout).Spent h := by
  unfold takeBack
  dsimp only
  split
  case isTrue parked => exact .of_phase inside begun parked
  case isFalse opened =>
    rw [pooled]
    dsimp only
    split
    case isTrue healthy =>
      rw [shelve_healthy key timeout (Classical.not_not.mp opened) healthy]
      have parked := getD_modify (fun x => { x with phase := .cached }) p.producers h.producer
        h.producer
      rw [if_pos ⟨rfl, inside⟩] at parked
      refine .of_phase ?_ ?_ ?_
      · show h.producer < (p.producers.modify _ _).length
        rw [List.length_modify]
        exact inside
      · exact Nat.le_trans begun (Nat.le_of_eq (congrArg Producer.lease parked).symm)
      · intro reopened
        cases (congrArg Producer.phase parked).symm.trans reopened
    case isFalse => exact retire_spent tame timeout inside begun

/-- What follows when a close has taken a handle back. -/
theorem takenBack_path (tame : E.Tame) (h : Handle) (timeout : Duration) (p : Pool σ Snapshot) :
    Path (takeBack E h timeout { p.pin h with running := (p.pin h).running + 1 })
      (((p.pin h).withinFactory E (takeBack E h timeout)).unpin E h) := by
  have kept := takeBack_balanced (p := { p.pin h with running := (p.pin h).running + 1 }) tame timeout
    List.mem_cons_self (alive_of_running (Nat.succ_pos _))
  have busy : 0 < (takeBack E h timeout
      { p.pin h with running := (p.pin h).running + 1 }).running := by
    rw [kept.running]
    exact Nat.succ_pos _
  have left := withFactory_path (E := E) (p := p.pin h) (a := ())
    (f := fun p => (takeBack E h timeout p, ())) rfl busy
  exact left.trans (unpin_leads tame h _).path

/-- When a pooled handle has been closed its lease is over, whoever has the producer by then. -/
theorem close_spent (tame : E.Tame) (timeout : Option Duration)
    (inside : h.producer < p.producers.length) (begun : h.lease ≤ (p.get h.producer).lease)
    (pooled : (p.get h.producer).placement = .pooled key) : (p.close E h timeout).Spent h := by
  unfold close
  split
  case isTrue outdated => exact ⟨inside, begun, fun _ => by omega⟩
  case isFalse =>
  split
  case isTrue accounted =>
    have taken := takeBack_spent (p := { p.pin h with running := (p.pin h).running + 1 }) tame
      (timeout.getD (p.pin h).factory.config.closeTimeout) inside begun pooled
    exact taken.path (takenBack_path tame h _ p)
  case isFalse =>
    unfold shutHandle
    split
    case isTrue disposed => exact .of_phase inside begun (by simp [disposed])
    case isFalse undisposed =>
      obtain ⟨outside, events, -, shut⟩ := shut_eq E h.producer (timeout.getD defaultCloseTimeout) p
      rw [shut]
      exact closed_spent begun undisposed outside events

section Work

variable {α : Type} {work : Handle → Pool σ Snapshot → Pool σ Snapshot × Except PoolError α}

/-- A unit of work hands its producer back at its end. -/
theorem transact_spent (tame : E.Tame) (works : ∀ h p, Balanced p (work h p).1) (there : h ∈ p.pinned)
    (inside : h.producer < p.producers.length) (begun : h.lease ≤ (p.get h.producer).lease)
    (pooled : (p.get h.producer).placement = .pooled key) : (p.transact E work h).1.Spent h := by
  have closes {x : Pool σ Snapshot} (path : Path p x) : (x.close E h none).Spent h := by
    have later := Later.of_path path
    have still : (x.get h.producer).placement = .pooled key := by
      rw [(later.get inside).placement]
      exact pooled
    exact close_spent tame none (Nat.lt_of_lt_of_le inside later.producers.length)
      (Nat.le_trans begun (later.get inside).lease) still
  have asked := operate_balanced tame (mem_handles_of_pinned there) .begin
  unfold transact
  rcases answer : p.operate E h .begin with ⟨x, error | done⟩
  all_goals rw [answer] at asked
  · exact closes asked.path
  · have worked := asked.balanced (works h x)
    have still : h ∈ (work h x).1.pinned := (worked.mem_pinned h).mpr there
    exact closes (worked.balanced (conclude_balanced tame still (work h x).2)).path

theorem execute_spent (tame : E.Tame) (works : ∀ h p, Balanced p (work h p).1)
    {scope : TransactionScope}
    (ordered : ({ p with running := p.running + 1 } : Pool σ Snapshot).Ordered)
    (yields : obtainFor E scope { p with running := p.running + 1 } = (m, .ok h))
    (pooled : (m.get h.producer).placement = .pooled key) : (p.execute E scope work).1.Spent h := by
  obtain ⟨there, ended⟩ := execute_path tame works yields
  have fetches := obtainFor_fetches (p := { p with running := p.running + 1 }) tame scope
  rw [yields] at fetches
  cases fetches with
  | fetched _ _ leads =>
    obtain ⟨inside, begun⟩ := (ordered.path leads.path).genuine.known h
      (Or.inl (mem_handles_of_pinned there))
    exact (transact_spent tame works there inside begun pooled).path ended

end Work

end Pool

/-! ## Leases in a run -/

/-- The lease that begins in a step is the latest one then. -/
theorem Pool.Lends.leases {x y : Pool σ Snapshot} (lends : Pool.Lends x y m h) :
    y.leases = h :: x.leases := by
  obtain ⟨events, journal⟩ := lends.leased
  have latest : y.leases = h :: (events.filterMap Event.lease? ++ x.leases) := by
    rw [Pool.leases, journal, ← List.cons_append, List.filterMap_append]
    rfl
  rcases lends.step.leases with same | ⟨other, more, -⟩
  · have longer := congrArg List.length (latest.symm.trans same)
    simp only [List.length_cons, List.length_append] at longer
    omega
  · rw [more] at latest ⊢
    rw [(List.cons.inj latest).1]

/-- Code of callers does not run while a lease begins. -/
theorem Pool.Lends.written {x y : Pool σ Snapshot} (lends : Pool.Lends x y m h) (outside : σ) :
    Pool.written outside y.journal = Pool.written outside x.journal := by
  rcases lends.step.journal with rfl | ⟨events, unmarked, journal⟩
  · have longer := congrArg List.length lends.leases
    rw [show x.look.leases = x.leases from rfl, List.length_cons] at longer
    omega
  · rw [journal, Pool.written_append _ _ unmarked]

/-- For a request that yields a pooled producer a lease begins. -/
theorem Yields.lends (ordered : p.Ordered) (yields : Yields p m q h)
    (pooled : (q.get h.producer).placement = .pooled key) :
    ∃ x y, Path p x ∧ Pool.Lends x y m h := by
  rw [yields.same] at pooled
  cases yields.source with
  | fresh x y path _ _ lends => exact ⟨x, y, path, lends⟩
  | parked x path name old cache found cached sound lent =>
    have reopened : Step x m := by
      rw [lent]
      exact .reopen x name old cache found cached sound
    refine ⟨x, m, path, reopened, ⟨[], ?_⟩, .refl⟩
    rw [lent]
    rfl
  | shared x path _ found usable lent =>
    rw [lent] at pooled
    cases ((ordered.path path).placed.shared h found).symm.trans pooled
  | bound x path t _ found usable lent =>
    rw [lent] at pooled
    cases ((ordered.path path).placed.bound t h (mem_of_lookup found)).symm.trans pooled

/-- It is a lease that was not known before the request. -/
theorem Yields.leased (ordered : p.Ordered) (yields : Yields p m q h)
    (pooled : (q.get h.producer).placement = .pooled key) :
    ∃ begun, q.leases = begun ++ p.leases ∧ h ∈ begun ∧
      (p.producers.length ≤ h.producer ∨ (p.get h.producer).lease < h.lease) := by
  obtain ⟨x, y, path, lends⟩ := yields.lends ordered pooled
  obtain ⟨early, before, -⟩ := path.begun
  have onward : Path y q := lends.kept.path.trans yields.after
  have through : Path p q := yields.before.trans yields.after
  obtain ⟨late, after, -⟩ := onward.begun
  obtain ⟨begun, whole, new⟩ := through.begun
  have same : begun ++ p.leases = (late ++ h :: early) ++ p.leases := by
    rw [← whole, after, lends.leases, before, List.append_assoc, List.cons_append]
  have member : h ∈ begun := by
    rw [List.append_cancel_right same]
    exact List.mem_append_right _ List.mem_cons_self
  exact ⟨begun, whole, member, new h member⟩

/-- At the points of a request its lease has not begun yet, or the operation holds the handle. -/
theorem Yields.point {config : Config} {outside : σ} {n : Pool σ Snapshot}
    (path : Path (Pool.new config outside) p) (yields : Yields p m q h)
    (pooled : (q.get h.producer).placement = .pooled key)
    (point : { n with outside := q.outside } ∈ q.points) : h ∉ n.leases ∨ h ∈ n.pinned := by
  obtain ⟨x, y, before, lends⟩ :=
    yields.lends ((Pool.Ordered.new config outside).path path) pooled
  obtain ⟨events, unmarked, journal⟩ := yields.journal
  rw [Pool.points, journal, Pool.written_append _ _ unmarked] at point
  rcases lends.kept.written q.outside point with early | held
  · refine Or.inl fun begun => ?_
    rw [lends.written] at early
    -- The lease would have begun twice on the path to `y`.
    have start : Path (Pool.new config outside) x := path.trans before
    obtain ⟨since, whole, -⟩ := (Path.of_written start rfl early).begun
    have twice : h ∈ x.leases := by
      rw [whole]
      exact List.mem_append_right _ begun
    have rising := ((Pool.Ordered.new config outside).path (start.tail lends.step)).genuine.rising
    rw [lends.leases] at rising
    exact absurd ((List.pairwise_cons.mp rising).1 h twice rfl) (Nat.lt_irrefl _)
  · exact Or.inr (Multiset.mem_coe.mp (Multiset.singleton_le.mp held))

/-- When a request that yields a pooled producer has ended, a lease has begun that was new to it. -/
theorem Serves.leased {config : Config} (serves : Serves E p q h) (lawful : E.Lawful)
    (visited : Visited config p) (owned : 0 < p.owners)
    (pooled : (q.get h.producer).placement = .pooled key) :
    h ∈ q.leases ∧ (p.producers.length ≤ h.producer ∨ (p.get h.producer).lease < h.lease) := by
  obtain ⟨m, obtains, onward⟩ := serves.obtains lawful
  obtain ⟨x, yields⟩ := obtains.yields lawful
  obtain ⟨outside, path⟩ := visited.enters owned
  have ordered := (Pool.Ordered.new config outside).path path
  have inside := (ordered.path yields.before).genuine.inside
    (Pool.mem_handles_of_pinned yields.there)
  have known : h.producer < m.producers.length :=
    Nat.lt_of_lt_of_le inside (Later.of_path yields.after).producers.length
  have same := ((Later.of_path onward).get known).placement
  obtain ⟨begun, whole, member, new⟩ := yields.leased ordered (same.symm.trans pooled)
  obtain ⟨since, more, -⟩ := onward.begun
  refine ⟨?_, new⟩
  rw [more, whole]
  exact List.mem_append_right _ (List.mem_append_left _ member)

/-- What holds of the leases of pooled producers at a point `p` of a run of the configuration. -/
structure Pool.Exclusive (config : Config) (p : Pool σ Snapshot) : Prop where
  /-- Handles that may operate on one producer are clones of each other. -/
  single : ∀ h₁ h₂, h₁.producer = h₂.producer → p.refusal? h₁ = none → p.refusal? h₂ = none → h₁ = h₂
  /-- Each request that yields a pooled producer begins a lease of it. -/
  leased : ∀ (E : Environment σ Snapshot) (q : Pool σ Snapshot) (h : Handle) (key : String),
    E.Lawful → 0 < p.owners → Obtains E p q h → (q.get h.producer).placement = .pooled key →
      ∃ begun, q.leases = begun ++ p.leases ∧ h ∈ begun
  /-- No other request begins the same lease: neither one that is made at `p` when the lease has begun,
  nor one that has ended at `n` before the first yields its handle at `q`. -/
  separate : ∀ (E E' : Environment σ Snapshot) (start q n : Pool σ Snapshot) (h h' : Handle)
    (key key' : String), E.Lawful → E'.Lawful → Visited config start → 0 < start.owners →
      Obtains E start q h → (q.get h.producer).placement = .pooled key →
        0 < p.owners → Serves E' p n h' → (n.get h'.producer).placement = .pooled key' →
          (h ∈ p.leases ∨ { n with outside := q.outside } ∈ q.points) → h ≠ h'
  /-- All leases of a producer but the latest are over for good. -/
  outdated : p.leases.Pairwise fun newer older => newer.producer = older.producer → p.Inert older
  /-- A handle closed under the current lease never operates again. -/
  closed : ∀ (E : Environment σ Snapshot) (h : Handle) (timeout : Option Duration) (key : String)
    (q : Pool σ Snapshot), E.Lawful → h ∈ p.held ++ p.pinned →
      (p.get h.producer).placement = .pooled key → (p.get h.producer).lease = h.lease →
        Visited config q → Precedes (p.close E h timeout) q → q.Refuses h
  /-- Nor does one that a unit of work had. -/
  executed : ∀ (α : Type) (E : Environment σ Snapshot) (scope : TransactionScope)
    (work : Handle → Pool σ Snapshot → Pool σ Snapshot × Except PoolError α) (m q : Pool σ Snapshot)
    (h : Handle) (key : String), E.Lawful → (∀ h p, Code p.look (work h p).1) → 0 < p.owners →
      obtainFor E scope { p with running := p.running + 1 } = (m, .ok h) →
        (m.get h.producer).placement = .pooled key →
          Visited config q → Precedes (p.execute E scope work).1 q → q.Refuses h

theorem leases_exclusive {config : Config} (visited : Visited config p) : p.Exclusive config where
  single h₁ h₂ same may₁ may₂ := by
    have lease₁ := (Pool.refusal?_eq_none.mp may₁).2
    have lease₂ := (Pool.refusal?_eq_none.mp may₂).2
    rw [same] at lease₁
    obtain ⟨r₁, l₁⟩ := h₁
    obtain ⟨r₂, l₂⟩ := h₂
    obtain rfl : r₁ = r₂ := same
    obtain rfl : l₁ = l₂ := lease₁.symm.trans lease₂
    rfl
  leased E q h key lawful owned obtains pooled := by
    obtain ⟨m, yields⟩ := obtains.yields lawful
    obtain ⟨outside, path⟩ := visited.enters owned
    obtain ⟨begun, whole, member, -⟩ :=
      yields.leased ((Pool.Ordered.new config outside).path path) pooled
    exact ⟨begun, whole, member⟩
  separate E E' start q n h h' key key' lawful lawful' started owned obtains pooled owned' serves
      pooled' order := by
    rintro rfl
    obtain ⟨begun, new⟩ := serves.leased lawful' visited owned' pooled'
    obtain ⟨outside, path⟩ := visited.path
    have genuine := ((Pool.Ordered.new config outside).path path).genuine
    have unknown : ¬p.Knows h := by
      intro knows
      obtain ⟨inside, bound⟩ := genuine.known h knows
      rcases new with out | higher
      · exact absurd out (Nat.not_le.mpr inside)
      · exact absurd bound (Nat.not_le.mpr higher)
    rcases order with before | point
    · exact unknown (Or.inr before)
    · obtain ⟨m, yields⟩ := obtains.yields lawful
      obtain ⟨first, entered⟩ := started.enters owned
      rcases yields.point entered pooled point with unbegun | held
      · exact unbegun begun
      · have balanced := serves.balanced lawful' (Pool.alive_of_owners owned')
        exact unknown (Or.inl (Pool.mem_handles_of_pinned ((balanced.mem_pinned h).mp held)))
  outdated := by
    obtain ⟨outside, path⟩ := visited.path
    have genuine := ((Pool.Ordered.new config outside).path path).genuine
    refine genuine.rising.imp_of_mem fun {newer older} member _ rising same => ?_
    have current := (genuine.known newer (Or.inr member)).2
    refine Pool.inert_of_lt (Nat.lt_of_lt_of_le (rising same.symm) ?_)
    rw [← same]
    exact current
  closed E h timeout key q lawful possessed pooled current later after := by
    obtain ⟨outside, path⟩ := visited.path
    have there : h ∈ p.handles := List.mem_append_left _ possessed
    have inside := ((Pool.Ordered.new config outside).path path).genuine.inside there
    have spent := Pool.close_spent lawful.tame timeout inside (Nat.le_of_eq current.symm) pooled
    exact (spent.path (after.path later)).refuses
  executed α E scope work m q h key lawful works owned yields pooled later after := by
    obtain ⟨outside, path⟩ := visited.enters owned
    have ordered := (Pool.Ordered.new config outside).path path
    have spent := Pool.execute_spent lawful.tame (Code.works_balanced works) ordered yields pooled
    exact (spent.path (after.path later)).refuses

/-- A pooled producer is created, handed back and created again: the first handle is inert. -/
theorem leases_exclusive_after_reuse :
    let p := (Pool.new { idPrefix := some "a" } ()).look.perform .quiet
      [.create 0, .close ⟨0, 0⟩ none, .create 0]
    p.refusal? ⟨0, 1⟩ = none ∧ p.leases = [⟨0, 1⟩, ⟨0, 0⟩] ∧ p.Inert ⟨0, 0⟩ := by
  have reached := (Reached.start { idPrefix := some "a" } ()).perform Environment.quiet_lawful
    [.create 0, .close ⟨0, 0⟩ none, .create 0] (by decide +kernel)
  have exclusive := leases_exclusive reached.visited
  have leases : ((Pool.new { idPrefix := some "a" } ()).look.perform .quiet
      [.create 0, .close ⟨0, 0⟩ none, .create 0]).leases = [⟨0, 1⟩, ⟨0, 0⟩] := by
    decide +kernel
  refine ⟨by decide +kernel, leases, ?_⟩
  have outdated := exclusive.outdated
  rw [leases] at outdated
  exact (List.pairwise_cons.mp outdated).1 ⟨0, 0⟩ List.mem_cons_self rfl

end ProducerPool
