import ProducerPool.Proofs.Carried
import ProducerPool.Proofs.Closing
import ProducerPool.Proofs.Dealings
import ProducerPool.Proofs.Reuse
import ProducerPool.Proofs.Transactions

/-!
# Producers that are checked out

A thread's producer is checked out whenever a request yields it, and checked in when a handle to it is
closed.  A reset closes those that are checked in; the others are still in use.  But being checked out is
one bit of the producer, and all handles to a thread's producer are the same: whoever asked first and
closes the handle, be it once more, checks the producer in for those who have asked since.  So a reset
spares a producer whose handle nobody has closed since a request yielded it, and that is all.
-/

set_option autoImplicit false

namespace ProducerPool

variable {σ : Type} {E F : Environment σ Snapshot} {p q m a b : Pool σ Snapshot} {h : Handle} {r : Ref}
  {t : ThreadId} {config : Config}

/-! ## Leases of producers that are not pooled -/

/-- Only a pooled producer is lent again under a new lease. -/
def Pool.LentOnce (p : Pool σ Snapshot) : Prop :=
  ∀ r, (∀ key, (p.get r).placement ≠ .pooled key) → (p.get r).lease = 0

theorem Step.lease_eq (step : Step p q) (placed : p.Placed) (inside : r < p.producers.length)
    (unpooled : ∀ key, (p.get r).placement ≠ .pooled key) : (q.get r).lease = (p.get r).lease := by
  rcases step.lease_cases inside with same | ⟨key, h, cache, rfl, found, -⟩
  · exact same
  · -- What leaves a queue is a pooled producer.
    exact absurd (placed.parked key h (Cache.parked_pop found)).1 (unpooled key)

theorem Step.lentOnce (step : Step p q) (placed : p.Placed) (lent : p.LentOnce) : q.LentOnce := by
  intro r unpooled
  rcases Nat.lt_or_ge r p.producers.length with inside | new
  · have later := (Later.of_step step).get inside
    rw [later.placement] at unpooled
    rw [step.lease_eq placed inside unpooled]
    exact lent r unpooled
  rcases Nat.lt_or_ge r q.producers.length with inside | out
  · obtain ⟨-, ⟨_, _, _, -, -, built⟩ | ⟨s, -, copied⟩⟩ := step.newcomer new inside
    · rw [built]
    · rw [copied]
      rfl
  · rw [Pool.get_eq_absent out]
    rfl

theorem Visited.lentOnce (visited : Visited config p) : p.LentOnce := by
  obtain ⟨outside, path⟩ := visited.path
  have first : (Pool.new config outside : Pool σ Snapshot).Ordered := .new config outside
  have both := Path.preserves (fun p q (both : p.Ordered ∧ p.LentOnce) step =>
    ⟨both.1.path (.single step), step.lentOnce both.1.placed both.2⟩) path ⟨first, fun _ _ => rfl⟩
  exact both.2

/-! ## Producers that are checked out -/

namespace Pool

/-- The producer of the handle is under its lease and checked out. -/
structure Out (h : Handle) (p : Pool σ Snapshot) : Prop extends p.Taken h where
  out : (p.get h.producer).checkedOut = true

theorem Out.of_producers (out : p.Out h) (producers : q.producers = p.producers) : q.Out h where
  toTaken := out.toTaken.of_producers producers
  out := by
    rw [get, producers]
    exact out.out

end Pool

/-- As long as nobody closes the handle, its producer stays checked out. -/
def outInvariant (h : Handle) : Invariant σ where
  holds _ p := p.Regular ∧ p.Out h
  parks x := x ≠ h
  binds _ _ := True
  regular holds := holds.1
  own := by
    rintro due p x ⟨regular, out⟩ new
    have taken : (takenInvariant h).holds due p := ⟨regular, out.toTaken⟩
    exact (takenInvariant h).own taken new
  move := by
    rintro due left p q ⟨regular, out⟩ motion
    obtain ⟨still, taken⟩ := (takenInvariant h).move ⟨regular, out.toTaken⟩ motion
    refine ⟨still, taken, Classical.byContradiction fun back => ?_⟩
    -- It is checked in only by the close of a handle to it under its lease, which is this handle.
    rcases motion.returns h.producer (by simpa using back) with before | ⟨x, may, same, lease⟩
    · cases before.symm.trans out.out
    · refine may ?_
      obtain ⟨producer, number⟩ := x
      obtain rfl : producer = h.producer := same
      obtain rfl : number = h.lease := lease.symm.trans out.lease
      rfl

/-! ## Requests for a thread -/

namespace Pool

/-- A producer that has just been built is checked out. -/
theorem Built.out {placement : Placement} (new : Built p q placement h) (opens : p.Opens q h) :
    q.Out h := by
  have inside : h.producer < q.producers.length := lt_of_phase (by simp [opens.opened])
  obtain ⟨-, ⟨_, _, _, -, -, built⟩ | ⟨s, -, copied⟩⟩ :=
    new.step.newcomer (Nat.le_of_eq (congrArg Handle.producer new.handle).symm) inside
  · refine ⟨⟨inside, ?_, ?_⟩, ?_⟩
    · rw [built, new.handle]
    · simp [opens.opened]
    · rw [built]
  · have disposed : (q.get h.producer).phase = .disposed := congrArg Producer.phase copied
    cases disposed.symm.trans opens.opened

theorem renewBound_out (up : E.Upholds (outInvariant h)) (regular : p.Regular) (busy : 0 < p.running)
    (yields : renewBound E t p = (m, .ok h)) : m.Out h := by
  obtain ⟨transactionalId, n, named, names⟩ := nameBound_names t p
  simp only [renewBound, named] at yields
  rcases build_opens E names with ⟨error, q, failed, -⟩ | ⟨q, x, done, new, opens⟩
  · rw [failed] at yields
    cases yields
  · rw [done] at yields
    obtain ⟨ended, same⟩ := Prod.mk.inj yields
    obtain rfl : x = h := Except.ok.inj same
    have alive : q.alive = true := alive_of_running (by rw [new.leads.running]; exact busy)
    have path := new.leads.path.trans (seat_path new.there new.placed alive)
    have seated : (outInvariant x).holds [.announce .added x] (q.bindThread E t x) :=
      up.unseatOld ⟨regular.path path, (new.out opens).of_producers rfl⟩
    rw [← ended]
    exact ((up.hears .added).tellAll seated).2

theorem obtainBound_out (up : E.Upholds (outInvariant h)) (regular : p.Regular) (lent : p.LentOnce)
    (busy : 0 < p.running) (yields : obtainBound E t p = (m, .ok h)) : m.Out h := by
  rcases obtainBound_cases up.tame t p with ⟨x, found, usable, seated⟩ | ⟨b, cleared, renews⟩
  · rw [seated] at yields
    obtain ⟨ended, same⟩ := Prod.mk.inj yields
    obtain rfl : x = h := Except.ok.inj same
    have there := mem_handles_of_lookup found
    have inside := regular.ordered.genuine.inside there
    have checked := getD_modify (fun x => { x with checkedOut := true }) p.producers x.producer x.producer
    rw [if_pos ⟨rfl, inside⟩] at checked
    have placed := regular.ordered.placed.bound t x (mem_of_lookup found)
    have once := lent x.producer (by simp [placed])
    have given := (regular.ordered.genuine.known x (Or.inl there)).2
    rw [← ended]
    refine ⟨⟨?_, ?_, ?_⟩, ?_⟩
    · exact Nat.lt_of_lt_of_eq inside (List.length_modify ..).symm
    · refine (congrArg Producer.lease checked).trans (once.trans ?_)
      exact (Nat.le_zero.mp (once ▸ given)).symm
    · exact fun cached => by cases cached.symm.trans (isUsable_iff.mp usable).1
    · exact congrArg Producer.checkedOut checked
  · rw [renews] at yields
    exact renewBound_out up (regular.path cleared.path) (by rw [cleared.running]; exact busy) yields

end Pool

/-- A request for a thread checks its producer out, if no code that runs meanwhile closes the handle. -/
theorem Visited.out (visited : Visited config p) (perThread : config.perThread = true)
    (spares : ∀ f, E.Runs f → ∀ p, Abstains (fun x => x = h) p.look (f p)) (owned : 0 < p.owners)
    (created : p.create E t = (q, .ok h)) : q.Out h := by
  have up : E.Upholds (outInvariant h) :=
    Environment.upholds_of_abstains spares (fun _ other => other) fun _ _ => trivial
  obtain ⟨outside, entered⟩ := visited.enters owned
  have regular := (Pool.Regular.new config outside).path entered
  have same := (Pool.Named.of_visited visited).configured
  obtain ⟨m, answer, yields⟩ := Yields.of_withFactory (fun p => p.obtain E t)
    (Pool.obtain_fetches up.tame t (Nat.succ_pos _)) created
  have out : m.Out h := by
    unfold Pool.obtain at answer
    split at answer
    · cases answer
    · rw [if_pos (by rw [same]; exact perThread)] at answer
      exact Pool.obtainBound_out up regular visited.lentOnce (Nat.succ_pos _) answer
  have grown := (Later.of_path yields.after).producers.length
  exact ⟨⟨Nat.lt_of_lt_of_le out.inside grown, yields.same ▸ out.lease, yields.same ▸ out.unparked⟩,
    yields.same ▸ out.out⟩

/-! ## Code that calls nothing back -/

/-- Code of callers that calls no operation.  It completes deliveries, whose callbacks call none either,
and it changes what lies beyond the border. -/
inductive Aloof {σ : Type} : Pool σ Snapshot → Pool σ Snapshot → Prop
  | done (p : Pool σ Snapshot) : Aloof p p
  | elsewhere {p q : Pool σ Snapshot} (outside : σ)
      (rest : Aloof ({ p with outside := outside } : Pool σ Snapshot).look q) : Aloof p q
  | deliver {p q : Pool σ Snapshot} (callback : Nat → Outcome → Pool σ Snapshot → Pool σ Snapshot)
      (d : Delivery) (outcome : Outcome)
      (passed : ∀ p : Pool σ Snapshot, Aloof p.look (callback d.callback outcome p))
      (rest : Aloof (p.deliver callback d outcome).look q) : Aloof p q

/-- The hooks of the environment call nothing back. -/
def Environment.Aloof (E : Environment σ Snapshot) : Prop :=
  ∀ f, E.Runs f → ∀ p : Pool σ Snapshot, ProducerPool.Aloof p.look (f p)

theorem Aloof.code (aloof : Aloof p q) : Code p q := by
  induction aloof with
  | done p => exact .done p
  | elsewhere outside _ rest =>
    exact .act .quiet (.elsewhere outside) Environment.quiet_lawful
      (fun f passes => absurd passes (Act.not_passes rfl)) trivial rest
  | deliver callback d outcome _ _ passed rest =>
    refine .act .quiet (.deliver callback d outcome) Environment.quiet_lawful (fun f passes => ?_)
      trivial rest
    cases passes
    exact passed

theorem Environment.Aloof.lawful (aloof : F.Aloof) : F.Lawful := fun f runs p => (aloof f runs p).code

/-! ## Resets -/

/-- The producer keeps its phase, and as many callers hold the factory. -/
structure Pool.Undisturbed (r : Ref) (p q : Pool σ Snapshot) : Prop where
  owners : q.owners = p.owners
  phase : (q.get r).phase = (p.get r).phase

namespace Pool

namespace Undisturbed

theorem trans (first : Undisturbed r p m) (second : Undisturbed r m q) : Undisturbed r p q :=
  ⟨second.owners.trans first.owners, second.phase.trans first.phase⟩

theorem of_producers (owners : q.owners = p.owners) (producers : q.producers = p.producers) :
    Undisturbed r p q :=
  ⟨owners, by rw [get, producers]; rfl⟩

theorem spoil (s : Ref) (error : ClientError) (p : Pool σ Snapshot) :
    Undisturbed r p (p.spoil s error) := by
  unfold Pool.spoil
  dsimp only
  split
  · exact ⟨rfl, rfl⟩
  · refine ⟨rfl, ?_⟩
    show ((p.producers.modify s _).getD r .absent).phase = _
    rw [getD_modify]
    split <;> rfl

theorem deliver {callback : Nat → Outcome → Pool σ Snapshot → Pool σ Snapshot} {d : Delivery}
    {outcome : Outcome} (passed : ∀ p, Undisturbed r p (callback d.callback outcome p))
    (p : Pool σ Snapshot) : Undisturbed r p (p.deliver callback d outcome) := by
  have called (q : Pool σ Snapshot) (spoiled : Undisturbed r p q) : Undisturbed r p
      ((callback d.callback outcome (q.record (.delivering d outcome))).record (.delivered d)) :=
    spoiled.trans ⟨(passed _).owners, (passed _).phase⟩
  refine called _ ?_
  split
  · split
    · exact .spoil _ _ p
    · exact ⟨rfl, rfl⟩
  · exact ⟨rfl, rfl⟩

end Undisturbed

end Pool

theorem Aloof.undisturbed (aloof : Aloof p q) (r : Ref) : p.Undisturbed r q := by
  induction aloof with
  | done p => exact ⟨rfl, rfl⟩
  | elsewhere outside _ rest => exact ⟨rest.owners, rest.phase⟩
  | @deliver p q callback d outcome _ _ passed rest =>
    have delivered : p.Undisturbed r (p.deliver callback d outcome) :=
      .deliver (fun p => ⟨(passed p).owners, (passed p).phase⟩) p
    exact delivered.trans ⟨rest.owners, rest.phase⟩

namespace Pool

theorem Undisturbed.relates (aloof : F.Aloof) (kind : NoticeKind) : F.Relates kind (Undisturbed r) where
  refl _ := ⟨rfl, rfl⟩
  trans := trans
  note _ _ := ⟨rfl, rfl⟩
  hears listener notice p _ := by
    have heard := (aloof _ (.listen listener notice) p).undisturbed r
    exact ⟨heard.owners, heard.phase⟩

/-- The end of one producer leaves the others as they are. -/
theorem retire_undisturbed (aloof : F.Aloof) (timeout : Duration) (other : h.producer ≠ r)
    (p : Pool σ Snapshot) : Undisturbed r p (p.retire F h timeout) := by
  unfold retire
  split
  · exact ⟨rfl, rfl⟩
  · obtain ⟨outside, events, -, shut⟩ := shut_eq F h.producer timeout p
    have same := get_closed h.producer r outside events p
    rw [if_neg fun both => other both.1] at same
    have closed : Undisturbed r p ((p.closed h.producer outside events).onFactory fun f =>
      { f with live := f.live - 1 }) := ⟨rfl, congrArg Producer.phase same⟩
    rw [shut]
    exact closed.trans ((Undisturbed.relates aloof .removed).tellAll h _)

theorem retireAll_undisturbed (aloof : F.Aloof) (timeout : Duration) (hs : List Handle)
    (others : ∀ h ∈ hs, h.producer ≠ r) (p : Pool σ Snapshot) :
    Undisturbed r p (p.retireAll F timeout hs) := by
  induction hs generalizing p with
  | nil => exact ⟨rfl, rfl⟩
  | cons h hs ih =>
    have first := retire_undisturbed aloof timeout (others h List.mem_cons_self) p
    exact first.trans (ih (fun x member => others x (List.mem_cons_of_mem h member)) _)

theorem unpinAll_undisturbed (hs : List Handle) (p : Pool σ Snapshot)
    (disposed : ∀ h ∈ hs, (p.get h.producer).phase = .disposed) :
    Undisturbed r p (p.unpinAll F hs) := by
  rw [unpinAll_of_disposed disposed]
  exact ⟨rfl, rfl⟩

theorem mem_idle : h ∈ p.idle ↔ p.factory.shared = some h ∨ (∃ key, p.factory.cache.Parked key h) ∨
    ∃ t, (t, h) ∈ p.factory.threads ∧ (p.get h.producer).checkedOut = false := by
  simp [idle, Cache.mem_items]

/-- A sweep closes no producer of a thread that is checked out. -/
theorem Placed.not_idle (placed : p.Placed) (bound : (p.get r).placement = .thread t)
    (out : (p.get r).checkedOut = true) : ∀ h ∈ p.idle, h.producer ≠ r := by
  rintro h member rfl
  rcases mem_idle.mp member with shared | ⟨key, parked⟩ | ⟨u, -, back⟩
  · cases bound.symm.trans (placed.shared h shared)
  · cases bound.symm.trans (placed.parked key h parked).1
  · cases out.symm.trans back

theorem sweep_undisturbed (aloof : F.Aloof) (ordered : p.Ordered)
    (bound : (p.get r).placement = .thread t) (out : (p.get r).checkedOut = true) :
    Undisturbed r p (p.sweep F) := by
  have others := ordered.placed.not_idle bound out
  have inside : ∀ h ∈ p.idle, h.producer < p.producers.length := by
    intro h member
    refine ordered.genuine.inside (mem_handles_of_factory (Factory.mem_handles.mpr ?_))
    exact (mem_idle.mp member).imp_right (Or.symm ∘ Or.imp_right fun ⟨u, seated, _⟩ => ⟨u, seated⟩)
  rw [sweep, retireTogether, foldl_pin]
  generalize given : ({ p.giveUpIdle.log (.resetting p.idle.length) with
    pinned := p.idle.reverse ++ (p.giveUpIdle.log (.resetting p.idle.length)).pinned } :
      Pool σ Snapshot) = m
  have begun : Undisturbed r p m := by
    rw [← given]
    exact ⟨rfl, rfl⟩
  have known : ∀ h ∈ p.idle, h.producer < m.producers.length := by
    rw [← given]
    exact inside
  exact (begun.trans (retireAll_undisturbed aloof _ p.idle others m)).trans
    (unpinAll_undisturbed p.idle _ (retireAll_disposed aloof.lawful.tame _ known))

theorem withinFactory_owned {f : Pool σ Snapshot → Pool σ Snapshot}
    (owned : 0 < (f { p with running := p.running + 1 }).owners) :
    p.withinFactory E f = { f { p with running := p.running + 1 } with
      running := (f { p with running := p.running + 1 }).running - 1 } :=
  congrArg Prod.fst (withFactory_alive (f := fun p => (f p, ())) rfl (alive_of_owners owned))

theorem reset_undisturbed (aloof : F.Aloof) (ordered : p.Ordered) (owned : 0 < p.owners)
    (bound : (p.get r).placement = .thread t) (out : (p.get r).checkedOut = true) :
    Undisturbed r p (p.reset F) := by
  have entered : Path p { p.record (.requested .reset) with running := p.running + 1 } :=
    .head (.note p _ rfl) (.single (.recount _ p.owners (p.running + 1) (alive_of_owners owned) (by omega)))
  have swept := sweep_undisturbed (p := { p.record (.requested .reset) with running := p.running + 1 })
    aloof (ordered.path entered) bound out
  rw [reset, withinFactory_owned (lt_of_lt_of_eq owned swept.owners.symm)]
  exact ⟨swept.owners, swept.phase⟩

end Pool

/-! ## What a reset spares -/

/-- A thread's producer that a request has yielded survives resets in whose course nothing is called back,
as long as nobody closes its handle.  The handle is the same whichever request has yielded it. -/
theorem checkedOut_survives_reset (reached : Reached config a) (perThread : config.perThread = true)
    (spares : ∀ f, E.Runs f → ∀ p, Abstains (fun x => x = h) p.look (f p)) (owned : 0 < a.owners)
    (created : a.create E t = (b, .ok h)) (unclosed : Abstains (fun x => x = h) b.look p)
    (aloof : F.Aloof) (still : 0 < p.owners) :
    (p.get h.producer).placement = .thread t ∧
      ((p.reset F).get h.producer).phase = (p.get h.producer).phase ∧
        closeCount (p.get h.producer).conn (p.reset F).journal =
          closeCount (p.get h.producer).conn p.journal ∧
        ((p.get h.producer).phase = .opened →
          closeCount (p.get h.producer).conn (p.reset F).journal = 0) := by
  have lawful : E.Lawful := fun f runs p => (spares f runs p).code
  obtain ⟨outside, path⟩ := reached.path
  have requested : Path a b := by
    have yields := (Pool.create_balanced lawful.tame t (Pool.alive_of_owners owned)).path
    rwa [created] at yields
  have whole : Path (Pool.new config outside) b := path.trans requested
  have first : (outInvariant h).holds [] b.look :=
    Invariant.look ⟨(Pool.Regular.new config outside).path whole, reached.visited.out perThread spares
      owned created⟩
  -- Nobody closes the handle, so its producer is still checked out.
  obtain ⟨regular, out⟩ := unclosed.preserves (fun _ other => other) (fun _ _ => trivial) first
  have onward : Path b p := ((Pool.look_balanced b).balanced unclosed.code.balanced).path
  have bound : (p.get h.producer).placement = .thread t := by
    rw [((Later.of_path onward).get (reached.visited.out perThread spares owned created).inside).placement]
    exact reached.visited.create_placed lawful owned perThread created
  have spared := Pool.reset_undisturbed aloof regular.ordered still bound out.out
  have resets := (Pool.reset_balanced aloof.lawful.tame (Pool.alive_of_owners still)).path
  have later := Later.of_path resets
  have audited : p.Audited := (Pool.Audited.new config outside).path (whole.trans onward)
  have before := audited.closeCount_conn out.inside
  have after := (audited.path resets).closeCount_conn
    (Nat.lt_of_lt_of_le out.inside later.producers.length)
  rw [(later.get out.inside).conn, spared.phase] at after
  exact ⟨bound, spared.phase, after.trans before.symm, fun opened => by simp [after, opened]⟩

/-- Two requests for a thread yield its producer, and nobody closes a handle to it. -/
theorem checkedOut_survives_reset_of_two :
    let config : Config := { perThread := true }
    let a := (Pool.new config ()).look.perform .quiet [.create 1]
    let p := a.perform .quiet [.create 0, .create 0]
    Reached config p ∧ p.held = [⟨1, 0⟩, ⟨1, 0⟩, ⟨0, 0⟩] ∧ (p.get 1).phase = .opened ∧
      ((p.reset .quiet).get 1).phase = .opened ∧ closeCount 1 (p.reset .quiet).journal = 0 := by
  intro config a p
  have reached : Reached config a := (Reached.start config ()).perform Environment.quiet_lawful
    [.create 1] (by decide +kernel)
  have reached' : Reached config p :=
    reached.perform Environment.quiet_lawful [.create 0, .create 0] (by decide +kernel)
  have aloof : (Environment.quiet : Environment Unit Snapshot).Aloof := by
    intro f runs p
    cases runs <;> exact .done p.look
  have spares (f : Pool Unit Snapshot → Pool Unit Snapshot) (runs : Environment.quiet.Runs f)
      (p : Pool Unit Snapshot) : Abstains (fun x => x = ⟨1, 0⟩) p.look (f p) := by
    cases runs <;> exact .done p.look
  have unclosed : Abstains (fun x => x = ⟨1, 0⟩) (a.create .quiet 0).1.look p :=
    .act .quiet (.create 0) spares (fun f passes => absurd passes (Act.not_passes rfl)) (by decide +kernel)
      (fun h timeout same => by cases same) (.done p)
  have opened : (p.get 1).phase = .opened := by decide +kernel
  have conn : (p.get 1).conn = 1 := by decide +kernel
  have answer : (a.create .quiet 0).2 = .ok ⟨1, 0⟩ := by decide +kernel
  have created : a.create .quiet 0 = ((a.create .quiet 0).1, .ok ⟨1, 0⟩) := by rw [← answer]
  obtain ⟨-, spared, -, unclosed⟩ := checkedOut_survives_reset reached rfl spares (by decide +kernel)
    created unclosed aloof (by decide +kernel)
  exact ⟨reached', by decide +kernel, opened, spared.trans opened, conn ▸ unclosed opened⟩

/-- Two requests for a thread yield its producer, and one of the two handles is closed.  The producer is no
longer checked out, though the other handle is still in use, and a reset closes it. -/
theorem reset_closes_checkedOut :
    let config : Config := { perThread := true }
    let a := (Pool.new config ()).look
    let b := a.perform .quiet [.create 0]
    let p := a.perform .quiet [.create 0, .create 0, .close ⟨0, 0⟩ none]
    Reached config p ∧ (a.create .quiet 0).2 = .ok ⟨0, 0⟩ ∧ (b.create .quiet 0).2 = .ok ⟨0, 0⟩ ∧
      p.held = [⟨0, 0⟩, ⟨0, 0⟩] ∧ (p.get 0).phase = .opened ∧
        ((p.reset .quiet).get 0).phase = .disposed ∧ closeCount 0 (p.reset .quiet).journal = 1 := by
  intro config a b p
  have reached : Reached config p := (Reached.start config ()).perform Environment.quiet_lawful
    [.create 0, .create 0, .close ⟨0, 0⟩ none] (by decide +kernel)
  refine ⟨reached, ?_, ?_, ?_, ?_, ?_, ?_⟩ <;> decide +kernel

end ProducerPool
