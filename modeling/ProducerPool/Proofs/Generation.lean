import ProducerPool.Proofs.CheckOut
import ProducerPool.Proofs.Discretion
import ProducerPool.Proofs.Singleton

/-!
# New generations

A reset begins a new generation.  What the factory keeps idle is closed at once: the shared producer, every
parked one and every producer of a thread that is not checked out.  All others are left as they are, and
their handles go on working, but the factory keeps them no longer than their callers do: it parks none of
them, it closes them when they are handed back, and a thread that asks for its producer gets another one.
-/

set_option autoImplicit false

namespace ProducerPool

variable {σ : Type} {E : Environment σ Snapshot} {p q : Pool σ Snapshot} {h : Handle} {r : Ref}
  {t : ThreadId} {config : Config}

/-! ## What is idle -/

/-- A producer that does not outlive its generation: a shared one, a parked one, or a thread's that is not
checked out. -/
def Producer.Idle (x : Producer) : Prop :=
  x.phase ≠ .disposed ∧
    (x.placement = .shared ∨ x.phase = .cached ∨ (∃ t, x.placement = .thread t) ∧ x.checkedOut = false)

namespace Pool

namespace Slotted

variable (slotted : p.Slotted)
include slotted

theorem idle_of_mem (member : h ∈ p.idle) : (p.get h.producer).Idle := by
  rcases mem_idle.mp member with shared | ⟨key, parked⟩ | ⟨t, seated, back⟩
  · obtain ⟨opened, placed⟩ := slotted.shared h shared
    exact ⟨by simp [opened], Or.inl placed⟩
  · have cached := (slotted.queued key h parked).1
    exact ⟨by simp [cached], Or.inr (Or.inl cached)⟩
  · obtain ⟨opened, placed⟩ := slotted.bound t h seated
    exact ⟨by simp [opened], Or.inr (Or.inr ⟨⟨t, placed⟩, back⟩)⟩

/-- Different threads have different producers. -/
theorem seats_apart : (p.factory.threads.map fun entry => entry.2.producer).Nodup := by
  refine List.pairwise_map.mpr (List.Pairwise.imp_of_mem ?_ (List.pairwise_map.mp slotted.seats))
  intro first second member member' apart same
  have bound := (slotted.bound first.1 first.2 member).2
  rw [same, (slotted.bound second.1 second.2 member').2] at bound
  exact apart (Placement.thread.inj bound).symm

/-- No producer is idle in two places. -/
theorem idle_once : (p.idle.map Handle.producer).Nodup := by
  have queued {h : Handle} (member : h ∈ p.factory.cache.items) :
      ∃ key, (p.get h.producer).placement = .pooled key := by
    obtain ⟨key, parked⟩ := Cache.mem_items.mp member
    exact ⟨key, (slotted.queued key h parked).2.1⟩
  rw [idle, List.map_append, List.map_append]
  refine List.nodup_append.mpr ⟨List.nodup_append.mpr ⟨?_, slotted.once, ?_⟩, ?_, ?_⟩
  · cases p.factory.shared <;> simp
  · intro r first s second same
    obtain ⟨h, found, rfl⟩ := List.mem_map.mp first
    obtain ⟨x, there, rfl⟩ := List.mem_map.mp second
    obtain ⟨key, pooled⟩ := queued there
    rw [← same] at pooled
    cases pooled.symm.trans (slotted.shared h (Option.mem_toList.mp found)).2
  · rw [List.map_map]
    exact slotted.seats_apart.sublist (List.filter_sublist.map _)
  · intro r first s second same
    obtain ⟨x, there, rfl⟩ := List.mem_map.mp second
    obtain ⟨entry, member, rfl⟩ := List.mem_map.mp there
    have bound := (slotted.bound entry.1 entry.2 (List.mem_filter.mp member).1).2
    rw [← same] at bound
    rcases List.mem_append.mp first with shared | parked
    · obtain ⟨h, found, rfl⟩ := List.mem_map.mp shared
      cases bound.symm.trans (slotted.shared h (Option.mem_toList.mp found)).2
    · obtain ⟨h, found, rfl⟩ := List.mem_map.mp parked
      obtain ⟨key, pooled⟩ := queued found
      cases bound.symm.trans pooled

end Slotted

/-! ## A reset -/

/-- A reset is all that a sweep does, for somebody holds the factory when it begins and when it ends. -/
theorem reset_deals (discreet : E.Discreet) (owned : 0 < p.owners) (slotted : p.Slotted) :
    Deals (p.idle.flatMap (p.ending p.factory.config.closeTimeout)) (p.giveUpIdle.discard p.idle)
      (p.reset E) := by
  generalize entered : ({ p.record (.requested .reset) with running := p.running + 1 } :
    Pool σ Snapshot) = m
  have swept : Deals (p.idle.flatMap (p.ending p.factory.config.closeTimeout))
      ((m.giveUpIdle.log (.resetting m.idle.length)).discard m.idle) (m.sweep E) := by
    have once : (m.idle.map Handle.producer).Nodup := by
      rw [← entered]
      exact slotted.idle_once
    have undisposed : ∀ h ∈ m.idle, (m.get h.producer).phase ≠ .disposed := by
      rw [← entered]
      exact fun h member => (slotted.idle_of_mem member).1
    have retired := retireTogether_deals (p := m.giveUpIdle.log (.resetting m.idle.length)) discreet once
      undisposed
    have same : m.idle.flatMap
        ((m.giveUpIdle.log (.resetting m.idle.length)).ending m.factory.config.closeTimeout) =
        p.idle.flatMap (p.ending p.factory.config.closeTimeout) := by
      rw [← entered]
      exact List.flatMap_congr fun h _ => ending_congr rfl rfl
    rw [← same]
    exact retired
  have left := swept.map (fun q => { q with running := q.running - 1 }) (fun _ _ _ => rfl) fun _ => rfl
  have owners : (m.sweep E).owners = p.owners := by
    rw [swept.owners, ← entered]
    rfl
  have ends : p.reset E = { m.sweep E with running := (m.sweep E).running - 1 } := by
    subst entered
    exact withinFactory_owned (p := p.record (.requested .reset)) (lt_of_lt_of_eq owned owners.symm)
  rw [ends]
  obtain ⟨outside, events, dealings, same⟩ := left
  refine ⟨outside, events ++ [.logged (.resetting p.idle.length), .requested .reset], ?_, ?_⟩
  · rw [← dealings]
    simp [Event.isDealing]
  · rw [same, ← entered, List.append_assoc]
    rfl

/-- What a reset does to the pool, and to what is beyond its border. -/
structure Resets (E : Environment σ Snapshot) (p : Pool σ Snapshot) : Prop where
  deals : Deals (p.idle.flatMap (p.ending p.factory.config.closeTimeout))
    (p.giveUpIdle.discard p.idle) (p.reset E)
  once : (p.idle.map Handle.producer).Nodup
  epoch : (p.reset E).factory.epoch = p.factory.epoch + 1
  shared : (p.reset E).factory.shared = none
  queues : (p.reset E).factory.cache.queues = []
  threads : (p.reset E).factory.threads =
    p.factory.threads.filter fun entry => (p.get entry.2.producer).checkedOut
  closed : ∀ h ∈ p.idle, (p.reset E).get h.producer = { p.get h.producer with phase := .disposed }
  spared : ∀ r, r ∉ p.idle.map Handle.producer → (p.reset E).get r = p.get r
  /-- Whoever has a pooled producer, or one of a thread that is checked out, can go on using it. -/
  works : ∀ h, p.refusal? h = none →
    ((∃ key, (p.get h.producer).placement = .pooled key) ∨
      (∃ t, (p.get h.producer).placement = .thread t) ∧ (p.get h.producer).checkedOut = true) →
    (p.reset E).refusal? h = none

theorem Slotted.resets (slotted : p.Slotted) (discreet : E.Discreet) (owned : 0 < p.owners) :
    p.Resets E := by
  have deals := reset_deals discreet owned slotted
  have spared (r : Ref) (kept : r ∉ p.idle.map Handle.producer) : (p.reset E).get r = p.get r := by
    rw [deals.get, get_discard, if_neg kept]
    rfl
  refine ⟨deals, slotted.idle_once, congrArg Factory.epoch deals.factory,
    congrArg Factory.shared deals.factory, congrArg (fun f => f.cache.queues) deals.factory,
    congrArg Factory.threads deals.factory, ?_, spared, ?_⟩
  · intro h member
    rw [deals.get, get_discard, if_pos (List.mem_map.mpr ⟨h, member, rfl⟩)]
    rfl
  · intro h free used
    have opened := (refusal?_eq_none.mp free).1
    have kept : h.producer ∉ p.idle.map Handle.producer := by
      intro idle
      obtain ⟨x, member, same⟩ := List.mem_map.mp idle
      rw [← same] at used opened
      rcases (slotted.idle_of_mem member).2 with shared | cached | ⟨⟨t, bound⟩, back⟩
      · rcases used with ⟨key, pooled⟩ | ⟨⟨t, bound⟩, -⟩
        · cases pooled.symm.trans shared
        · cases bound.symm.trans shared
      · cases opened.symm.trans cached
      · rcases used with ⟨key, pooled⟩ | ⟨-, out⟩
        · cases pooled.symm.trans bound
        · cases out.symm.trans back
    rw [refusal?, spared h.producer kept]
    exact free

end Pool

/-! ## Producers of earlier generations -/

/-- The producer is of an earlier generation, and it is not parked. -/
structure Pool.Outdated (p : Pool σ Snapshot) (r : Ref) : Prop where
  inside : r < p.producers.length
  epoch : (p.get r).epoch < p.factory.epoch
  unparked : (p.get r).phase ≠ .cached

/-- Only producers of the current generation are parked. -/
theorem Step.unparked (step : Step p q) (outdated : p.Outdated r) : (q.get r).phase ≠ .cached := by
  have alters := step.alters outdated.inside
  generalize q.get r = y at alters
  cases alters with
  | parked opened current => exact absurd current (Nat.ne_of_lt outdated.epoch)
  | closed => simp
  | reopened => simp
  | _ => exact outdated.unparked

namespace Pool.Outdated

theorem step (outdated : p.Outdated r) (step : Step p q) : q.Outdated r where
  inside := Nat.lt_of_lt_of_le outdated.inside (Later.of_step step).producers.length
  epoch := by
    rw [((Later.of_step step).get outdated.inside).epoch]
    exact Nat.lt_of_lt_of_le outdated.epoch (Later.of_step step).epoch
  unparked := step.unparked outdated

theorem path (outdated : p.Outdated r) (path : Path p q) : q.Outdated r :=
  Path.preserves (fun p _ (older : p.Outdated r) step => older.step step) path outdated

theorem not_usable (outdated : p.Outdated h.producer) : p.isUsable h = false := by
  have older := Nat.ne_of_lt outdated.epoch
  simp [isUsable, older]

theorem not_healthy (outdated : p.Outdated h.producer) : p.isHealthy h = false := by
  have older := Nat.ne_of_lt outdated.epoch
  simp [isHealthy, older]

end Pool.Outdated

/-! ## Requests for threads whose producers are outdated -/

namespace Pool

/-- A request for a thread whose producer cannot be used closes that producer before it builds another. -/
theorem obtainBound_disposes (tame : E.Tame) (busy : 0 < p.running) (inside : h.producer < p.producers.length)
    (found : p.factory.threads.lookup t = some h) (unusable : p.isUsable h = false) :
    ((handOverResult (obtainBound E t p)).1.get h.producer).phase = .disposed := by
  unfold obtainBound
  rw [found]
  dsimp only
  split
  case isTrue usable =>
    have unfit := isUsable_checked (p := p) (h := h) h.producer
    rw [unusable] at unfit
    cases unfit.symm.trans usable
  case isFalse =>
    generalize begun : (pin h (p.modify h.producer fun x => { x with checkedOut := true })).unbind t
      h.producer = m
    have known : h.producer < m.producers.length := by
      rw [← begun]
      exact Nat.lt_of_lt_of_eq inside (List.length_modify ..).symm
    generalize closes : m.retire E h _ = n
    have disposed : (n.get h.producer).phase = .disposed := by
      rw [← closes]
      exact retire_disposed tame _ known
    have still : 0 < n.running := by
      rw [← closes, (retire_balanced tame h _ m).running, ← begun]
      exact busy
    rw [unpin_of_disposed disposed]
    have renews := handOverResult_balanced
      (renewBound_fetches (p := { n with pinned := n.pinned.erase h }) tame t still)
    have there : h.producer < n.producers.length := by
      rw [← closes]
      exact Nat.lt_of_lt_of_le known (Later.of_path (retire_balanced tame h _ m).path).producers.length
    exact ((Later.of_path renews.path).get there).disposed disposed

/-- Where producers are bound to threads, a request closes the thread's producer if it is outdated. -/
theorem Outdated.create_disposes (outdated : p.Outdated h.producer) (tame : E.Tame)
    (standing : p.factory.destroyed = false) (perThread : p.factory.config.perThread = true)
    (found : p.factory.threads.lookup t = some h) :
    ((p.create E t).1.get h.producer).phase = .disposed := by
  generalize entered : ({ p with running := p.running + 1 } : Pool σ Snapshot) = m
  have bound : m.obtain E t = obtainBound E t m := by
    subst entered
    rw [obtain, if_neg (by simp [standing]), if_pos perThread]
  have busy : 0 < m.running := by
    rw [← entered]
    exact Nat.succ_pos _
  have outdated' : m.Outdated h.producer := by
    subst entered
    exact ⟨outdated.inside, outdated.epoch, outdated.unparked⟩
  have disposed := obtainBound_disposes (E := E) tame busy outdated'.inside
    (by rw [← entered]; exact found) outdated'.not_usable
  have obtained := handOverResult_balanced (obtain_fetches (p := m) tame t busy)
  rw [bound] at obtained
  have left : Path (handOverResult (obtainBound E t m)).1 (p.create E t).1 := by
    refine withFactory_path (f := fun p => handOverResult (p.obtain E t))
      (a := (handOverResult (obtainBound E t m)).2) ?_ (by rw [obtained.running]; exact busy)
    simp only [entered, bound]
  have known := Nat.lt_of_lt_of_le outdated'.inside (Later.of_path obtained.path).producers.length
  exact ((Later.of_path left).get known).disposed disposed

end Pool

/-! ## Resets in a run -/

/-- Between operations, whatever is idle is in a place of the factory. -/
theorem Discreetly.mem_idle_iff {outside : σ} (discreetly : Discreetly (Pool.new config outside).look p)
    (alive : p.alive = true) : r ∈ p.idle.map Handle.producer ↔ (p.get r).Idle := by
  have visited := discreetly.reached.visited
  constructor
  · intro member
    obtain ⟨h, there, rfl⟩ := List.mem_map.mp member
    exact visited.slotted.idle_of_mem there
  · rintro ⟨undisposed, shared | cached | ⟨⟨t, bound⟩, back⟩⟩
    · have sharing : p.Sharing r := ⟨undisposed, shared⟩
      obtain ⟨h, found, rfl⟩ := sharing.kept alive (visited.not_stray r)
      exact List.mem_map.mpr ⟨h, Pool.mem_idle.mpr (Or.inl found), rfl⟩
    · obtain ⟨key, h, parked, rfl, -⟩ := (discreetly.reached.filed alive).queued r cached
      exact List.mem_map.mpr ⟨h, Pool.mem_idle.mpr (Or.inr (Or.inl ⟨key, parked⟩)), rfl⟩
    · obtain ⟨h, found, rfl⟩ := discreetly.seated alive ⟨undisposed, bound⟩
      have seated := mem_of_lookup found
      exact List.mem_map.mpr ⟨h, Pool.mem_idle.mpr (Or.inr (Or.inr ⟨t, seated, back⟩)), rfl⟩

theorem Precedes.look (p : Pool σ Snapshot) : Precedes p p.look := by
  rw [Precedes, Pool.points_look]
  exact List.mem_cons_of_mem _ List.mem_cons_self

/-- How a producer of the pool `p` fares in the runs that go on from there: it is parked no more, and it is
closed when somebody hands it back or when its thread asks for a producer. -/
structure Fades (config : Config) (p : Pool σ Snapshot) (r : Ref) : Prop where
  unparked : ∀ z, Visited config z → Precedes p z →
    (z.get r).phase ≠ .cached ∧ ∀ key h, z.factory.cache.Parked key h → h.producer ≠ r
  closes : ∀ z, Visited config z → Precedes p z →
    ∀ (E : Environment σ Snapshot) (h : Handle) (timeout : Option Duration), E.Lawful →
      h.producer = r → (z.get r).lease = h.lease → ((z.close E h timeout).get r).phase = .disposed
  /-- Threads have producers of their own only under the policy that binds producers to threads. -/
  creates : config.perThread = true → ∀ (outside : σ) (z : Pool σ Snapshot),
    Discreetly (Pool.new config outside).look z → Precedes p z → 0 < z.owners →
      ∀ (E : Environment σ Snapshot) (t : ThreadId), E.Lawful → (z.get r).placement = .thread t →
        ((z.create E t).1.get r).phase = .disposed

theorem Pool.Outdated.fades (outdated : p.Outdated r) : Fades config p r where
  unparked z visited before := by
    have older := outdated.path (before.path visited)
    refine ⟨older.unparked, fun key h parked same => older.unparked ?_⟩
    rw [← same]
    exact (visited.slotted.queued key h parked).1
  closes z visited before E h timeout lawful same current := by
    subst same
    have older := outdated.path (before.path visited)
    exact Pool.close_disposed lawful.tame timeout older.inside current (fun _ => older.unparked)
      older.not_healthy
  creates perThread outside z discreetly before owned E t lawful bound := by
    have visited := discreetly.reached.visited
    have older := outdated.path (before.path visited)
    have alive := Pool.alive_of_owners owned
    by_cases disposed : (z.get r).phase = .disposed
    · have later := Later.of_path (Pool.create_balanced lawful.tame t alive).path
      exact (later.get older.inside).disposed disposed
    · -- The producer is in the seat of its thread, and the seats of a destroyed factory are empty.
      obtain ⟨h, found, rfl⟩ := discreetly.seated alive ⟨disposed, bound⟩
      have standing : z.factory.destroyed = false := by
        cases destroyed : z.factory.destroyed with
        | false => rfl
        | true =>
          rw [(discreetly.timely.dwindles.bare rfl destroyed).threads] at found
          cases found
      refine older.create_disposes lawful.tame standing ?_ found
      rw [(Pool.Named.of_visited visited).configured]
      exact perThread

/-- A reset at any point of a run; between operations of a run whose listeners do not call back, what is in
the places that it sweeps is all that is idle. -/
theorem reset_sweeps_idle (visited : Visited config p) (owned : 0 < p.owners) (discreet : E.Discreet) :
    p.Resets E ∧
      (∀ r, ((p.reset E).get r).phase = .opened → Fades config (p.reset E) r) ∧
        ∀ outside, Discreetly (Pool.new config outside).look p →
          ∀ r, r ∈ p.idle.map Handle.producer ↔ (p.get r).Idle := by
  have resets := visited.slotted.resets discreet owned
  refine ⟨resets, fun r opened => Pool.Outdated.fades ⟨?_, ?_, by simp [opened]⟩,
    fun outside discreetly r => discreetly.mem_idle_iff (Pool.alive_of_owners owned)⟩
  · exact Pool.lt_of_phase (by simp [opened])
  · -- Whatever is still open was there before the reset.
    have spared : (p.reset E).get r = p.get r := by
      refine resets.spared r fun member => ?_
      obtain ⟨h, idle, rfl⟩ := List.mem_map.mp member
      rw [resets.closed h idle] at opened
      cases opened
    have inside : r < p.producers.length := by
      rw [spared] at opened
      exact Pool.lt_of_phase (by simp [opened])
    rw [spared, resets.epoch]
    exact Nat.lt_succ_of_le (visited.placed.epochs r inside)

/-- Of two threads one has handed its producer back.  A reset closes that producer, and the one of the other
thread is closed when that thread asks for a producer again. -/
theorem reset_sweeps_idle_of_two :
    let config : Config := { perThread := true }
    let p := (Pool.new config ()).look.perform .quiet [.create 0, .create 1, .close ⟨0, 0⟩ none]
    let q := p.reset .quiet
    Discreetly (Pool.new config ()).look p ∧ 0 < p.owners ∧
      (Environment.quiet : Environment Unit Snapshot).Discreet ∧ p.Resets .quiet ∧
      (p.get 0).Idle ∧ ¬(p.get 1).Idle ∧ (q.get 0).phase = .disposed ∧ (q.get 1).phase = .opened ∧
      q.factory.threads = [(1, ⟨1, 0⟩)] ∧ Fades config q 1 ∧
      ((q.look.create .quiet 1).1.get 1).phase = .disposed := by
  intro config p q
  have discreetly : Discreetly (Pool.new config ()).look p :=
    .perform [.create 0, .create 1, .close ⟨0, 0⟩ none] (by decide +kernel)
  have onward : Discreetly (Pool.new config ()).look q.look :=
    .perform [.create 0, .create 1, .close ⟨0, 0⟩ none, .reset] (by decide +kernel)
  have owned : 0 < p.owners := by decide +kernel
  obtain ⟨resets, fades, idle⟩ :=
    reset_sweeps_idle discreetly.reached.visited owned Environment.quiet_discreet
  have opened : (q.get 1).phase = .opened := by decide +kernel
  have swept : (p.get 0).Idle := (idle () discreetly 0).mp (by decide +kernel)
  have kept : ¬(p.get 1).Idle := fun sweeps => absurd ((idle () discreetly 1).mpr sweeps) (by decide +kernel)
  have seats : q.factory.threads = [(1, ⟨1, 0⟩)] := by decide +kernel
  have bound : (q.look.get 1).placement = .thread 1 := by decide +kernel
  have closes := (fades 1 opened).creates rfl () q.look onward (.look q) (by decide +kernel) .quiet 1
    Environment.quiet_lawful bound
  exact ⟨discreetly, owned, Environment.quiet_discreet, resets, swept, kept, by decide +kernel, opened,
    seats, fades 1 opened, closes⟩

end ProducerPool
