import ProducerPool.Proofs.Points
import ProducerPool.Proofs.Tables

/-!
# Where handles come from

A step puts a handle into a place of the factory only where an operation holds it, and makes a new
handle only for a new producer or for a new lease.  So every handle names a producer that exists under
a lease that has been given out, and the leases of one producer rise.
-/

set_option autoImplicit false

namespace ProducerPool

variable {σ : Type} {p q : Pool σ Snapshot} {f g : Factory} {h : Handle} {hs : List Handle} {r : Ref}
  {t : ThreadId} {key : String}

/-! ## The places of the factory -/

theorem Factory.mem_handles :
    h ∈ f.handles ↔ f.shared = some h ∨ (∃ t, (t, h) ∈ f.threads) ∨ ∃ key, f.cache.Parked key h := by
  simp [Factory.handles, Cache.mem_items, Option.mem_toList]

theorem Pool.mem_handles : h ∈ p.handles ↔ h ∈ p.held ∨ h ∈ p.pinned ∨ h ∈ p.factory.handles := by
  simp [Pool.handles]

theorem Factory.GivesUp.shared (givesUp : f.GivesUp hs g) (found : g.shared = some h) :
    f.shared = some h := by
  cases givesUp with
  | swept => cases found
  | _ => exact found

theorem Factory.GivesUp.bound (givesUp : f.GivesUp hs g) (member : (t, h) ∈ g.threads) :
    (t, h) ∈ f.threads := by
  cases givesUp with
  | unseated => exact (List.mem_filter.mp member).1
  | swept => exact (List.mem_filter.mp member).1
  | cleared => cases member
  | _ => exact member

theorem Factory.GivesUp.parked (givesUp : f.GivesUp hs g) (parked : g.cache.Parked key h) :
    f.cache.Parked key h ∧ g.epoch = f.epoch := by
  cases givesUp with
  | popped _ _ _ found => exact ⟨Cache.parked_of_pop found parked, rfl⟩
  | drained => exact ⟨Cache.parked_of_drain parked, rfl⟩
  | swept =>
    obtain ⟨items, entry, -⟩ := parked
    cases entry
  | _ => exact ⟨parked, rfl⟩

theorem Factory.GivesUp.mem (givesUp : f.GivesUp hs g) (member : h ∈ hs) : h ∈ f.handles := by
  rw [Factory.mem_handles]
  cases givesUp with
  | popped key x cache found =>
    rw [List.mem_singleton.mp member]
    exact Or.inr (Or.inr ⟨key, Cache.parked_pop found⟩)
  | drained key => exact Or.inr (Or.inr ⟨key, Cache.parked_of_queue member⟩)
  | unseated t x found =>
    rw [List.mem_singleton.mp member]
    exact Or.inr (Or.inl ⟨t, mem_of_lookup found⟩)
  | cleared =>
    obtain ⟨⟨t, x⟩, entry, rfl⟩ := List.mem_map.mp member
    exact Or.inr (Or.inl ⟨t, entry⟩)
  | swept out =>
    rcases List.mem_append.mp member with early | seated
    · rcases List.mem_append.mp early with shared | parked
      · exact Or.inl (Option.mem_toList.mp shared)
      · exact Or.inr (Or.inr (Cache.mem_items.mp parked))
    · obtain ⟨⟨t, x⟩, entry, rfl⟩ := List.mem_map.mp seated
      exact Or.inr (Or.inl ⟨t, (List.mem_filter.mp entry).1⟩)

namespace Pool.LetsGo

theorem shared_found (letsGo : p.LetsGo r q) (found : q.factory.shared = some h) :
    p.factory.shared = some h := by
  cases letsGo with
  | shared => exact Option.eq_some_of_filter_eq_some found
  | _ => exact found

theorem parked_iff (letsGo : p.LetsGo r q) :
    q.factory.cache = p.factory.cache ∧ q.factory.epoch = p.factory.epoch := by
  cases letsGo <;> exact ⟨rfl, rfl⟩

/-- What a step needs to put a handle into a place. -/
theorem bound_member (letsGo : p.LetsGo r q) (member : (t, h) ∈ q.factory.threads) :
    (t, h) ∈ p.factory.threads ∨
      h ∈ p.pinned ∧ (p.get h.producer).placement = .thread t ∧ p.alive = true := by
  cases letsGo with
  | bound => exact Or.inl (List.mem_filter.mp member).1
  | seat u x old found there placed alive =>
    rcases List.mem_append.mp member with before | new
    · exact Or.inl (List.mem_filter.mp before).1
    · obtain ⟨rfl, rfl⟩ : t = u ∧ h = x := by simpa using new
      exact Or.inr ⟨there, placed, alive⟩
  | _ => exact Or.inl member

theorem held_sub (letsGo : p.LetsGo r q) (member : h ∈ q.held) : h ∈ p.held := by
  cases letsGo with
  | held => exact List.mem_of_mem_erase member
  | _ => exact member

theorem pinned_sub (letsGo : p.LetsGo r q) (member : h ∈ q.pinned) : h ∈ p.pinned := by
  cases letsGo with
  | pinned => exact List.mem_of_mem_erase member
  | _ => exact member

theorem producers (letsGo : p.LetsGo r q) : q.producers = p.producers := by
  cases letsGo <;> rfl

end Pool.LetsGo

namespace Step

theorem shared_found (step : Step p q) (found : q.factory.shared = some h) :
    p.factory.shared = some h ∨
      h ∈ p.pinned ∧ (p.get h.producer).placement = .shared ∧ p.alive = true := by
  cases step with
  | kept r m letsGo => exact Or.inl (letsGo.shared_found found)
  | lost r m letsGo => exact Or.inl (letsGo.shared_found found)
  | lostOwned r m letsGo => exact Or.inl (letsGo.shared_found found)
  | expire => cases found
  | share x there placed alive =>
    obtain rfl : x = h := Option.some.inj found
    exact Or.inr ⟨there, placed, alive⟩
  | giveUp hs f givesUp => exact Or.inl (givesUp.shared found)
  | _ => exact Or.inl found

theorem bound_member (step : Step p q) (member : (t, h) ∈ q.factory.threads) :
    (t, h) ∈ p.factory.threads ∨
      h ∈ p.pinned ∧ (p.get h.producer).placement = .thread t ∧ p.alive = true := by
  cases step with
  | kept r m letsGo => exact letsGo.bound_member member
  | lost r m letsGo => exact letsGo.bound_member member
  | lostOwned r m letsGo => exact letsGo.bound_member member
  | expire => cases member
  | seat u x free there placed alive =>
    rcases List.mem_append.mp member with before | new
    · exact Or.inl (List.mem_filter.mp before).1
    · obtain ⟨rfl, rfl⟩ : t = u ∧ h = x := by simpa using new
      exact Or.inr ⟨there, placed, alive⟩
  | giveUp hs f givesUp => exact Or.inl (givesUp.bound member)
  | _ => exact Or.inl member

/-- A producer is parked while it is open and of the current generation. -/
theorem parked (step : Step p q) (parked : q.factory.cache.Parked key h) :
    q.factory.epoch = p.factory.epoch ∧
      (p.factory.cache.Parked key h ∨
        h ∈ p.handles ∧ (p.get h.producer).placement = .pooled key ∧
          (p.get h.producer).epoch = p.factory.epoch ∧ p.alive = true) := by
  cases step with
  | kept r m letsGo =>
    obtain ⟨cache, epoch⟩ := letsGo.parked_iff
    rw [cache] at parked
    exact ⟨epoch, Or.inl parked⟩
  | lost r m letsGo =>
    obtain ⟨cache, epoch⟩ := letsGo.parked_iff
    exact ⟨epoch, Or.inl (cache ▸ parked)⟩
  | lostOwned r m letsGo =>
    obtain ⟨cache, epoch⟩ := letsGo.parked_iff
    exact ⟨epoch, Or.inl (cache ▸ parked)⟩
  | expire =>
    obtain ⟨items, entry, -⟩ := parked
    cases entry
  | shelve x name there opened placed current alive =>
    rcases Cache.parked_of_push parked with before | ⟨rfl, rfl⟩
    · exact ⟨rfl, Or.inl before⟩
    · exact ⟨rfl, Or.inr ⟨there, placed, current, alive⟩⟩
  | reopen name x cache found => exact ⟨rfl, Or.inl (Cache.parked_of_pop found parked)⟩
  | ensure name => exact ⟨rfl, Or.inl (Cache.parked_ensure.mp parked)⟩
  | giveUp hs f givesUp => exact ⟨(givesUp.parked parked).2, Or.inl (givesUp.parked parked).1⟩
  | _ => exact ⟨rfl, Or.inl parked⟩

end Step

/-! ## New handles -/

/-- A handle that a step has made: for a producer that is new, or under a lease that is new. -/
def Pool.Makes (p q : Pool σ Snapshot) (h : Handle) : Prop :=
  (p.producers.length ≤ h.producer ∧ h.producer < q.producers.length ∧ h.lease = 0) ∨
    h.producer < p.producers.length ∧ (p.get h.producer).lease < h.lease ∧
      h.lease = (q.get h.producer).lease

theorem Pool.makes_built (p : Pool σ Snapshot) (placement : Placement)
    (transactionalId clientId : Option String) (n : Nat) (outside : σ)
    (events : List (Event Snapshot)) :
    p.Makes ((p.numbered n).built placement transactionalId clientId outside events)
      ⟨p.producers.length, 0⟩ := by
  refine Or.inl ⟨Nat.le_refl _, ?_, rfl⟩
  simp [Pool.built, Pool.numbered, Pool.onFactory]

theorem Pool.makes_reopened (cached : (p.get h.producer).phase = .cached) (cache : Cache Handle) :
    p.Makes (p.reopened h cache) (p.renewed h) := by
  have inside : h.producer < p.producers.length := Pool.lt_of_phase (by simp [cached])
  refine Or.inr ⟨inside, Nat.lt_succ_self _, ?_⟩
  have opened := Pool.getD_modify (fun q => { q with phase := .opened, lease := q.lease + 1 })
    p.producers h.producer h.producer
  rw [if_pos ⟨rfl, inside⟩] at opened
  exact (congrArg Producer.lease opened).symm

namespace Step

theorem held_member (step : Step p q) (member : h ∈ q.held) : h ∈ p.handles := by
  rw [Pool.mem_handles]
  cases step with
  | hold x there =>
    rcases List.mem_cons.mp member with rfl | before
    · exact Pool.mem_handles.mp there
    · exact Or.inl before
  | handOver x there =>
    rcases List.mem_cons.mp member with rfl | before
    · exact Or.inr (Or.inl there)
    · exact Or.inl before
  | kept r m letsGo => exact Or.inl (letsGo.held_sub member)
  | lost r m letsGo => exact Or.inl (letsGo.held_sub member)
  | lostOwned r m letsGo => exact Or.inl (letsGo.held_sub member)
  | _ => exact Or.inl member

theorem pinned_member (step : Step p q) (member : h ∈ q.pinned) : h ∈ p.handles ∨ p.Makes q h := by
  rw [Pool.mem_handles]
  cases step with
  | pin x there =>
    rcases List.mem_cons.mp member with rfl | before
    · exact Or.inl (Pool.mem_handles.mp there)
    · exact Or.inl (Or.inr (Or.inl before))
  | handOver x there => exact Or.inl (Or.inr (Or.inl (List.mem_of_mem_erase member)))
  | expire =>
    rcases List.mem_append.mp member with kept | before
    · exact Or.inl (Or.inr (Or.inr (List.mem_reverse.mp kept)))
    · exact Or.inl (Or.inr (Or.inl before))
  | kept r m letsGo => exact Or.inl (Or.inr (Or.inl (letsGo.pinned_sub member)))
  | lost r m letsGo => exact Or.inl (Or.inr (Or.inl (letsGo.pinned_sub member)))
  | lostOwned r m letsGo =>
    rcases List.mem_cons.mp member with rfl | before
    · refine Or.inr (Or.inl ⟨?_, ?_, rfl⟩)
      · simp [letsGo.producers]
      · simp [Pool.closed]
    · exact Or.inl (Or.inr (Or.inl (letsGo.pinned_sub before)))
  | build placement transactionalId clientId n outside events =>
    rcases List.mem_cons.mp member with rfl | before
    · exact Or.inr (p.makes_built placement transactionalId clientId n outside events)
    · exact Or.inl (Or.inr (Or.inl before))
  | reopen name x cache found cached =>
    rcases List.mem_cons.mp member with rfl | before
    · exact Or.inr (Pool.makes_reopened cached cache)
    · exact Or.inl (Or.inr (Or.inl before))
  | share x there =>
    rcases List.mem_append.mp member with stale | before
    · exact Or.inl (Or.inr (Or.inr (Factory.mem_handles.mpr (Or.inl (Option.mem_toList.mp stale)))))
    · exact Or.inl (Or.inr (Or.inl before))
  | giveUp hs f givesUp =>
    rcases List.mem_append.mp member with given | before
    · exact Or.inl (Or.inr (Or.inr (givesUp.mem (List.mem_reverse.mp given))))
    · exact Or.inl (Or.inr (Or.inl before))
  | _ => exact Or.inl (Or.inr (Or.inl member))

/-- Every handle after a step was there before, or the step has made it. -/
theorem handles_member (step : Step p q) (member : h ∈ q.handles) :
    h ∈ p.handles ∨ p.Makes q h := by
  rcases Pool.mem_handles.mp member with held | pinned | kept
  · exact Or.inl (step.held_member held)
  · exact step.pinned_member pinned
  · refine Or.inl ?_
    rcases Factory.mem_handles.mp kept with shared | ⟨t, bound⟩ | ⟨key, parked⟩
    · rcases step.shared_found shared with before | ⟨there, -⟩
      · exact Pool.mem_handles_of_factory (Factory.mem_handles.mpr (Or.inl before))
      · exact Pool.mem_handles_of_pinned there
    · rcases step.bound_member bound with before | ⟨there, -⟩
      · exact Pool.mem_handles_of_factory (Factory.mem_handles.mpr (Or.inr (Or.inl ⟨t, before⟩)))
      · exact Pool.mem_handles_of_pinned there
    · rcases (step.parked parked).2 with before | ⟨there, -⟩
      · exact Pool.mem_handles_of_factory (Factory.mem_handles.mpr (Or.inr (Or.inr ⟨key, before⟩)))
      · exact there

end Step

/-! ## Leases -/

/-- The handle whose lease begins with an event. -/
def Event.lease? {μ : Type} : Event μ → Option Handle
  | .leased h => some h
  | _ => none

/-- The handles whose leases have begun, the latest first. -/
def Pool.leases {μ : Type} (p : Pool σ μ) : List Handle := p.journal.filterMap Event.lease?

theorem Event.lease?_of_isPlain {μ : Type} {e : Event μ} (plain : e.isPlain = true) :
    e.lease? = none := by
  cases e with
  | leased h => cases plain
  | _ => rfl

theorem Closing.lease? {μ : Type} {conn : Nat} {events : List (Event μ)}
    (closing : Closing conn events) : events.filterMap Event.lease? = [] := by
  cases closing <;> rfl

theorem Connecting.lease? {μ : Type} {conn : Nat} {events : List (Event μ)}
    (connecting : Connecting conn events) : events.filterMap Event.lease? = [] := by
  cases connecting <;> rfl

theorem Failing.lease? {μ : Type} {conn : Nat} {events : List (Event μ)}
    (failing : Failing conn events) : events.filterMap Event.lease? = [] := by
  cases failing with
  | refused => rfl
  | uninitialised placement properties error closing closed =>
    rw [List.filterMap_append, closed.lease?]
    rfl

theorem Pool.leases_of_append (events : List (Event Snapshot))
    (silent : events.filterMap Event.lease? = []) (journal : q.journal = events ++ p.journal) :
    q.leases = p.leases := by
  rw [Pool.leases, journal, List.filterMap_append, silent]
  rfl

/-- A lease begins with a handle that the step makes. -/
theorem Step.leases (step : Step p q) :
    q.leases = p.leases ∨ ∃ h, q.leases = h :: p.leases ∧ p.Makes q h := by
  cases step with
  | note e plain =>
    refine Or.inl (Pool.leases_of_append [e] ?_ rfl)
    rw [List.filterMap_cons_none (Event.lease?_of_isPlain plain)]
    rfl
  | kept r m letsGo => exact Or.inl (Pool.leases_of_append [] rfl letsGo.journal)
  | lost r m letsGo _ _ outside events closing =>
    exact Or.inl (Pool.leases_of_append events closing.lease? (by rw [← letsGo.journal]; rfl))
  | lostOwned r m letsGo _ _ _ outside events closing =>
    exact Or.inl (Pool.leases_of_append events closing.lease? (by rw [← letsGo.journal]; rfl))
  | build placement transactionalId clientId n outside events names connecting =>
    refine Or.inr ⟨⟨p.producers.length, 0⟩, ?_,
      p.makes_built placement transactionalId clientId n outside events⟩
    exact congrArg (List.cons _) (Pool.leases_of_append (q := p.unbuilt outside events)
      events connecting.lease? rfl)
  | fail placement transactionalId n outside events names failing =>
    exact Or.inl (Pool.leases_of_append events failing.lease? rfl)
  | reopen name x cache found cached =>
    exact Or.inr ⟨p.renewed x, rfl, Pool.makes_reopened cached cache⟩
  | retire r undisposed outside events closing =>
    exact Or.inl (Pool.leases_of_append events closing.lease? rfl)
  | shut r undisposed alone outside events closing =>
    exact Or.inl (Pool.leases_of_append events closing.lease? rfl)
  | _ => exact Or.inl rfl

/-! ## What is known about handles -/

/-- A handle that exists, or under which a lease has begun. -/
def Pool.Knows (p : Pool σ Snapshot) (h : Handle) : Prop := h ∈ p.handles ∨ h ∈ p.leases

/-- The handles of a pool are genuine: each names a producer that exists under a lease that has been
given out, and the leases of one producer have begun in rising order. -/
structure Pool.Genuine (p : Pool σ Snapshot) : Prop where
  known : ∀ h, p.Knows h → h.producer < p.producers.length ∧ h.lease ≤ (p.get h.producer).lease
  rising : p.leases.Pairwise fun later earlier =>
    earlier.producer = later.producer → earlier.lease < later.lease

theorem Step.knows (step : Step p q) (knows : q.Knows h) : p.Knows h ∨ p.Makes q h := by
  rcases knows with there | begun
  · exact (step.handles_member there).imp_left Or.inl
  · rcases step.leases with same | ⟨x, more, makes⟩
    · rw [same] at begun
      exact Or.inl (Or.inr begun)
    · rw [more] at begun
      rcases List.mem_cons.mp begun with rfl | before
      · exact Or.inr makes
      · exact Or.inl (Or.inr before)

namespace Pool.Genuine

theorem new (config : Config) (outside : σ) : (Pool.new config outside : Pool σ Snapshot).Genuine where
  known h knows := by
    rcases knows with there | begun
    · cases there
    · cases begun
  rising := .nil

/-- A handle that a step makes differs from all that were known before. -/
theorem lt_of_makes (genuine : p.Genuine) {old : Handle} (makes : p.Makes q h) (knows : p.Knows old)
    (same : old.producer = h.producer) : old.lease < h.lease := by
  obtain ⟨inside, bound⟩ := genuine.known old knows
  rw [same] at inside bound
  rcases makes with ⟨new, -, -⟩ | ⟨-, higher, -⟩
  · exact absurd new (Nat.not_le.mpr inside)
  · exact Nat.lt_of_le_of_lt bound higher

theorem step (genuine : p.Genuine) (step : Step p q) : q.Genuine where
  known h knows := by
    have later := Later.of_step step
    rcases step.knows knows with before | ⟨new, inside, first⟩ | ⟨inside, -, current⟩
    · obtain ⟨inside, bound⟩ := genuine.known h before
      exact ⟨Nat.lt_of_lt_of_le inside later.producers.length,
        Nat.le_trans bound (later.get inside).lease⟩
    · rw [first]
      exact ⟨inside, Nat.zero_le _⟩
    · exact ⟨Nat.lt_of_lt_of_le inside later.producers.length, Nat.le_of_eq current⟩
  rising := by
    rcases step.leases with same | ⟨x, more, makes⟩
    · rw [same]
      exact genuine.rising
    · rw [more]
      refine List.pairwise_cons.mpr ⟨fun old begun same => ?_, genuine.rising⟩
      exact genuine.lt_of_makes makes (Or.inr begun) same

end Pool.Genuine

/-- The leases that begin on a path are new to the pool before it. -/
theorem Path.begun (path : Path p q) : ∃ begun, q.leases = begun ++ p.leases ∧
    ∀ h ∈ begun, p.producers.length ≤ h.producer ∨ (p.get h.producer).lease < h.lease := by
  induction path with
  | refl => exact ⟨[], rfl, List.forall_mem_nil _⟩
  | @tail m q before step ih =>
    obtain ⟨begun, whole, new⟩ := ih
    have later := Later.of_path before
    rcases step.leases with same | ⟨x, more, makes⟩
    · exact ⟨begun, same.trans whole, new⟩
    · refine ⟨x :: begun, by rw [more, whole, List.cons_append], ?_⟩
      intro h member
      rcases List.mem_cons.mp member with rfl | early
      · rcases Nat.lt_or_ge h.producer p.producers.length with inside | outside
        · rcases makes with ⟨out, -, -⟩ | ⟨-, higher, -⟩
          · exact absurd (Nat.le_trans later.producers.length out) (Nat.not_le.mpr inside)
          · exact Or.inr (Nat.lt_of_le_of_lt (later.get inside).lease higher)
        · exact Or.inl outside
      · exact new h early

end ProducerPool
