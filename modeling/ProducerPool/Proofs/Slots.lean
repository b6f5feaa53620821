import ProducerPool.Proofs.Kept
import ProducerPool.Proofs.Live

/-!
# The places of the factory, as code of callers finds them

At every point of a run the places of the factory hold what they are for, and between operations every
parked producer waits in its queue, so that the number of queued handles is that of parked producers.
-/

set_option autoImplicit false

namespace ProducerPool

variable {σ : Type} {E : Environment σ Snapshot} {p q m : Pool σ Snapshot} {h : Handle} {r : Ref}
  {t : ThreadId} {config : Config}

namespace Pool

/-- What the places of the factory hold. -/
structure Slotted (p : Pool σ Snapshot) : Prop where
  shared : ∀ h, p.factory.shared = some h →
    (p.get h.producer).phase = .opened ∧ (p.get h.producer).placement = .shared
  /-- Every thread has at most one producer, which is bound to it. -/
  seats : (p.factory.threads.map Prod.fst).Nodup
  bound : ∀ t h, (t, h) ∈ p.factory.threads →
    (p.get h.producer).phase = .opened ∧ (p.get h.producer).placement = .thread t
  queued : ∀ key h, p.factory.cache.Parked key h →
    (p.get h.producer).phase = .cached ∧ (p.get h.producer).placement = .pooled key ∧
      (p.get h.producer).epoch = p.factory.epoch
  once : (p.factory.cache.items.map Handle.producer).Nodup
  undisposed : ∀ h ∈ p.factory.handles, (p.get h.producer).phase ≠ .disposed

/-- Every parked producer of the factory waits in the queue of its key, and there is nothing else in the
queues. -/
structure Filed (p : Pool σ Snapshot) : Prop where
  queued : ∀ r, (p.get r).phase = .cached →
    ∃ key h, p.factory.cache.Parked key h ∧ h.producer = r ∧ (p.get r).placement = .pooled key
  count : p.stats.cached = p.producers.countP fun x => x.phase = .cached

namespace Kept

variable {due : List Duty}

theorem slotted (kept : p.Kept due) (placed : p.Placed) : p.Slotted where
  shared h found := ⟨kept.shared h found, placed.shared h found⟩
  seats := placed.seats
  bound t h member := ⟨kept.bound t h member, placed.bound t h member⟩
  queued key h parked := ⟨kept.parked h (Cache.mem_items.mpr ⟨key, parked⟩), placed.parked key h parked⟩
  once := kept.once
  undisposed h there disposed := by
    rcases Factory.mem_handles.mp there with found | ⟨t, seated⟩ | parked
    · cases disposed.symm.trans (kept.shared h found)
    · cases disposed.symm.trans (kept.bound t h seated)
    · cases disposed.symm.trans (kept.parked h (Cache.mem_items.mpr parked))

/-- The producers of the queued handles are the parked ones, each once. -/
theorem items_perm (kept : p.Kept []) (alive : p.alive = true) :
    (p.factory.cache.items.map Handle.producer).Perm
      ((List.range p.producers.length).filter fun r => (p.get r).phase = .cached) := by
  refine (List.perm_ext_iff_of_nodup kept.once (List.nodup_range.filter _)).mpr fun r => ?_
  rw [List.mem_map, List.mem_filter, List.mem_range, decide_eq_true_eq]
  constructor
  · rintro ⟨h, queued, rfl⟩
    have cached := kept.parked h queued
    exact ⟨lt_of_phase (by rw [cached]; simp), cached⟩
  · rintro ⟨-, cached⟩
    exact (kept.waiting alive r cached).resolve_left (by simp)

theorem filed (kept : p.Kept []) (placed : p.Placed) (alive : p.alive = true) : p.Filed where
  queued r cached := by
    obtain ⟨h, queued, rfl⟩ := (kept.waiting alive r cached).resolve_left (by simp)
    obtain ⟨key, parked⟩ := Cache.mem_items.mp queued
    exact ⟨key, h, parked, rfl, (placed.parked key h parked).1⟩
  count := by
    rw [countP_producers, ← (kept.items_perm alive).length_eq, List.length_map]
    rfl

end Kept

/-! ## Producers of threads -/

theorem renewBound_placed (tame : E.Tame) (ordered : p.Ordered) (busy : 0 < p.running)
    (yields : renewBound E t p = (m, .ok h)) : (m.get h.producer).placement = .thread t := by
  obtain ⟨transactionalId, n, named, names⟩ := nameBound_names t p
  simp only [renewBound, named] at yields
  rcases build_leads E names with ⟨error, b, failed, -⟩ | ⟨b, x, done, new⟩
  · rw [failed] at yields
    cases yields
  · rw [done] at yields
    obtain ⟨ended, same⟩ := Prod.mk.inj yields
    obtain rfl : x = h := Except.ok.inj same
    have alive : b.alive = true := alive_of_running (by rw [new.leads.running]; exact busy)
    have inside := (ordered.path new.leads.path).genuine.inside (mem_handles_of_pinned new.there)
    have onward := (bindThread_balanced tame new.there new.placed alive).balanced
      (tellAll_balanced tame .added x _)
    rw [← ended, ((Later.of_path onward.path).get inside).placement]
    exact new.placed

/-- A request under the policy of threads yields a producer that is bound to the calling thread. -/
theorem obtainBound_placed (tame : E.Tame) (ordered : p.Ordered) (busy : 0 < p.running)
    (yields : obtainBound E t p = (m, .ok h)) : (m.get h.producer).placement = .thread t := by
  rcases obtainBound_cases tame t p with ⟨x, found, -, seated⟩ | ⟨b, cleared, renews⟩
  · rw [seated] at yields
    obtain ⟨ended, same⟩ := Prod.mk.inj yields
    obtain rfl : x = h := Except.ok.inj same
    have checked : Step p (p.modify x.producer fun q => { q with checkedOut := true }) :=
      .check p x.producer true
    rw [← ended]
    exact (ordered.path (.single checked)).placed.bound t x (mem_of_lookup found)
  · rw [renews] at yields
    exact renewBound_placed tame (ordered.path cleared.path) (by rw [cleared.running]; exact busy) yields

/-- The caller's own producer, where the policy binds producers to threads. -/
theorem create_placed (lawful : E.Lawful) (ordered : ({ p with running := p.running + 1 } :
    Pool σ Snapshot).Ordered) (perThread : p.factory.config.perThread = true)
    (yields : p.create E t = (q, .ok h)) : (q.get h.producer).placement = .thread t := by
  obtain ⟨m, answer, yielded⟩ := Yields.of_withFactory (fun p => p.obtain E t)
    (obtain_fetches lawful.tame t (Nat.succ_pos _)) yields
  rw [yielded.same]
  unfold obtain at answer
  split at answer
  · cases answer
  · exact obtainBound_placed lawful.tame ordered (Nat.succ_pos _) answer

end Pool

/-! ## Runs -/

/-- The places of the factory hold what they are for, as an invariant. -/
def keptInvariant : Invariant σ where
  holds due p := p.Regular ∧ p.Kept due
  parks _ := True
  binds _ _ := True
  regular holds := holds.1
  own _ _ := trivial
  move holds motion := motion.moves.preserves
    (fun holds move => ⟨holds.1.path move.path, holds.2.move holds.1 move⟩) holds

theorem Visited.placed (visited : Visited config p) : p.Placed := by
  obtain ⟨outside, path⟩ := visited.path
  exact ((Pool.Ordered.new config outside).path path).placed

theorem Visited.slotted (visited : Visited config p) : p.Slotted := by
  have first (outside : σ) : keptInvariant.holds [] (Pool.new config outside) :=
    ⟨.new config outside, .new config outside⟩
  obtain ⟨due, -, seen⟩ := visited.holds (fun _ => trivial) (fun _ _ => trivial) first
  exact seen.of_look.slotted visited.placed

theorem Visited.create_placed (visited : Visited config p) (lawful : E.Lawful) (owned : 0 < p.owners)
    (perThread : config.perThread = true) (yields : p.create E t = (q, .ok h)) :
    (q.get h.producer).placement = .thread t := by
  obtain ⟨outside, path⟩ := visited.enters owned
  have same := (Pool.Named.of_visited visited).configured
  exact Pool.create_placed lawful ((Pool.Ordered.new config outside).path path)
    (by rw [same]; exact perThread) yields

theorem Reached.filed (reached : Reached config p) (alive : p.alive = true) : p.Filed := by
  have first (outside : σ) : keptInvariant.holds [] (Pool.new config outside) :=
    ⟨.new config outside, .new config outside⟩
  obtain ⟨regular, kept⟩ := reached.holds (I := keptInvariant) (fun _ => trivial) (fun _ _ => trivial) first
  exact kept.filed regular.ordered.placed alive

theorem places_kept (visited : Visited config p) :
    p.Slotted ∧
      (∀ (E : Environment σ Snapshot) (t : ThreadId) (q : Pool σ Snapshot) (h : Handle), E.Lawful →
        0 < p.owners → config.perThread = true → p.create E t = (q, .ok h) →
          (q.get h.producer).placement = .thread t) ∧
        (Reached config p → p.alive = true → p.Filed) :=
  ⟨visited.slotted,
    fun _ _ _ _ lawful owned perThread yields => visited.create_placed lawful owned perThread yields,
    Reached.filed⟩

/-- Two producers of one queue, the first of which has been handed back. -/
theorem places_kept_after_close :
    let p := (Pool.new { idPrefix := some "a" } ()).look.perform .quiet
      [.create 0, .create 1, .close ⟨0, 0⟩ none]
    Visited { idPrefix := some "a" } p ∧ p.Slotted ∧ p.Filed ∧ p.stats.cached = 1 := by
  intro p
  have reached := (Reached.start { idPrefix := some "a" } ()).perform Environment.quiet_lawful
    [.create 0, .create 1, .close ⟨0, 0⟩ none] (by decide +kernel)
  have kept := places_kept reached.visited
  exact ⟨reached.visited, kept.1, kept.2.2 reached (by decide +kernel), by decide +kernel⟩

end ProducerPool
