import ProducerPool.Proofs.Invariant.Code

/-!
# What is in the places of the factory

Wherever code of callers runs, the shared producer and those of the threads are open, the producers in
the queues are parked, and none is queued twice.  A producer that an operation has taken out of its place
is due, and does not come back to a place until it is closed.  So when no operation is in progress, every
producer that is parked waits in the queue of its key.
-/

set_option autoImplicit false

namespace ProducerPool

variable {σ : Type} {p q m : Pool σ Snapshot} {f g : Factory} {h : Handle} {hs : List Handle} {r : Ref}
  {due left : List Duty} {gone : Option Ref} {t : ThreadId}

/-! ## The places after a step -/

theorem perm_of_lookup {threads : List (ThreadId × Handle)} (distinct : (threads.map Prod.fst).Nodup)
    (found : threads.lookup t = some h) :
    threads.Perm ((t, h) :: threads.filter fun entry => entry.1 ≠ t) := by
  obtain ⟨before, after, split, -⟩ := List.lookup_eq_some_iff.mp found
  have others : ∀ entry ∈ before ++ after, entry.1 ≠ t := by
    rw [split, List.map_append, List.map_cons, List.nodup_middle, List.nodup_cons,
      ← List.map_append] at distinct
    intro entry member same
    exact distinct.1 (List.mem_map.mpr ⟨entry, member, same⟩)
  have left : threads.filter (fun entry => entry.1 ≠ t) = before ++ after := by
    rw [split, List.filter_append, List.filter_cons_of_neg (by simp), ← List.filter_append]
    exact List.filter_eq_self.mpr fun entry member => by simpa using others entry member
  rw [left, split]
  exact List.perm_middle

/-- The factory gives handles up and keeps the others. -/
theorem Factory.GivesUp.perm (givesUp : f.GivesUp hs g) (seats : (f.threads.map Prod.fst).Nodup)
    (queues : f.cache.Unique) : f.handles.Perm (hs ++ g.handles) := by
  refine List.perm_iff_count.mpr fun a => ?_
  simp only [Factory.handles, List.count_append]
  cases givesUp with
  | popped key x cache found =>
    have items := (Cache.items_pop queues found).count_eq a
    rw [List.count_cons] at items
    simp only [List.count_singleton]
    omega
  | drained key =>
    have items := (Cache.items_drain key queues).count_eq a
    rw [List.count_append] at items
    dsimp only
    omega
  | unseated u x found =>
    have seated := ((perm_of_lookup seats found).map Prod.snd).count_eq a
    rw [List.map_cons, List.count_cons] at seated
    dsimp only at seated
    simp only [List.count_singleton]
    omega
  | cleared => simp only [List.map_nil, List.count_nil]; omega
  | swept out =>
    have seated := ((List.filter_append_perm (fun entry => out entry.2) f.threads).map
      Prod.snd).count_eq a
    rw [List.map_append, List.count_append] at seated
    simp only [List.count_append, Cache.drainAll, Cache.empty, Cache.items, List.flatMap_nil,
      List.count_nil, Option.toList_none]
    omega

namespace Pool

/-- The places of the factory, and what is due beside them. -/
structure Kept (due : List Duty) (p : Pool σ Snapshot) : Prop where
  shared : ∀ h, p.factory.shared = some h → (p.get h.producer).phase = .opened
  bound : ∀ t h, (t, h) ∈ p.factory.threads → (p.get h.producer).phase = .opened
  parked : ∀ h ∈ p.factory.cache.items, (p.get h.producer).phase = .cached
  once : (p.factory.cache.items.map Handle.producer).Nodup
  /-- A producer that is due is in no place, nor can it be parked. -/
  owed : ∀ r, .close r ∈ due → r < p.producers.length ∧ p.Apart r ∧
    ((p.get r).phase = .opened → ∀ key, (p.get r).placement ≠ .pooled key)
  waiting : p.alive = true → ∀ r, (p.get r).phase = .cached →
    .close r ∈ due ∨ ∃ h ∈ p.factory.cache.items, h.producer = r

theorem mem_items_of_handles (placed : p.Placed) {key : String} (there : h ∈ p.factory.handles)
    (pooled : (p.get h.producer).placement = .pooled key) : h ∈ p.factory.cache.items := by
  rcases Factory.mem_handles.mp there with found | ⟨t, seated⟩ | parked
  · cases pooled.symm.trans (placed.shared h found)
  · cases pooled.symm.trans (placed.bound t h seated)
  · exact Cache.mem_items.mpr parked

namespace Kept

theorem new (config : Config) (outside : σ) :
    (Pool.new config outside : Pool σ Snapshot).Kept [] where
  shared _ found := by cases found
  bound _ _ member := by cases member
  parked _ member := by cases member
  once := List.nodup_nil
  owed _ none := by cases none
  waiting _ _ cached := by cases cached

theorem seated (kept : p.Kept due)
    (seat : h ∈ p.factory.shared.toList ++ p.factory.threads.map Prod.snd) :
    (p.get h.producer).phase = .opened := by
  rcases List.mem_append.mp seat with shared | bound
  · exact kept.shared h (Option.mem_toList.mp shared)
  · obtain ⟨⟨t, x⟩, entry, rfl⟩ := List.mem_map.mp bound
    exact kept.bound t x entry

/-- No producer is in two places, or twice in one. -/
theorem distinct (kept : p.Kept due) (placed : p.Placed) :
    (p.factory.handles.map Handle.producer).Nodup := by
  have seated : ((p.factory.threads.map Prod.snd).map Handle.producer).Nodup := by
    rw [List.map_map]
    refine List.Nodup.of_map (fun r => (p.get r).placement) ?_
    rw [List.map_map]
    have same : p.factory.threads.map
        ((fun r => (p.get r).placement) ∘ Handle.producer ∘ Prod.snd) =
          (p.factory.threads.map Prod.fst).map Placement.thread := by
      rw [List.map_map]
      exact List.map_congr_left fun entry member => placed.bound entry.1 entry.2 member
    rw [same]
    exact placed.seats.map fun a b same => Placement.thread.inj same
  rw [Factory.handles, List.map_append, List.nodup_append]
  refine ⟨?_, kept.once, ?_⟩
  · rw [List.map_append, List.nodup_append]
    refine ⟨by cases p.factory.shared <;> simp, seated, ?_⟩
    rintro a first b second rfl
    obtain ⟨x, shared, rfl⟩ := List.mem_map.mp first
    obtain ⟨y, seat, same⟩ := List.mem_map.mp second
    obtain ⟨⟨t, y⟩, entry, rfl⟩ := List.mem_map.mp seat
    have place := placed.bound t y entry
    rw [same, placed.shared x (Option.mem_toList.mp shared)] at place
    cases place
  · rintro a first b second rfl
    obtain ⟨x, place, rfl⟩ := List.mem_map.mp first
    obtain ⟨y, queued, same⟩ := List.mem_map.mp second
    have cached := kept.parked y queued
    rw [same] at cached
    cases cached.symm.trans (kept.seated place)

/-- It matters only what has to be closed. -/
theorem of_closes (kept : p.Kept due) (closes : ∀ r, .close r ∈ left ↔ .close r ∈ due) :
    p.Kept left where
  shared := kept.shared
  bound := kept.bound
  parked := kept.parked
  once := kept.once
  owed r member := kept.owed r ((closes r).mp member)
  waiting alive r cached := (kept.waiting alive r cached).imp_left (closes r).mpr

theorem of_look (kept : p.look.Kept due) : p.Kept due :=
  ⟨kept.shared, kept.bound, kept.parked, kept.once, kept.owed, kept.waiting⟩

/-- A producer that is no longer parked need not be closed any more. -/
theorem clear (kept : p.Kept (.close r :: due)) (unparked : (p.get r).phase ≠ .cached) :
    p.Kept due where
  shared := kept.shared
  bound := kept.bound
  parked := kept.parked
  once := kept.once
  owed s member := kept.owed s (List.mem_cons_of_mem _ member)
  waiting alive s cached := by
    rcases kept.waiting alive s cached with member | placed
    · rcases List.mem_cons.mp member with same | later
      · cases same
        exact absurd cached unparked
      · exact Or.inl later
    · exact Or.inr placed

end Kept

theorem Stays.handles (stays : p.Stays gone q) (there : h ∈ q.factory.handles) :
    h ∈ p.factory.handles := by
  rw [Factory.mem_handles, ← Cache.mem_items] at there ⊢
  rwa [stays.places.shared, stays.places.threads, stays.places.items] at there

theorem Seats.handles {binds : ThreadId → Option Handle → Prop} {x : Handle}
    (seats : Seats binds h p q) (there : x ∈ q.factory.handles) : x = h ∨ x ∈ p.factory.handles := by
  rw [Factory.mem_handles] at there ⊢
  cases seats with
  | pooled => exact Or.inr there
  | shared => exact there.imp (fun found => (Option.some.inj found).symm) Or.inr
  | bound t =>
    rcases there with shared | ⟨u, seated⟩ | parked
    · exact Or.inr (Or.inl shared)
    · rcases List.mem_append.mp seated with before | new
      · exact Or.inr (Or.inr (Or.inl ⟨u, (List.mem_filter.mp before).1⟩))
      · exact Or.inl (Prod.mk.inj (List.mem_singleton.mp new)).2
    · exact Or.inr (Or.inr (Or.inr parked))

namespace Kept

/-- Where producers stay as they are, a producer may be closed that is in no place. -/
theorem stays (kept : p.Kept due) (inside : ∀ h ∈ p.factory.handles, h.producer < p.producers.length)
    (stays : p.Stays gone q) (apart : ∀ r, gone = some r → p.Apart r) : q.Kept due := by
  have phase {h : Handle} (there : h ∈ p.factory.handles) :
      (q.get h.producer).phase = (p.get h.producer).phase :=
    stays.producers.phase _ (inside h there) fun same => apart _ same h there rfl
  have kept_of (r : Ref) (undisposed : (q.get r).phase ≠ .disposed) : gone ≠ some r := fun same =>
    undisposed (stays.producers.closed r same).2
  refine ⟨?_, ?_, ?_, ?_, ?_, ?_⟩
  · intro h found
    rw [stays.places.shared] at found
    rw [phase (Factory.mem_handles.mpr (Or.inl found))]
    exact kept.shared h found
  · intro t h member
    rw [stays.places.threads] at member
    rw [phase (Factory.mem_handles.mpr (Or.inr (Or.inl ⟨t, member⟩)))]
    exact kept.bound t h member
  · intro h member
    rw [stays.places.items] at member
    rw [phase (Factory.mem_handles.mpr (Or.inr (Or.inr (Cache.mem_items.mp member))))]
    exact kept.parked h member
  · rw [stays.places.items]
    exact kept.once
  · intro r member
    obtain ⟨known, apart, unused⟩ := kept.owed r member
    refine ⟨Nat.lt_of_lt_of_le known stays.producers.length,
      fun h there => apart h (stays.handles there), fun opened key pooled => ?_⟩
    have other := kept_of r (by rw [opened]; simp)
    have same : (q.get r).placement = (p.get r).placement := stays.producers.placement r known
    have before : (q.get r).phase = (p.get r).phase := stays.producers.phase r known other
    exact unused (before.symm.trans opened) key (same.symm.trans pooled)
  · intro alive r cached
    rcases Nat.lt_or_ge r p.producers.length with known | new
    · have other := kept_of r (by rw [cached]; simp)
      have before : (q.get r).phase = (p.get r).phase := stays.producers.phase r known other
      rw [stays.places.items]
      exact kept.waiting (stays.alive alive) r (before.symm.trans cached)
    · exact absurd cached (stays.producers.fresh r new)

theorem apart_of_frees (kept : p.Kept due) (placed : p.Placed) (frees : p.Frees r due left) :
    p.Apart r := by
  cases frees with
  | due left => exact (kept.owed r List.mem_cons_self).2.1
  | apart _ apart => exact apart
  | used _ opened key pooled =>
    rintro h there rfl
    have cached := kept.parked h (mem_items_of_handles placed there pooled)
    cases opened.symm.trans cached

theorem close (kept : p.Kept due) (ordered : p.Ordered) (stays : p.Stays (some r) q)
    (apart : p.Apart r) : q.Kept due := by
  refine kept.stays (fun h there => ordered.genuine.inside (mem_handles_of_factory there)) stays ?_
  rintro s same
  cases same
  exact apart

theorem retire (kept : p.Kept due) (ordered : p.Ordered) (stays : p.Stays (some r) q)
    (frees : p.Frees r due left) : q.Kept left := by
  have closed := kept.close ordered stays (kept.apart_of_frees ordered.placed frees)
  cases frees with
  | due left =>
    refine closed.clear ?_
    rw [show (q.get r).phase = .disposed from (stays.producers.closed r rfl).2]
    simp
  | apart => exact closed
  | used => exact closed

/-- One producer, which is not due and in no seat, goes into a queue or leaves it. -/
theorem requeue (kept : p.Kept due) (shared : q.factory.shared = p.factory.shared)
    (threads : q.factory.threads = p.factory.threads) (alive : q.alive = p.alive)
    (length : q.producers.length = p.producers.length) (others : ∀ s, s ≠ r → q.get s = p.get s)
    (unseated : ∀ x ∈ p.factory.shared.toList ++ p.factory.threads.map Prod.snd, x.producer ≠ r)
    (unowed : .close r ∉ due) (items : ∀ x ∈ q.factory.cache.items, x.producer = r ∨ x ∈ p.factory.cache.items)
    (queued : ∀ x ∈ p.factory.cache.items, x.producer ≠ r → x ∈ q.factory.cache.items)
    (once : (q.factory.cache.items.map Handle.producer).Nodup)
    (cached : (q.get r).phase = .cached ↔ ∃ x ∈ q.factory.cache.items, x.producer = r) :
    q.Kept due := by
  have parked : ∀ x ∈ q.factory.cache.items, (q.get x.producer).phase = .cached := by
    intro x member
    by_cases same : x.producer = r
    · rw [same]
      exact cached.mpr ⟨x, member, same⟩
    · rw [others _ same]
      exact kept.parked x ((items x member).resolve_left same)
  refine ⟨?_, ?_, parked, once, ?_, ?_⟩
  · intro x found
    rw [shared] at found
    rw [others _ (unseated x (List.mem_append_left _ (Option.mem_toList.mpr found)))]
    exact kept.shared x found
  · intro t x member
    rw [threads] at member
    rw [others _ (unseated x (List.mem_append_right _ (List.mem_map.mpr ⟨(t, x), member, rfl⟩)))]
    exact kept.bound t x member
  · intro s member
    have differs : s ≠ r := fun same => unowed (same ▸ member)
    obtain ⟨known, apart, unused⟩ := kept.owed s member
    rw [length, others s differs]
    refine ⟨known, fun x there => ?_, unused⟩
    rcases List.mem_append.mp there with seat | queue
    · rw [shared, threads] at seat
      exact apart x (List.mem_append_left _ seat)
    · rcases items x queue with same | before
      · rw [same]
        exact differs.symm
      · exact apart x (List.mem_append_right _ before)
  · intro lives s waits
    by_cases same : s = r
    · rw [same] at waits ⊢
      exact Or.inr (cached.mp waits)
    · rw [others s same] at waits
      rw [alive] at lives
      rcases kept.waiting lives s waits with member | ⟨x, before, rfl⟩
      · exact Or.inl member
      · exact Or.inr ⟨x, queued x before same, rfl⟩

theorem shelve {key : String} (kept : p.Kept due) (ordered : p.Ordered)
    (opened : (p.get h.producer).phase = .opened)
    (pooled : (p.get h.producer).placement = .pooled key) :
    Kept due
      { p with
        factory := { p.factory with cache := p.factory.cache.push key h }
        producers := p.producers.modify h.producer fun q => { q with phase := .cached } } := by
  have apart : p.Apart h.producer := kept.apart_of_frees ordered.placed (.used due opened key pooled)
  have inside : h.producer < p.producers.length := lt_of_phase (by rw [opened]; simp)
  have items := Cache.items_push key h ordered.placed.queues
  have get (s : Ref) := getD_modify (fun q => { q with phase := .cached }) p.producers h.producer s
  refine kept.requeue (r := h.producer) rfl rfl rfl (List.length_modify ..) ?_ ?_ ?_ ?_ ?_ ?_ ?_
  · intro s other
    exact (get s).trans (if_neg fun same => other same.1.symm)
  · intro x seat
    exact apart x (List.mem_append_left _ seat)
  · intro owed
    exact (kept.owed _ owed).2.2 opened key pooled
  · intro x member
    rcases List.mem_cons.mp (items.mem_iff.mp member) with rfl | before
    · exact Or.inl rfl
    · exact Or.inr before
  · intro x before _
    exact items.mem_iff.mpr (List.mem_cons_of_mem _ before)
  · refine (items.map Handle.producer).nodup_iff.mpr (List.nodup_cons.mpr ⟨?_, kept.once⟩)
    intro member
    obtain ⟨x, before, same⟩ := List.mem_map.mp member
    exact apart x (List.mem_append_right _ before) same
  · have cached := congrArg Producer.phase ((get h.producer).trans (if_pos ⟨rfl, inside⟩))
    exact ⟨fun _ => ⟨h, items.mem_iff.mpr List.mem_cons_self, rfl⟩, fun _ => cached⟩

theorem reopen {key : String} {cache : Cache Handle} (kept : p.Kept due) (ordered : p.Ordered)
    (found : p.factory.cache.pop? key = some (h, cache))
    (cached : (p.get h.producer).phase = .cached) : (p.reopened h cache).Kept due := by
  have inside : h.producer < p.producers.length := lt_of_phase (by rw [cached]; simp)
  have items := Cache.items_pop ordered.placed.queues found
  have queued : h ∈ p.factory.cache.items := items.mem_iff.mpr List.mem_cons_self
  have distinct := (items.map Handle.producer).nodup_iff.mp kept.once
  rw [List.map_cons, List.nodup_cons] at distinct
  have get (s : Ref) := getD_modify (fun q => { q with phase := .opened, lease := q.lease + 1 })
    p.producers h.producer s
  refine kept.requeue (r := h.producer) rfl rfl rfl (List.length_modify ..) ?_ ?_ ?_ ?_ ?_
    distinct.2 ?_
  · intro s other
    exact (get s).trans (if_neg fun same => other same.1.symm)
  · intro x seat same
    have opened := kept.seated seat
    rw [same] at opened
    cases cached.symm.trans opened
  · intro owed
    exact (kept.owed _ owed).2.1 h (List.mem_append_right _ queued) rfl
  · intro x member
    exact Or.inr (items.mem_iff.mpr (List.mem_cons_of_mem _ member))
  · intro x before other
    rcases List.mem_cons.mp (items.mem_iff.mp before) with rfl | left
    · exact absurd rfl other
    · exact left
  · have opened := congrArg Producer.phase ((get h.producer).trans (if_pos ⟨rfl, inside⟩))
    constructor
    · intro parked
      cases opened.symm.trans parked
    · rintro ⟨x, left, same⟩
      exact absurd (List.mem_map.mpr ⟨x, left, same⟩) distinct.1

theorem giveUp (kept : p.Kept due) (ordered : p.Ordered) (givesUp : p.factory.GivesUp hs f) :
    Kept (hs.map (fun h => .close h.producer) ++ due)
      { p with factory := f, pinned := hs.reverse ++ p.pinned } := by
  have placed := ordered.placed
  have perm := givesUp.perm placed.seats placed.queues
  have distinct := (perm.map Handle.producer).nodup_iff.mp (kept.distinct placed)
  rw [List.map_append, List.nodup_append] at distinct
  obtain ⟨-, distinct, disjoint⟩ := distinct
  have before {x : Handle} (there : x ∈ f.handles) : x ∈ p.factory.handles :=
    perm.mem_iff.mpr (List.mem_append_right _ there)
  have parked : ∀ x ∈ f.cache.items, x ∈ p.factory.cache.items := by
    intro x member
    obtain ⟨key, queued⟩ := Cache.mem_items.mp member
    exact Cache.mem_items.mpr ⟨key, (givesUp.parked queued).1⟩
  refine ⟨?_, ?_, ?_, ?_, ?_, ?_⟩
  · intro x found
    exact kept.shared x (givesUp.shared found)
  · intro t x member
    exact kept.bound t x (givesUp.bound member)
  · intro x member
    exact kept.parked x (parked x member)
  · rw [Factory.handles, List.map_append, List.nodup_append] at distinct
    exact distinct.2.1
  · intro r member
    rcases List.mem_append.mp member with given | earlier
    · obtain ⟨x, taken, same⟩ := List.mem_map.mp given
      cases same
      have there : x ∈ p.factory.handles := perm.mem_iff.mpr (List.mem_append_left _ taken)
      refine ⟨ordered.genuine.inside (mem_handles_of_factory there), fun y left same => ?_,
        fun opened key pooled => ?_⟩
      · exact disjoint x.producer (List.mem_map_of_mem taken) y.producer (List.mem_map_of_mem left)
          same.symm
      · have cached := kept.parked x (mem_items_of_handles placed there pooled)
        cases opened.symm.trans cached
    · obtain ⟨known, apart, unused⟩ := kept.owed r earlier
      exact ⟨known, fun x there => apart x (before there), unused⟩
  · -- What was queued before is given up, and so due, or it is queued still.
    intro alive r cached
    rcases kept.waiting alive r cached with owed | ⟨x, queued, rfl⟩
    · exact Or.inl (List.mem_append_right _ owed)
    · rcases List.mem_append.mp (perm.mem_iff.mp (List.mem_append_right _ queued)) with taken | left
      · exact Or.inl (List.mem_append_left _ (List.mem_map.mpr ⟨x, taken, rfl⟩))
      · refine Or.inr ⟨x, ?_, rfl⟩
        rcases Factory.mem_handles.mp left with found | ⟨t, seated⟩ | queued
        · cases cached.symm.trans (kept.shared x (givesUp.shared found))
        · cases cached.symm.trans (kept.bound t x (givesUp.bound seated))
        · exact Cache.mem_items.mpr queued

theorem expire (kept : p.Kept due) :
    Kept due
      { p with
        owners := 0, running := 0, factory := p.factory.emptied
        pinned := p.factory.handles.reverse ++ p.pinned } where
  shared _ found := by cases found
  bound _ _ member := by cases member
  parked _ member := by cases member
  once := List.nodup_nil
  owed r member := by
    obtain ⟨known, -, unused⟩ := kept.owed r member
    exact ⟨known, List.forall_mem_nil _, unused⟩
  waiting alive := by cases alive

theorem vacate (kept : p.Kept due) (placed : q.Placed) (inside : r < p.producers.length)
    (vacates : p.Vacates r q) : q.Kept (.close r :: due) := by
  have same (s : Ref) : q.get s = p.get s := vacates.get s
  have items : q.factory.cache.items = p.factory.cache.items := by rw [vacates.cache]
  refine ⟨?_, ?_, ?_, ?_, ?_, ?_⟩
  · intro h found
    rw [same]
    exact kept.shared h (vacates.of_shared found)
  · intro t h member
    rw [same]
    exact kept.bound t h (vacates.of_bound member)
  · intro h queued
    rw [items] at queued
    rw [same]
    exact kept.parked h queued
  · rw [items]
    exact kept.once
  · intro s member
    rw [vacates.producers, same]
    rcases List.mem_cons.mp member with given | earlier
    · cases given
      refine ⟨inside, placed.apart_of_vacates vacates, fun _ key pooled => ?_⟩
      cases vacates with
      | shared shared => cases pooled.symm.trans shared
      | bound t bound => cases pooled.symm.trans bound
    · obtain ⟨known, apart, unused⟩ := kept.owed s earlier
      exact ⟨known, fun x there => apart x (vacates.handles there), unused⟩
  · intro alive s cached
    rw [same] at cached
    rw [items]
    rw [vacates.alive] at alive
    exact (kept.waiting alive s cached).imp_left (List.mem_cons_of_mem _)

/-- The handle of an open producer that is not due takes its place. -/
theorem seats {binds : ThreadId → Option Handle → Prop} (kept : p.Kept due) (seats : Seats binds h p q)
    (opened : (p.get h.producer).phase = .opened) (unowed : .close h.producer ∉ due) : q.Kept due := by
  have apart {r : Ref} (owed : .close r ∈ due) : q.Apart r := by
    intro x there
    rcases seats.handles there with rfl | before
    · exact fun same => unowed (same ▸ owed)
    · exact (kept.owed r owed).2.1 x before
  cases seats with
  | pooled => exact kept
  | shared =>
    refine ⟨?_, kept.bound, kept.parked, kept.once, ?_, kept.waiting⟩
    · rintro x found
      obtain rfl : h = x := Option.some.inj found
      exact opened
    · exact fun r owed => ⟨(kept.owed r owed).1, apart owed, (kept.owed r owed).2.2⟩
  | bound t =>
    refine ⟨kept.shared, ?_, kept.parked, kept.once, ?_, kept.waiting⟩
    · intro u x member
      rcases List.mem_append.mp member with before | new
      · exact kept.bound u x (List.mem_filter.mp before).1
      · obtain rfl : x = h := (Prod.mk.inj (List.mem_singleton.mp new)).2
        exact opened
    · exact fun r owed => ⟨(kept.owed r owed).1, apart owed, (kept.owed r owed).2.2⟩

theorem move {parks : Handle → Prop} {binds : ThreadId → Option Handle → Prop} (kept : p.Kept due)
    (regular : p.Regular) (move : Move parks binds due p left q) : q.Kept left := by
  have ordered := regular.ordered
  have inside : ∀ h ∈ p.factory.handles, h.producer < p.producers.length := fun h there =>
    ordered.genuine.inside (mem_handles_of_factory there)
  cases move with
  | still _ _ _ step stays => exact kept.stays inside stays fun r none => by cases none
  | register => exact ⟨kept.shared, kept.bound, kept.parked, kept.once, kept.owed, kept.waiting⟩
  | build _ _ m _ h step stays new length opened _ seats =>
    have first : m.Kept due := kept.stays inside stays fun r none => by cases none
    -- The producer is new, so nobody can owe it.
    have unowed : .close h.producer ∉ due := by
      intro owed
      have known := (kept.owed _ owed).1
      rw [new] at known
      exact Nat.lt_irrefl _ known
    exact (first.seats seats opened unowed).of_closes (by simp)
  | shelve _ _ h key _ _ _ opened placed => exact kept.shelve ordered opened placed
  | reopen _ _ key h cache found cached => exact kept.reopen ordered found cached
  | giveUp _ _ hs f givesUp => exact kept.giveUp ordered givesUp
  | vacate _ _ _ r inside vacates step =>
    exact kept.vacate (regular.path (.single step)).ordered.placed inside vacates
  | clear _ _ r disposed => exact kept.clear (by rw [disposed]; simp)
  | retire _ left _ _ h step _ stays _ frees =>
    exact (kept.retire ordered stays frees).of_closes (by simp)
  | forget _ _ _ r step _ stays apart => exact (kept.close ordered stays apart).of_closes (by simp)
  | shut _ _ _ r step gone stays =>
    refine kept.close ordered stays ?_
    rw [Apart, ordered.placed.vacant gone]
    exact List.forall_mem_nil _
  | expire => exact kept.expire
  | hush => exact kept.of_closes (by simp)
  | summon => exact kept.of_closes (by simp)
  | tell left _ listener notice =>
    have before : p.Kept left := kept.of_closes (by simp)
    exact ⟨before.shared, before.bound, before.parked, before.once, before.owed, before.waiting⟩

end Kept

end Pool

end ProducerPool
