import ProducerPool.Proofs.Handles

/-!
# What the factory keeps, and who keeps producers alive

The factory keeps a producer only where it belongs: the shared one in the shared place, one of a thread
in that thread's seat, a pooled one in the queue of its key, and there only in the generation in which
it was built.  A producer that is not closed is referred to by some handle, and a factory that is gone
keeps none.
-/

set_option autoImplicit false

namespace ProducerPool

variable {σ : Type} {p q : Pool σ Snapshot} {f g : Factory} {h : Handle} {hs : List Handle} {r : Ref}
  {t : ThreadId} {key : String}

/-! ## The tables keep one entry for each key -/

theorem nodup_seat {threads : List (ThreadId × Handle)} (distinct : (threads.map Prod.fst).Nodup)
    (t : ThreadId) (h : Handle) :
    (((threads.filter fun entry => entry.1 ≠ t) ++ [(t, h)]).map Prod.fst).Nodup := by
  rw [List.map_append, List.nodup_append]
  refine ⟨distinct.sublist (List.filter_sublist.map _), List.nodup_singleton t, ?_⟩
  rintro u member other last rfl
  obtain rfl : u = t := by simpa using last
  obtain ⟨⟨name, x⟩, entry, rfl⟩ := List.mem_map.mp member
  simpa using (List.mem_filter.mp entry).2

theorem Pool.LetsGo.nodup_threads (letsGo : p.LetsGo r q)
    (distinct : (p.factory.threads.map Prod.fst).Nodup) :
    (q.factory.threads.map Prod.fst).Nodup := by
  cases letsGo with
  | bound => exact distinct.sublist (List.filter_sublist.map _)
  | seat t h => exact nodup_seat distinct t h
  | _ => exact distinct

theorem Factory.GivesUp.nodup_threads (givesUp : f.GivesUp hs g)
    (distinct : (f.threads.map Prod.fst).Nodup) : (g.threads.map Prod.fst).Nodup := by
  cases givesUp with
  | unseated => exact distinct.sublist (List.filter_sublist.map _)
  | swept => exact distinct.sublist (List.filter_sublist.map _)
  | cleared => exact .nil
  | _ => exact distinct

theorem Factory.GivesUp.unique (givesUp : f.GivesUp hs g) (unique : f.cache.Unique) :
    g.cache.Unique := by
  cases givesUp with
  | popped _ _ _ found => exact unique.pop found
  | drained => exact unique.drain
  | swept => exact List.nodup_nil
  | _ => exact unique

namespace Step

theorem nodup_threads (step : Step p q) (distinct : (p.factory.threads.map Prod.fst).Nodup) :
    (q.factory.threads.map Prod.fst).Nodup := by
  cases step with
  | kept r m letsGo => exact letsGo.nodup_threads distinct
  | lost r m letsGo => exact letsGo.nodup_threads distinct
  | lostOwned r m letsGo => exact letsGo.nodup_threads distinct
  | expire => exact List.nodup_nil
  | seat t h => exact nodup_seat distinct t h
  | giveUp hs f givesUp => exact givesUp.nodup_threads distinct
  | _ => exact distinct

theorem unique (step : Step p q) (unique : p.factory.cache.Unique) : q.factory.cache.Unique := by
  cases step with
  | kept r m letsGo => rw [letsGo.parked_iff.1]; exact unique
  | lost r m letsGo => exact letsGo.parked_iff.1 ▸ unique
  | lostOwned r m letsGo => exact letsGo.parked_iff.1 ▸ unique
  | expire => exact List.nodup_nil
  | shelve => exact unique.push
  | reopen key h cache found => exact unique.pop found
  | ensure => exact unique.ensure
  | giveUp hs f givesUp => exact givesUp.unique unique
  | _ => exact unique

end Step

/-! ## Producers and the end of the factory -/

/-- What a step can make of the producer `r`. -/
inductive Pool.Alters (p : Pool σ Snapshot) (r : Ref) : Producer → Prop
  | same : p.Alters r (p.get r)
  | closed : p.Alters r { p.get r with phase := .disposed }
  | spoiled (error : ClientError) (sound : (p.get r).isSpoiled = false) :
      p.Alters r { p.get r with failure := some error }
  | checked (out : Bool) : p.Alters r { p.get r with checkedOut := out }
  | parked (opened : (p.get r).phase = .opened) (current : (p.get r).epoch = p.factory.epoch) :
      p.Alters r { p.get r with phase := .cached }
  | reopened (key : String) (h : Handle) (cache : Cache Handle) (here : h.producer = r)
      (found : p.factory.cache.pop? key = some (h, cache)) (cached : (p.get r).phase = .cached) :
      p.Alters r { p.get r with phase := .opened, lease := (p.get r).lease + 1 }

namespace Step

/-- A producer that a step adds is one that has been built, or the closed copy of another. -/
theorem newcomer (step : Step p q) (new : p.producers.length ≤ r) (inside : r < q.producers.length) :
    r = p.producers.length ∧
      ((∃ placement transactionalId clientId,
        p.factory.Names placement transactionalId q.factory.sequence ∧
          (⟨r, 0⟩ ∈ q.pinned ∧ p.factory.nextId < q.factory.nextId) ∧ q.get r =
            { id := p.factory.nextId, conn := p.connections, transactionalId := transactionalId,
              clientId := clientId, placement := placement, epoch := p.factory.epoch
              owned := true }) ∨
        ∃ s, (s < p.producers.length ∧ ((p.get s).owned = true ∧ (p.get s).phase ≠ .disposed) ∧
          (q.get s).phase = .disposed) ∧ q.get r = (p.get s).closedCopy) := by
  have absurdly (same : q.producers.length = p.producers.length) : False :=
    absurd (same ▸ inside) (Nat.not_lt.mpr new)
  cases step with
  | kept s m letsGo => exact (absurdly (by rw [letsGo.producers])).elim
  | lost s m letsGo =>
    exact (absurdly (by rw [← letsGo.producers]; exact List.length_modify ..)).elim
  | lostOwned s m letsGo lost owned =>
    have undisposed : (m.get s).phase ≠ .disposed := by
      simp only [Pool.isLost, Bool.and_eq_true, decide_eq_true_eq] at lost
      exact lost.2
    have listed := letsGo.producers
    have last : r = p.producers.length := by
      simp only [Pool.closed, List.length_append, List.length_modify, List.length_singleton,
        listed] at inside
      exact Nat.le_antisymm (Nat.le_of_lt_succ inside) new
    have known : s < p.producers.length := listed ▸ Pool.lt_of_phase undisposed
    have same : m.get s = p.get s := by rw [Pool.get, listed, Pool.get]
    refine ⟨last, Or.inr ⟨s, ⟨known, same ▸ ⟨owned, undisposed⟩, ?_⟩, ?_⟩⟩
    · simp only [Pool.get, Pool.closed, listed]
      rw [Pool.getD_append, if_neg (by simpa using Nat.ne_of_lt known), Pool.getD_modify,
        if_pos ⟨rfl, known⟩]
    · simp [Pool.get, Pool.closed, listed, last]
  | build placement transactionalId clientId n outside events names =>
    have last : r = p.producers.length := by
      simp only [Pool.built, Pool.numbered, Pool.onFactory, List.length_append,
        List.length_singleton] at inside
      exact Nat.le_antisymm (Nat.le_of_lt_succ inside) new
    refine ⟨last, Or.inl ⟨placement, transactionalId, clientId, names, ⟨?_, Nat.lt_succ_self _⟩, ?_⟩⟩
    · rw [last]
      exact List.mem_cons_self
    · simp [Pool.get, Pool.built, Pool.numbered, Pool.onFactory, last]
  | spoil => exact (absurdly (List.length_modify ..)).elim
  | check => exact (absurdly (List.length_modify ..)).elim
  | shelve => exact (absurdly (List.length_modify ..)).elim
  | reopen => exact (absurdly (List.length_modify ..)).elim
  | retire => exact (absurdly (List.length_modify ..)).elim
  | shut => exact (absurdly (List.length_modify ..)).elim
  | _ => exact (absurdly rfl).elim

/-- What a step makes of a producer. -/
theorem alters (step : Step p q) (inside : r < p.producers.length) : p.Alters r (q.get r) := by
  have modify {m : Pool σ Snapshot} {s : Ref} {f : Producer → Producer}
      (producers : m.producers = p.producers.modify s f) (alters : s = r → p.Alters r (f (p.get r))) :
      p.Alters r (m.get r) := by
    rw [Pool.get, producers, Pool.getD_modify]
    split
    · rename_i here
      exact alters here.1
    · exact .same
  have closed {m : Pool σ Snapshot} {s : Ref} (letsGo : p.LetsGo s m) (outside : σ)
      (events : List (Event Snapshot)) : p.Alters r ((m.closed s outside events).get r) := by
    refine modify (s := s) (f := fun x => { x with phase := .disposed }) ?_ fun _ => .closed
    rw [← letsGo.producers]
    rfl
  have append {m : Pool σ Snapshot} {x : Producer} (producers : q.producers = m.producers ++ [x])
      (length : m.producers.length = p.producers.length) (alters : p.Alters r (m.get r)) :
      p.Alters r (q.get r) := by
    rw [Pool.get, producers, Pool.getD_append, if_neg (by rw [length]; exact Nat.ne_of_lt inside)]
    exact alters
  cases step with
  | kept s m letsGo =>
    rw [Pool.get, letsGo.producers]
    exact .same
  | lost s m letsGo => exact closed letsGo _ _
  | lostOwned s m letsGo _ _ _ outside events =>
    refine append (m := m.closed s outside events) rfl ?_ (closed letsGo outside events)
    rw [Pool.length_closed, letsGo.producers]
  | build => exact append (m := p) rfl rfl .same
  | reopen key h cache found cached =>
    exact modify (s := h.producer) rfl fun here => .reopened key h cache here found (here ▸ cached)
  | spoil s error line sound => exact modify (s := s) rfl fun here => .spoiled error (here ▸ sound)
  | check s out => exact modify (s := s) rfl fun _ => .checked out
  | shelve h key there opened place current =>
    exact modify (s := h.producer) rfl fun here => .parked (here ▸ opened) (here ▸ current)
  | retire s => exact modify (s := s) rfl fun _ => .closed
  | shut s => exact modify (s := s) rfl fun _ => .closed
  | _ => exact .same

/-- A lease only moves on when a producer leaves its queue again. -/
theorem lease_cases (step : Step p q) (inside : r < p.producers.length) :
    (q.get r).lease = (p.get r).lease ∨ ∃ key h cache, h.producer = r ∧
      p.factory.cache.pop? key = some (h, cache) ∧ (p.get r).phase = .cached := by
  have alters := step.alters inside
  generalize q.get r = y at alters
  cases alters with
  | reopened key h cache here found cached => exact Or.inr ⟨key, h, cache, here, found, cached⟩
  | _ => exact Or.inl rfl

/-- A factory that is gone after a step was gone before, or has just been emptied. -/
theorem alive (step : Step p q) (alive : p.alive = true) :
    q.alive = true ∨ q.factory.handles = [] := by
  cases step with
  | recount owners running before after => exact Or.inl (decide_eq_true after)
  | expire => exact Or.inr rfl
  | kept s m letsGo => exact Or.inl (by cases letsGo <;> exact alive)
  | lost s m letsGo => exact Or.inl (by cases letsGo <;> exact alive)
  | lostOwned s m letsGo _ _ stays =>
    refine Or.inl (decide_eq_true ?_)
    show 0 < m.owners + (m.running + 1)
    omega
  | _ => exact Or.inl alive

end Step

/-! ## Where producers are kept -/

structure Pool.Placed (p : Pool σ Snapshot) : Prop where
  seats : (p.factory.threads.map Prod.fst).Nodup
  queues : p.factory.cache.Unique
  shared : ∀ h, p.factory.shared = some h → (p.get h.producer).placement = .shared
  bound : ∀ t h, (t, h) ∈ p.factory.threads → (p.get h.producer).placement = .thread t
  parked : ∀ key h, p.factory.cache.Parked key h →
    (p.get h.producer).placement = .pooled key ∧ (p.get h.producer).epoch = p.factory.epoch
  epochs : ∀ r < p.producers.length, (p.get r).epoch ≤ p.factory.epoch
  vacant : p.alive = false → p.factory.handles = []

theorem Pool.Genuine.inside (genuine : p.Genuine) (there : h ∈ p.handles) :
    h.producer < p.producers.length := (genuine.known h (Or.inl there)).1

namespace Pool.Placed

theorem new (config : Config) (outside : σ) : (Pool.new config outside : Pool σ Snapshot).Placed where
  seats := List.nodup_nil
  queues := List.nodup_nil
  shared _ found := by cases found
  bound _ _ member := by cases member
  parked _ _ parked := by
    obtain ⟨items, entry, -⟩ := parked
    cases entry
  epochs _ inside := by cases inside
  vacant _ := rfl

theorem step (placed : p.Placed) (genuine : p.Genuine) (step : Step p q) : q.Placed where
  seats := step.nodup_threads placed.seats
  queues := step.unique placed.queues
  shared h found := by
    have later := Later.of_step step
    rcases step.shared_found found with before | ⟨there, place, -⟩
    · have inside := genuine.inside
        (Pool.mem_handles_of_factory (Factory.mem_handles.mpr (Or.inl before)))
      rw [(later.get inside).placement]
      exact placed.shared h before
    · rw [(later.get (genuine.inside (Pool.mem_handles_of_pinned there))).placement]
      exact place
  bound t h member := by
    have later := Later.of_step step
    rcases step.bound_member member with before | ⟨there, place, -⟩
    · have inside := genuine.inside
        (Pool.mem_handles_of_factory (Factory.mem_handles.mpr (Or.inr (Or.inl ⟨t, before⟩))))
      rw [(later.get inside).placement]
      exact placed.bound t h before
    · rw [(later.get (genuine.inside (Pool.mem_handles_of_pinned there))).placement]
      exact place
  parked key h parked := by
    have later := Later.of_step step
    obtain ⟨epoch, before | ⟨there, place, current, -⟩⟩ := step.parked parked
    · have inside := genuine.inside
        (Pool.mem_handles_of_factory (Factory.mem_handles.mpr (Or.inr (Or.inr ⟨key, before⟩))))
      rw [(later.get inside).placement, (later.get inside).epoch, epoch]
      exact placed.parked key h before
    · rw [(later.get (genuine.inside there)).placement, (later.get (genuine.inside there)).epoch,
        epoch]
      exact ⟨place, current⟩
  epochs r inside := by
    have later := Later.of_step step
    rcases Nat.lt_or_ge r p.producers.length with before | new
    · rw [(later.get before).epoch]
      exact Nat.le_trans (placed.epochs r before) later.epoch
    · obtain ⟨-, ⟨_, _, _, _, _, built⟩ | ⟨s, ⟨known, -⟩, copy⟩⟩ := step.newcomer new inside
      · rw [built]
        exact later.epoch
      · rw [copy]
        exact Nat.le_trans (placed.epochs s known) later.epoch
  vacant gone := by
    cases lives : p.alive with
    | true =>
      rcases step.alive lives with still | emptied
      · cases gone.symm.trans still
      · exact emptied
    | false =>
      refine List.eq_nil_iff_forall_not_mem.mpr fun h member => ?_
      have empty := placed.vacant lives
      have none (there : h ∈ p.factory.handles) : False := by
        rw [empty] at there
        cases there
      rcases Factory.mem_handles.mp member with shared | ⟨t, bound⟩ | ⟨key, parked⟩
      · rcases step.shared_found shared with before | ⟨-, -, alive⟩
        · exact none (Factory.mem_handles.mpr (Or.inl before))
        · cases lives.symm.trans alive
      · rcases step.bound_member bound with before | ⟨-, -, alive⟩
        · exact none (Factory.mem_handles.mpr (Or.inr (Or.inl ⟨t, before⟩)))
        · cases lives.symm.trans alive
      · rcases (step.parked parked).2 with before | ⟨-, -, -, alive⟩
        · exact none (Factory.mem_handles.mpr (Or.inr (Or.inr ⟨key, before⟩)))
        · cases lives.symm.trans alive

end Pool.Placed

/-! ## Who keeps producers alive -/

theorem Pool.referenced_of_mem (there : h ∈ p.handles) : p.referenced h.producer = true :=
  List.any_eq_true.mpr ⟨h, there, by simp⟩

theorem Pool.mem_of_referenced (referenced : p.referenced r = true) :
    ∃ h ∈ p.handles, h.producer = r := by
  obtain ⟨h, there, same⟩ := List.any_eq_true.mp referenced
  exact ⟨h, there, by simpa using same⟩

theorem Pool.isLost_iff : p.isLost r = true ↔
    p.referenced r = false ∧ (p.get r).phase ≠ .disposed := by
  simp [Pool.isLost]

/-- Giving up a reference to one producer keeps the handles to all others. -/
theorem Pool.LetsGo.keeps (letsGo : p.LetsGo r q) (placed : p.Placed) (there : h ∈ p.handles)
    (other : h.producer ≠ r) : h ∈ q.handles := by
  have differs {x : Handle} (lost : x.producer = r) : h ≠ x := fun same => other (same ▸ lost)
  rw [mem_handles, Factory.mem_handles] at there ⊢
  cases letsGo with
  | held x => exact there.imp_left (List.mem_erase_of_ne (differs rfl)).mpr
  | pinned x =>
    exact there.imp_right fun there => there.imp_left (List.mem_erase_of_ne (differs rfl)).mpr
  | shared =>
    refine there.imp_right fun there => there.imp_right fun there => there.imp_left fun found => ?_
    simp [unshare, onFactory, found, other]
  | bound t =>
    refine there.imp_right fun there => there.imp_right fun there => there.imp_right fun there =>
      there.imp_left fun seated => ?_
    obtain ⟨u, entry⟩ := seated
    exact ⟨u, List.mem_filter.mpr ⟨entry, by simp [other]⟩⟩
  | seat t x old found =>
    refine there.imp_right fun there => there.imp_right fun there => there.imp_right fun there =>
      there.imp_left fun seated => ?_
    obtain ⟨u, entry⟩ := seated
    refine ⟨u, List.mem_append_left _ (List.mem_filter.mpr ⟨entry, ?_⟩)⟩
    have elsewhere : u ≠ t := by
      rintro rfl
      have same := (lookup_of_mem placed.seats entry).symm.trans found
      exact other (by rw [Option.some.inj same])
    simpa using elsewhere

/-- What the factory gives up is held by the operation. -/
theorem Factory.GivesUp.keeps (givesUp : f.GivesUp hs g) (seats : (f.threads.map Prod.fst).Nodup)
    (queues : f.cache.Unique) (there : h ∈ f.handles) : h ∈ hs ∨ h ∈ g.handles := by
  rw [mem_handles] at there
  rw [mem_handles (f := g)]
  cases givesUp with
  | popped key x cache found =>
    rcases there with shared | bound | ⟨k, parked⟩
    · exact Or.inr (Or.inl shared)
    · exact Or.inr (Or.inr (Or.inl bound))
    · rcases Cache.parked_of_not_pop queues found parked with rfl | left
      · exact Or.inl List.mem_cons_self
      · exact Or.inr (Or.inr (Or.inr ⟨k, left⟩))
  | drained key =>
    rcases there with shared | bound | ⟨k, parked⟩
    · exact Or.inr (Or.inl shared)
    · exact Or.inr (Or.inr (Or.inl bound))
    · exact (Cache.parked_of_not_drain queues parked).imp_right fun left =>
        Or.inr (Or.inr ⟨k, left⟩)
  | unseated t x found =>
    rcases there with shared | ⟨u, entry⟩ | parked
    · exact Or.inr (Or.inl shared)
    · by_cases same : u = t
      · subst same
        obtain rfl : h = x := Option.some.inj ((lookup_of_mem seats entry).symm.trans found)
        exact Or.inl List.mem_cons_self
      · exact Or.inr (Or.inr (Or.inl ⟨u, List.mem_filter.mpr ⟨entry, by simpa using same⟩⟩))
    · exact Or.inr (Or.inr (Or.inr parked))
  | cleared =>
    rcases there with shared | ⟨u, entry⟩ | parked
    · exact Or.inr (Or.inl shared)
    · exact Or.inl (List.mem_map.mpr ⟨(u, h), entry, rfl⟩)
    · exact Or.inr (Or.inr (Or.inr parked))
  | swept out =>
    rcases there with shared | ⟨u, entry⟩ | parked
    · exact Or.inl (List.mem_append_left _ (List.mem_append_left _ (Option.mem_toList.mpr shared)))
    · cases taken : out h with
      | true => exact Or.inr (Or.inr (Or.inl ⟨u, List.mem_filter.mpr ⟨entry, taken⟩⟩))
      | false =>
        refine Or.inl (List.mem_append_right _ (List.mem_map.mpr ⟨(u, h), ?_, rfl⟩))
        exact List.mem_filter.mpr ⟨entry, by simp [taken]⟩
    · exact Or.inl (List.mem_append_left _ (List.mem_append_right _ (Cache.mem_items.mpr parked)))

/-- The producer of a handle is still referred to after a step, or it has been closed. -/
theorem Step.keeps (step : Step p q) (placed : p.Placed) (there : h ∈ p.handles)
    (undisposed : (q.get h.producer).phase ≠ .disposed) : q.referenced h.producer = true := by
  have stays (still : h ∈ q.handles) := Pool.referenced_of_mem still
  have places := Pool.mem_handles.mp there
  cases step with
  | pin x =>
    exact stays (Pool.mem_handles.mpr (places.imp_right (Or.imp_left (List.mem_cons_of_mem _))))
  | hold x => exact stays (Pool.mem_handles.mpr (places.imp_left (List.mem_cons_of_mem _)))
  | handOver x =>
    refine stays (Pool.mem_handles.mpr ?_)
    by_cases same : h = x
    · rw [same]
      exact Or.inl List.mem_cons_self
    · rcases places with held | pinned | kept
      · exact Or.inl (List.mem_cons_of_mem _ held)
      · exact Or.inr (Or.inl ((List.mem_erase_of_ne same).mpr pinned))
      · exact Or.inr (Or.inr kept)
  | expire =>
    refine stays (Pool.mem_handles.mpr ?_)
    rcases places with held | pinned | kept
    · exact Or.inl held
    · exact Or.inr (Or.inl (List.mem_append_right _ pinned))
    · exact Or.inr (Or.inl (List.mem_append_left _ (List.mem_reverse.mpr kept)))
  | kept r m letsGo kept =>
    by_cases same : h.producer = r
    · cases referenced : q.referenced h.producer with
      | true => rfl
      | false =>
        rw [same] at referenced undisposed
        have lost := Pool.isLost_iff.mpr ⟨referenced, undisposed⟩
        cases kept.symm.trans lost
    · exact stays (letsGo.keeps placed there same)
  | lost r m letsGo lost alone outside events =>
    by_cases same : h.producer = r
    · refine absurd ?_ undisposed
      have inside := Pool.lt_of_phase (Pool.isLost_iff.mp lost).2
      rw [same, Pool.get_closed, if_pos ⟨rfl, inside⟩]
    · exact stays (letsGo.keeps placed there same)
  | lostOwned r m letsGo lost owned alive outside events =>
    by_cases same : h.producer = r
    · refine absurd ?_ undisposed
      have inside := Pool.lt_of_phase (Pool.isLost_iff.mp lost).2
      have closed := Pool.get_closed r r outside events m
      rw [if_pos ⟨rfl, inside⟩] at closed
      have listed : ((m.closed r outside events).producers ++ [(m.get r).closedCopy]).getD r .absent =
          (m.closed r outside events).get r := by
        have length : (m.closed r outside events).producers.length = m.producers.length :=
          List.length_modify ..
        rw [Pool.getD_append, if_neg (by rw [length]; exact Nat.ne_of_lt inside)]
        rfl
      rw [same]
      exact congrArg Producer.phase (listed.trans closed)
    · have still := Pool.mem_handles.mp (letsGo.keeps placed there same)
      exact stays (Pool.mem_handles.mpr
        (still.imp_right (Or.imp_left (List.mem_cons_of_mem _))))
  | build =>
    exact stays (Pool.mem_handles.mpr (places.imp_right (Or.imp_left (List.mem_cons_of_mem _))))
  | shelve x key known opened place current alive =>
    refine stays (Pool.mem_handles.mpr (places.imp_right (Or.imp_right fun kept => ?_)))
    rw [Factory.mem_handles] at kept ⊢
    refine kept.imp_right (Or.imp_right fun parked => ?_)
    obtain ⟨k, parked⟩ := parked
    exact ⟨k, Cache.parked_push placed.queues (Or.inl parked)⟩
  | reopen key x cache found =>
    by_cases same : h.producer = x.producer
    · rw [same]
      exact Pool.referenced_of_mem (h := p.renewed x)
        (Pool.mem_handles.mpr (Or.inr (Or.inl List.mem_cons_self)))
    · refine stays (Pool.mem_handles.mpr ?_)
      refine places.imp_right (Or.imp (List.mem_cons_of_mem _) fun kept => ?_)
      rw [Factory.mem_handles] at kept ⊢
      refine kept.imp_right (Or.imp_right fun parked => ?_)
      obtain ⟨k, parked⟩ := parked
      rcases Cache.parked_of_not_pop placed.queues found parked with rfl | left
      · exact absurd rfl same
      · exact ⟨k, left⟩
  | share x known =>
    refine stays (Pool.mem_handles.mpr ?_)
    rcases places with held | pinned | kept
    · exact Or.inl held
    · exact Or.inr (Or.inl (List.mem_append_right _ pinned))
    · rcases Factory.mem_handles.mp kept with shared | rest
      · exact Or.inr (Or.inl (List.mem_append_left _ (Option.mem_toList.mpr shared)))
      · exact Or.inr (Or.inr (Factory.mem_handles.mpr (Or.inr rest)))
  | seat t x free =>
    refine stays (Pool.mem_handles.mpr (places.imp_right (Or.imp_right fun kept => ?_)))
    rw [Factory.mem_handles] at kept ⊢
    refine kept.imp_right (Or.imp_left fun seated => ?_)
    obtain ⟨u, entry⟩ := seated
    refine ⟨u, List.mem_append_left _ (List.mem_filter.mpr ⟨entry, ?_⟩)⟩
    have elsewhere : u ≠ t := by
      rintro rfl
      exact not_mem_of_lookup free entry
    simpa using elsewhere
  | ensure key =>
    refine stays (Pool.mem_handles.mpr (places.imp_right (Or.imp_right fun kept => ?_)))
    rw [Factory.mem_handles] at kept ⊢
    refine kept.imp_right (Or.imp_right fun parked => ?_)
    obtain ⟨k, parked⟩ := parked
    exact ⟨k, Cache.parked_ensure.mpr parked⟩
  | giveUp hs f givesUp =>
    refine stays (Pool.mem_handles.mpr ?_)
    rcases places with held | pinned | kept
    · exact Or.inl held
    · exact Or.inr (Or.inl (List.mem_append_right _ pinned))
    · rcases givesUp.keeps placed.seats placed.queues kept with taken | left
      · exact Or.inr (Or.inl (List.mem_append_left _ (List.mem_reverse.mpr taken)))
      · exact Or.inr (Or.inr left)
  | _ => exact stays there

/-- A producer that is not closed is referred to by some handle. -/
def Pool.Tended (p : Pool σ Snapshot) : Prop :=
  ∀ r < p.producers.length, (p.get r).phase ≠ .disposed → p.referenced r = true

namespace Pool.Tended

theorem new (config : Config) (outside : σ) : (Pool.new config outside : Pool σ Snapshot).Tended :=
  fun _ inside => absurd inside (Nat.not_lt_zero _)

theorem step (tended : p.Tended) (placed : p.Placed) (step : Step p q) : q.Tended := by
  intro r inside undisposed
  rcases Nat.lt_or_ge r p.producers.length with before | new
  · have earlier : (p.get r).phase ≠ .disposed := fun done =>
      undisposed (((Later.of_step step).get before).disposed done)
    obtain ⟨h, there, rfl⟩ := Pool.mem_of_referenced (tended r before earlier)
    exact step.keeps placed there undisposed
  · obtain ⟨-, ⟨_, _, _, _, ⟨there, -⟩, _⟩ | ⟨s, ⟨known, -⟩, copy⟩⟩ := step.newcomer new inside
    · exact Pool.referenced_of_mem (h := ⟨r, 0⟩) (Pool.mem_handles_of_pinned there)
    · exact absurd (congrArg Producer.phase copy) undisposed

end Pool.Tended

/-- What holds at every point of a run: handles are genuine, producers are where they belong, and those
that are not closed are referred to. -/
structure Pool.Ordered (p : Pool σ Snapshot) : Prop where
  genuine : p.Genuine
  placed : p.Placed
  tended : p.Tended

namespace Pool.Ordered

theorem new (config : Config) (outside : σ) : (Pool.new config outside : Pool σ Snapshot).Ordered :=
  ⟨.new config outside, .new config outside, .new config outside⟩

theorem path (ordered : p.Ordered) (path : Path p q) : q.Ordered :=
  Path.preserves (fun _ _ ordered step => ⟨ordered.genuine.step step,
    ordered.placed.step ordered.genuine step, ordered.tended.step ordered.placed step⟩) path ordered

end Pool.Ordered

/-! ## Who is forgotten -/

/-- Nothing refers again to a producer to which no handle is left. -/
theorem Path.unreferenced (path : Path p q) (ordered : p.Ordered) (inside : r < p.producers.length)
    (none : p.referenced r = false) : q.referenced r = false := by
  induction path with
  | refl => exact none
  | @tail m q before step gone =>
    have within := Nat.lt_of_lt_of_le inside (Later.of_path before).producers.length
    refine Bool.eq_false_iff.mpr fun referenced => ?_
    obtain ⟨h, there, rfl⟩ := Pool.mem_of_referenced referenced
    rcases step.handles_member there with known | ⟨new, -⟩ | ⟨-, higher, current⟩
    · cases gone.symm.trans (Pool.referenced_of_mem known)
    · exact absurd within (Nat.not_lt.mpr new)
    · -- Only a parked producer is lent anew, and one that is parked is referred to.
      rcases step.lease_cases within with same | ⟨-, -, -, -, -, cached⟩
      · exact absurd (current.trans same) (Nat.ne_of_gt higher)
      · have tended := (ordered.path before).tended h.producer within (by simp [cached])
        cases gone.symm.trans tended

end ProducerPool
