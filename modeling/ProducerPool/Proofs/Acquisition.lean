import ProducerPool.Proofs.Dealings

/-!
# What a pooled request takes from its queue

A request for a pooled producer takes the first producer of its queue that has no failure, and disposes of
those that wait before it.  Where every producer of the queue has failed, the queue is emptied and one new
producer is built.
-/

set_option autoImplicit false

namespace ProducerPool

variable {σ : Type} {E : Environment σ Snapshot} {p q m : Pool σ Snapshot} {h x : Handle}
  {bad rest : List Handle} {dealings : List (Event Snapshot)}
  {key : String} {config : Config} {scope : TransactionScope} {k : Config.PoolKey}

/-- Names depend on the configuration and on where the sequence stands. -/
theorem Factory.Names.congr {f g : Factory} {placement : Placement} {transactionalId : Option String}
    {n : Nat} (names : f.Names placement transactionalId n) (config : g.config = f.config)
    (sequence : g.sequence = f.sequence) : g.Names placement transactionalId n := by
  cases names with
  | shared => rw [← sequence]; exact .shared
  | bound t bare => rw [← sequence]; exact .bound t (config ▸ bare)
  | boundDrawn t idPrefix drawn => rw [← sequence]; exact .boundDrawn t idPrefix (config ▸ drawn)
  | keyed key partitioned => rw [← sequence]; exact .keyed key (config ▸ partitioned)
  | drawn idPrefix => rw [← sequence]; exact .drawn idPrefix

namespace Pool

/-! ## The search of a queue -/

/-- The pool with another queue under a key. -/
def withQueue {μ : Type} (key : String) (items : List Handle) (p : Pool σ μ) : Pool σ μ :=
  p.onFactory fun f => { f with cache := f.cache.setQueue key items }

theorem withQueue_withQueue {μ : Type} (key : String) (early late : List Handle) (p : Pool σ μ) :
    (p.withQueue key early).withQueue key late = p.withQueue key late := by
  simp only [withQueue, onFactory, Cache.setQueue_setQueue]

/-- A search of a queue finds a producer that has not failed behind some that have, or all have failed. -/
theorem search_cases (queue : List Handle) (p : Pool σ Snapshot) :
    (∀ x ∈ queue, (p.get x.producer).isSpoiled = true) ∨
      ∃ bad h rest, queue = bad ++ h :: rest ∧ (∀ x ∈ bad, (p.get x.producer).isSpoiled = true) ∧
        (p.get h.producer).isSpoiled = false := by
  induction queue with
  | nil => exact Or.inl (List.forall_mem_nil _)
  | cons x queue ih =>
    cases spoiled : (p.get x.producer).isSpoiled with
    | false => exact Or.inr ⟨[], x, queue, rfl, List.forall_mem_nil _, spoiled⟩
    | true =>
      rcases ih with all | ⟨bad, h, rest, rfl, failed, sound⟩
      · exact Or.inl (List.forall_mem_cons.mpr ⟨spoiled, all⟩)
      · exact Or.inr ⟨x :: bad, h, rest, rfl, List.forall_mem_cons.mpr ⟨spoiled, failed⟩, sound⟩

/-- What a search of a queue may rely on. -/
structure Waiting (key : String) (items : List Handle) (p : Pool σ Snapshot) : Prop where
  queued : p.factory.cache.queue key = items
  unique : p.factory.cache.Unique
  cached : ∀ x ∈ items, (p.get x.producer).phase = .cached
  current : ∀ x ∈ items, (p.get x.producer).epoch = p.factory.epoch
  once : (items.map Handle.producer).Nodup

namespace Waiting

variable (waiting : p.Waiting key (x :: rest))
include waiting

theorem pop : p.factory.cache.pop? key = some (x, p.factory.cache.setQueue key rest) := by
  rw [Cache.pop?, waiting.queued]

theorem present : p.factory.cache.hasKey key = true := by
  refine Cache.hasKey_of_queue (x := x) ?_
  rw [waiting.queued]
  exact List.mem_cons_self

/-- The other producers of a queue are as they were when the first has been disposed of. -/
theorem spared (deals : Deals dealings ((p.withQueue key rest).discard [x]) m) :
    ∀ y ∈ rest, m.get y.producer = p.get y.producer := by
  intro y member
  have new := (List.nodup_cons.mp waiting.once).1
  have other : y.producer ∉ [x].map Handle.producer := by
    intro same
    rw [List.map_singleton, List.mem_singleton] at same
    exact new (same ▸ List.mem_map.mpr ⟨y, member, rfl⟩)
  rw [deals.get, get_discard, if_neg other]
  rfl

/-- The queue once its first producer has been disposed of. -/
theorem passed (deals : Deals dealings ((p.withQueue key rest).discard [x]) m) :
    m.Waiting key rest := by
  have spared := waiting.spared deals
  have cache : m.factory.cache = p.factory.cache.setQueue key rest := by
    rw [deals.factory]
    rfl
  have epoch : m.factory.epoch = p.factory.epoch := by
    rw [deals.factory]
    rfl
  refine ⟨?_, ?_, fun y member => ?_, fun y member => ?_,
    (List.nodup_cons.mp waiting.once).2⟩
  · rw [cache, Cache.queue_setQueue _ _ _ _ waiting.present, if_pos rfl]
  · rw [cache]
    exact waiting.unique.setQueue
  · rw [spared y member]
    exact waiting.cached y (List.mem_cons_of_mem x member)
  · rw [spared y member, epoch]
    exact waiting.current y (List.mem_cons_of_mem x member)

/-- The first producer of a queue is passed over if it has failed. -/
theorem takeParked_failed (discreet : E.Discreet) (failed : (p.get x.producer).isSpoiled = true)
    (epoch fuel : Nat) :
    ∃ m, Deals (p.ending p.factory.config.closeTimeout x) ((p.withQueue key rest).discard [x]) m ∧
      takeParked E key epoch (fuel + 1) p = takeParked E key epoch fuel m := by
  have undisposed : ((p.withQueue key rest).get x.producer).phase ≠ .disposed := by
    show (p.get x.producer).phase ≠ .disposed
    simp [waiting.cached x List.mem_cons_self]
  refine ⟨_, retirePinned_deals discreet p.factory.config.closeTimeout undisposed, ?_⟩
  generalize popped : p.withQueue key rest = m
  have unfit : m.isReusable epoch x = false := by
    rw [isReusable, ← popped]
    simp [show (p.withQueue key rest).get x.producer = p.get x.producer from rfl, failed]
  have taken : p.onFactory (fun f => { f with cache := p.factory.cache.setQueue key rest }) = m :=
    popped
  have config : m.factory.config = p.factory.config := by rw [← popped]; rfl
  simp only [takeParked, waiting.pop, taken, unfit, Bool.false_eq_true, if_false, pin, config]

/-- The first producer of a queue is opened again if it has not failed. -/
theorem takeParked_sound (sound : (p.get x.producer).isSpoiled = false) (fuel : Nat) :
    takeParked E key p.factory.epoch (fuel + 1) p =
      (p.reopened x (p.factory.cache.setQueue key rest), some (p.renewed x)) := by
  generalize popped : p.withQueue key rest = m
  have same : m.get x.producer = p.get x.producer := by rw [← popped]; rfl
  have fit : m.isReusable p.factory.epoch x = true := by
    rw [isReusable, same]
    simp [sound, waiting.current x List.mem_cons_self]
  have cached : (m.get x.producer).phase = .cached := by
    rw [same]
    exact waiting.cached x List.mem_cons_self
  have taken : p.onFactory (fun f => { f with cache := p.factory.cache.setQueue key rest }) = m :=
    popped
  simp only [takeParked, waiting.pop, taken, fit, if_true, reopen?, cached]
  rw [← popped]
  rfl

end Waiting

/-- Producers at the front of a queue that have failed are disposed of, one after the other. -/
theorem takeParked_skips (discreet : E.Discreet) (waiting : p.Waiting key (bad ++ rest))
    (failed : ∀ x ∈ bad, (p.get x.producer).isSpoiled = true) (epoch fuel : Nat) :
    ∃ m, Deals (bad.flatMap (p.ending p.factory.config.closeTimeout))
        ((p.withQueue key rest).discard bad) m ∧ m.Waiting key rest ∧
      takeParked E key epoch (bad.length + fuel) p = takeParked E key epoch fuel m := by
  induction bad generalizing p with
  | nil =>
    have kept : p.withQueue key rest = p := by
      have same := Cache.setQueue_queue waiting.unique key
      rw [waiting.queued] at same
      rw [withQueue, onFactory]
      simp only [List.nil_append] at same
      rw [same]
    refine ⟨p, ?_, waiting, by simp⟩
    rw [kept]
    exact .refl p
  | cons x bad ih =>
    have waiting : p.Waiting key (x :: (bad ++ rest)) := waiting
    obtain ⟨m, first, turn⟩ := waiting.takeParked_failed discreet (failed x List.mem_cons_self)
      epoch (bad.length + fuel)
    have left := waiting.passed first
    have spared (y : Handle) (member : y ∈ bad) : m.get y.producer = p.get y.producer :=
      waiting.spared first y (List.mem_append_left rest member)
    obtain ⟨q, others, waits, turns⟩ := ih left fun y member => by
      rw [spared y member]
      exact failed y (List.mem_cons_of_mem x member)
    refine ⟨q, ?_, waits, ?_⟩
    · have begun := first.map (fun p => (p.withQueue key rest).discard bad) (fun _ _ _ => rfl)
        fun _ => rfl
      have whole : (((p.withQueue key (bad ++ rest)).discard [x]).withQueue key rest).discard bad =
          (p.withQueue key rest).discard (x :: bad) := by
        rw [← withQueue_withQueue key (bad ++ rest) rest p]
        exact discard_cons x bad ((p.withQueue key (bad ++ rest)).withQueue key rest)
      have listeners : m.factory.listeners = p.factory.listeners := by rw [first.factory]; rfl
      have bound : m.factory.config = p.factory.config := by rw [first.factory]; rfl
      have same : bad.flatMap (m.ending m.factory.config.closeTimeout) =
          bad.flatMap (p.ending p.factory.config.closeTimeout) := by
        rw [bound]
        exact List.flatMap_congr fun y member => ending_congr (spared y member) listeners
      rw [whole] at begun
      rw [same] at others
      exact begun.trans others
    · rw [List.length_cons, Nat.add_right_comm, turn, turns]

theorem Waiting.apart (waiting : p.Waiting key (bad ++ h :: rest)) :
    h.producer ∉ bad.map Handle.producer := by
  have once := waiting.once
  rw [List.map_append, List.nodup_append] at once
  intro member
  exact once.2.2 _ member _ List.mem_cons_self rfl

/-- The pool once a parked producer has been opened under its next lease. -/
def reissued {μ : Type} (h : Handle) (p : Pool σ μ) : Pool σ μ :=
  p.modify h.producer fun x => { x with phase := .opened, lease := x.lease + 1 }

theorem Waiting.get_reissued (waiting : p.Waiting key (bad ++ h :: rest)) :
    (((p.withQueue key rest).discard bad).reissued h).get h.producer =
      { p.get h.producer with phase := .opened, lease := (p.get h.producer).lease + 1 } := by
  have spared : ((p.withQueue key rest).discard bad).get h.producer = p.get h.producer := by
    rw [get_discard, if_neg waiting.apart]
    rfl
  have undisposed : (((p.withQueue key rest).discard bad).get h.producer).phase ≠ .disposed := by
    simp [spared, waiting.cached h (by simp)]
  rw [reissued, get_modify, if_pos ⟨rfl, lt_of_phase undisposed⟩, spared]

section Search

variable (discreet : E.Discreet) (known : p.factory.config.poolKey scope = .ok k)
include discreet known

/-- The first producer that has not failed is found, whatever waits behind it. -/
theorem obtainPooled_reuses (waiting : p.Waiting k.key (bad ++ h :: rest))
    (failed : ∀ x ∈ bad, (p.get x.producer).isSpoiled = true)
    (sound : (p.get h.producer).isSpoiled = false) :
    ∃ q, obtainPooled E scope p = (q, .ok (p.renewed h)) ∧
      Deals (bad.flatMap (p.ending p.factory.config.closeTimeout))
        ((((p.withQueue k.key rest).discard bad).reissued h).pin (p.renewed h)) q := by
  obtain ⟨m, deals, waits, skips⟩ := takeParked_skips discreet waiting failed p.factory.epoch
    (rest.length + 1 + E.refills + 1)
  have spared : m.get h.producer = p.get h.producer := by
    rw [deals.get, get_discard, if_neg waiting.apart]
    rfl
  have fresh : m.renewed h = p.renewed h := by rw [renewed, spared]; rfl
  have epoch : m.factory.epoch = p.factory.epoch := by rw [deals.factory]; rfl
  have found := waits.takeParked_sound (E := E) (by rw [spared]; exact sound)
    (rest.length + 1 + E.refills)
  rw [epoch, fresh] at found
  have bound : p.parkedBound E k.key = bad.length + (rest.length + 1 + E.refills + 1) := by
    rw [parkedBound, Cache.length, waiting.queued, List.length_append, List.length_cons]
    omega
  refine ⟨m.reopened h (m.factory.cache.setQueue k.key rest), ?_, ?_⟩
  · rw [obtainPooled, known]
    simp only [bound, skips, found]
  · have lent := (deals.map (fun m => ((m.withQueue k.key rest).reissued h).pin (p.renewed h))
      (fun _ _ _ => rfl) fun _ => rfl).trans (.note _ (.leased (p.renewed h)) rfl)
    have first : (p.withQueue k.key (h :: rest) |>.discard bad).withQueue k.key rest =
        (p.withQueue k.key rest).discard bad := by
      rw [← withQueue_withQueue k.key (h :: rest) rest p]
      rfl
    have last : m.reopened h (m.factory.cache.setQueue k.key rest) =
        (((m.withQueue k.key rest).reissued h).pin (p.renewed h)).record (.leased (p.renewed h)) := by
      rw [← fresh]
      rfl
    rw [first, ← last, List.append_nil] at lent
    exact lent

/-- Where no producer of the queue is left, one is built. -/
theorem obtainPooled_renews {queue : List Handle} (waiting : p.Waiting k.key queue)
    (failed : ∀ x ∈ queue, (p.get x.producer).isSpoiled = true) :
    ∃ m, Deals (queue.flatMap (p.ending p.factory.config.closeTimeout))
        ((p.withQueue k.key []).discard queue) m ∧
      obtainPooled E scope p = renewPooled E k m := by
  have waiting' : p.Waiting k.key (queue ++ []) := by
    rw [List.append_nil]
    exact waiting
  obtain ⟨m, deals, waits, skips⟩ := takeParked_skips discreet waiting' failed p.factory.epoch
    (E.refills + 1)
  have empty : takeParked E k.key p.factory.epoch (E.refills + 1) m = (m, none) := by
    simp only [takeParked, Cache.pop?, waits.queued]
  have bound : p.parkedBound E k.key = queue.length + (E.refills + 1) := by
    rw [parkedBound, Cache.length, waiting.queued, Nat.add_assoc]
  refine ⟨m, deals, ?_⟩
  rw [obtainPooled, known]
  simp only [bound, skips, empty]

end Search

/-! ## Building for a queue -/

/-- The attempt to connect with which a producer of this placement and transactional id is built next. -/
def Tries (placement : Placement) (transactionalId : Option String) (p : Pool σ Snapshot) :
    Reply → List (Event Snapshot) → Prop :=
  Trial p.connections placement
    (connectionProperties p.factory.config p.factory.nextId transactionalId)
    p.factory.config.closeTimeout transactionalId

/-- The pool once a producer has been built for a queue. -/
def stocked (key : String) (transactionalId : String) (clientId : Option String)
    (p : Pool σ Snapshot) : Pool σ Snapshot :=
  { p with
    factory := { p.factory with
      cache := p.factory.cache.ensure key
      nextId := p.factory.nextId + 1
      live := p.factory.live + 1 }
    producers := p.producers ++
      [{ id := p.factory.nextId, conn := p.connections, transactionalId := some transactionalId,
         clientId := clientId, placement := .pooled key, epoch := p.factory.epoch, owned := true }]
    connections := p.connections + 1 }

/-- How a request goes on that builds a producer for a queue; `claim` says who gets hold of it. -/
inductive Stocks (E : Environment σ Snapshot) (key transactionalId : String)
    (claim : Handle → Pool σ Snapshot → Pool σ Snapshot) (p : Pool σ Snapshot) :
    Pool σ Snapshot × Except PoolError Handle → Prop
  | failed (error : ClientError) (outside : σ) (events : List (Event Snapshot))
      (tries : p.Tries (.pooled key) (some transactionalId) (.error error) events) :
      Stocks E key transactionalId claim p (p.unbuilt outside events, .error (.client error))
  | built (clientId : Option String) (outside : σ) (events : List (Event Snapshot))
      (q : Pool σ Snapshot)
      (tries : p.Tries (.pooled key) (some transactionalId) (.ok ()) events)
      (reads : clientId =
        (Metric.clientId? (E.metrics p.connections outside)).map (listenerId p.factory.config))
      (deals : Deals (events.reverse.filter Event.isDealing ++
          (p.stocked key transactionalId clientId).notices .added ⟨p.producers.length, 0⟩)
        (claim ⟨p.producers.length, 0⟩ (p.stocked key transactionalId clientId)) q) :
      Stocks E key transactionalId claim p (q, .ok ⟨p.producers.length, 0⟩)

theorem renewPooled_stocks (discreet : E.Discreet) (known : p.factory.config.poolKey scope = .ok k) :
    ∃ id n, p.factory.Names (.pooled k.key) (some id) n ∧
      (p.numbered n).Stocks E k.key id pin (renewPooled E k p) := by
  obtain ⟨id, n, named, names⟩ := namePooled_names p known
  refine ⟨id, n, names, ?_⟩
  rcases build_tries E (.pooled k.key) (some id) (p.numbered n) with
    ⟨error, outside, events, trial, failed⟩ | ⟨clientId, outside, events, trial, reads, done⟩
  · simp only [renewPooled, named, failed]
    exact .failed error outside events trial
  · simp only [renewPooled, named, done]
    refine .built clientId outside events _ trial reads ?_
    have begun : Deals (events.reverse.filter Event.isDealing)
        (((p.numbered n).stocked k.key id clientId).pin ⟨p.producers.length, 0⟩)
        (((p.numbered n).built (.pooled k.key) (some id) clientId outside events).onFactory
          fun f => { f with cache := f.cache.ensure k.key }) :=
      ⟨outside, .leased ⟨p.producers.length, 0⟩ :: events, by simp [Event.isDealing], rfl⟩
    have told := begun.trans (tellAll_deals (E := E) discreet .added ⟨p.producers.length, 0⟩ _)
    exact told

/-! ## Requests -/

/-- A request that yields a handle hands it over to its caller. -/
theorem withFactory_hands {f : Pool σ Snapshot → Pool σ Snapshot × Except PoolError Handle}
    (yields : f { p with running := p.running + 1 } = (q, .ok h))
    (deals : Deals dealings (m.pin h) q) (owned : 0 < m.owners) :
    ∃ n, p.withFactory E (fun p => handOverResult (f p)) = (n, .ok h) ∧
      Deals dealings (({ m with running := m.running - 1 } : Pool σ Snapshot).hold h) n := by
  have answer : handOverResult (f { p with running := p.running + 1 }) = (q.handOver h, .ok h) := by
    rw [yields]
    rfl
  have alive : ({ q.handOver h with running := q.running - 1 } : Pool σ Snapshot).alive = true :=
    alive_of_owners (lt_of_lt_of_eq owned deals.owners.symm)
  refine ⟨_, withFactory_alive (f := fun p => handOverResult (f p)) answer alive, ?_⟩
  have handed := deals.map (fun q => { q.handOver h with running := q.running - 1 })
    (fun _ _ _ => rfl) fun _ => rfl
  have first : ({ (m.pin h).handOver h with running := (m.pin h).running - 1 } : Pool σ Snapshot) =
      ({ m with running := m.running - 1 } : Pool σ Snapshot).hold h := by
    simp only [handOver, pin, List.erase_cons_head]
    rfl
  rw [first] at handed
  exact handed

section Requests

variable (discreet : E.Discreet) (owned : 0 < p.owners) (standing : p.factory.destroyed = false)
  (known : p.factory.config.poolKey scope = .ok k)
include discreet owned standing known

theorem createFor_reuses (waiting : p.Waiting k.key (bad ++ h :: rest))
    (failed : ∀ x ∈ bad, (p.get x.producer).isSpoiled = true)
    (sound : (p.get h.producer).isSpoiled = false) :
    ∃ q, p.createFor E scope = (q, .ok (p.renewed h)) ∧
      Deals (bad.flatMap (p.ending p.factory.config.closeTimeout))
        ((((p.withQueue k.key rest).discard bad).reissued h).hold (p.renewed h)) q := by
  have entered : ({ p with running := p.running + 1 } : Pool σ Snapshot).Waiting k.key
      (bad ++ h :: rest) :=
    ⟨waiting.queued, waiting.unique, waiting.cached, waiting.current, waiting.once⟩
  obtain ⟨m, yields, deals⟩ := obtainPooled_reuses (E := E)
    (p := { p with running := p.running + 1 }) discreet known entered failed sound
  refine withFactory_hands (f := obtainFor E scope) ?_ deals owned
  rw [obtainFor, if_neg (by simp [standing])]
  exact yields

theorem createFor_renews {queue : List Handle} (waiting : p.Waiting k.key queue)
    (failed : ∀ x ∈ queue, (p.get x.producer).isSpoiled = true) :
    ∃ m id n, Deals (queue.flatMap (p.ending p.factory.config.closeTimeout))
        ((p.withQueue k.key []).discard queue) m ∧
      p.factory.Names (.pooled k.key) (some id) n ∧
      (m.numbered n).Stocks E k.key id hold (p.createFor E scope) := by
  have entered : ({ p with running := p.running + 1 } : Pool σ Snapshot).Waiting k.key queue :=
    ⟨waiting.queued, waiting.unique, waiting.cached, waiting.current, waiting.once⟩
  obtain ⟨m, deals, goes⟩ := obtainPooled_renews (E := E)
    (p := { p with running := p.running + 1 }) discreet known entered failed
  have config : m.factory.config = p.factory.config := by rw [deals.factory]; rfl
  have sequence : m.factory.sequence = p.factory.sequence := by rw [deals.factory]; rfl
  have owners : 0 < m.owners := lt_of_lt_of_eq owned deals.owners.symm
  obtain ⟨id, n, names, stocks⟩ := renewPooled_stocks discreet (p := m) (by rw [config]; exact known)
  have yields : obtainFor E scope { p with running := p.running + 1 } = renewPooled E k m := by
    rw [obtainFor, if_neg (by simp [standing])]
    exact goes
  refine ⟨{ m with running := m.running - 1 }, id, n,
    deals.map (fun m => { m with running := m.running - 1 }) (fun _ _ _ => rfl) fun _ => rfl,
    names.congr config.symm sequence.symm, ?_⟩
  generalize renewed : renewPooled E k m = result at stocks yields
  cases stocks with
  | failed error outside events tries =>
    have answer : handOverResult (obtainFor E scope { p with running := p.running + 1 }) =
        ((m.numbered n).unbuilt outside events, .error (.client error)) := by
      rw [yields]
      rfl
    rw [createFor, withFactory_alive (f := fun p => handOverResult (p.obtainFor E scope)) answer
      (alive_of_owners owners)]
    exact .failed error outside events tries
  | built clientId outside events q tries reads built =>
    obtain ⟨r, answer, handed⟩ := withFactory_hands (f := obtainFor E scope) yields built owners
    rw [createFor, answer]
    exact .built clientId outside events r tries reads handed

end Requests

/-! ## What lies aside of the queue -/

/-- Nothing but the queue of this key differs in what the factory keeps. -/
structure Aside (key : String) (p q : Pool σ Snapshot) : Prop where
  shared : q.factory.shared = p.factory.shared
  threads : q.factory.threads = p.factory.threads
  queues : ∀ k, k ≠ key → q.factory.cache.queue k = p.factory.cache.queue k

namespace Aside

theorem discard (rest bad : List Handle) : p.Aside key ((p.withQueue key rest).discard bad) :=
  ⟨rfl, rfl, fun _ other => Cache.queue_setQueue_of_ne other⟩

theorem deals (aside : p.Aside key m) (deals : Deals dealings m q) : p.Aside key q := by
  have same := deals.factory
  exact ⟨by rw [same, aside.shared], by rw [same, aside.threads],
    fun k other => by rw [same, aside.queues k other]⟩

theorem trans (first : p.Aside key m) (second : m.Aside key q) : p.Aside key q where
  shared := second.shared.trans first.shared
  threads := second.threads.trans first.threads
  queues k other := (second.queues k other).trans (first.queues k other)

end Aside

/-- What a request for the key `k` takes from its queue, or builds. -/
structure Acquires (E : Environment σ Snapshot) (scope : TransactionScope) (k : Config.PoolKey)
    (p : Pool σ Snapshot) : Prop where
  /-- The first producer that has not failed is handed out again, once those before it are closed. -/
  reuses : ∀ bad h rest, p.factory.cache.queue k.key = bad ++ h :: rest →
    (∀ x ∈ bad, (p.get x.producer).isSpoiled = true) → (p.get h.producer).isSpoiled = false →
      ∃ q, p.createFor E scope = (q, .ok (p.renewed h)) ∧
        Deals (bad.flatMap (p.ending p.factory.config.closeTimeout))
          ((((p.withQueue k.key rest).discard bad).reissued h).hold (p.renewed h)) q ∧
        q.get h.producer =
          { p.get h.producer with phase := .opened, lease := (p.get h.producer).lease + 1 } ∧
        q.factory.cache.queue k.key = rest ∧ q.connections = p.connections
  /-- Where all have failed, they are closed and one producer is built. -/
  renews : (∀ x ∈ p.factory.cache.queue k.key, (p.get x.producer).isSpoiled = true) →
    ∃ m id n,
      Deals ((p.factory.cache.queue k.key).flatMap (p.ending p.factory.config.closeTimeout))
        ((p.withQueue k.key []).discard (p.factory.cache.queue k.key)) m ∧
      p.factory.Names (.pooled k.key) (some id) n ∧
      (m.numbered n).Stocks E k.key id hold (p.createFor E scope)
  fresh : (∀ x ∈ p.factory.cache.queue k.key, (p.get x.producer).isSpoiled = true) →
    ∀ q h, p.createFor E scope = (q, .ok h) →
      h = ⟨p.producers.length, 0⟩ ∧ (q.get h.producer).phase = .opened ∧
      (q.get h.producer).lease = 0 ∧ (q.get h.producer).epoch = p.factory.epoch ∧
      q.factory.epoch = p.factory.epoch ∧ q.connections = p.connections + 1 ∧
      q.factory.cache.hasKey k.key = true ∧ q.factory.cache.queue k.key = []
  aside : p.Aside k.key (p.createFor E scope).1

/-- What a request returns that has built a producer for a queue. -/
theorem Stocks.fresh {id : String} (stocks : p.Stocks E key id hold (q, .ok h)) :
    h = ⟨p.producers.length, 0⟩ ∧
      ∃ clientId, q.get h.producer =
        { id := p.factory.nextId, conn := p.connections, transactionalId := some id,
          clientId := clientId, placement := .pooled key, epoch := p.factory.epoch, owned := true } ∧
      q.factory.epoch = p.factory.epoch ∧ q.connections = p.connections + 1 ∧
      q.factory.cache = p.factory.cache.ensure key := by
  cases stocks with
  | built clientId outside events _ tries reads deals =>
    refine ⟨rfl, clientId, ?_, by rw [deals.factory]; rfl, deals.connections, by rw [deals.factory]; rfl⟩
    rw [deals.get]
    simp [get, stocked, hold]

theorem Stocks.aside {id : String} {result : Pool σ Snapshot × Except PoolError Handle}
    (stocks : p.Stocks E key id hold result) : p.Aside key result.1 := by
  cases stocks with
  | failed error outside events tries => exact ⟨rfl, rfl, fun _ _ => rfl⟩
  | built clientId outside events q tries reads deals =>
    have stocked : p.Aside key ((p.stocked key id clientId).hold ⟨p.producers.length, 0⟩) :=
      ⟨rfl, rfl, fun k _ => Cache.queue_ensure key k p.factory.cache⟩
    exact stocked.deals deals

section Requests

variable (discreet : E.Discreet) (owned : 0 < p.owners) (standing : p.factory.destroyed = false)
  (known : p.factory.config.poolKey scope = .ok k)
  (waiting : p.Waiting k.key (p.factory.cache.queue k.key))
include discreet owned standing known waiting

theorem createFor_fresh (failed : ∀ x ∈ p.factory.cache.queue k.key, (p.get x.producer).isSpoiled = true)
    (yields : p.createFor E scope = (q, .ok h)) :
    h = ⟨p.producers.length, 0⟩ ∧ (q.get h.producer).phase = .opened ∧
      (q.get h.producer).lease = 0 ∧ (q.get h.producer).epoch = p.factory.epoch ∧
      q.factory.epoch = p.factory.epoch ∧ q.connections = p.connections + 1 ∧
      q.factory.cache.hasKey k.key = true ∧ q.factory.cache.queue k.key = [] := by
  obtain ⟨m, id, n, deals, -, stocks⟩ := createFor_renews discreet owned standing known waiting failed
  rw [yields] at stocks
  obtain ⟨same, clientId, new, epoch, connections, cache⟩ := stocks.fresh
  obtain ⟨outside, events, -, rfl⟩ := deals
  have count : ((p.withQueue k.key []).discard (p.factory.cache.queue k.key)).producers.length =
      p.producers.length :=
    discard_length _ _
  refine ⟨by rw [same, ← count]; rfl, by rw [new], by rw [new], by rw [new]; rfl, epoch,
    connections, ?_, ?_⟩
  · rw [cache]
    exact Cache.hasKey_ensure k.key _
  · rw [cache, Cache.queue_ensure]
    exact Cache.queue_setQueue_nil k.key p.factory.cache

/-- However the search of the queue ends, nothing else that the factory keeps is touched. -/
theorem createFor_aside : p.Aside k.key (p.createFor E scope).1 := by
  rcases p.search_cases (p.factory.cache.queue k.key) with failed | ⟨bad, h, rest, queued, failed, sound⟩
  · obtain ⟨m, id, n, deals, -, stocks⟩ := createFor_renews discreet owned standing known waiting failed
    have cleared := (Aside.discard [] _).deals deals
    have numbered : p.Aside k.key (m.numbered n) := ⟨cleared.shared, cleared.threads, cleared.queues⟩
    exact numbered.trans stocks.aside
  · obtain ⟨q, answer, deals⟩ :=
      createFor_reuses discreet owned standing known (queued ▸ waiting) failed sound
    have cleared : p.Aside k.key ((p.withQueue k.key rest).discard bad) := .discard rest bad
    have reissued : p.Aside k.key ((((p.withQueue k.key rest).discard bad).reissued h).hold
        (p.renewed h)) :=
      ⟨cleared.shared, cleared.threads, cleared.queues⟩
    rw [answer]
    exact reissued.deals deals

end Requests

end Pool

/-- The queues of a run, as a search of them finds them. -/
theorem Visited.waiting (visited : Visited config p) (key : String) :
    p.Waiting key (p.factory.cache.queue key) := by
  have slotted := visited.slotted
  have queued (x : Handle) (member : x ∈ p.factory.cache.queue key) :=
    slotted.queued key x (Cache.parked_of_queue member)
  refine ⟨rfl, visited.placed.queues, fun x member => (queued x member).1,
    fun x member => (queued x member).2.2, ?_⟩
  have once := slotted.once
  rw [Cache.items, List.map_flatMap, List.nodup_flatMap] at once
  rw [Cache.queue]
  cases found : p.factory.cache.queues.lookup key with
  | none => exact List.nodup_nil
  | some items => exact once.1 (key, items) (mem_of_lookup found)

theorem createFor_acquires (visited : Visited config p) (owned : 0 < p.owners)
    (standing : p.factory.destroyed = false) (known : p.factory.config.poolKey scope = .ok k)
    (discreet : E.Discreet) : p.Acquires E scope k := by
  have waiting := visited.waiting k.key
  refine ⟨fun bad h rest queued failed sound => ?_,
    Pool.createFor_renews discreet owned standing known waiting,
    fun failed q h => Pool.createFor_fresh discreet owned standing known waiting failed,
    Pool.createFor_aside discreet owned standing known waiting⟩
  have waits : p.Waiting k.key (bad ++ h :: rest) := queued ▸ waiting
  obtain ⟨q, answer, deals⟩ := Pool.createFor_reuses discreet owned standing known waits failed sound
  have present : p.factory.cache.hasKey k.key = true :=
    Cache.hasKey_of_queue (x := h) (by simp [queued])
  refine ⟨q, answer, deals, (deals.get _).trans waits.get_reissued, ?_, deals.connections⟩
  rw [deals.factory]
  show (p.factory.cache.setQueue k.key rest).queue k.key = rest
  rw [Cache.queue_setQueue _ _ _ _ present, if_pos rfl]

/-- Two producers wait in a queue when a delivery of the first one fails for good: the next request closes
the first and takes the second. -/
theorem createFor_acquires_after_fencing :
    let lost (p : Pool Unit Snapshot) :=
      p.deliver (fun _ _ p => p.look) ⟨0, 0⟩ (.error (.fenced "gone"))
    let p := (lost ((Pool.new { idPrefix := some "a" } ()).look.perform .quiet
      [.create 0, .create 0, .close ⟨0, 0⟩ none, .close ⟨1, 0⟩ none])).look
    Visited { idPrefix := some "a" } p ∧ 0 < p.owners ∧ p.factory.destroyed = false ∧
      p.factory.config.poolKey .empty = .ok ⟨"a", "a", false⟩ ∧
      (Environment.quiet : Environment Unit Snapshot).Discreet ∧
      p.Acquires .quiet .empty ⟨"a", "a", false⟩ ∧
      p.factory.cache.queue "a" = [⟨0, 0⟩, ⟨1, 0⟩] ∧
      ∃ q, p.createFor .quiet .empty = (q, .ok ⟨1, 1⟩) ∧ (q.get 0).phase = .disposed := by
  intro lost p
  have lawful : (Environment.quiet : Environment Unit Snapshot).Lawful := Environment.quiet_lawful
  have parked := (Reached.start { idPrefix := some "a" } ()).perform lawful
    [.create 0, .create 0, .close ⟨0, 0⟩ none, .close ⟨1, 0⟩ none] (by decide +kernel)
  have visited : Visited { idPrefix := some "a" } p :=
    (parked.act lawful (.deliver (fun _ _ p => p.look) ⟨0, 0⟩ (.error (.fenced "gone")))
      (by rintro f ⟨⟩ q; exact .done q.look) trivial).visited
  have owned : 0 < p.owners := by decide +kernel
  have standing : p.factory.destroyed = false := by decide +kernel
  have known : p.factory.config.poolKey .empty = .ok ⟨"a", "a", false⟩ := by
    rw [(Pool.Named.of_visited visited).configured]
    rfl
  have queue : p.factory.cache.queue "a" = [⟨0, 0⟩, ⟨1, 0⟩] := by decide +kernel
  have acquires := createFor_acquires visited owned standing known Environment.quiet_discreet
  refine ⟨visited, owned, standing, known, Environment.quiet_discreet, acquires, queue, ?_⟩
  obtain ⟨q, answer, deals, -⟩ := acquires.reuses [⟨0, 0⟩] ⟨1, 0⟩ [] queue (by decide +kernel)
    (by decide +kernel)
  have lease : p.renewed ⟨1, 0⟩ = ⟨1, 1⟩ := by decide +kernel
  refine ⟨q, by rw [answer, lease], ?_⟩
  rw [deals.get]
  decide +kernel

end ProducerPool
