import ProducerPool.Proofs.Flow.Use

/-!
# Handing out producers is a path

Building, the three policies, and the requests for a producer.
-/

set_option autoImplicit false

namespace ProducerPool.Pool

variable {σ : Type} {E : Environment σ Snapshot} {p q : Pool σ Snapshot}

/-! ## Building -/

/-- The events of an attempt to connect, the latest first, with its answer.  A connection that cannot be
initialised is closed again, and whether that succeeds does not matter to the answer. -/
inductive Trial {μ : Type} (conn : Nat) (placement : Placement) (properties : Properties)
    (timeout : Duration) : Option String → Reply → List (Event μ) → Prop
  | refused (transactionalId : Option String) (error : ClientError) :
      Trial conn placement properties timeout transactionalId (.error error)
        [.connected conn (.error error), .connecting conn placement properties]
  | bare :
      Trial conn placement properties timeout none (.ok ())
        [.connected conn (.ok ()), .connecting conn placement properties]
  | initialised (transactionalId : String) :
      Trial conn placement properties timeout (some transactionalId) (.ok ())
        [.replied conn .initTransactions (.ok ()), .called conn .initTransactions,
          .connected conn (.ok ()), .connecting conn placement properties]
  | uninitialised (transactionalId : String) (error : ClientError) (closing : List (Event μ))
      (closed : Closing conn closing) (called : .called conn (.close timeout) ∈ closing) :
      Trial conn placement properties timeout (some transactionalId) (.error error)
        (closing ++ [.replied conn .initTransactions (.error error), .called conn .initTransactions,
          .connected conn (.ok ()), .connecting conn placement properties])

theorem Trial.failing {conn : Nat} {placement : Placement} {properties : Properties}
    {timeout : Duration} {transactionalId : Option String} {error : ClientError}
    {events : List (Event Snapshot)}
    (trial : Trial conn placement properties timeout transactionalId (.error error) events) :
    Failing conn events := by
  cases trial with
  | refused => exact .refused placement properties error
  | uninitialised _ _ closing closed => exact .uninitialised placement properties error closing closed

theorem Trial.connecting {conn : Nat} {placement : Placement} {properties : Properties}
    {timeout : Duration} {transactionalId : Option String} {events : List (Event Snapshot)}
    (trial : Trial conn placement properties timeout transactionalId (.ok ()) events) :
    Connecting conn events := by
  cases trial with
  | bare => exact .bare placement properties
  | initialised => exact .initialised placement properties

/-- Connecting either comes about or fails, and writes down no more than that. -/
theorem establish_tries (E : Environment σ Snapshot) (placement : Placement) (id : Nat)
    (transactionalId : Option String) (p : Pool σ Snapshot) :
    ∃ answer outside events,
      Trial p.connections placement (connectionProperties p.factory.config id transactionalId)
        p.factory.config.closeTimeout transactionalId answer events ∧
      establish E placement id transactionalId p =
        ({ p with
           connections := p.connections + 1, outside := outside, journal := events ++ p.journal },
          answer.map fun _ => p.connections) := by
  generalize told : connectionProperties p.factory.config id transactionalId = properties
  rcases connected : E.connect p.connections properties p.outside with ⟨beyond, error | done⟩
  · refine ⟨.error error, beyond, _, .refused transactionalId error, ?_⟩
    simp only [establish, callConnect, record, told, connected]
    rfl
  rcases transactionalId with - | name
  · refine ⟨.ok (), beyond, _, .bare, ?_⟩
    simp only [establish, callConnect, record, told, connected]
    rfl
  rcases initialised : E.initTransactions p.connections beyond with ⟨outside, error | done⟩
  · rcases closed : E.close p.connections p.factory.config.closeTimeout outside with
      ⟨last, closeError | closeDone⟩
    · refine ⟨.error error, last, _, .uninitialised name error _
        (.failed p.factory.config.closeTimeout closeError (.closeAfterInitFailed closeError))
        (by simp), ?_⟩
      simp only [establish, callConnect, callInit, callClose, record, log, told, connected,
        initialised, closed]
      rfl
    · refine ⟨.error error, last, _, .uninitialised name error _
        (.closed p.factory.config.closeTimeout) (by simp), ?_⟩
      simp only [establish, callConnect, callInit, callClose, record, told, connected, initialised,
        closed]
      rfl
  · refine ⟨.ok (), outside, _, .initialised name, ?_⟩
    simp only [establish, callConnect, callInit, record, told, connected, initialised]
    rfl

/-- A build tries to connect.  It fails, or it opens a producer, whose client id is read from the metrics
of its connection. -/
theorem build_tries (E : Environment σ Snapshot) (placement : Placement)
    (transactionalId : Option String) (p : Pool σ Snapshot) :
    let tries := Trial (μ := Snapshot) p.connections placement
      (connectionProperties p.factory.config p.factory.nextId transactionalId)
      p.factory.config.closeTimeout transactionalId
    (∃ error outside events, tries (.error error) events ∧
      build E placement transactionalId p = (p.unbuilt outside events, .error error)) ∨
    ∃ clientId outside events, tries (.ok ()) events ∧
      clientId = (Metric.clientId? (E.metrics p.connections outside)).map (listenerId p.factory.config) ∧
        build E placement transactionalId p =
          (p.built placement transactionalId clientId outside events, .ok ⟨p.producers.length, 0⟩) := by
  obtain ⟨error | done, outside, events, trial, established⟩ :=
    establish_tries E placement p.factory.nextId transactionalId
      (p.onFactory fun f => { f with nextId := f.nextId + 1 })
  · refine Or.inl ⟨error, outside, events, trial, ?_⟩
    simp only [build, established]
    rfl
  · refine Or.inr ⟨_, outside, events, trial, rfl, ?_⟩
    simp only [build, established]
    rfl

/-- A build fails, or it opens a producer. -/
theorem build_cases (E : Environment σ Snapshot) (placement : Placement)
    (transactionalId : Option String) (p : Pool σ Snapshot) :
    (∃ error outside events, Failing p.connections events ∧
      build E placement transactionalId p = (p.unbuilt outside events, .error error)) ∨
    ∃ clientId outside events, Connecting p.connections events ∧
      clientId = (Metric.clientId? (E.metrics p.connections outside)).map (listenerId p.factory.config) ∧
        build E placement transactionalId p =
          (p.built placement transactionalId clientId outside events, .ok ⟨p.producers.length, 0⟩) := by
  rcases build_tries E placement transactionalId p with
    ⟨error, outside, events, trial, failed⟩ | ⟨clientId, outside, events, trial, reads, done⟩
  · exact Or.inl ⟨error, outside, events, trial.failing, failed⟩
  · exact Or.inr ⟨clientId, outside, events, trial.connecting, reads, done⟩

/-- `q` is `p` after a producer of this placement has been built, and `h` is its handle. -/
structure Built (p q : Pool σ Snapshot) (placement : Placement) (h : Handle) : Prop where
  step : Step p q
  leads : Leads p q (h ::ₘ p.pinned)
  handle : h = ⟨p.producers.length, 0⟩
  placed : (q.get h.producer).placement = placement
  leased : ∃ events, q.journal = .leased h :: (events ++ p.journal)

/-- A build under a new name, where the sequence has moved on to `n`. -/
theorem build_leads {placement : Placement} {transactionalId : Option String} {n : Nat}
    (E : Environment σ Snapshot) (names : p.factory.Names placement transactionalId n) :
    (∃ error q, build E placement transactionalId (p.numbered n) = (q, .error error) ∧
      Balanced p q) ∨
    ∃ q h, build E placement transactionalId (p.numbered n) = (q, .ok h) ∧
      Built p q placement h := by
  rcases build_cases E placement transactionalId (p.numbered n) with
    ⟨error, outside, events, failing, failed⟩ | ⟨clientId, outside, events, connecting, -, done⟩
  · refine Or.inl ⟨error, _, failed, ?_⟩
    exact .step (.fail p placement transactionalId n outside events names failing) rfl rfl
  · have step : Step p ((p.numbered n).built placement transactionalId clientId outside events) :=
      .build p placement transactionalId clientId n outside events names connecting
    refine Or.inr ⟨_, _, done, step, .step step rfl rfl, rfl, ?_, events, rfl⟩
    simp [get, built, numbered, onFactory]

/-- A new producer has the transactional id under which it is built. -/
theorem build_transactionalId {placement : Placement} {transactionalId : Option String} {h : Handle}
    (builds : build E placement transactionalId p = (q, .ok h)) :
    (q.get h.producer).transactionalId = transactionalId := by
  rcases build_cases E placement transactionalId p with
    ⟨error, outside, events, -, failed⟩ | ⟨clientId, outside, events, -, -, done⟩
  · rw [failed] at builds
    cases (Prod.mk.inj builds).2
  · rw [done] at builds
    obtain ⟨rfl, same⟩ := Prod.mk.inj builds
    obtain rfl := Except.ok.inj same
    simp [get, built]

/-! ## What a request fetches -/

/-- From `m` to `n` the lease of `h` begins, and the operation holds the handle from then on. -/
structure Lends (m n q : Pool σ Snapshot) (h : Handle) : Prop where
  step : Step m n
  leased : ∃ events, n.journal = .leased h :: (events ++ m.journal)
  kept : Above {h} n q

/-- Where the handle that a request fetches comes from; `q` is the pool in which it is fetched. -/
inductive Source (p q : Pool σ Snapshot) : Handle → Prop
  /-- From a producer built meanwhile. -/
  | fresh (m n : Pool σ Snapshot) (path : Path p m) (h : Handle)
      (new : m.producers.length ≤ h.producer) (lends : Lends m n q h) : Source p q h
  | parked (m : Pool σ Snapshot) (path : Path p m) (key : String) (old : Handle)
      (cache : Cache Handle) (found : m.factory.cache.pop? key = some (old, cache))
      (cached : (m.get old.producer).phase = .cached)
      (sound : (m.get old.producer).isSpoiled = false) (lent : q = m.reopened old cache) :
      Source p q (m.renewed old)
  | shared (m : Pool σ Snapshot) (path : Path p m) (h : Handle)
      (found : m.factory.shared = some h) (usable : m.isUsable h = true) (lent : q = m.pin h) :
      Source p q h
  | bound (m : Pool σ Snapshot) (path : Path p m) (t : ThreadId) (h : Handle)
      (found : m.factory.threads.lookup t = some h) (usable : m.isUsable h = true)
      (lent : q = m.pin h) : Source p q h

/-- A request either fails, or the operation holds one handle more. -/
inductive Fetches (p : Pool σ Snapshot) : Pool σ Snapshot × Except PoolError Handle → Prop
  | refused (q : Pool σ Snapshot) (error : PoolError) (balanced : Balanced p q) :
      Fetches p (q, .error error)
  | fetched (q : Pool σ Snapshot) (h : Handle) (leads : Leads p q (h ::ₘ p.pinned))
      (source : Source p q h) : Fetches p (q, .ok h)

theorem Source.after {h : Handle} (before : Path p q) {r : Pool σ Snapshot} (source : Source q r h) :
    Source p r h := by
  cases source with
  | fresh m n path _ new lends => exact .fresh m n (before.trans path) h new lends
  | parked m path key old cache found cached sound lent =>
    exact .parked m (before.trans path) key old cache found cached sound lent
  | shared m path _ found usable lent => exact .shared m (before.trans path) h found usable lent
  | bound m path t _ found usable lent => exact .bound m (before.trans path) t h found usable lent

theorem Fetches.after {result : Pool σ Snapshot × Except PoolError Handle} (before : Balanced p q)
    (fetches : Fetches q result) : Fetches p result := by
  cases fetches with
  | refused r error balanced => exact .refused r error (before.balanced balanced)
  | fetched r h leads source =>
    have whole := before.after leads
    rw [before.pinned] at whole
    exact .fetched r h whole (source.after before.path)

theorem Built.there {placement : Placement} {h : Handle} (new : Built p q placement h) :
    h ∈ q.pinned := by
  rw [new.leads.mem_pinned]
  exact Multiset.mem_cons_self h _

/-- The handle of a producer that has just been built is fetched, whatever runs before. -/
theorem Built.fetches {placement : Placement} {h : Handle} (new : Built p q placement h)
    {r : Pool σ Snapshot} (balanced : Balanced q r) : Fetches p (r, .ok h) := by
  have there : ({h} : Multiset Handle) ≤ q.pinned := Multiset.singleton_le.mpr new.there
  have first : p.producers.length ≤ h.producer := by rw [new.handle]
  exact .fetched r h (new.leads.balanced balanced) (.fresh p q .refl h first
    ⟨new.step, new.leased, balanced.above.mono (Multiset.le_inter there there)⟩)

/-! ## The shared producer -/

theorem renewShared_fetches (tame : E.Tame) (busy : 0 < p.running) : Fetches p (renewShared E p) := by
  have built := build_leads (p := p) E .shared
  rw [show p.numbered p.factory.sequence = p from rfl] at built
  unfold renewShared
  rcases built with ⟨error, q, failed, balanced⟩ | ⟨q, h, done, new⟩
  · rw [failed]
    exact .refused q _ balanced
  rw [done]
  have alive : q.alive = true := alive_of_running (by rw [new.leads.running]; exact busy)
  have shared := Step.share q h new.there new.placed alive
  dsimp only
  refine new.fetches (Leads.balanced ?placed (tellAll_balanced tame .added h _))
  cases stale : q.factory.shared with
  | none =>
    rw [stale] at shared
    exact .step shared rfl rfl
  | some s =>
    rw [stale] at shared
    have held : Leads q ((q.onFactory fun f => { f with shared := some h }).pin s)
        (s ::ₘ q.pinned) := .step shared rfl rfl
    exact unpin_of_cons tame (held.balanced (retire_balanced tame s _ _))

theorem obtainShared_fetches (tame : E.Tame) (busy : 0 < p.running) :
    Fetches p (obtainShared E p) := by
  unfold obtainShared
  cases found : p.factory.shared with
  | none => exact renewShared_fetches tame busy
  | some h =>
    dsimp only
    split
    case isTrue usable =>
      have there : h ∈ p.factory.handles := by simp [Factory.handles, found]
      exact .fetched _ h (pin_leads (mem_handles_of_factory there))
        (.shared p .refl h found usable rfl)
    case isFalse => exact renewShared_fetches tame busy

/-! ## Producers of threads -/

theorem bindThread_balanced (tame : E.Tame) {t : ThreadId} {h : Handle} (there : h ∈ p.pinned)
    (placed : (p.get h.producer).placement = .thread t) (alive : p.alive = true) :
    Balanced p (p.bindThread E t h) := by
  unfold bindThread
  cases found : p.factory.threads.lookup t with
  | none => exact .step (.seat p t h found there placed alive) rfl rfl
  | some old => exact settle_leads tame (.seat t h old found there placed alive)

theorem nameBound_names (t : ThreadId) (p : Pool σ Snapshot) :
    ∃ transactionalId n, p.nameBound = (p.numbered n, transactionalId) ∧
      p.factory.Names (.thread t) transactionalId n := by
  unfold nameBound
  cases drawn : p.factory.config.idPrefix with
  | none => exact ⟨none, p.factory.sequence, rfl, .bound t drawn⟩
  | some idPrefix => exact ⟨_, p.factory.sequence + 1, rfl, .boundDrawn t idPrefix drawn⟩

theorem renewBound_fetches (tame : E.Tame) (t : ThreadId) (busy : 0 < p.running) :
    Fetches p (renewBound E t p) := by
  obtain ⟨transactionalId, n, named, names⟩ := nameBound_names t p
  simp only [renewBound, named]
  rcases build_leads E names with ⟨error, q, failed, balanced⟩ | ⟨q, h, done, new⟩
  · rw [failed]
    exact .refused q _ balanced
  · rw [done]
    have alive : q.alive = true := alive_of_running (by rw [new.leads.running]; exact busy)
    have bound := bindThread_balanced tame new.there new.placed alive
    exact new.fetches (bound.balanced (tellAll_balanced tame .added h _))

theorem mem_handles_of_lookup {t : ThreadId} {h : Handle}
    (found : p.factory.threads.lookup t = some h) : h ∈ p.handles := by
  obtain ⟨before, after, split, -⟩ := List.lookup_eq_some_iff.mp found
  have seated : h ∈ p.factory.threads.map Prod.snd := by simp [split]
  refine mem_handles_of_factory ?_
  simp only [Factory.handles, List.mem_append]
  exact Or.inl (Or.inr seated)

/-- A request for a thread yields the thread's producer, checked out, or a new one. -/
theorem obtainBound_cases (tame : E.Tame) (t : ThreadId) (p : Pool σ Snapshot) :
    (∃ h, p.factory.threads.lookup t = some h ∧
      (p.modify h.producer fun q => { q with checkedOut := true }).isUsable h = true ∧
        obtainBound E t p =
          ((p.modify h.producer fun q => { q with checkedOut := true }).pin h, .ok h)) ∨
      ∃ q, Balanced p q ∧ obtainBound E t p = renewBound E t q := by
  unfold obtainBound
  cases found : p.factory.threads.lookup t with
  | none => exact Or.inr ⟨p, .refl p, rfl⟩
  | some h =>
    dsimp only
    generalize checks : p.modify h.producer (fun q => { q with checkedOut := true }) = m
    have checked : Balanced p m := by
      rw [← checks]
      exact .step (.check p h.producer true) rfl rfl
    have seated : m.factory.threads.lookup t = some h := by rw [← checks]; exact found
    split
    case isTrue usable => exact Or.inl ⟨h, rfl, checks ▸ usable, by rw [checks]⟩
    case isFalse =>
      have held : Leads p (m.pin h) (h ::ₘ p.pinned) := by
        have pinned := checked.after (pin_leads (mem_handles_of_lookup seated))
        rwa [checked.pinned] at pinned
      have unbound : Balanced (m.pin h) ((m.pin h).unbind t h.producer) :=
        letGo_balanced (.bound t h.producer) List.mem_cons_self rfl
      exact Or.inr ⟨_, unpin_of_cons tame ((held.balanced unbound).balanced
        (retire_balanced tame h (m.pin h).factory.config.closeTimeout _)), rfl⟩

theorem obtainBound_fetches (tame : E.Tame) (t : ThreadId) (busy : 0 < p.running) :
    Fetches p (obtainBound E t p) := by
  rcases obtainBound_cases tame t p with ⟨h, found, usable, yields⟩ | ⟨q, cleared, renews⟩
  · rw [yields]
    generalize checks : p.modify h.producer (fun q => { q with checkedOut := true }) = m at usable
    have checked : Balanced p m := by
      rw [← checks]
      exact .step (.check p h.producer true) rfl rfl
    have seated : m.factory.threads.lookup t = some h := by rw [← checks]; exact found
    have pinned := checked.after (pin_leads (mem_handles_of_lookup seated))
    rw [checked.pinned] at pinned
    exact .fetched _ h pinned (.bound m checked.path t h seated usable rfl)
  · rw [renews]
    exact (renewBound_fetches tame t (by rw [cleared.running]; exact busy)).after cleared

/-! ## Pooled producers -/

/-- From `p` on, a search of the queue of `key` has opened a parked producer again. -/
inductive Reopens (p : Pool σ Snapshot) (key : String) : Pool σ Snapshot → Handle → Prop
  | found (m : Pool σ Snapshot) (path : Path p m) (old : Handle) (cache : Cache Handle)
      (found : m.factory.cache.pop? key = some (old, cache))
      (cached : (m.get old.producer).phase = .cached)
      (sound : (m.get old.producer).isSpoiled = false) :
      Reopens p key (m.reopened old cache) (m.renewed old)

theorem Reopens.after {key : String} {h : Handle} (before : Path p q) {r : Pool σ Snapshot}
    (reopens : Reopens q key r h) : Reopens p key r h := by
  cases reopens with
  | found m path old cache found cached sound =>
    exact .found m (before.trans path) old cache found cached sound

theorem Reopens.source {key : String} {h : Handle} (reopens : Reopens p key q h) : Source p q h := by
  cases reopens with
  | found m path old cache found cached sound =>
    exact .parked m path key old cache found cached sound rfl

/-- One turn of a search: the queue is empty, or its first producer is opened again, or that one is
disposed of and the search goes on. -/
theorem takeParked_turn (E : Environment σ Snapshot) (key : String) (epoch fuel : Nat)
    (p : Pool σ Snapshot) :
    takeParked E key epoch (fuel + 1) p = (p, none) ∨
      ∃ h cache, p.factory.cache.pop? key = some (h, cache) ∧
        ((p.get h.producer).phase = .cached ∧ (p.get h.producer).isSpoiled = false ∧
            takeParked E key epoch (fuel + 1) p = (p.reopened h cache, some (p.renewed h)) ∨
          takeParked E key epoch (fuel + 1) p =
            takeParked E key epoch fuel
              ((((p.onFactory fun f => { f with cache := cache }).pin h).retire E h
                p.factory.config.closeTimeout).unpin E h)) := by
  cases found : p.factory.cache.pop? key with
  | none =>
    refine Or.inl ?_
    simp only [takeParked, found]
  | some taken =>
    obtain ⟨h, cache⟩ := taken
    refine Or.inr ⟨h, cache, rfl, ?_⟩
    by_cases fits : p.isReusable epoch h = true ∧ (p.get h.producer).phase = .cached
    case pos =>
      obtain ⟨reusable, cached⟩ := fits
      have sound : (p.get h.producer).isSpoiled = false := by
        simp only [isReusable, Bool.and_eq_true, Bool.not_eq_true'] at reusable
        exact reusable.2
      have taken : (p.onFactory fun f => { f with cache := cache }).isReusable epoch h = true :=
        reusable
      have parked : ((p.onFactory fun f => { f with cache := cache }).get h.producer).phase =
          .cached := cached
      refine Or.inl ⟨cached, sound, ?_⟩
      simp only [takeParked, found, taken, if_true, reopen?, parked]
      rfl
    case neg =>
      refine Or.inr ?_
      generalize popped : p.onFactory (fun f => { f with cache := cache }) = m
      have unfit : (if m.isReusable epoch h then m.reopen? h else none) = none := by
        rw [← popped]
        by_cases reusable : p.isReusable epoch h = true
        · have unparked : (p.get h.producer).phase ≠ .cached :=
            fun cached => fits ⟨reusable, cached⟩
          simp [reopen?, onFactory, get] at unparked ⊢
          simp [unparked]
        · exact if_neg reusable
      simp only [takeParked, found, popped, unfit]
      rw [← popped]
      rfl

/-- A search of a queue finds a parked producer, or the operation holds what it held before. -/
theorem takeParked_cases (tame : E.Tame) (key : String) (epoch fuel : Nat) (p : Pool σ Snapshot) :
    (∃ q, takeParked E key epoch fuel p = (q, none) ∧ Balanced p q) ∨
      ∃ q h, takeParked E key epoch fuel p = (q, some h) ∧
        Leads p q (h ::ₘ p.pinned) ∧ Reopens p key q h := by
  induction fuel generalizing p with
  | zero => exact Or.inl ⟨p, rfl, .refl p⟩
  | succ fuel ih =>
    rcases takeParked_turn E key epoch fuel p with
      empty | ⟨h, cache, found, ⟨cached, sound, fits⟩ | passedOver⟩
    · exact Or.inl ⟨p, empty, .refl p⟩
    · exact Or.inr ⟨_, _, fits, .step (.reopen p key h cache found cached sound) rfl rfl,
        .found p .refl h cache found cached sound⟩
    · rw [passedOver]
      have given : Leads p ((p.onFactory fun f => { f with cache := cache }).pin h)
          (h ::ₘ p.pinned) := .step (.giveUp p [h] _ (.popped key h cache found)) rfl rfl
      have disposed := unpin_of_cons tame (given.balanced
        (retire_balanced tame h p.factory.config.closeTimeout _))
      rcases ih _ with ⟨q, none, balanced⟩ | ⟨q, other, some, leads, reopens⟩
      · exact Or.inl ⟨q, none, disposed.balanced balanced⟩
      · have whole := disposed.after leads
        rw [disposed.pinned] at whole
        exact Or.inr ⟨q, other, some, whole, reopens.after disposed.path⟩

theorem namePooled_names {scope : TransactionScope} {k : Config.PoolKey} (p : Pool σ Snapshot)
    (known : p.factory.config.poolKey scope = .ok k) :
    ∃ transactionalId n, p.namePooled k = (p.numbered n, transactionalId) ∧
      p.factory.Names (.pooled k.key) (some transactionalId) n := by
  unfold namePooled
  obtain ⟨-, ⟨suffix, -, on, partitioned, -⟩ | ⟨-, plain, same⟩⟩ := Config.poolKey_cases known
  · rw [if_pos partitioned]
    exact ⟨k.key, p.factory.sequence, rfl, .keyed k.key on⟩
  · rw [if_neg (Bool.eq_false_iff.mp plain), same]
    exact ⟨_, p.factory.sequence + 1, rfl, .drawn k.idPrefix⟩

theorem renewPooled_fetches (tame : E.Tame) {scope : TransactionScope} {k : Config.PoolKey}
    (known : p.factory.config.poolKey scope = .ok k) : Fetches p (renewPooled E k p) := by
  obtain ⟨transactionalId, n, named, names⟩ := namePooled_names p known
  simp only [renewPooled, named]
  rcases build_leads E names with ⟨error, q, failed, balanced⟩ | ⟨q, h, done, new⟩
  · rw [failed]
    exact .refused q _ balanced
  · rw [done]
    have ensured : Balanced q (q.onFactory fun f => { f with cache := f.cache.ensure k.key }) :=
      .step (.ensure q k.key) rfl rfl
    exact new.fetches (ensured.balanced (tellAll_balanced tame .added h _))

theorem obtainPooled_fetches (tame : E.Tame) (scope : TransactionScope) :
    Fetches p (obtainPooled E scope p) := by
  unfold obtainPooled
  split
  · exact .refused p _ (.refl p)
  · rename_i k known
    rcases takeParked_cases tame k.key p.factory.epoch (p.parkedBound E k.key) p with
      ⟨q, none, balanced⟩ | ⟨q, h, some, leads, reopens⟩
    · rw [none]
      rw [← (Later.of_path balanced.path).config] at known
      exact (renewPooled_fetches tame known).after balanced
    · rw [some]
      exact .fetched q h leads reopens.source

/-- A pooled request opens a producer of its queue again, or it builds one, in `m`, under the name that
is due then. -/
inductive Pools (p : Pool σ Snapshot) (k : Config.PoolKey) (q : Pool σ Snapshot) (h : Handle) : Prop
  | again (reopens : Reopens p k.key q h)
  | fresh (m b : Pool σ Snapshot) (before : Path p m) (new : Built m b (.pooled k.key) h)
      (named : (b.get h.producer).transactionalId = some (m.namePooled k).2) (after : Path b q)

theorem obtainPooled_pools (tame : E.Tame) {scope : TransactionScope} {h : Handle}
    (yields : obtainPooled E scope p = (q, .ok h)) :
    ∃ k, p.factory.config.poolKey scope = .ok k ∧ Pools p k q h := by
  unfold obtainPooled at yields
  split at yields
  · cases (Prod.mk.inj yields).2
  rename_i k known
  refine ⟨k, known, ?_⟩
  rcases takeParked_cases tame k.key p.factory.epoch (p.parkedBound E k.key) p with
    ⟨m, none, balanced⟩ | ⟨m, x, some, leads, reopens⟩
  · rw [none] at yields
    rw [← (Later.of_path balanced.path).config] at known
    obtain ⟨transactionalId, n, named, names⟩ := namePooled_names m known
    simp only [renewPooled, named] at yields
    rcases build_leads E names with ⟨error, b, failed, -⟩ | ⟨b, x, done, new⟩
    · rw [failed] at yields
      cases (Prod.mk.inj yields).2
    · rw [done] at yields
      obtain ⟨rfl, same⟩ := Prod.mk.inj yields
      obtain rfl : x = h := Except.ok.inj same
      have ensured : Balanced b (b.onFactory fun f => { f with cache := f.cache.ensure k.key }) :=
        .step (.ensure b k.key) rfl rfl
      exact .fresh m b balanced.path new (by rw [build_transactionalId done, named])
        (ensured.balanced (tellAll_balanced tame .added x _)).path
  · rw [some] at yields
    obtain ⟨rfl, same⟩ := Prod.mk.inj yields
    obtain rfl : x = h := Except.ok.inj same
    exact .again reopens

/-! ## Requests -/

theorem obtain_fetches (tame : E.Tame) (t : ThreadId) (busy : 0 < p.running) :
    Fetches p (p.obtain E t) := by
  unfold obtain
  split
  · exact .refused p _ (.refl p)
  · split
    · exact obtainBound_fetches tame t busy
    · split
      · exact obtainPooled_fetches tame .empty
      · exact obtainShared_fetches tame busy

theorem obtainFor_fetches (tame : E.Tame) (scope : TransactionScope) :
    Fetches p (p.obtainFor E scope) := by
  unfold obtainFor
  split
  · exact .refused p _ (.refl p)
  · exact obtainPooled_fetches tame scope

theorem obtainFor_pools (tame : E.Tame) {scope : TransactionScope} {h : Handle}
    (yields : p.obtainFor E scope = (q, .ok h)) :
    ∃ k, p.factory.config.poolKey scope = .ok k ∧ Pools p k q h := by
  unfold obtainFor at yields
  split at yields
  · cases (Prod.mk.inj yields).2
  · exact obtainPooled_pools tame yields

theorem handOverResult_balanced {result : Pool σ Snapshot × Except PoolError Handle}
    (fetches : Fetches p result) : Balanced p (handOverResult result).1 := by
  cases fetches with
  | refused q error balanced => exact balanced
  | fetched q h leads =>
    have there : h ∈ q.pinned := (leads.mem_pinned h).mpr (Multiset.mem_cons_self h _)
    have given : Leads q (q.handOver h) ((q.pinned : Multiset Handle).erase h) :=
      .step (.handOver q h there) (by rw [Multiset.coe_erase]; rfl) rfl
    rw [leads.pinned, Multiset.erase_cons_head] at given
    exact leads.trans given (Multiset.inter_le_right.trans (Multiset.le_cons_self _ h))

theorem create_balanced (tame : E.Tame) (t : ThreadId) (alive : p.alive = true) :
    Balanced p (p.create E t).1 :=
  withFactory_balanced alive (handOverResult_balanced (obtain_fetches tame t (Nat.succ_pos _)))

theorem createFor_balanced (tame : E.Tame) (scope : TransactionScope) (alive : p.alive = true) :
    Balanced p (p.createFor E scope).1 :=
  withFactory_balanced alive (handOverResult_balanced (obtainFor_fetches tame scope))

end ProducerPool.Pool
