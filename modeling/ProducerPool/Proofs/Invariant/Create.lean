import ProducerPool.Proofs.Invariant.Use

/-!
# Handing out producers keeps invariants

Building, the three policies, and the requests for a producer.
-/

set_option autoImplicit false

namespace ProducerPool

variable {σ : Type} {E : Environment σ Snapshot} {I : Invariant σ} {p q m : Pool σ Snapshot}
  {due left : List Duty} {h : Handle} {r : Ref} {n : Nat}

namespace Pool

/-- Nothing more happens to a producer that is closed when a handle to it goes. -/
theorem unpin_factory (disposed : (p.get h.producer).phase = .disposed) :
    (p.unpin E h).factory = p.factory := by
  have kept : ({ p with pinned := p.pinned.erase h } : Pool σ Snapshot).isLost h.producer = false := by
    have same : ({ p with pinned := p.pinned.erase h } : Pool σ Snapshot).get h.producer =
      p.get h.producer := rfl
    simp [isLost, same, disposed]
  simp [unpin, settle, kept]

theorem Placed.lookup_unbind {t : ThreadId} (placed : p.Placed)
    (seated : p.factory.threads.lookup t = some h) :
    (p.unbind t h.producer).factory.threads.lookup t = none := by
  rw [List.lookup_eq_none_iff]
  rintro ⟨u, x⟩ member
  obtain ⟨before, other⟩ := List.mem_filter.mp member
  rw [bne_iff_ne]
  rintro rfl
  rw [lookup_of_mem placed.seats before] at seated
  obtain rfl := Option.some.inj seated
  simp at other

/-- A handle takes the seat of a thread; one that loses it is held until it is let go of. -/
theorem seat_path {t : ThreadId} (there : h ∈ p.pinned)
    (placed : (p.get h.producer).placement = .thread t) (alive : p.alive = true) :
    Path p { p.seat t h with pinned := (p.factory.threads.lookup t).toList ++ p.pinned } := by
  cases found : p.factory.threads.lookup t with
  | none => exact .single (.seat p t h found there placed alive)
  | some old =>
    have displaced : Step (p.pin old) { p.seat t h with pinned := old :: p.pinned } :=
      .kept (p.pin old) old.producer _ (.seat t h old found (List.mem_cons_of_mem _ there) placed alive)
        (isLost_of_pinned (h := old) List.mem_cons_self)
    exact .head (.pin p old (mem_handles_of_lookup found)) (.single displaced)

/-! ## Building -/

/-- The new producer is open, and nothing else has changed. -/
structure Opens (p q : Pool σ Snapshot) (h : Handle) : Prop where
  stays : p.Stays none q
  length : q.producers.length = p.producers.length + 1
  opened : (q.get h.producer).phase = .opened
  out : p.StaysOut q
  unseen : p.Unseen q

/-- A build under a new name fails, or opens a producer. -/
theorem build_opens {placement : Placement} {transactionalId : Option String}
    (E : Environment σ Snapshot) (names : p.factory.Names placement transactionalId n) :
    (∃ error q, build E placement transactionalId (p.numbered n) = (q, .error error) ∧
      Step p q ∧ p.Stays none q ∧ q.producers = p.producers) ∨
    ∃ q h, build E placement transactionalId (p.numbered n) = (q, .ok h) ∧
      Built p q placement h ∧ p.Opens q h := by
  rcases build_cases E placement transactionalId (p.numbered n) with
    ⟨error, outside, events, failing, failed⟩ | ⟨clientId, outside, events, connecting, -, done⟩
  · refine Or.inl ⟨error, _, failed, ?_, ?_, rfl⟩
    · exact .fail p placement transactionalId n outside events names failing
    · exact ⟨id, ⟨rfl, rfl, rfl, rfl⟩, tellings_of_append failing.untold rfl, .refl _⟩
  · have step : Step p ((p.numbered n).built placement transactionalId clientId outside events) :=
      .build p placement transactionalId clientId n outside events names connecting
    refine Or.inr ⟨_, _, done, ⟨step, .step step rfl rfl, rfl, ?_, events, rfl⟩, ?_, ?_, ?_, ?_, ?_⟩
    · simp [get, built, numbered, onFactory]
    · refine ⟨id, ⟨rfl, rfl, rfl, rfl⟩, ?_, (Steady.refl _).append _ (by simp)⟩
      have untold : (.leased ⟨p.producers.length, 0⟩ :: events).filterMap Event.telling? = [] :=
        connecting.untold
      exact tellings_of_append untold rfl
    · simp [built, numbered, onFactory]
    · simp [get, built, numbered, onFactory]
    · exact (StaysOut.of_producers rfl).append (m := p) rfl rfl
    · refine ⟨.leased ⟨p.producers.length, 0⟩ :: events, ?_, rfl⟩
      intro e member
      rcases List.mem_cons.mp member with rfl | opens
      · rfl
      · exact connecting.unmarked e opens

end Pool

/-- A producer is built and takes its place, which is not that of another shared one, and listeners have
yet to be told. -/
theorem Invariant.build {placement : Placement} (holds : I.holds due p)
    (new : Pool.Built p q placement h) (opens : p.Opens q h) (seats : Pool.Seats I.binds h q m)
    (path : Path q m) (vacant : placement = .shared → q.factory.shared = none) :
    I.holds (.announce .added h :: due) m :=
  I.move holds (.build due p q m h new.step opens.stays new.handle opens.length opens.opened
    opens.unseen seats path (fun shared => vacant (new.placed.symm.trans shared)) opens.out)

theorem Invariant.handOverResult {result : Pool σ Snapshot × Except PoolError Handle}
    (fetches : Pool.Fetches p result) (holds : I.holds due result.1) :
    I.holds due (Pool.handOverResult result).1 := by
  cases fetches with
  | refused q error balanced => exact holds
  | fetched q h leads =>
    have there : h ∈ q.pinned := (leads.mem_pinned h).mpr (Multiset.mem_cons_self h _)
    exact I.rest holds (.handOver q h there) (.of_factory rfl rfl rfl id) rfl

/-- A thread may be given a producer where it has none, and where its unusable one has just been disposed
of. -/
structure Environment.Binds (E : Environment σ Snapshot) (I : Invariant σ) (t : ThreadId) : Prop where
  vacant : I.binds t none
  renewed : ∀ (due : List Duty) (p : Pool σ Snapshot) (h : Handle) (timeout : Duration),
    I.holds (.close h.producer :: due) p → p.factory.threads.lookup t = none →
      I.binds t ((p.retire E h timeout).factory.threads.lookup t)

namespace Environment.Upholds

variable (up : E.Upholds I)
include up

/-! ## The shared producer -/

theorem renewShared (holds : I.holds due p) (busy : 0 < p.running) :
    I.holds due (Pool.renewShared E p).1 := by
  have built := Pool.build_opens (p := p) E .shared
  rw [show p.numbered p.factory.sequence = p from rfl] at built
  unfold Pool.renewShared
  rcases built with ⟨error, q, failed, step, stays, producers⟩ | ⟨q, h, done, new, opens⟩
  · rw [failed]
    exact I.rest holds step stays producers
  rw [done]
  have alive : q.alive = true := Pool.alive_of_running (by rw [new.leads.running]; exact busy)
  have seats : Pool.Seats I.binds h q _ := .shared q new.placed
  have path : Path q _ := .single (.share q h new.there new.placed alive)
  dsimp only
  refine (up.hears .added).tellAll ?_
  cases stale : q.factory.shared with
  | none =>
    rw [stale] at seats path
    exact I.build holds new opens seats path fun _ => stale
  | some s =>
    rw [stale] at seats path
    -- The producer that was shared before loses its place and is closed at once.
    have exposes : Exposes I.parks I.binds due p (.announce .added h :: due) _ s.producer :=
      .build due p q _ s new.step opens.stays new.handle opens.length opens.opened opens.unseen seats
        path stale opens.out
    refine up.unpin ((up.hears .removed).retireExposed holds exposes _ (.apart _ ?_)) s
    -- It is not the new one, which is the last.
    have before : p.factory.shared = some s := opens.stays.places.shared.symm.trans stale
    have inside := (I.regular holds).ordered.genuine.inside
      (Pool.mem_handles_of_factory (Factory.mem_handles.mpr (Or.inl before)))
    have placed := ((I.regular holds).path exposes.moves.path).ordered.placed
    have placed' : (q.get s.producer).placement = .shared := by
      rw [((Later.of_step new.step).get inside).placement]
      exact (I.regular holds).ordered.placed.shared s before
    refine placed.apart_of_shared placed' fun x found same => ?_
    obtain rfl : h = x := Option.some.inj found
    rw [new.handle] at same
    exact absurd same (Nat.ne_of_gt inside)

theorem obtainShared (holds : I.holds due p) (busy : 0 < p.running) :
    I.holds due (Pool.obtainShared E p).1 := by
  unfold Pool.obtainShared
  cases found : p.factory.shared with
  | none => exact up.renewShared holds busy
  | some h =>
    dsimp only
    split
    case isTrue =>
      exact I.pin holds (Pool.mem_handles_of_factory (Factory.mem_handles.mpr (Or.inl found)))
    case isFalse => exact up.renewShared holds busy

/-! ## Producers of threads -/

/-- A handle that loses its seat is let go of. -/
theorem unseatOld {t : ThreadId} (seated : I.holds due { q.seat t h with
    pinned := (q.factory.threads.lookup t).toList ++ q.pinned }) : I.holds due (q.bindThread E t h) := by
  unfold Pool.bindThread
  cases found : q.factory.threads.lookup t with
  | none =>
    rw [found] at seated
    exact seated
  | some old =>
    rw [found] at seated
    have released := up.unpin seated old
    simp only [Pool.unpin, Option.toList_some, List.singleton_append, List.erase_cons_head] at released
    exact released

theorem bindThread {t : ThreadId} (holds : I.holds due p) (new : Pool.Built p q (.thread t) h)
    (opens : p.Opens q h) (alive : q.alive = true) (may : I.binds t (p.factory.threads.lookup t)) :
    I.holds (.announce .added h :: due) (q.bindThread E t h) := by
  rw [← opens.stays.places.threads] at may
  exact up.unseatOld (I.build holds new opens (.bound q t new.placed alive may)
    (Pool.seat_path new.there new.placed alive) fun shared => by cases shared)

theorem renewBound (holds : I.holds due p) (t : ThreadId) (busy : 0 < p.running)
    (may : I.binds t (p.factory.threads.lookup t)) : I.holds due (Pool.renewBound E t p).1 := by
  obtain ⟨transactionalId, n, named, names⟩ := Pool.nameBound_names t p
  simp only [Pool.renewBound, named]
  rcases Pool.build_opens E names with ⟨error, q, failed, step, stays, producers⟩ | ⟨q, h, done, new, opens⟩
  · rw [failed]
    exact I.rest holds step stays producers
  · rw [done]
    have alive : q.alive = true := Pool.alive_of_running (by rw [new.leads.running]; exact busy)
    exact (up.hears .added).tellAll (up.bindThread holds new opens alive may)

theorem obtainBound (holds : I.holds due p) (t : ThreadId) (busy : 0 < p.running)
    (binds : E.Binds I t) : I.holds due (Pool.obtainBound E t p).1 := by
  unfold Pool.obtainBound
  cases found : p.factory.threads.lookup t with
  | none => exact up.renewBound holds t busy (by rw [found]; exact binds.vacant)
  | some h =>
    dsimp only
    generalize checks : p.modify h.producer (fun q => { q with checkedOut := true }) = m
    have checked : I.holds due m := by
      rw [← checks]
      exact I.still holds (.check p h.producer true)
        (.modify p _ _ (fun _ => rfl) (fun _ => rfl) fun _ => rfl) (Pool.length_modify ..)
        (.modify (r := h.producer) rfl fun _ back => by cases back)
    have seated : m.factory.threads.lookup t = some h := by rw [← checks]; exact found
    have running : m.running = p.running := by rw [← checks]; rfl
    have held := I.pin checked (Pool.mem_handles_of_lookup seated)
    split
    case isTrue => exact held
    case isFalse =>
      generalize timeout : (m.pin h).factory.config.closeTimeout = limit
      have placed := (I.regular held).ordered.placed
      have bound := placed.bound t h (mem_of_lookup seated)
      have inside := (I.regular held).ordered.genuine.inside
        (Pool.mem_handles_of_pinned List.mem_cons_self)
      have vacated : I.holds (.close h.producer :: due) ((m.pin h).unbind t h.producer) :=
        I.move held (.unbind due _ h.producer inside t bound (.kept _ h.producer _
          (.bound t h.producer) (Pool.isLost_of_pinned List.mem_cons_self)))
      have retired := up.retire vacated h limit (.due due)
      have kept := Pool.retire_balanced up.tame h limit ((m.pin h).unbind t h.producer)
      have disposed := Pool.retire_disposed (p := (m.pin h).unbind t h.producer) up.tame limit inside
      refine up.renewBound (up.unpin retired h) t ?_ ?_
      · rw [(Pool.unpin_leads up.tame h _).running, kept.running]
        show 0 < m.running
        rw [running]
        exact busy
      · rw [Pool.unpin_factory disposed]
        exact binds.renewed due _ h limit vacated (placed.lookup_unbind seated)

/-! ## Pooled producers -/

theorem takeParked (key : String) (epoch fuel : Nat) (holds : I.holds due p) :
    I.holds due (Pool.takeParked E key epoch fuel p).1 := by
  induction fuel generalizing p with
  | zero => exact holds
  | succ fuel ih =>
    rcases Pool.takeParked_turn E key epoch fuel p with
      empty | ⟨h, cache, found, ⟨cached, sound, fits⟩ | passedOver⟩
    · rw [empty]
      exact holds
    · rw [fits]
      exact I.move holds (.reopen due p key h cache found cached sound)
    · rw [passedOver]
      have given : I.holds (.close h.producer :: due)
          ((p.onFactory fun f => { f with cache := cache }).pin h) :=
        I.move holds (.giveUp due p [h] _ (.popped key h cache found) rfl)
      exact ih (up.unpin (up.retire given h _ (.due due)) h)

theorem renewPooled {scope : TransactionScope} {k : Config.PoolKey}
    (known : p.factory.config.poolKey scope = .ok k) (holds : I.holds due p) :
    I.holds due (Pool.renewPooled E k p).1 := by
  obtain ⟨transactionalId, n, named, names⟩ := Pool.namePooled_names p known
  simp only [Pool.renewPooled, named]
  rcases Pool.build_opens E names with ⟨error, q, failed, step, stays, producers⟩ | ⟨q, h, done, new, opens⟩
  · rw [failed]
    exact I.rest holds step stays producers
  · rw [done]
    have built := I.build holds new opens (.pooled q k.key new.placed) .refl fun shared => by cases shared
    refine (up.hears .added).tellAll (I.rest built (.ensure q k.key) ?_ rfl)
    exact ⟨id, ⟨rfl, rfl, Cache.items_ensure, rfl⟩, rfl, .refl _⟩

theorem obtainPooled (holds : I.holds due p) (scope : TransactionScope) :
    I.holds due (Pool.obtainPooled E scope p).1 := by
  unfold Pool.obtainPooled
  split
  · exact holds
  · rename_i k known
    have searched := up.takeParked k.key p.factory.epoch (p.parkedBound E k.key) holds
    rcases Pool.takeParked_cases up.tame k.key p.factory.epoch (p.parkedBound E k.key) p with
      ⟨q, none, balanced⟩ | ⟨q, h, some, -, -⟩
    · rw [none] at searched ⊢
      rw [← (Later.of_path balanced.path).config] at known
      exact up.renewPooled known searched
    · rw [some] at searched ⊢
      exact searched

/-! ## Requests -/

theorem obtain (holds : I.holds due p) (t : ThreadId) (busy : 0 < p.running)
    (binds : E.Binds I t) : I.holds due (p.obtain E t).1 := by
  unfold Pool.obtain
  split
  · exact holds
  · split
    · exact up.obtainBound holds t busy binds
    · split
      · exact up.obtainPooled holds .empty
      · exact up.obtainShared holds busy

theorem obtainFor (holds : I.holds due p) (scope : TransactionScope) :
    I.holds due (p.obtainFor E scope).1 := by
  unfold Pool.obtainFor
  split
  · exact holds
  · exact up.obtainPooled holds scope

theorem create (holds : I.holds due p) (t : ThreadId) (alive : p.alive = true)
    (binds : E.Binds I t) : I.holds due (p.create E t).1 := by
  have fetches := Pool.obtain_fetches (p := { p with running := p.running + 1 }) up.tame t
    (Nat.succ_pos _)
  exact I.withFactory E holds alive (Pool.handOverResult_balanced fetches) fun holds =>
    I.handOverResult fetches (up.obtain holds t (Nat.succ_pos _) binds)

theorem createFor (holds : I.holds due p) (scope : TransactionScope) (alive : p.alive = true) :
    I.holds due (p.createFor E scope).1 := by
  have fetches := Pool.obtainFor_fetches (p := { p with running := p.running + 1 }) up.tame scope
  exact I.withFactory E holds alive (Pool.handOverResult_balanced fetches) fun holds =>
    I.handOverResult fetches (up.obtainFor holds scope)

end Environment.Upholds

end ProducerPool
