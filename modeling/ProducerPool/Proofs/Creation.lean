import ProducerPool.Proofs.Acquisition

/-!
# Requests that build nothing

A request that cannot connect, or cannot initialise what it has connected to, leaves no producer behind: it
has used up an id and perhaps a number of the sequence, and it has disposed of what its own place held that
could not be used any more.  Every other place is as before.
-/

set_option autoImplicit false

namespace ProducerPool

/-- Where the producers belong that a thread is given. -/
def Config.placement (t : ThreadId) (c : Config) : Placement :=
  if c.perThread then .thread t
  else match c.idPrefix with
    | some idPrefix => .pooled idPrefix
    | none => .shared

/-- Where the producers belong that are given out for a scope, if there are any. -/
def Config.placementFor (scope : TransactionScope) (c : Config) : Option Placement :=
  (c.poolKey scope).toOption.map fun k => .pooled k.key

variable {σ : Type} {E : Environment σ Snapshot} {p q m v : Pool σ Snapshot} {h x : Handle}
  {hs : List Handle} {t : ThreadId} {key : String} {config : Config} {scope : TransactionScope}
  {k : Config.PoolKey} {placement : Placement} {error : PoolError}

namespace Pool

/-! ## What a request gives up -/

/-- `p.Clears placement hs v`: before a producer of this placement is built, the places of `p` have given
up the handles `hs`, which nobody can use any more. -/
inductive Clears (p : Pool σ Snapshot) : Placement → List Handle → Pool σ Snapshot → Prop
  /-- The shared producer keeps its place until another one is there to take it. -/
  | shared : p.Clears .shared [] p
  | vacant (t : ThreadId) (free : p.factory.threads.lookup t = none) : p.Clears (.thread t) [] p
  | stale (t : ThreadId) (h : Handle) (found : p.factory.threads.lookup t = some h)
      (unusable : p.isUsable h = false) :
      p.Clears (.thread t) [h]
        ((p.modify h.producer fun x => { x with checkedOut := true }).unbind t h.producer)
  | failed (key : String)
      (failed : ∀ x ∈ p.factory.cache.queue key, (p.get x.producer).isSpoiled = true) :
      p.Clears (.pooled key) (p.factory.cache.queue key) (p.withQueue key [])

/-- The pool `q` is `p` after a request that could not build a producer of this placement, for which the
producers of `hs` were closed. -/
def Abandons (placement : Placement) (hs : List Handle) (error : ClientError)
    (p q : Pool σ Snapshot) : Prop :=
  ∃ v m id n outside events, p.Clears placement hs v ∧
    Deals (hs.flatMap (v.ending p.factory.config.closeTimeout)) (v.discard hs) m ∧
    p.factory.Names placement id n ∧ p.Tries placement id (.error error) events ∧
    q = (m.numbered n).unbuilt outside events

theorem Clears.same (clears : p.Clears placement hs v) :
    v.factory.config = p.factory.config ∧ v.factory.sequence = p.factory.sequence ∧
      v.factory.nextId = p.factory.nextId ∧ v.connections = p.connections := by
  cases clears <;> exact ⟨rfl, rfl, rfl, rfl⟩

/-- A build that fails once the places have been cleared. -/
theorem abandons_of_build {id : Option String} {n : Nat} {e : ClientError}
    (clears : p.Clears placement hs v)
    (deals : Deals (hs.flatMap (v.ending p.factory.config.closeTimeout)) (v.discard hs) m)
    (names : m.factory.Names placement id n)
    (fails : build E placement id (m.numbered n) = (q, .error e)) : p.Abandons placement hs e q := by
  obtain ⟨config, sequence, nextId, connections⟩ := clears.same
  have names' : p.factory.Names placement id n := by
    refine names.congr ?_ ?_ <;> rw [deals.factory]
    exacts [config.symm, sequence.symm]
  have tries' : m.Tries placement id = p.Tries placement id := by
    obtain ⟨_, _, _, rfl⟩ := deals
    simp only [Tries, discard, config, nextId, connections]
  rcases build_tries E placement id (m.numbered n) with
    ⟨error, outside, events, trial, failed⟩ | ⟨clientId, outside, events, -, -, done⟩
  · cases failed.symm.trans fails
    have tries : m.Tries placement id (.error e) events := trial
    rw [tries'] at tries
    exact ⟨v, m, id, n, outside, events, clears, deals, names', tries, rfl⟩
  · cases done.symm.trans fails

/-! ## Each policy -/

theorem obtainShared_abandons (fails : obtainShared E p = (q, .error error)) :
    ∃ e, error = .client e ∧ p.Abandons .shared [] e q := by
  have renews : renewShared E p = (q, .error error) := by
    unfold obtainShared at fails
    split at fails
    · exact fails
    · split at fails
      · cases fails
      · exact fails
  unfold renewShared at renews
  split at renews
  case h_1 m e failed =>
    cases renews
    exact ⟨e, rfl, abandons_of_build .shared (.refl p) .shared failed⟩
  case h_2 => cases renews

/-- Once the thread has no producer that can be used, the request has to build one. -/
theorem renewBound_abandons (clears : p.Clears (.thread t) hs v)
    (deals : Deals (hs.flatMap (v.ending p.factory.config.closeTimeout)) (v.discard hs) m)
    (fails : renewBound E t m = (q, .error error)) :
    ∃ e, error = .client e ∧ p.Abandons (.thread t) hs e q := by
  obtain ⟨id, n, named, names⟩ := nameBound_names t m
  simp only [renewBound, named] at fails
  split at fails
  case h_1 q e failed =>
    cases fails
    exact ⟨e, rfl, abandons_of_build clears deals names failed⟩
  case h_2 => cases fails

theorem obtainBound_abandons (discreet : E.Discreet)
    (seated : ∀ h, p.factory.threads.lookup t = some h → (p.get h.producer).phase ≠ .disposed)
    (fails : obtainBound E t p = (q, .error error)) :
    ∃ hs e, error = .client e ∧ p.Abandons (.thread t) hs e q := by
  unfold obtainBound at fails
  cases found : p.factory.threads.lookup t with
  | none =>
    rw [found] at fails
    exact ⟨[], renewBound_abandons (.vacant t found) (.refl p) fails⟩
  | some h =>
    rw [found] at fails
    dsimp only at fails
    split at fails
    case isTrue => cases fails
    case isFalse unusable =>
      have unfit : p.isUsable h = false := by
        rw [← isUsable_checked h.producer]
        exact Bool.eq_false_iff.mpr unusable
      have undisposed : (((p.modify h.producer fun x => { x with checkedOut := true }).unbind t
          h.producer).get h.producer).phase ≠ .disposed := by
        show ((p.modify h.producer _).get h.producer).phase ≠ .disposed
        rw [get_modify, if_pos ⟨rfl, lt_of_phase (seated h found)⟩]
        exact seated h found
      have closes := retirePinned_deals (E := E) discreet p.factory.config.closeTimeout undisposed
      refine ⟨[h], renewBound_abandons (.stale t h found unfit) ?_ fails⟩
      rw [List.flatMap_singleton]
      exact closes

/-- Where all that waits in the queue has failed, the request has to build a producer. -/
theorem obtainPooled_abandons (discreet : E.Discreet) (known : p.factory.config.poolKey scope = .ok k)
    (waiting : p.Waiting k.key (p.factory.cache.queue k.key))
    (fails : obtainPooled E scope p = (q, .error error)) :
    ∃ hs e, error = .client e ∧ p.Abandons (.pooled k.key) hs e q := by
  rcases p.search_cases (p.factory.cache.queue k.key) with failed | ⟨bad, h, rest, queued, failed, sound⟩
  case inr =>
    obtain ⟨n, yields, -⟩ := obtainPooled_reuses (E := E) discreet known (queued ▸ waiting) failed sound
    cases yields.symm.trans fails
  case inl =>
    obtain ⟨m, deals, goes⟩ := obtainPooled_renews (E := E) discreet known waiting failed
    have config : m.factory.config = p.factory.config := by rw [deals.factory]; rfl
    obtain ⟨id, n, named, names⟩ := namePooled_names (k := k) m (by rw [config]; exact known)
    rw [goes] at fails
    simp only [renewPooled, named] at fails
    split at fails
    case h_1 q e unbuilt =>
      cases fails
      exact ⟨_, e, rfl, abandons_of_build (.failed k.key failed) deals names unbuilt⟩
    case h_2 => cases fails

/-! ## Requests -/

namespace Abandons

variable {e : ClientError}

theorem owners (abandons : p.Abandons placement hs e q) : q.owners = p.owners := by
  obtain ⟨v, m, id, n, outside, events, clears, ⟨_, _, _, rfl⟩, -, -, rfl⟩ := abandons
  cases clears <;> rfl

/-- A request is in progress until it has failed. -/
theorem leave (abandons : ({ p with running := p.running + 1 } : Pool σ Snapshot).Abandons
    placement hs e q) : p.Abandons placement hs e { q with running := q.running - 1 } := by
  obtain ⟨v, m, id, n, outside, events, clears, deals, names, tries, rfl⟩ := abandons
  have left := deals.map (fun m => { m with running := m.running - 1 }) (fun _ _ _ => rfl)
    fun _ => rfl
  refine ⟨{ v with running := v.running - 1 }, { m with running := m.running - 1 }, id, n,
    outside, events, ?_, left, names, tries, rfl⟩
  cases clears with
  | shared => exact .shared
  | vacant t free => exact .vacant t free
  | stale t h found unusable => exact .stale t h found unusable
  | failed key failed => exact .failed key failed

end Abandons

theorem withFactory_fails {f : Pool σ Snapshot → Pool σ Snapshot × Except PoolError Handle}
    (fails : p.withFactory E (fun p => handOverResult (f p)) = (q, .error error)) :
    ∃ m, f { p with running := p.running + 1 } = (m, .error error) ∧
      (0 < m.owners → q = { m with running := m.running - 1 }) := by
  rcases answer : f { p with running := p.running + 1 } with ⟨m, error' | h⟩
  · have failed : handOverResult (f { p with running := p.running + 1 }) = (m, .error error') := by
      rw [answer]
      rfl
    have same : error' = error := by
      simp only [withFactory, failed] at fails
      exact Except.error.inj (Prod.mk.inj fails).2
    subst same
    refine ⟨m, rfl, fun owned => ?_⟩
    rw [withFactory_alive (f := fun p => handOverResult (f p)) failed (alive_of_owners owned)] at fails
    exact (Prod.mk.inj fails).1.symm
  · simp only [withFactory, answer, handOverResult] at fails
    cases (Prod.mk.inj fails).2

/-- What is the same, or almost the same, after a request that could not build a producer. -/
structure Traceless (hs : List Handle) (p q : Pool σ Snapshot) : Prop where
  /-- There is no producer and no handle that was not there before. -/
  producers : q.producers.length = p.producers.length
  held : q.held = p.held
  pinned : q.pinned = p.pinned
  others : ∀ r, r ∉ hs.map Handle.producer → q.get r = p.get r
  closed : ∀ h ∈ hs, (q.get h.producer).phase = .disposed
  live : q.factory.live + hs.length = p.factory.live
  nextId : q.factory.nextId = p.factory.nextId + 1
  connections : q.connections = p.connections + 1
  shared : q.factory.shared = p.factory.shared
  threads : q.factory.threads.Sublist p.factory.threads
  keys : q.factory.cache.queues.map Prod.fst = p.factory.cache.queues.map Prod.fst
  /-- Nobody is told of a new producer. -/
  unheard : ∃ events, q.journal = events ++ p.journal ∧ ∀ listener notice shown,
    .notifying listener notice shown ∈ events → notice.kind = .removed

/-- How a request fails for a producer that is to have a place: at once, or since it cannot be built. -/
inductive Fails (p : Pool σ Snapshot) : Option Placement → Pool σ Snapshot → PoolError → Prop
  | refused (place : Option Placement) (error : PoolError)
      (early : error = .factoryDestroyed ∨ error = .notTransactional) : p.Fails place p error
  | unbuilt (placement : Placement) (hs : List Handle) (e : ClientError) (q : Pool σ Snapshot)
      (abandons : p.Abandons placement hs e q) (traceless : p.Traceless hs q) :
      p.Fails (some placement) q (.client e)

theorem Clears.live (slotted : p.Slotted) (waiting : ∀ key, p.Waiting key (p.factory.cache.queue key))
    (clears : p.Clears placement hs v) :
    (hs.map Handle.producer).Nodup ∧ ∀ h ∈ hs, (p.get h.producer).phase ≠ .disposed := by
  cases clears with
  | shared => exact ⟨List.nodup_nil, by simp⟩
  | vacant => exact ⟨List.nodup_nil, by simp⟩
  | stale t h found =>
    refine ⟨List.nodup_singleton _, fun x member => ?_⟩
    obtain rfl := List.mem_singleton.mp member
    simp [(slotted.bound t x (mem_of_lookup found)).1]
  | failed key =>
    exact ⟨(waiting key).once, fun x member => by simp [(waiting key).cached x member]⟩

/-- What has been cleared is as it was, but for the places that were given up. -/
theorem Clears.kept (clears : p.Clears placement hs v) :
    v.producers.length = p.producers.length ∧ v.held = p.held ∧ v.pinned = p.pinned ∧
      v.journal = p.journal ∧ v.factory.live = p.factory.live ∧
      v.factory.shared = p.factory.shared ∧ v.factory.threads.Sublist p.factory.threads ∧
      v.factory.cache.queues.map Prod.fst = p.factory.cache.queues.map Prod.fst ∧
      ∀ r, r ∉ hs.map Handle.producer → v.get r = p.get r := by
  cases clears with
  | shared => exact ⟨rfl, rfl, rfl, rfl, rfl, rfl, .refl _, rfl, fun _ _ => rfl⟩
  | vacant => exact ⟨rfl, rfl, rfl, rfl, rfl, rfl, .refl _, rfl, fun _ _ => rfl⟩
  | stale t h =>
    refine ⟨List.length_modify .., rfl, rfl, rfl, rfl, rfl, List.filter_sublist, rfl,
      fun r other => ?_⟩
    show (p.modify h.producer _).get r = p.get r
    rw [get_modify, if_neg fun same => other (by simp [same.1])]
  | failed key =>
    exact ⟨rfl, rfl, rfl, rfl, rfl, rfl, .refl _, Cache.keys_setQueue key [] p.factory.cache,
      fun _ _ => rfl⟩

/-- Whoever is told of the end of a producer is told of a removal. -/
theorem removed_of_ending {timeout : Duration} {listener : String} {notice : Notice}
    {shown : Producer} (told : .notifying listener notice shown ∈ p.ending timeout h) :
    notice.kind = .removed := by
  rw [ending, List.mem_cons] at told
  rcases told with called | told
  · cases called
  · unfold notices at told
    split at told
    · cases told
    · obtain ⟨_, -, same⟩ := List.mem_map.mp told
      cases same
      rfl

theorem Trial.unheard {conn : Nat} {properties : Properties} {timeout : Duration}
    {id : Option String} {reply : Reply} {events : List (Event Snapshot)}
    (trial : Trial conn placement properties timeout id reply events) (listener : String)
    (notice : Notice) (shown : Producer) : .notifying listener notice shown ∉ events := by
  cases trial with
  | uninitialised _ _ _ closed => cases closed <;> simp
  | _ => simp

theorem Abandons.traceless {e : ClientError} (visited : Visited config p) (alive : p.alive = true)
    (abandons : p.Abandons placement hs e q) : p.Traceless hs q := by
  obtain ⟨v, m, id, n, outside, events, clears, ⟨beyond, dealt, dealings, rfl⟩, names, tries, rfl⟩ :=
    abandons
  obtain ⟨apart, undisposed⟩ := clears.live visited.slotted visited.waiting
  obtain ⟨-, -, nextId, connections⟩ := clears.same
  obtain ⟨producers, held, pinned, journal, live, shared, threads, keys, others⟩ := clears.kept
  have counted := visited.tallied.length_le alive apart undisposed
  refine ⟨(discard_length hs v).trans producers, held, pinned, fun r other => ?_, fun h member => ?_,
    ?_, congrArg (· + 1) nextId, congrArg (· + 1) connections, shared, threads, keys,
    events ++ dealt, ?_, fun listener notice shown told => ?_⟩
  · show (v.discard hs).get r = p.get r
    rw [get_discard, if_neg other]
    exact others r other
  · show ((v.discard hs).get h.producer).phase = .disposed
    rw [get_discard, if_pos (List.mem_map.mpr ⟨h, member, rfl⟩)]
  · show v.factory.live - hs.length + hs.length = p.factory.live
    omega
  · rw [List.append_assoc, ← journal]
    rfl
  · rcases List.mem_append.mp told with new | old
    · exact absurd new (Trial.unheard tries listener notice shown)
    · have dealing : .notifying listener notice shown ∈ dealt.reverse.filter Event.isDealing :=
        List.mem_filter.mpr ⟨List.mem_reverse.mpr old, rfl⟩
      rw [dealings] at dealing
      obtain ⟨h, -, told⟩ := List.mem_flatMap.mp dealing
      exact removed_of_ending told

end Pool

/-- A request that has begun fails as its search for a producer does. -/
theorem fails_of_abandons {f : Pool σ Snapshot → Pool σ Snapshot × Except PoolError Handle}
    (visited : Visited config p) (owned : 0 < p.owners)
    (abandons : ∀ m error, f { p with running := p.running + 1 } = (m, .error error) →
      ∃ hs e, error = .client e ∧
        ({ p with running := p.running + 1 } : Pool σ Snapshot).Abandons placement hs e m)
    (fails : p.withFactory E (fun p => Pool.handOverResult (f p)) = (q, .error error)) :
    p.Fails (some placement) q error := by
  obtain ⟨m, answer, left⟩ := Pool.withFactory_fails fails
  obtain ⟨hs, e, rfl, abandoned⟩ := abandons m error answer
  have owners : 0 < m.owners := by
    rw [abandoned.owners]
    exact owned
  obtain rfl := left owners
  exact .unbuilt placement hs e _ abandoned.leave
    (abandoned.leave.traceless visited (Pool.alive_of_owners owned))

/-- A request that is refused at once leaves the pool as it is. -/
theorem fails_of_refused {f : Pool σ Snapshot → Pool σ Snapshot × Except PoolError Handle}
    {refusal : PoolError} (owned : 0 < p.owners) (place : Option Placement)
    (early : refusal = .factoryDestroyed ∨ refusal = .notTransactional)
    (refused : f { p with running := p.running + 1 } =
      ({ p with running := p.running + 1 }, .error refusal))
    (fails : p.withFactory E (fun p => Pool.handOverResult (f p)) = (q, .error error)) :
    p.Fails place q error := by
  obtain ⟨m, answer, left⟩ := Pool.withFactory_fails fails
  obtain ⟨rfl, same⟩ := Prod.mk.inj (refused.symm.trans answer)
  obtain rfl : refusal = error := Except.error.inj same
  obtain rfl := left owned
  exact .refused place refusal early

theorem createFor_fails (visited : Visited config p) (owned : 0 < p.owners) (discreet : E.Discreet)
    (fails : p.createFor E scope = (q, .error error)) :
    p.Fails (config.placementFor scope) q error := by
  have configured := (Pool.Named.of_visited visited).configured
  by_cases destroyed : p.factory.destroyed = true
  case pos =>
    exact fails_of_refused (f := Pool.obtainFor E scope) owned _ (.inl rfl)
      (if_pos destroyed) fails
  have begins : Pool.obtainFor E scope { p with running := p.running + 1 } =
      Pool.obtainPooled E scope { p with running := p.running + 1 } := if_neg destroyed
  cases known : config.poolKey scope with
  | error refusal =>
    have early : refusal = .notTransactional := by
      unfold Config.poolKey at known
      split at known
      · exact (Except.error.inj known).symm
      · split at known <;> cases known
    refine fails_of_refused (f := Pool.obtainFor E scope) owned _ (.inr early) ?_ fails
    rw [begins, Pool.obtainPooled]
    simp only [configured, known]
  | ok k =>
    have place : config.placementFor scope = some (.pooled k.key) := by
      rw [Config.placementFor, known]
      rfl
    rw [place]
    refine fails_of_abandons (f := Pool.obtainFor E scope) visited owned (fun m error answer => ?_)
      fails
    rw [begins] at answer
    have waiting := visited.waiting k.key
    exact Pool.obtainPooled_abandons discreet (by rw [configured]; exact known)
      ⟨waiting.queued, waiting.unique, waiting.cached, waiting.current, waiting.once⟩ answer

theorem create_fails (visited : Visited config p) (owned : 0 < p.owners) (discreet : E.Discreet)
    (fails : p.create E t = (q, .error error)) :
    p.Fails (some (config.placement t)) q error := by
  have configured := (Pool.Named.of_visited visited).configured
  by_cases destroyed : p.factory.destroyed = true
  case pos =>
    exact fails_of_refused (f := fun p => p.obtain E t) owned _ (.inl rfl) (if_pos destroyed) fails
  refine fails_of_abandons (f := fun p => p.obtain E t) visited owned (fun m error answer => ?_) fails
  rw [Pool.obtain, if_neg destroyed] at answer
  simp only [configured] at answer
  rw [Config.placement]
  split at answer
  case isTrue perThread =>
    rw [if_pos perThread]
    refine Pool.obtainBound_abandons discreet (fun h found => ?_) answer
    have seated := (visited.slotted.bound t h (mem_of_lookup found)).1
    show (p.get h.producer).phase ≠ .disposed
    simp [seated]
  case isFalse bare =>
    rw [if_neg bare]
    cases given : config.idPrefix with
    | none =>
      rw [if_neg (by simp [Config.isTransactional, given])] at answer
      exact ⟨[], Pool.obtainShared_abandons answer⟩
    | some idPrefix =>
      rw [if_pos (by simp [Config.isTransactional, given])] at answer
      have known : config.poolKey .empty = .ok ⟨idPrefix, idPrefix, false⟩ := by
        simp [Config.poolKey, TransactionScope.empty, given]
      have waiting := visited.waiting idPrefix
      exact Pool.obtainPooled_abandons (k := ⟨idPrefix, idPrefix, false⟩) discreet
        (by rw [configured]; exact known)
        ⟨waiting.queued, waiting.unique, waiting.cached, waiting.current, waiting.once⟩ answer

theorem failed_requests_traceless (visited : Visited config p) (owned : 0 < p.owners)
    (discreet : E.Discreet) :
    (∀ t q error, p.create E t = (q, .error error) →
      p.Fails (some (config.placement t)) q error) ∧
    ∀ scope q error, p.createFor E scope = (q, .error error) →
      p.Fails (config.placementFor scope) q error :=
  ⟨fun _ _ _ fails => create_fails visited owned discreet fails,
    fun _ _ _ fails => createFor_fails visited owned discreet fails⟩

/-- The producer of a thread has become stale when the next one cannot be initialised: the stale one is
closed, and the thread is left with none. -/
theorem failed_requests_traceless_of_stale :
    let config : Config := { perThread := true, idPrefix := some "a" }
    let E : Environment Unit Snapshot :=
      { Environment.quiet with
        initTransactions := fun _ outside => (outside, .error (.timeout "slow")) }
    let p := (Pool.new config ()).look.perform .quiet [.create 0, .reset]
    let q := (p.create E 0).1
    Visited config p ∧ 0 < p.owners ∧ E.Discreet ∧
      p.create E 0 = (q, .error (.client (.timeout "slow"))) ∧
      p.Fails (some (.thread 0)) q (.client (.timeout "slow")) ∧
      p.factory.threads = [(0, ⟨0, 0⟩)] ∧ q.factory.threads = [] ∧
      (q.get 0).phase = .disposed ∧ q.producers.length = 1 := by
  intro config E p q
  have visited : Visited config p :=
    ((Reached.start config ()).perform Environment.quiet_lawful [.create 0, .reset]
      (by decide +kernel)).visited
  have owned : 0 < p.owners := by decide +kernel
  have discreet : E.Discreet := fun _ _ p => .done p.look
  have answer : (p.create E 0).2 = .error (.client (.timeout "slow")) := by decide +kernel
  have fails : p.create E 0 = (q, .error (.client (.timeout "slow"))) := by rw [← answer]
  exact ⟨visited, owned, discreet, fails,
    (failed_requests_traceless visited owned discreet).1 0 q _ fails, by decide +kernel,
    by decide +kernel, by decide +kernel, by decide +kernel⟩

end ProducerPool
