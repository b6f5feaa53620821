import ProducerPool.Proofs.Slots

/-!
# Which transactional id a request is served with

A request for a partition asks for the id that is prefix and suffix; any other asks for a number of the
sequence after the prefix.  Both kinds take producers from queues whose keys are bare texts, so they meet
in one queue where the prefix of one request is prefix and suffix of another.  A producer that has been
parked there keeps the id of the kind for which it was built, and only such a producer has a wrong id.
-/

set_option autoImplicit false

namespace ProducerPool

variable {σ : Type} {E : Environment σ Snapshot} {p q m : Pool σ Snapshot} {h : Handle} {config : Config}
  {scope : TransactionScope} {k : Config.PoolKey} {x y : Producer}

/-! ## Ids and placements -/

/-- The transactional id that goes with a placement. -/
inductive Producer.Identity (config : Config) (x : Producer) : Prop
  | shared (placed : x.placement = .shared) (id : x.transactionalId = none)
  | bound (t : ThreadId) (placed : x.placement = .thread t) (bare : config.idPrefix = none)
      (id : x.transactionalId = none)
  | drawn (a : String) (n : Nat) (drawn : x.Drawn config a n)
  | keyed (key : String) (partitioned : config.perPartition = true) (keyed : x.Keyed key)

namespace Producer.Identity

theorem congr (identity : x.Identity config) (id : y.transactionalId = x.transactionalId)
    (placed : y.placement = x.placement) : y.Identity config := by
  cases identity with
  | shared placed' id' => exact .shared (placed.trans placed') (id.trans id')
  | bound t placed' bare id' => exact .bound t (placed.trans placed') bare (id.trans id')
  | drawn a n drawn => exact .drawn a n (drawn.congr id placed)
  | keyed key partitioned keyed => exact .keyed key partitioned ⟨id.trans keyed.1, placed.trans keyed.2⟩

/-- A pooled producer has a drawn id after the key of its queue, or the key itself. -/
theorem of_pooled {key : String} (identity : x.Identity config) (placed : x.placement = .pooled key) :
    (∃ n, x.Drawn config key n) ∨ config.perPartition = true ∧ x.Keyed key := by
  cases identity with
  | shared placed' => cases placed.symm.trans placed'
  | bound t placed' => cases placed.symm.trans placed'
  | drawn a n drawn =>
    cases drawn with
    | pooled id placed' =>
      obtain rfl : key = a := Placement.pooled.inj (placed.symm.trans placed')
      exact Or.inl ⟨n, .pooled id placed⟩
    | bound _ t placed' => cases placed.symm.trans placed'
  | keyed key' partitioned keyed =>
    obtain rfl : key = key' := Placement.pooled.inj (placed.symm.trans keyed.2)
    exact Or.inr ⟨partitioned, keyed⟩

/-- A producer of a thread has a drawn id after the configured prefix. -/
theorem of_bound {t : ThreadId} {a : String} (identity : x.Identity config)
    (placed : x.placement = .thread t) (configured : config.idPrefix = some a) :
    ∃ n, x.Drawn config a n := by
  cases identity with
  | shared placed' => cases placed.symm.trans placed'
  | bound t placed' bare => cases configured.symm.trans bare
  | drawn b n drawn =>
    cases drawn with
    | pooled _ placed' => cases placed.symm.trans placed'
    | bound id t placed' configured' =>
      obtain rfl : a = b := Option.some.inj (configured.symm.trans configured')
      exact ⟨n, .bound id t placed' configured⟩
  | keyed key _ keyed => cases placed.symm.trans keyed.2

end Producer.Identity

theorem Factory.Names.identity {f : Factory} {placement : Placement} {transactionalId : Option String}
    {n : Nat} (names : f.Names placement transactionalId n) (configured : f.config = config)
    (id : x.transactionalId = transactionalId) (placed : x.placement = placement) :
    x.Identity config := by
  subst configured
  cases names with
  | shared => exact .shared placed id
  | bound t bare => exact .bound t placed bare id
  | boundDrawn t a drawn => exact .drawn a _ (.bound id t placed drawn)
  | keyed key partitioned => exact .keyed key partitioned ⟨id, placed⟩
  | drawn a => exact .drawn a _ (.pooled id placed)

structure Pool.Identified (config : Config) (p : Pool σ Snapshot) : Prop where
  configured : p.factory.config = config
  each : ∀ r < p.producers.length, (p.get r).Identity config

namespace Pool.Identified

theorem new (config : Config) (outside : σ) :
    (Pool.new config outside : Pool σ Snapshot).Identified config where
  configured := rfl
  each _ inside := by cases inside

theorem step (identified : p.Identified config) (step : Step p q) : q.Identified config := by
  have later := Later.of_step step
  refine ⟨later.config.trans identified.configured, fun r inside => ?_⟩
  rcases Nat.lt_or_ge r p.producers.length with before | new
  · have change := later.get before
    exact (identified.each r before).congr change.transactionalId change.placement
  · obtain ⟨-, ⟨_, _, _, names, _, built⟩ | ⟨s, ⟨known, -⟩, copy⟩⟩ := step.newcomer new inside
    · exact names.identity identified.configured (congrArg Producer.transactionalId built)
        (congrArg Producer.placement built)
    · exact (identified.each s known).congr (by rw [copy]; rfl) (by rw [copy]; rfl)

theorem path (identified : p.Identified config) (path : Path p q) : q.Identified config :=
  Path.preserves (fun _ _ identified step => identified.step step) path identified

end Pool.Identified

/-! ## What a request asks for -/

/-- The producer has the id that a request for the scope asks for: that of the partition, where the scope
has a suffix and partitions count, else a number after the prefix. -/
inductive Config.Suits (c : Config) (scope : TransactionScope) (x : Producer) : Prop
  | keyed (a suffix : String) (starts : scope.idPrefix.or c.idPrefix = some a)
      (partition : scope.idSuffix = some suffix) (on : c.perPartition = true)
      (id : x.transactionalId = some (a ++ suffix))
  | numbered (a : String) (n : Nat) (starts : scope.idPrefix.or c.idPrefix = some a)
      (plain : scope.idSuffix = none ∨ c.perPartition = false)
      (id : x.transactionalId = some (a ++ toString n))

/-- The producer was built for a request of the other kind whose queue has the same key. -/
inductive Config.Confuses (c : Config) (scope : TransactionScope) (x : Producer) : Prop
  | drawn (a suffix : String) (n : Nat) (starts : scope.idPrefix.or c.idPrefix = some a)
      (partition : scope.idSuffix = some suffix) (on : c.perPartition = true)
      (drawn : x.Drawn c (a ++ suffix) n)
  | keyed (a : String) (starts : scope.idPrefix.or c.idPrefix = some a)
      (plain : scope.idSuffix = none ∨ c.perPartition = false) (keyed : x.Keyed a)

/-- A pooled producer has the right id unless it was built for a request of the other kind. -/
theorem Config.suits_iff (identity : x.Identity config) (placed : x.placement = .pooled k.key)
    (known : config.poolKey scope = .ok k) : config.Suits scope x ↔ ¬config.Confuses scope x := by
  obtain ⟨starts, ⟨suffix, partition, on, -, key⟩ | ⟨plain, -, key⟩⟩ := Config.poolKey_cases known
  all_goals rw [key] at placed
  · -- The queue of a partition: its own producers have the key as their id, others a number after it.
    have partitioned : ¬(scope.idSuffix = none ∨ config.perPartition = false) := by
      simp [partition, on]
    rcases identity.of_pooled placed with ⟨n, drawn⟩ | ⟨-, keyed⟩
    · refine iff_of_false ?_ (not_not_intro (.drawn _ suffix n starts partition on drawn))
      rintro (⟨a, s, starts', partition', -, id⟩ | ⟨a, m, -, plain, -⟩)
      · cases starts.symm.trans starts'
        cases partition.symm.trans partition'
        exact drawn.not_keyed ⟨id, placed⟩
      · exact partitioned plain
    · refine iff_of_true (.keyed _ suffix starts partition on keyed.1) ?_
      rintro (⟨a, s, n, starts', partition', -, drawn⟩ | ⟨a, -, plain, -⟩)
      · cases starts.symm.trans starts'
        cases partition.symm.trans partition'
        exact drawn.not_keyed keyed
      · exact partitioned plain
  · -- The queue of a prefix: it is the other way round.
    have unpartitioned {suffix : String} (partition : scope.idSuffix = some suffix) :
        config.perPartition = false := plain.resolve_left (by simp [partition])
    rcases identity.of_pooled placed with ⟨n, drawn⟩ | ⟨-, keyed⟩
    · refine iff_of_true (.numbered _ n starts plain drawn.id) ?_
      rintro (⟨a, s, n, -, partition, on, -⟩ | ⟨a, starts', -, keyed⟩)
      · cases on.symm.trans (unpartitioned partition)
      · cases starts.symm.trans starts'
        exact drawn.not_keyed keyed
    · refine iff_of_false ?_ (not_not_intro (.keyed _ starts plain keyed))
      rintro (⟨a, s, -, partition, on, -⟩ | ⟨a, n, starts', -, id⟩)
      · cases on.symm.trans (unpartitioned partition)
      · cases starts.symm.trans starts'
        have drawn : x.Drawn config k.idPrefix n := .pooled id placed
        exact drawn.not_keyed keyed

/-- Without partitions no two kinds of requests meet. -/
theorem Config.Confuses.partitioned (confuses : config.Confuses scope x) (identity : x.Identity config) :
    config.perPartition = true := by
  cases confuses with
  | drawn _ _ _ _ _ on => exact on
  | keyed a _ _ keyed =>
    rcases identity.of_pooled keyed.2 with ⟨n, drawn⟩ | ⟨partitioned, -⟩
    · exact absurd keyed drawn.not_keyed
    · exact partitioned

theorem Config.suits_of_bound {t : ThreadId} {a : String} (identity : x.Identity config)
    (placed : x.placement = .thread t) (configured : config.idPrefix = some a) :
    config.Suits .empty x ∧ ¬config.Confuses .empty x := by
  obtain ⟨n, drawn⟩ := identity.of_bound placed configured
  refine ⟨.numbered a n configured (Or.inl rfl) drawn.id, ?_⟩
  rintro (⟨_, _, _, -, partition, -, -⟩ | ⟨b, -, -, keyed⟩)
  · cases partition
  · exact drawn.not_keyed keyed

/-! ## What a request is served with -/

namespace Pool

theorem lt_of_placement {r : Ref} (placed : (p.get r).placement ≠ .shared) : r < p.producers.length := by
  refine Nat.lt_of_not_le fun out => placed ?_
  rw [get_eq_absent out]
  rfl

theorem Pools.placed (ordered : p.Ordered) (pools : Pools p k q h) :
    (q.get h.producer).placement = .pooled k.key := by
  obtain ⟨⟨m, path, old, cache, found, cached, sound⟩⟩ | ⟨m, b, before, new, named, after⟩ := pools
  · have parked := ((ordered.path path).placed.parked k.key old (Cache.parked_pop found)).1
    have inside : old.producer < m.producers.length := lt_of_phase (by simp [cached])
    have opened := (Later.of_step (.reopen m k.key old cache found cached sound)).get inside
    exact opened.placement.trans parked
  · have inside := (ordered.path (before.trans new.leads.path)).genuine.inside
      (mem_handles_of_pinned new.there)
    exact (((Later.of_path after).get inside).placement).trans new.placed

theorem Pools.suits (ordered : p.Ordered) (known : config.poolKey scope = .ok k) (pools : Pools p k q h)
    (first : h.lease = 0) : config.Suits scope (q.get h.producer) := by
  obtain ⟨⟨m, path, old, cache, found, cached, sound⟩⟩ | ⟨m, b, before, new, named, after⟩ := pools
  · cases first
  · have inside := (ordered.path (before.trans new.leads.path)).genuine.inside
      (mem_handles_of_pinned new.there)
    have id := (((Later.of_path after).get inside).transactionalId).trans named
    obtain ⟨starts, ⟨suffix, partition, on, partitioned, key⟩ | ⟨plain, drawn, -⟩⟩ :=
      Config.poolKey_cases known
    · refine .keyed _ suffix starts partition on ?_
      rw [id, namePooled, if_pos partitioned, key]
    · refine .numbered _ m.factory.sequence starts plain ?_
      rw [id, namePooled, if_neg (Bool.eq_false_iff.mp drawn)]
      rfl

end Pool

open Pool in
/-- A request for the scope, begun in `p`, yields the handle `h` in `q`.  Whoever does not name a scope
asks for the empty one. -/
inductive Grants (E : Environment σ Snapshot) (p : Pool σ Snapshot) :
    TransactionScope → Pool σ Snapshot → Handle → Prop
  | create (t : ThreadId) (q : Pool σ Snapshot) (h : Handle) (yields : p.create E t = (q, .ok h)) :
      Grants E p .empty q h
  | createFor (scope : TransactionScope) (q : Pool σ Snapshot) (h : Handle)
      (yields : p.createFor E scope = (q, .ok h)) : Grants E p scope q h
  | execute (scope : TransactionScope) (q : Pool σ Snapshot) (h : Handle)
      (yields : obtainFor E scope { p with running := p.running + 1 } = (q, .ok h)) :
      Grants E p scope q h

theorem Grants.path (lawful : E.Lawful) (grants : Grants E p scope q h) :
    Path { p with running := p.running + 1 } q := by
  have obtains : Obtains E p q h := by
    cases grants with
    | create t _ _ yields => exact .create t q h yields
    | createFor scope _ _ yields => exact .createFor scope q h yields
    | execute scope _ _ yields => exact .execute scope q h yields
  obtain ⟨m, yielded⟩ := obtains.yields lawful
  exact yielded.before.trans yielded.after

theorem Grants.served {a : String} (lawful : E.Lawful)
    (ordered : ({ p with running := p.running + 1 } : Pool σ Snapshot).Ordered)
    (configured : p.factory.config = config) (grants : Grants E p scope q h)
    (starts : scope.idPrefix.or config.idPrefix = some a) :
    (∃ t, scope = .empty ∧ (q.get h.producer).placement = .thread t) ∨
      ∃ k m, config.poolKey scope = .ok k ∧ Pool.Pools { p with running := p.running + 1 } k m h ∧
        q.get h.producer = m.get h.producer := by
  subst configured
  cases grants with
  | create t _ _ yields =>
    -- Only this request looks at the policy; the others are always served from a queue.
    cases perThread : p.factory.config.perThread with
    | true => exact Or.inl ⟨t, rfl, Pool.create_placed lawful ordered perThread yields⟩
    | false =>
      obtain ⟨m, answer, yielded⟩ := Yields.of_withFactory (fun p => p.obtain E t)
        (Pool.obtain_fetches lawful.tame t (Nat.succ_pos _)) yields
      have transactional : p.factory.config.isTransactional = true :=
        Option.isSome_iff_exists.mpr ⟨a, starts⟩
      simp only [Pool.obtain, perThread, transactional, Bool.false_eq_true, if_false, if_true] at answer
      split at answer
      · cases (Prod.mk.inj answer).2
      · obtain ⟨k, known, pools⟩ := Pool.obtainPooled_pools lawful.tame answer
        exact Or.inr ⟨k, m, known, pools, yielded.same⟩
  | createFor scope _ _ yields =>
    obtain ⟨m, answer, yielded⟩ := Yields.of_withFactory (fun p => p.obtainFor E scope)
      (Pool.obtainFor_fetches lawful.tame scope) yields
    obtain ⟨k, known, pools⟩ := Pool.obtainFor_pools lawful.tame answer
    exact Or.inr ⟨k, m, known, pools, yielded.same⟩
  | execute scope _ _ yields =>
    obtain ⟨k, known, pools⟩ := Pool.obtainFor_pools lawful.tame yields
    exact Or.inr ⟨k, q, known, pools, rfl⟩

namespace Pool

/-- Closing the producers of a partition closes those that wait in its queue. -/
theorem closeFor_closes (tame : E.Tame) {n : Nat} (ordered : p.Ordered)
    (yields : p.closeFor E scope = (q, .ok n)) :
    ∃ k, p.factory.config.poolKey scope = .ok k ∧
      (k.perPartition = false ∧ n = 0 ∨
        k.perPartition = true ∧ n = (p.factory.cache.queue k.key).length ∧
          ∀ h ∈ p.factory.cache.queue k.key, (q.get h.producer).phase = .disposed) := by
  obtain ⟨m, answer, ends⟩ := withFactory_yields yields
  dsimp only at answer
  split at answer
  · cases (Prod.mk.inj answer).2
  rename_i k known
  refine ⟨k, known, ?_⟩
  split at answer
  case isFalse plain =>
    exact Or.inl ⟨Bool.eq_false_iff.mpr plain, (Except.ok.inj (Prod.mk.inj answer).2).symm⟩
  case isTrue partitioned =>
    obtain ⟨ended, counted⟩ := Prod.mk.inj answer
    refine Or.inr ⟨partitioned, (Except.ok.inj counted).symm, fun h queued => ?_⟩
    have inside (x : Handle) (queued : x ∈ p.factory.cache.queue k.key) :
        x.producer < p.producers.length := by
      have parked := Cache.mem_items.mpr ⟨k.key, Cache.parked_of_queue queued⟩
      exact ordered.genuine.inside (mem_handles_of_factory (List.mem_append_right _ parked))
    have closes : Balanced { p with running := p.running + 1 } m := by
      rw [← ended]
      exact retireTogether_leads tame (giveUp_leads (.drained k.key))
    have disposed : (m.get h.producer).phase = .disposed := by
      rw [← ended]
      refine retireTogether_disposed tame ?_ h queued
      exact inside
    have still := Nat.lt_of_lt_of_le (inside h queued) (Later.of_path closes.path).producers.length
    -- The factory may go when the operation ends, but what is closed stays closed.
    have busy : 0 < m.running := by
      rw [closes.running]
      exact Nat.succ_pos _
    exact ((Later.of_path (ends busy)).get still).disposed disposed

end Pool

/-! ## Right and wrong ids -/

/-- A request is served with the id that it asks for, unless the producer was built for a request of the
other kind and has been parked since. -/
theorem Grants.suits_iff {a : String} (lawful : E.Lawful)
    (ordered : ({ p with running := p.running + 1 } : Pool σ Snapshot).Ordered)
    (identified : ({ p with running := p.running + 1 } : Pool σ Snapshot).Identified config)
    (grants : Grants E p scope q h) (starts : scope.idPrefix.or config.idPrefix = some a) :
    (config.Suits scope (q.get h.producer) ↔ ¬config.Confuses scope (q.get h.producer)) ∧
      (config.Confuses scope (q.get h.producer) → 0 < h.lease ∧ config.perPartition = true) := by
  have known := identified.path (grants.path lawful)
  rcases grants.served lawful ordered identified.configured starts with
    ⟨t, rfl, bound⟩ | ⟨k, m, key, pools, same⟩
  · have identity := known.each h.producer (Pool.lt_of_placement (by simp [bound]))
    obtain ⟨suits, sound⟩ := Config.suits_of_bound identity bound starts
    exact ⟨iff_of_true suits sound, fun confused => absurd confused sound⟩
  · have pooled := pools.placed ordered
    rw [← same] at pooled
    have identity := known.each h.producer (Pool.lt_of_placement (by simp [pooled]))
    have exactly := Config.suits_iff identity pooled key
    refine ⟨exactly, fun confused => ⟨Nat.pos_of_ne_zero fun first => ?_, confused.partitioned identity⟩⟩
    have suits := pools.suits ordered key first
    rw [← same] at suits
    exact exactly.mp suits confused

theorem Pool.closeFor_suits {n : Nat} {a suffix : String} (lawful : E.Lawful) (ordered : p.Ordered)
    (identified : p.Identified config) (alive : p.alive = true)
    (yields : p.closeFor E scope = (q, .ok n)) (starts : scope.idPrefix.or config.idPrefix = some a)
    (partition : scope.idSuffix = some suffix) (on : config.perPartition = true) :
    n = (p.factory.cache.queue (a ++ suffix)).length ∧
      ∀ h ∈ p.factory.cache.queue (a ++ suffix),
        (q.get h.producer).phase = .disposed ∧
          (config.Suits scope (q.get h.producer) ↔ ¬config.Confuses scope (q.get h.producer)) := by
  have balanced := closeFor_balanced lawful.tame scope alive
  rw [yields] at balanced
  obtain ⟨k, known, closes⟩ := closeFor_closes lawful.tame ordered yields
  rw [identified.configured] at known
  obtain ⟨starts', ⟨suffix', partition', -, partitioned, key⟩ | ⟨absent | off, -, -⟩⟩ :=
    Config.poolKey_cases known
  · cases starts.symm.trans starts'
    cases partition.symm.trans partition'
    rw [← key]
    obtain ⟨-, counted, disposed⟩ := closes.resolve_left (by simp [partitioned])
    refine ⟨counted, fun h queued => ⟨disposed h queued, ?_⟩⟩
    have pooled := (ordered.placed.parked k.key h (Cache.parked_of_queue queued)).1
    have inside := lt_of_placement (p := p) (r := h.producer) (by simp [pooled])
    have later := (Later.of_path balanced.path).get inside
    have identity := (identified.each h.producer inside).congr later.transactionalId later.placement
    exact Config.suits_iff identity (later.placement.trans pooled) known
  · cases absent.symm.trans partition
  · cases off.symm.trans on

theorem Pool.closeFor_plain {n : Nat} (tame : E.Tame) (ordered : p.Ordered)
    (yields : p.closeFor E scope = (q, .ok n))
    (plain : scope.idSuffix = none ∨ p.factory.config.perPartition = false) : n = 0 := by
  obtain ⟨k, known, ⟨-, none⟩ | ⟨partitioned, -⟩⟩ := closeFor_closes tame ordered yields
  · exact none
  · obtain ⟨-, ⟨suffix, partition, on, -⟩ | ⟨-, unpartitioned, -⟩⟩ := Config.poolKey_cases known
    · rcases plain with absent | off
      · cases absent.symm.trans partition
      · cases off.symm.trans on
    · cases unpartitioned.symm.trans partitioned

/-- Every producer that a request is served with, or that is closed with its partition, has the id asked
for, unless it was built for a request of the other kind. -/
theorem suits_unless_confused (visited : Visited config p) (lawful : E.Lawful) (owned : 0 < p.owners) :
    (∀ scope q h a, Grants E p scope q h → scope.idPrefix.or config.idPrefix = some a →
      (config.Suits scope (q.get h.producer) ↔ ¬config.Confuses scope (q.get h.producer)) ∧
        (config.Confuses scope (q.get h.producer) → 0 < h.lease ∧ config.perPartition = true)) ∧
    ∀ scope q n, p.closeFor E scope = (q, .ok n) →
      (scope.idSuffix = none ∨ config.perPartition = false → n = 0) ∧
        ∀ a suffix, scope.idPrefix.or config.idPrefix = some a → scope.idSuffix = some suffix →
          config.perPartition = true →
            n = (p.factory.cache.queue (a ++ suffix)).length ∧
              ∀ h ∈ p.factory.cache.queue (a ++ suffix),
                (q.get h.producer).phase = .disposed ∧
                  (config.Suits scope (q.get h.producer) ↔
                    ¬config.Confuses scope (q.get h.producer)) := by
  obtain ⟨outside, path⟩ := visited.path
  have ordered := (Pool.Ordered.new config outside).path path
  have identified := (Pool.Identified.new config outside).path path
  have entered : Path p { p with running := p.running + 1 } :=
    .single (.recount p p.owners (p.running + 1) (Pool.alive_of_owners owned) (by omega))
  refine ⟨fun scope q h a grants starts => ?_, fun scope q n yields => ⟨fun plain => ?_, ?_⟩⟩
  · exact grants.suits_iff lawful (ordered.path entered) (identified.path entered) starts
  · rw [← identified.configured] at plain
    exact Pool.closeFor_plain lawful.tame ordered yields plain
  · intro a suffix starts partition on
    exact Pool.closeFor_suits lawful ordered identified (Pool.alive_of_owners owned) yields starts
      partition on

/-- A producer of a partition is handed out again for it, or closed with it. -/
theorem suits_unless_confused_after_close :
    let config : Config := { idPrefix := some "a" }
    let scope : TransactionScope := { idSuffix := some "b" }
    let p := (Pool.new config ()).look.perform .quiet [.createFor scope, .close ⟨0, 0⟩ none]
    let q := (p.createFor .quiet scope).1
    let r := (p.closeFor .quiet scope).1
    Visited config p ∧ Grants .quiet p scope q ⟨0, 1⟩ ∧ config.Suits scope (q.get 0) ∧
      ¬config.Confuses scope (q.get 0) ∧ p.factory.cache.queue ("a" ++ "b") = [⟨0, 0⟩] ∧
        (r.get 0).phase = .disposed ∧ ¬config.Confuses scope (r.get 0) := by
  intro config scope p q r
  have reached := (Reached.start config ()).perform Environment.quiet_lawful
    [.createFor scope, .close ⟨0, 0⟩ none] (by decide +kernel)
  have granted : (p.createFor .quiet scope).2 = .ok ⟨0, 1⟩ := by decide +kernel
  have counted : (p.closeFor .quiet scope).2 = .ok 1 := by decide +kernel
  have queue : p.factory.cache.queue ("a" ++ "b") = [⟨0, 0⟩] := by decide +kernel
  have suits : config.Suits scope (q.get 0) := .keyed "a" "b" rfl rfl rfl (by decide +kernel)
  have suits' : config.Suits scope (r.get 0) := .keyed "a" "b" rfl rfl rfl (by decide +kernel)
  obtain ⟨serves, closes⟩ := suits_unless_confused (E := .quiet) reached.visited
    Environment.quiet_lawful (by decide +kernel)
  have grants : Grants .quiet p scope q ⟨0, 1⟩ := .createFor scope q _ (by rw [← granted])
  obtain ⟨-, disposed⟩ := (closes scope r 1 (by rw [← counted])).2 "a" "b" rfl rfl rfl
  rw [queue] at disposed
  obtain ⟨gone, right⟩ := disposed ⟨0, 0⟩ (List.mem_singleton_self _)
  exact ⟨reached.visited, grants, suits, (serves scope q _ "a" grants rfl).1.mp suits, queue, gone,
    right.mp suits'⟩

/-- Requests of the two kinds that meet in one queue: for prefix "a" and suffix "b" there is the producer
"ab0" that was built for the prefix "ab"; for the prefix "a" that of the partition whose suffix is empty;
and with that partition the producer "a0" is closed. -/
theorem queues_confuse :
    (let p := (Pool.new { idPrefix := some "ab" } ()).look.perform .quiet
      [.create 0, .close ⟨0, 0⟩ none]
    let scope : TransactionScope := { idPrefix := some "a", idSuffix := some "b" }
    let q := (p.createFor .quiet scope).1
    Visited { idPrefix := some "ab" } p ∧ p.createFor .quiet scope = (q, .ok ⟨0, 1⟩) ∧
      (q.get 0).transactionalId = some "ab0" ∧ "ab0" ≠ "a" ++ "b") ∧
    (let p := (Pool.new { idPrefix := some "a" } ()).look.perform .quiet
      [.createFor { idSuffix := some "" }, .close ⟨0, 0⟩ none]
    let q := (p.create .quiet 0).1
    Visited { idPrefix := some "a" } p ∧ p.create .quiet 0 = (q, .ok ⟨0, 1⟩) ∧
      (q.get 0).transactionalId = some "a" ∧ ∀ n : Nat, "a" ≠ "a" ++ toString n) ∧
    (let p := (Pool.new { idPrefix := some "a" } ()).look.perform .quiet
      [.create 0, .close ⟨0, 0⟩ none]
    let q := (p.closeFor .quiet { idSuffix := some "" }).1
    Visited { idPrefix := some "a" } p ∧
      p.closeFor .quiet { idSuffix := some "" } = (q, .ok 1) ∧
        (p.get 0).phase = .cached ∧ (q.get 0).phase = .disposed ∧
          (q.get 0).transactionalId = some "a0" ∧ "a0" ≠ "a" ++ "") := by
  refine ⟨?_, ?_, ?_⟩
  · intro p scope q
    have reached := (Reached.start { idPrefix := some "ab" } ()).perform Environment.quiet_lawful
      [.create 0, .close ⟨0, 0⟩ none] (by decide +kernel)
    have granted : (p.createFor .quiet scope).2 = .ok ⟨0, 1⟩ := by decide +kernel
    exact ⟨reached.visited, by rw [← granted], by decide +kernel, by decide +kernel⟩
  · intro p q
    have reached := (Reached.start { idPrefix := some "a" } ()).perform Environment.quiet_lawful
      [.createFor { idSuffix := some "" }, .close ⟨0, 0⟩ none] (by decide +kernel)
    have granted : (p.create .quiet 0).2 = .ok ⟨0, 1⟩ := by decide +kernel
    refine ⟨reached.visited, by rw [← granted], by decide +kernel, fun n same => ?_⟩
    exact numberText_ne_empty ((String.append_right_inj "a").mp (same.symm.trans String.append_empty.symm))
  · intro p q
    have reached := (Reached.start { idPrefix := some "a" } ()).perform Environment.quiet_lawful
      [.create 0, .close ⟨0, 0⟩ none] (by decide +kernel)
    have counted : (p.closeFor .quiet { idSuffix := some "" }).2 = .ok 1 := by decide +kernel
    exact ⟨reached.visited, by rw [← counted], by decide +kernel, by decide +kernel, by decide +kernel,
      by decide +kernel⟩

end ProducerPool
