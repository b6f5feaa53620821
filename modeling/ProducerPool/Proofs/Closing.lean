import ProducerPool.Proofs.Ledger

/-!
# No raw producer leaks, and none is closed twice

At every point of a run the journal has exactly one raw close for each connection that could not be
initialised or whose producer is closed, and none for any other; nothing is called on a connection after
its close, and a closed producer stays closed.  Once nothing refers to producers any more, every
connection that ever came about has been closed.
-/

set_option autoImplicit false

namespace ProducerPool

variable {σ : Type} {p q : Pool σ Snapshot}

/-! ## The accounts of a pool -/

/-- The connection of a producer, and whether it is closed. -/
def Producer.account (x : Producer) : Nat × Bool := (x.conn, x.phase = .disposed)

def Pool.accounts (p : Pool σ Snapshot) : List (Nat × Bool) := p.producers.map Producer.account

theorem getD_modified {xs before after : List Producer} {x : Producer} {r : Ref}
    (split : xs = before ++ x :: after) (place : before.length = r) : xs.getD r .absent = x := by
  subst place
  simp [split]

theorem accounts_modify (xs : List Producer) (r : Ref) (f : Producer → Producer)
    (same : (f (xs.getD r .absent)).account = (xs.getD r .absent).account) :
    (xs.modify r f).map Producer.account = xs.map Producer.account := by
  by_cases inside : r < xs.length
  · obtain ⟨before, x, after, split, place, modified⟩ := List.exists_of_modify f inside
    rw [getD_modified split place] at same
    rw [modified, split]
    simp [same]
  · rw [List.modify_eq_self (Nat.le_of_not_lt inside)]

/-- Closing a producer closes its account. -/
theorem accounts_dispose {xs : List Producer} {r : Ref}
    (undisposed : (xs.getD r .absent).phase ≠ .disposed) :
    ∃ before after,
      xs.map Producer.account = before ++ ((xs.getD r .absent).conn, false) :: after ∧
        (xs.modify r fun x => { x with phase := .disposed }).map Producer.account =
          before ++ ((xs.getD r .absent).conn, true) :: after := by
  have inside : r < xs.length := by
    refine Nat.lt_of_not_le fun out => undisposed ?_
    simp [List.getElem?_eq_none out, Producer.absent]
  obtain ⟨before, x, after, split, place, modified⟩ :=
    List.exists_of_modify (fun x : Producer => { x with phase := .disposed }) inside
  rw [getD_modified split place] at undisposed ⊢
  refine ⟨before.map Producer.account, after.map Producer.account, ?_, ?_⟩
  · rw [split]
    simp [Producer.account, undisposed]
  · rw [modified]
    simp [Producer.account]

def Pool.Audited (p : Pool σ Snapshot) : Prop := Ledger p.connections p.accounts p.journal

namespace Pool.Audited

theorem new (config : Config) (outside : σ) : (Pool.new config outside : Pool σ Snapshot).Audited :=
  Ledger.nil

theorem letsGo {r : Ref} (audited : p.Audited) (letsGo : p.LetsGo r q) : q.Audited := by
  cases letsGo <;> exact audited

theorem closed {r : Ref} (audited : p.Audited) (undisposed : (p.get r).phase ≠ .disposed)
    (outside : σ) {events : List (Event Snapshot)} (closing : Closing (p.get r).conn events) :
    (p.closed r outside events).Audited := by
  obtain ⟨before, after, open_, closed⟩ := accounts_dispose undisposed
  have ledger : Ledger p.connections p.accounts p.journal := audited
  rw [Pool.accounts, open_] at ledger
  have done := ledger.close closing
  rw [← closed] at done
  exact done

/-- Events that tell about no connection, and producers whose accounts are as before. -/
theorem note (audited : p.Audited) (events : List (Event Snapshot))
    (silent : ∀ conn, Silent conn events) (accounts : q.accounts = p.accounts)
    (connections : q.connections = p.connections) (journal : q.journal = events ++ p.journal) :
    q.Audited := by
  rw [Pool.Audited, accounts, connections, journal]
  exact Ledger.note audited events silent (Nat.le_refl _)

theorem step (audited : p.Audited) (step : Step p q) : q.Audited := by
  have none (conn : Nat) : Silent conn ([] : List (Event Snapshot)) := List.forall_mem_nil _
  cases step with
  | look =>
    exact audited.note [_] (fun conn => by simp [Silent, Event.subject?]) rfl rfl rfl
  | note e plain =>
    refine audited.note [e] (fun conn => ?_) rfl rfl rfl
    simp [Silent, Event.subject?_of_isPlain plain]
  | kept r m letsGo => exact audited.letsGo letsGo
  | lost r m letsGo lost alone outside events closing =>
    exact (audited.letsGo letsGo).closed (Pool.isLost_iff.mp lost).2 outside closing
  | lostOwned r m letsGo lost owned alive outside events closing =>
    have undisposed := (Pool.isLost_iff.mp lost).2
    have closed := (audited.letsGo letsGo).closed undisposed outside closing
    have account : ((m.get r).conn, true) ∈ (m.closed r outside events).accounts := by
      obtain ⟨before, after, -, disposed⟩ := accounts_dispose undisposed
      show _ ∈ (m.producers.modify r fun x => { x with phase := .disposed }).map Producer.account
      rw [disposed]
      exact List.mem_append_right _ List.mem_cons_self
    have copied := Ledger.copies closed account
    rw [Pool.Audited, Pool.accounts, List.map_append]
    exact copied
  | build placement transactionalId clientId n outside events names connecting =>
    have opened := Ledger.opens audited connecting
    have noted := opened.note [.leased ⟨p.producers.length, 0⟩]
      (fun conn => by simp [Silent, Event.subject?]) (Nat.le_refl _)
    rw [Pool.Audited, Pool.accounts]
    simp only [Pool.built, Pool.numbered, Pool.onFactory, List.map_append, List.map_cons,
      List.map_nil]
    exact noted
  | fail placement transactionalId n outside events names failing => exact Ledger.fails audited failing
  | call h call may use =>
    have opened : (p.get h.producer).phase = .opened := by
      simp only [Pool.refusal?, Producer.refusal?] at may
      split at may
      · assumption
      · cases may
      · cases may
    have inside : h.producer < p.producers.length := Pool.lt_of_phase (by simp [opened])
    refine Ledger.call audited (List.mem_map.mpr ⟨_, Pool.get_mem inside, ?_⟩) use.2
    simp [Producer.account, opened]
  | spoil r error line =>
    exact audited.note [.logged line] (fun conn => by simp [Silent, Event.subject?])
      (accounts_modify _ _ _ rfl) rfl rfl
  | check r out => exact audited.note [] none (accounts_modify _ _ _ rfl) rfl rfl
  | shelve h key there opened =>
    refine audited.note [] none (accounts_modify _ _ _ ?_) rfl rfl
    show ({ p.get h.producer with phase := .cached } : Producer).account = (p.get h.producer).account
    simp [Producer.account, opened]
  | reopen key h cache found cached =>
    refine audited.note [.leased (p.renewed h)]
      (fun conn => by simp [Silent, Event.subject?]) (accounts_modify _ _ _ ?_) rfl rfl
    show ({ p.get h.producer with phase := .opened, lease := _ } : Producer).account =
      (p.get h.producer).account
    simp [Producer.account, cached]
  | retire r undisposed outside events closing =>
    exact audited.closed undisposed outside closing
  | shut r undisposed alone outside events closing =>
    exact audited.closed undisposed outside closing
  | _ => exact audited

theorem path (audited : p.Audited) (path : Path p q) : q.Audited :=
  Path.preserves (fun _ _ audited step => audited.step step) path audited

end Pool.Audited

/-- The connection of a producer has been closed once if the producer is closed, and not otherwise. -/
theorem Pool.Audited.closeCount_conn {r : Ref} (audited : p.Audited) (inside : r < p.producers.length) :
    closeCount (p.get r).conn p.journal = if (p.get r).phase = .disposed then 1 else 0 := by
  have account : (p.get r).account ∈ p.accounts := List.mem_map.mpr ⟨p.get r, Pool.get_mem inside, rfl⟩
  have balance := (Ledger.balance audited _ account).2.2
  simpa [Producer.account] using balance

/-! ## Closes in a run -/

/-- What holds of raw closes at a point of a run. -/
structure Pool.Accounted (p : Pool σ Snapshot) : Prop where
  /-- A connection that came about and was initialised belongs to a producer. -/
  kept : ∀ conn, Connected conn p.journal → ¬InitFailed conn p.journal →
    ∃ x ∈ p.producers, x.conn = conn
  once : ∀ conn, Connected conn p.journal →
    (InitFailed conn p.journal ∨ ∃ x ∈ p.producers, x.conn = conn ∧ x.phase = .disposed) →
      closeCount conn p.journal = 1
  otherwise : ∀ conn, Connected conn p.journal →
    ¬(InitFailed conn p.journal ∨ ∃ x ∈ p.producers, x.conn = conn ∧ x.phase = .disposed) →
      closeCount conn p.journal = 0
  unconnected : ∀ conn, ¬Connected conn p.journal → closeCount conn p.journal = 0
  /-- Nothing is called after a close. -/
  orderly : Orderly p.journal
  /-- The metrics of a closed producer are not read either. -/
  unread : ∀ (E : Environment σ Snapshot) (h : Handle), (p.get h.producer).phase = .disposed →
    p.metrics E h = .error (.closed (p.get h.producer).id)
  /-- When no handle is left, all that came about is closed. -/
  ended : p.handles = [] → ∀ conn, Connected conn p.journal → closeCount conn p.journal = 1

theorem Pool.Audited.closed_once {conn : Nat} (audited : p.Audited)
    (connected : Connected conn p.journal)
    (done : InitFailed conn p.journal ∨ ∃ x ∈ p.producers, x.conn = conn ∧ x.phase = .disposed) :
    closeCount conn p.journal = 1 := by
  have ledger : Ledger p.connections p.accounts p.journal := audited
  rcases done with failed | ⟨x, member, rfl, disposed⟩
  · rcases ledger.covered conn connected with ⟨-, once⟩ | ⟨a, member, rfl⟩
    · exact once
    · exact absurd failed (ledger.balance a member).2.1
  · have account : (x.conn, true) ∈ p.accounts :=
      List.mem_map.mpr ⟨x, member, by simp [Producer.account, disposed]⟩
    exact (ledger.balance _ account).2.2

theorem Pool.Audited.producer_of_connected {conn : Nat} (audited : p.Audited)
    (connected : Connected conn p.journal) (sound : ¬InitFailed conn p.journal) :
    ∃ x ∈ p.producers, x.conn = conn ∧
      closeCount conn p.journal = if x.phase = .disposed then 1 else 0 := by
  have ledger : Ledger p.connections p.accounts p.journal := audited
  rcases ledger.covered conn connected with ⟨failed, -⟩ | ⟨a, member, rfl⟩
  · exact absurd failed sound
  · have balance := (ledger.balance a member).2.2
    obtain ⟨x, there, rfl⟩ := List.mem_map.mp member
    refine ⟨x, there, rfl, ?_⟩
    rw [balance]
    simp [Producer.account]

theorem Pool.Ordered.disposed_of_unreferenced (ordered : p.Ordered) (none : p.handles = []) :
    ∀ x ∈ p.producers, x.phase = .disposed := by
  intro x member
  obtain ⟨r, inside, rfl⟩ := List.mem_iff_getElem.mp member
  refine Classical.byContradiction fun undisposed => ?_
  have same : p.get r = p.producers[r] := by simp [Pool.get, inside]
  rw [← same] at undisposed
  obtain ⟨h, there, -⟩ := Pool.mem_of_referenced (ordered.tended r inside undisposed)
  rw [none] at there
  cases there

theorem Pool.Audited.accounted (audited : p.Audited) (ordered : p.Ordered) : p.Accounted where
  kept conn connected sound := by
    obtain ⟨x, member, own, -⟩ := audited.producer_of_connected connected sound
    exact ⟨x, member, own⟩
  once conn := audited.closed_once
  otherwise conn connected rest := by
    obtain ⟨sound, undisposed⟩ := not_or.mp rest
    obtain ⟨x, member, own, count⟩ := audited.producer_of_connected connected sound
    rw [count, if_neg fun disposed => undisposed ⟨x, member, own, disposed⟩]
  unconnected := Ledger.unconnected audited
  orderly := Ledger.orderly audited
  unread E h disposed := by simp [Pool.metrics, Pool.refusal?, Producer.refusal?, disposed]
  ended none conn connected := by
    refine audited.closed_once connected ?_
    by_cases failed : InitFailed conn p.journal
    · exact Or.inl failed
    · obtain ⟨x, member, own, -⟩ := audited.producer_of_connected connected failed
      exact Or.inr ⟨x, member, own, ordered.disposed_of_unreferenced none x member⟩

/-- Between operations nothing is in progress. -/
theorem Reached.idle {config : Config} (reached : Reached config p) :
    p.pinned = [] ∧ p.running = 0 := by
  obtain ⟨outside, code⟩ := reached
  have balanced := (Pool.look_balanced _).balanced code.balanced
  exact ⟨(Multiset.coe_eq_zero _).mp balanced.pinned, balanced.running⟩

theorem closes_exactly_once {config : Config} (reached : Reached config p) :
    (∀ q ∈ p.points, q.Accounted) ∧
      (p.points.Pairwise fun later earlier => ∀ r < earlier.producers.length,
        (earlier.get r).phase = .disposed → (later.get r).phase = .disposed) ∧
      (p.owners = 0 → p.held = [] →
        ∀ conn, Connected conn p.journal → closeCount conn p.journal = 1) := by
  obtain ⟨outside, path⟩ := reached.path
  have audited {q : Pool σ Snapshot} (path : Path (Pool.new config outside) q) : q.Accounted :=
    ((Pool.Audited.new config outside).path path).accounted
      ((Pool.Ordered.new config outside).path path)
  refine ⟨fun q point => audited (Path.through path rfl q point).1, ?_, fun unowned unheld => ?_⟩
  · refine (Path.pairwise path rfl).imp fun {later earlier} path r inside disposed => ?_
    exact ((Later.of_path path).get inside).disposed disposed
  · obtain ⟨unpinned, idle⟩ := reached.idle
    have gone : p.alive = false := by simp [Pool.alive, unowned, idle]
    have vacant := ((Pool.Ordered.new config outside).path path).placed.vacant gone
    refine (audited path).ended ?_
    rw [Pool.handles, unheld, unpinned, vacant]
    rfl

/-- A producer is created and dropped, and then the factory is dropped. -/
theorem closes_exactly_once_after_drop :
    let p := (Pool.new {} ()).look.perform .quiet [.create 0, .drop ⟨0, 0⟩, .dropFactory]
    (∀ q ∈ p.points, q.Accounted) ∧ Connected 0 p.journal ∧ closeCount 0 p.journal = 1 := by
  have reached := (Reached.start {} ()).perform Environment.quiet_lawful
    [.create 0, .drop ⟨0, 0⟩, .dropFactory] (by decide)
  obtain ⟨accounted, -, ended⟩ := closes_exactly_once reached
  have connected : Connected 0
      ((Pool.new {} ()).look.perform .quiet [.create 0, .drop ⟨0, 0⟩, .dropFactory]).journal :=
    List.mem_of_getElem? (i := 6) rfl
  exact ⟨accounted, connected, ended (by decide) (by decide) 0 connected⟩

end ProducerPool
