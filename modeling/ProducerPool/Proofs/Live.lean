import ProducerPool.Proofs.Closing
import ProducerPool.Proofs.TransactionalId

/-!
# The number of live producers

A factory counts its live producers: one more for each that is built, one less for each that it closes
or learns to be lost.  Wherever code of callers runs, the count is the number of producers that are not
closed.  So a factory never subtracts from zero: whatever it subtracts for was counted before.
-/

set_option autoImplicit false

namespace ProducerPool

variable {σ : Type} {p q : Pool σ Snapshot} {config : Config} {r : Ref}

/-- How many accounts are open. -/
def openAccounts (accounts : List (Nat × Bool)) : Nat := accounts.countP fun a => !a.2

/-- How many producers are not closed. -/
def Pool.liveCount {μ : Type} (p : Pool σ μ) : Nat := p.producers.countP fun x => x.phase ≠ .disposed

theorem Pool.openAccounts_eq (p : Pool σ Snapshot) : openAccounts p.accounts = p.liveCount := by
  rw [openAccounts, Pool.accounts, List.countP_map, Pool.liveCount]
  refine List.countP_congr fun x _ => ?_
  simp [Producer.account]

/-- The factory, as long as it exists, counts the open accounts. -/
def Pool.Tallied (p : Pool σ Snapshot) : Prop :=
  p.alive = true → p.factory.live = openAccounts p.accounts

namespace Pool.Tallied

theorem new (config : Config) (outside : σ) : (Pool.new config outside : Pool σ Snapshot).Tallied :=
  fun _ => rfl

/-- A step that leaves the count and the accounts as they are. -/
theorem same (tallied : p.Tallied) (alive : q.alive = true → p.alive = true)
    (live : q.factory.live = p.factory.live) (accounts : q.accounts = p.accounts) : q.Tallied := by
  intro lives
  rw [live, accounts]
  exact tallied (alive lives)

theorem letsGo (tallied : p.Tallied) (letsGo : p.LetsGo r q) : q.Tallied := by
  cases letsGo <;> exact tallied

/-- A producer is closed and the factory counts one less. -/
theorem closed (tallied : p.Tallied) (undisposed : (p.get r).phase ≠ .disposed)
    (alive : p.alive = true) (outside : σ) (events : List (Event Snapshot)) :
    p.factory.live - 1 = openAccounts (p.closed r outside events).accounts := by
  obtain ⟨before, after, open_, closed⟩ := accounts_dispose undisposed
  have counted : p.factory.live = openAccounts (before ++ ((p.get r).conn, false) :: after) := by
    rw [tallied alive, Pool.accounts, open_]
    rfl
  rw [counted, Pool.accounts]
  show _ = openAccounts ((p.producers.modify r fun x => { x with phase := .disposed }).map _)
  rw [closed]
  simp [openAccounts, List.countP_append]

theorem step (tallied : p.Tallied) (named : p.Named config) (step : Step p q) : q.Tallied := by
  cases step with
  | kept r m letsGo => exact tallied.letsGo letsGo
  | lost r m letsGo lost alone =>
    intro alive
    have undisposed := (Pool.isLost_iff.mp lost).2
    have owned : (m.get r).owned = true := by
      have same : m.get r = p.get r := by rw [Pool.get, letsGo.producers]; rfl
      rw [same] at undisposed ⊢
      exact named.owned r (Pool.lt_of_phase undisposed) undisposed
    cases owned.symm.trans (alone alive)
  | lostOwned r m letsGo lost owned alive outside events =>
    intro _
    have counted := (tallied.letsGo letsGo).closed (Pool.isLost_iff.mp lost).2 alive outside events
    show m.factory.live - 1 = openAccounts (((m.closed r outside events).producers ++ [_]).map _)
    rw [counted, List.map_append, openAccounts, openAccounts, List.countP_append]
    rfl
  | expire => intro alive; cases alive
  | recount owners running before => exact tallied.same (fun _ => before) rfl rfl
  | build placement transactionalId clientId n outside events =>
    intro alive
    have counted := tallied alive
    show p.factory.live + 1 = openAccounts ((p.producers ++ [_]).map _)
    rw [counted, List.map_append, openAccounts, openAccounts, List.countP_append]
    rfl
  | spoil r error line => exact tallied.same id rfl (accounts_modify _ _ _ rfl)
  | check r out => exact tallied.same id rfl (accounts_modify _ _ _ rfl)
  | shelve h key there opened =>
    refine tallied.same id rfl (accounts_modify _ _ _ ?_)
    show ({ p.get h.producer with phase := .cached } : Producer).account = (p.get h.producer).account
    simp [Producer.account, opened]
  | reopen key h cache found cached =>
    refine tallied.same id rfl (accounts_modify _ _ _ ?_)
    show ({ p.get h.producer with phase := .opened, lease := _ } : Producer).account =
      (p.get h.producer).account
    simp [Producer.account, cached]
  | retire r undisposed outside events =>
    intro alive
    exact tallied.closed undisposed alive outside events
  | shut r undisposed alone =>
    intro alive
    cases (named.owned r (Pool.lt_of_phase undisposed) undisposed).symm.trans (alone alive)
  | giveUp hs f givesUp => cases givesUp <;> exact tallied
  | _ => exact tallied

theorem path (tallied : p.Tallied) (named : p.Named config) (path : Path p q) : q.Tallied := by
  induction path with
  | refl => exact tallied
  | tail before step ih => exact ih.step (named.path before) step

end Pool.Tallied

/-- Producers are counted by their references. -/
theorem Pool.countP_producers (f : Producer → Bool) (p : Pool σ Snapshot) :
    p.producers.countP f = ((List.range p.producers.length).filter fun r => f (p.get r)).length := by
  have all : p.producers = (List.range p.producers.length).map p.get := by
    refine List.ext_getElem (by simp) fun r inside _ => ?_
    simp [get, inside]
  rw [← List.countP_eq_length_filter]
  conv_lhs => rw [all, List.countP_map]
  rfl

/-- In the midst of a run, wherever a producer is not closed yet, the count is above zero. -/
theorem Pool.Tallied.live_pos (tallied : p.Tallied) (alive : p.alive = true)
    (undisposed : (p.get r).phase ≠ .disposed) : 0 < p.factory.live := by
  rw [tallied alive, p.openAccounts_eq]
  exact List.countP_pos_iff.mpr
    ⟨p.get r, Pool.get_mem (Pool.lt_of_phase undisposed), by simpa using undisposed⟩

/-- What the factory is about to subtract has been counted. -/
theorem Pool.Tallied.length_le {hs : List Handle} (tallied : p.Tallied) (alive : p.alive = true)
    (apart : (hs.map Handle.producer).Nodup)
    (undisposed : ∀ h ∈ hs, (p.get h.producer).phase ≠ .disposed) : hs.length ≤ p.factory.live := by
  have among : hs.map Handle.producer ⊆
      (List.range p.producers.length).filter fun r => (p.get r).phase ≠ .disposed := by
    intro r member
    obtain ⟨h, there, rfl⟩ := List.mem_map.mp member
    rw [List.mem_filter, List.mem_range]
    exact ⟨Pool.lt_of_phase (undisposed h there), by simpa using undisposed h there⟩
  have counted := (apart.subperm among).length_le
  rw [List.length_map] at counted
  rw [tallied alive, p.openAccounts_eq, Pool.liveCount, Pool.countP_producers]
  exact counted

theorem Visited.tallied (visited : Visited config p) : p.Tallied := by
  obtain ⟨outside, path⟩ := visited.path
  exact (Pool.Tallied.new config outside).path (Pool.Named.new config outside) path

theorem live_eq_count (visited : Visited config p) (alive : p.alive = true) :
    p.stats.live = p.liveCount ∧
      ∀ (outside : σ) (m : Pool σ Snapshot), Path (Pool.new config outside) m → m.alive = true →
        ∀ r, (m.get r).phase ≠ .disposed → 0 < m.factory.live := by
  refine ⟨(visited.tallied alive).trans p.openAccounts_eq, fun outside m path lives r undisposed => ?_⟩
  have tallied := (Pool.Tallied.new config outside).path (Pool.Named.new config outside) path
  exact tallied.live_pos lives undisposed

/-- Of two producers one is dropped without having been closed. -/
theorem live_eq_count_after_drop :
    let p := (Pool.new { idPrefix := some "a" } ()).look.perform .quiet
      [.create 0, .create 1, .drop ⟨0, 0⟩]
    Visited { idPrefix := some "a" } p ∧ p.alive = true ∧ p.stats.live = p.liveCount ∧
      p.liveCount = 1 := by
  intro p
  have reached := (Reached.start { idPrefix := some "a" } ()).perform Environment.quiet_lawful
    [.create 0, .create 1, .drop ⟨0, 0⟩] (by decide +kernel)
  have alive : p.alive = true := by decide +kernel
  exact ⟨reached.visited, alive, (live_eq_count reached.visited alive).1, by decide +kernel⟩

end ProducerPool
