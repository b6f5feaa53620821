import ProducerPool.Proofs.Dealings
import ProducerPool.Proofs.Lease
import ProducerPool.Proofs.Singleton

/-!
# Where the close of a handle takes its producer

A handle that is closed under its lease gives its producer back: a healthy one waits in its queue, stays the
shared one, or stays with its thread and is checked in; any other is closed and gives up its place.  Nothing
else changes, and there is nothing left for a second close to do.
-/

set_option autoImplicit false

namespace ProducerPool

variable {σ : Type} {E F : Environment σ Snapshot} {p q m : Pool σ Snapshot} {h : Handle} {r : Ref}
  {t : ThreadId} {key : String} {timeout again : Option Duration}
  {config : Config}

namespace Pool

/-! ## Giving up a place -/

/-- The pool in which the producer is neither the shared one nor that of a thread. -/
def evict {μ : Type} (r : Ref) (p : Pool σ μ) : Pool σ μ :=
  { p with
    factory := { p.factory with
      shared := p.factory.shared.filter fun h => h.producer ≠ r
      threads := p.factory.threads.filter fun entry => entry.2.producer ≠ r } }

namespace Slotted

variable (slotted : p.Slotted)
include slotted

theorem shared_of_placement (other : (p.get r).placement ≠ .shared) :
    (p.factory.shared.filter fun h => h.producer ≠ r) = p.factory.shared := by
  cases found : p.factory.shared with
  | none => rfl
  | some s =>
    have apart : s.producer ≠ r := by
      rintro rfl
      exact other (slotted.shared s found).2
    simp [apart]

theorem threads_of_placement (other : ∀ t, (p.get r).placement ≠ .thread t) :
    (p.factory.threads.filter fun entry => entry.2.producer ≠ r) = p.factory.threads := by
  refine List.filter_eq_self.mpr fun entry member => ?_
  have apart : entry.2.producer ≠ r := by
    rintro rfl
    exact other entry.1 (slotted.bound entry.1 entry.2 member).2
  simp [apart]

/-- A pooled producer has no place to give up. -/
theorem evict_pooled (placed : (p.get r).placement = .pooled key) : p.evict r = p := by
  rw [evict, slotted.shared_of_placement (by simp [placed]),
    slotted.threads_of_placement (by simp [placed])]

theorem evict_shared (placed : (p.get r).placement = .shared) : p.evict r = p.unshare r := by
  rw [evict, slotted.threads_of_placement (by simp [placed])]
  rfl

/-- The producer of a thread is found in the seat of that thread only. -/
theorem evict_bound (placed : (p.get r).placement = .thread t) : p.evict r = p.unbind t r := by
  have seats : (p.factory.threads.filter fun entry => entry.2.producer ≠ r) =
      p.factory.threads.filter fun entry => !(entry.1 = t && entry.2.producer = r) := by
    refine List.filter_congr fun entry member => ?_
    by_cases same : entry.2.producer = r
    · have bound := (slotted.bound entry.1 entry.2 member).2
      rw [same, placed] at bound
      simp [same, Placement.thread.inj bound]
    · simp [same]
  rw [evict, slotted.shared_of_placement (by simp [placed]), seats]
  rfl

end Slotted

/-! ## What the factory takes back -/

section Opened

variable (bound : Duration) (opened : (p.get h.producer).phase = .opened)
include opened

theorem takeBack_pooled (healthy : p.isHealthy h = true)
    (placed : (p.get h.producer).placement = .pooled key) :
    p.takeBack E h bound = (p.modify h.producer fun x => { x with phase := .cached }).onFactory
      fun f => { f with cache := f.cache.push key h } := by
  have shelved := shelve_healthy (E := E) key bound opened healthy
  simp [takeBack, opened, healthy, placed, shelved]

theorem takeBack_shared (healthy : p.isHealthy h = true)
    (placed : (p.get h.producer).placement = .shared) : p.takeBack E h bound = p := by
  simp [takeBack, opened, healthy, placed]

theorem takeBack_bound (healthy : p.isHealthy h = true)
    (placed : (p.get h.producer).placement = .thread t) :
    p.takeBack E h bound = p.modify h.producer fun x => { x with checkedOut := false } := by
  simp [takeBack, opened, healthy, placed]

/-- A producer that is not to be kept leaves its place before it is closed. -/
theorem takeBack_unhealthy (slotted : p.Slotted) (unhealthy : p.isHealthy h = false) :
    p.takeBack E h bound = (p.evict h.producer).retire E h bound := by
  cases placed : (p.get h.producer).placement with
  | shared => simp [takeBack, opened, unhealthy, placed, slotted.evict_shared placed]
  | thread t => simp [takeBack, opened, unhealthy, placed, slotted.evict_bound placed]
  | pooled key => simp [takeBack, opened, unhealthy, placed, slotted.evict_pooled placed]

end Opened

/-! ## The close of a handle -/

/-- The factory takes the producer back, while whoever closes the handle still has it. -/
theorem close_eq (there : h ∈ p.held ++ p.pinned) (alive : p.alive = true)
    (owned : (p.get h.producer).owned = true) (current : (p.get h.producer).lease = h.lease)
    (taken : takeBack E h (timeout.getD p.factory.config.closeTimeout)
      { p.pin h with running := p.running + 1 } = m)
    (owners : m.owners = p.owners) (running : m.running = p.running + 1) (held : m.held = p.held)
    (pinned : m.pinned = h :: p.pinned) :
    p.close E h timeout = { m with running := p.running, pinned := p.pinned } := by
  have left : (p.pin h).withinFactory E (takeBack E h (timeout.getD p.factory.config.closeTimeout)) =
      { m with running := p.running } := by
    have lives : ({ m with running := m.running - 1 } : Pool σ Snapshot).alive = true := by
      rw [Pool.alive, owners, running]
      exact alive
    have ended := withFactory_alive (E := E) (p := p.pin h) (a := ())
      (f := fun p' => (takeBack E h (timeout.getD p.factory.config.closeTimeout) p', ()))
      (congrArg (fun x => (x, ())) taken) lives
    rw [withinFactory, ended, running]
    rfl
  have back : ({ m with running := p.running, pinned := m.pinned.erase h } : Pool σ Snapshot) =
      { m with running := p.running, pinned := p.pinned } := by
    rw [pinned, List.erase_cons_head]
  have kept : ({ m with running := p.running, pinned := p.pinned } : Pool σ Snapshot).isLost
      h.producer = false := by
    have known : h ∈ ({ m with running := p.running, pinned := p.pinned } : Pool σ Snapshot).handles := by
      rw [handles, held]
      exact List.mem_append_left _ there
    simp [isLost, referenced_of_mem known]
  rw [close, if_neg (by simp [current]), if_pos (by simp [owned, alive])]
  simp only [withHandle]
  rw [show (p.pin h).factory = p.factory from rfl, left, unpin, settle, back, kept]
  rfl

section Kept

variable (there : h ∈ p.held ++ p.pinned) (alive : p.alive = true)
  (owned : (p.get h.producer).owned = true) (current : (p.get h.producer).lease = h.lease)
include there alive owned current

/-- The factory takes back only what is open. -/
theorem close_of_unopened (unopened : (p.get h.producer).phase ≠ .opened) :
    p.close E h timeout = p :=
  close_eq (m := { p.pin h with running := p.running + 1 }) there alive owned current
    (if_pos unopened) rfl rfl rfl rfl

section Opened

variable (opened : (p.get h.producer).phase = .opened)
include opened

theorem close_pooled (healthy : p.isHealthy h = true)
    (placed : (p.get h.producer).placement = .pooled key) :
    p.close E h timeout = (p.modify h.producer fun x => { x with phase := .cached }).onFactory
      fun f => { f with cache := f.cache.push key h } :=
  close_eq there alive owned current
    (m := ({ p.pin h with running := p.running + 1 }.modify h.producer fun x =>
      { x with phase := .cached }).onFactory fun f => { f with cache := f.cache.push key h })
    (takeBack_pooled (p := { p.pin h with running := p.running + 1 }) _ opened healthy placed) rfl rfl rfl rfl

theorem close_shared (healthy : p.isHealthy h = true)
    (placed : (p.get h.producer).placement = .shared) : p.close E h timeout = p :=
  close_eq (m := { p.pin h with running := p.running + 1 }) there alive owned current
    (takeBack_shared (p := { p.pin h with running := p.running + 1 }) _ opened healthy placed) rfl rfl rfl rfl

theorem close_bound (healthy : p.isHealthy h = true)
    (placed : (p.get h.producer).placement = .thread t) :
    p.close E h timeout = p.modify h.producer fun x => { x with checkedOut := false } :=
  close_eq there alive owned current
    (takeBack_bound (p := { p.pin h with running := p.running + 1 }) _ opened healthy placed) rfl rfl rfl rfl

theorem close_unhealthy (timeout : Option Duration) (discreet : E.Discreet) (slotted : p.Slotted)
    (unhealthy : p.isHealthy h = false) :
    Deals (p.ending (timeout.getD p.factory.config.closeTimeout) h)
      ((p.evict h.producer).discard [h]) (p.close E h timeout) := by
  generalize entered : ({ p.pin h with running := p.running + 1 } : Pool σ Snapshot) = m
  have slots : m.Slotted := by
    subst entered
    exact ⟨slotted.shared, slotted.seats, slotted.bound, slotted.queued, slotted.once,
      slotted.undisposed⟩
  have evicted : ((m.evict h.producer).get h.producer).phase = .opened := by
    rw [← entered]
    exact opened
  have taken := takeBack_unhealthy (E := E) (p := m) (timeout.getD p.factory.config.closeTimeout)
    (by rw [← entered]; exact opened) slots (by rw [← entered]; exact unhealthy)
  obtain ⟨outside, events, dealings, retired⟩ := retire_deals discreet
    (timeout.getD p.factory.config.closeTimeout)
    (show ((m.evict h.producer).get h.producer).phase ≠ .disposed by simp [evicted])
  rw [retired] at taken
  subst entered
  refine ⟨outside, events, ?_, close_eq there alive owned current taken rfl rfl rfl rfl⟩
  rw [dealings]
  exact ending_congr rfl rfl

end Opened

end Kept

theorem close_refused (there : h ∈ p.held ++ p.pinned) (alive : p.alive = true)
    (owned : (p.get h.producer).phase ≠ .disposed → (p.get h.producer).owned = true)
    (refused : p.refusal? h ≠ none) : p.close E h timeout = p := by
  by_cases current : (p.get h.producer).lease = h.lease
  · by_cases disposed : (p.get h.producer).phase = .disposed
    · exact close_of_disposed E timeout disposed
    · have unopened : (p.get h.producer).phase ≠ .opened :=
        fun opened => refused (refusal?_eq_none.mpr ⟨opened, current⟩)
      exact close_of_unopened there alive (owned disposed) current unopened
  · rw [close, if_pos current]

/-- Where the close of a handle takes its producer.  A handle whose producer is not open, or no longer
under its lease, is refused. -/
structure Routes (E : Environment σ Snapshot) (h : Handle) (timeout : Option Duration)
    (p : Pool σ Snapshot) : Prop where
  refused : p.refusal? h ≠ none → p.close E h timeout = p
  pooled : ∀ key, p.refusal? h = none → p.isHealthy h = true →
    (p.get h.producer).placement = .pooled key →
      p.close E h timeout = ((p.modify h.producer fun x => { x with phase := .cached }).onFactory
        fun f => { f with cache := f.cache.push key h }) ∧
      ∀ k, (p.close E h timeout).factory.cache.queue k =
        if k = key then p.factory.cache.queue key ++ [h] else p.factory.cache.queue k
  shared : p.refusal? h = none → p.isHealthy h = true → (p.get h.producer).placement = .shared →
    p.close E h timeout = p
  bound : ∀ t, p.refusal? h = none → p.isHealthy h = true →
    (p.get h.producer).placement = .thread t →
      p.close E h timeout = p.modify h.producer fun x => { x with checkedOut := false }
  unhealthy : p.refusal? h = none → p.isHealthy h = false →
    Deals (p.ending (timeout.getD p.factory.config.closeTimeout) h)
      ((p.evict h.producer).discard [h]) (p.close E h timeout)
  others : ∀ r, r ≠ h.producer → (p.close E h timeout).get r = p.get r
  /-- A second close of the same handle does nothing, whoever calls it. -/
  again : ∀ (F : Environment σ Snapshot) (again : Option Duration),
    (p.close E h timeout).close F h again = p.close E h timeout

section Whole

variable (discreet : E.Discreet) (slotted : p.Slotted) (there : h ∈ p.held ++ p.pinned)
  (alive : p.alive = true)
  (owned : (p.get h.producer).phase ≠ .disposed → (p.get h.producer).owned = true)
include discreet slotted there alive owned

theorem close_others (timeout : Option Duration) (other : r ≠ h.producer) :
    (p.close E h timeout).get r = p.get r := by
  have spared (f : Producer → Producer) : (p.modify h.producer f).get r = p.get r := by
    rw [get_modify, if_neg fun same => other same.1.symm]
  by_cases free : p.refusal? h = none
  case neg => rw [close_refused there alive owned free]
  obtain ⟨opened, current⟩ := refusal?_eq_none.mp free
  have accounted := owned (by simp [opened])
  cases healthy : p.isHealthy h with
  | false =>
    have closed := close_unhealthy there alive accounted current opened timeout discreet
      slotted healthy
    rw [closed.get, get_discard, if_neg (by simpa using other)]
    rfl
  | true =>
    cases placed : (p.get h.producer).placement with
    | shared => rw [close_shared there alive accounted current opened healthy placed]
    | thread t =>
      rw [close_bound there alive accounted current opened healthy placed]
      exact spared _
    | pooled key =>
      rw [close_pooled there alive accounted current opened healthy placed]
      exact spared _

/-- There is nothing left for a second close of the same handle, whoever calls it. -/
theorem close_again (timeout again : Option Duration) (F : Environment σ Snapshot) :
    (p.close E h timeout).close F h again = p.close E h timeout := by
  by_cases free : p.refusal? h = none
  case neg =>
    rw [close_refused there alive owned free]
    exact close_refused there alive owned free
  obtain ⟨opened, current⟩ := refusal?_eq_none.mp free
  have accounted := owned (by simp [opened])
  have inside : h.producer < p.producers.length := lt_of_phase (by simp [opened])
  cases healthy : p.isHealthy h with
  | false =>
    have closed := close_unhealthy there alive accounted current opened timeout discreet
      slotted healthy
    refine close_of_disposed F again ?_
    rw [closed.get, get_discard, if_pos (by simp)]
  | true =>
    cases placed : (p.get h.producer).placement with
    | shared =>
      rw [close_shared there alive accounted current opened healthy placed]
      exact close_shared there alive accounted current opened healthy placed
    | thread t =>
      rw [close_bound there alive accounted current opened healthy placed]
      generalize checked : p.modify h.producer (fun x => { x with checkedOut := false }) = m
      have same : m.get h.producer = { p.get h.producer with checkedOut := false } := by
        rw [← checked, get_modify, if_pos ⟨rfl, inside⟩]
      have still : h ∈ m.held ++ m.pinned := by rw [← checked]; exact there
      have lives : m.alive = true := by rw [← checked]; exact alive
      have fit : m.isHealthy h = true := by
        rw [isHealthy, same, ← checked]
        exact healthy
      rw [close_bound (t := t) still lives (by rw [same]; exact accounted)
        (by rw [same]; exact current) (by rw [same]; exact opened) fit (by rw [same]; exact placed),
        ← checked]
      simp only [modify, List.modify_modify_eq]
      rfl
    | pooled key =>
      rw [close_pooled there alive accounted current opened healthy placed]
      have same : ((p.modify h.producer fun x => { x with phase := .cached }).onFactory
          fun f => { f with cache := f.cache.push key h }).get h.producer =
          { p.get h.producer with phase := .cached } := by
        show (p.modify h.producer _).get h.producer = _
        rw [get_modify, if_pos ⟨rfl, inside⟩]
      exact close_of_unopened there alive (by rw [same]; exact accounted) (by rw [same]; exact current)
        (by simp [same])

end Whole

end Pool

/-- A close has no answer of its own, for it cannot fail. -/
theorem close_routes (visited : Visited config p) (alive : p.alive = true)
    (there : h ∈ p.held ++ p.pinned) (discreet : E.Discreet) (timeout : Option Duration) :
    p.Routes E h timeout := by
  have slotted := visited.slotted
  have owned (undisposed : (p.get h.producer).phase ≠ .disposed) :
      (p.get h.producer).owned = true :=
    (Pool.Named.of_visited visited).owned h.producer (Pool.lt_of_phase undisposed) undisposed
  have open' (free : p.refusal? h = none) : (p.get h.producer).phase = .opened ∧
      (p.get h.producer).lease = h.lease ∧ (p.get h.producer).owned = true := by
    obtain ⟨opened, current⟩ := Pool.refusal?_eq_none.mp free
    exact ⟨opened, current, owned (by simp [opened])⟩
  refine ⟨Pool.close_refused there alive owned, fun key free healthy placed => ?_,
    fun free healthy placed => ?_, fun t free healthy placed => ?_, fun free unhealthy => ?_,
    fun r other => Pool.close_others discreet slotted there alive owned timeout other,
    fun F again => Pool.close_again discreet slotted there alive owned timeout again F⟩
  all_goals obtain ⟨opened, current, accounted⟩ := open' free
  · have closed : p.close E h timeout = _ :=
      Pool.close_pooled there alive accounted current opened healthy placed
    refine ⟨closed, fun k => ?_⟩
    rw [closed]
    exact Cache.queue_push key k h p.factory.cache
  · exact Pool.close_shared there alive accounted current opened healthy placed
  · exact Pool.close_bound there alive accounted current opened healthy placed
  · exact Pool.close_unhealthy there alive accounted current opened timeout discreet slotted unhealthy

/-- The producer of a thread that was checked out during a reset is closed by its owner, and gives up
its seat. -/
theorem close_routes_after_reset :
    let p := (Pool.new { perThread := true } ()).look.perform .quiet [.create 0, .reset]
    Visited { perThread := true } p ∧ p.alive = true ∧ ⟨0, 0⟩ ∈ p.held ++ p.pinned ∧
      (Environment.quiet : Environment Unit Snapshot).Discreet ∧
      p.Routes .quiet ⟨0, 0⟩ none ∧ p.factory.threads = [(0, ⟨0, 0⟩)] ∧
      (p.close .quiet ⟨0, 0⟩ none).factory.threads = [] ∧
      ((p.close .quiet ⟨0, 0⟩ none).get 0).phase = .disposed := by
  intro p
  have visited : Visited { perThread := true } p :=
    ((Reached.start { perThread := true } ()).perform Environment.quiet_lawful
      [.create 0, .reset] (by decide +kernel)).visited
  have alive : p.alive = true := by decide +kernel
  have there : ⟨0, 0⟩ ∈ p.held ++ p.pinned := by decide +kernel
  have routes := close_routes visited alive there Environment.quiet_discreet none
  have closed := routes.unhealthy (by decide +kernel) (by decide +kernel)
  refine ⟨visited, alive, there, Environment.quiet_discreet, routes, by decide +kernel, ?_, ?_⟩
  · rw [closed.factory]
    decide +kernel
  · rw [closed.get]
    decide +kernel

end ProducerPool
