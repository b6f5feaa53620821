import ProducerPool.Proofs.Invariant.Motion

/-!
# Closing and letting go keep invariants

Notifications, closes, the end of the factory, and what becomes of a producer when a handle to it has
gone.
-/

set_option autoImplicit false

namespace ProducerPool

variable {σ : Type} {E : Environment σ Snapshot} {I : Invariant σ} {p q : Pool σ Snapshot}
  {due mid left : List Duty} {m : Pool σ Snapshot} {h : Handle} {r : Ref} {gone : Option Ref}

/-! ## Steps on which producers stay as they are -/

namespace Pool.Stays

theorem note (p : Pool σ Snapshot) (e : Event Snapshot) (untold : e.telling? = none) :
    p.Stays none (p.record e) :=
  ⟨id, .refl _, tellings_of_append (by simp [untold] : [e].filterMap Event.telling? = []) rfl, .refl _⟩

/-- Only references and what lies beyond the border change. -/
theorem of_factory (producers : q.producers = p.producers) (factory : q.factory = p.factory)
    (journal : q.journal = p.journal) (alive : q.alive = true → p.alive = true) : p.Stays none q where
  alive := alive
  places := by rw [factory]; exact .refl _
  tellings := congrArg (List.filterMap Event.telling?) journal
  producers := by rw [producers]; exact .refl _

/-- One producer changes in a respect that does not matter here. -/
theorem modify (p : Pool σ Snapshot) (r : Ref) (f : Producer → Producer)
    (lease : ∀ x, (f x).lease = x.lease) (placement : ∀ x, (f x).placement = x.placement)
    (phase : ∀ x, (f x).phase = x.phase) : p.Stays none (p.modify r f) :=
  ⟨id, .refl _, rfl, .modify _ _ _ lease placement phase⟩

theorem closed (p : Pool σ Snapshot) {r : Ref} (undisposed : (p.get r).phase ≠ .disposed)
    (outside : σ) {events : List (Event Snapshot)} (closing : Closing (p.get r).conn events) :
    p.Stays (some r) (p.closed r outside events) :=
  ⟨id, .refl _, tellings_of_append closing.untold rfl, .dispose _ (Pool.lt_of_phase undisposed)⟩

end Pool.Stays

theorem Pool.length_modify (p : Pool σ Snapshot) (r : Ref) (f : Producer → Producer) :
    (p.modify r f).producers.length = p.producers.length := List.length_modify ..

theorem Pool.StaysOut.closed (r : Ref) (outside : σ) (events : List (Event Snapshot)) :
    p.StaysOut (p.closed r outside events) := .modify (r := r) rfl fun _ back => back

namespace Invariant

theorem still (holds : I.holds due p) (step : Step p q) (stays : p.Stays none q)
    (length : q.producers.length = p.producers.length) (out : p.StaysOut q) : I.holds due q :=
  I.move holds (.still due p q step stays length out)

/-- No producer changes. -/
theorem rest (holds : I.holds due p) (step : Step p q) (stays : p.Stays none q)
    (producers : q.producers = p.producers) : I.holds due q :=
  I.still holds step stays (by rw [producers]) (.of_producers producers)

theorem note (holds : I.holds due p) (e : Event Snapshot) (plain : e.isPlain = true)
    (untold : e.telling? = none) : I.holds due (p.record e) :=
  I.rest holds (.note p e plain) (.note p e untold) rfl

theorem pin (holds : I.holds due p) (there : h ∈ p.handles) : I.holds due (p.pin h) :=
  I.rest holds (.pin p h there) (.of_factory rfl rfl rfl id) rfl

theorem recount (holds : I.holds due p) (owners running : Nat) (before : p.alive = true)
    (after : 0 < owners + running) :
    I.holds due { p with owners := owners, running := running } :=
  I.rest holds (.recount p owners running before after) (.of_factory rfl rfl rfl fun _ => before) rfl

end Invariant

/-! ## Notifications and closes -/

namespace Environment.Hears

variable {kind : NoticeKind}

theorem tell (hears : E.Hears I kind) {notice : Notice} (same : notice.kind = kind) (listener : String)
    (holds : I.holds (.tell listener notice :: due) p) : I.holds due (p.tell E notice listener) := by
  have told := I.move holds (.tell due p listener notice)
  have heard := hears listener notice same due _ told
  have ended := I.note heard (.notified listener notice) rfl rfl
  simp only [Pool.tell]
  split
  · exact ended
  · exact I.note ended _ rfl rfl

/-- All who are registered now are told one after the other. -/
theorem tellAll (hears : E.Hears I kind) (holds : I.holds (.announce kind h :: due) p) :
    I.holds due (p.tellAll E kind h) := by
  have foldl (notice : Notice) (same : notice.kind = kind) (listeners : List String)
      {p : Pool σ Snapshot}
      (holds : I.holds (listeners.map (fun listener => .tell listener notice) ++ due) p) :
      I.holds due (listeners.foldl (Pool.tell E notice) p) := by
    induction listeners generalizing p with
    | nil => exact holds
    | cons listener rest ih => exact ih (hears.tell same listener holds)
  unfold Pool.tellAll
  split
  · rename_i nameless
    exact I.move holds (.hush due p kind h nameless)
  · rename_i id known
    exact foldl _ rfl _ (I.move holds (.summon due p kind h id known))

/-- A producer of the factory may be closed where nothing refers to it from a place, also when it has
just lost its own. -/
theorem retireExposed (hears : E.Hears I .removed) (holds : I.holds due p)
    (exposes : Exposes I.parks I.binds due p mid m h.producer) (timeout : Duration)
    (frees : m.Frees h.producer mid left) : I.holds left (m.retire E h timeout) := by
  unfold Pool.retire
  split
  case isTrue disposed => exact I.move holds (.clear exposes disposed frees)
  case isFalse undisposed =>
    obtain ⟨outside, events, closing, shut⟩ := Pool.shut_eq E h.producer timeout m
    rw [shut]
    have closed := Pool.Stays.closed m undisposed outside closing
    have stays : m.Stays (some h.producer) { m.closed h.producer outside events with
        factory := { m.factory with live := m.factory.live - 1 } } :=
      ⟨closed.alive, ⟨rfl, rfl, rfl, rfl⟩, closed.tellings, closed.producers⟩
    exact hears.tellAll (I.move holds (.retire exposes
      (.retire m h.producer undisposed outside events closing) undisposed stays
      (Pool.length_closed m h.producer outside events) frees ⟨events, closing.unmarked, rfl⟩
      (.closed h.producer outside events)))

theorem retire (hears : E.Hears I .removed) (holds : I.holds due p) (h : Handle) (timeout : Duration)
    (frees : p.Frees h.producer due left) : I.holds left (p.retire E h timeout) :=
  hears.retireExposed holds (.refl due p h.producer) timeout frees

end Environment.Hears

theorem Environment.Upholds.retire (up : E.Upholds I) (holds : I.holds due p) (h : Handle)
    (timeout : Duration) (frees : p.Frees h.producer due left) : I.holds left (p.retire E h timeout) :=
  (up.hears .removed).retire holds h timeout frees

theorem Environment.Upholds.retireAll (up : E.Upholds I) (timeout : Duration) (hs : List Handle)
    (holds : I.holds (hs.map (fun h => .close h.producer) ++ due) p) :
    I.holds due (p.retireAll E timeout hs) := by
  induction hs generalizing p with
  | nil => exact holds
  | cons h hs ih => exact ih (up.retire holds h timeout (.due _))

/-! ## The factory's own life -/

/-- A producer that is referred to nowhere is in no place. -/
theorem Pool.apart_of_isLost (lost : p.isLost r = true) : p.Apart r := by
  intro h there same
  have referenced := referenced_of_mem (mem_handles_of_factory there)
  rw [same] at referenced
  cases (isLost_iff.mp lost).1.symm.trans referenced

namespace Invariant

theorem letGoAll (E : Environment σ Snapshot) (hs : List Handle) (holds : I.holds due p)
    (gone : p.alive = false) :
    I.holds due
      (hs.foldl (fun p h => Pool.shutLost E h.producer { p with pinned := p.pinned.erase h }) p) := by
  induction hs generalizing p with
  | nil => exact holds
  | cons h hs ih =>
    rw [List.foldl_cons]
    generalize erased : ({ p with pinned := p.pinned.erase h } : Pool σ Snapshot) = q
    have letsGo : p.LetsGo h.producer q := by
      rw [← erased]
      exact .pinned h
    have stays : p.Stays none q := by
      rw [← erased]
      exact .of_factory rfl rfl rfl id
    have dead : q.alive = false := by
      rw [← erased]
      exact gone
    unfold Pool.shutLost
    split
    case isFalse kept =>
      exact ih (I.rest holds (.kept p _ q letsGo (by simpa using kept)) stays letsGo.producers) dead
    case isTrue lost =>
      obtain ⟨outside, events, closing, shut⟩ :=
        Pool.shut_eq E h.producer defaultCloseTimeout q
      rw [shut]
      have step : Step p (q.closed h.producer outside events) :=
        .lost p h.producer q letsGo lost (fun alive => by cases dead.symm.trans alive) outside events
          closing
      have closes := stays.trans (.closed q (Pool.isLost_iff.mp lost).2 outside closing)
      exact ih (I.move holds (.shut due p _ h.producer step gone closes
        ((Pool.length_closed q h.producer outside events).trans (by rw [letsGo.producers]))
        (.trans (.of_producers letsGo.producers) (.closed h.producer outside events)))) dead

/-- References to a living factory change; when none is left, the factory goes. -/
theorem leave (E : Environment σ Snapshot) (holds : I.holds due p) (owners running : Nat)
    (alive : p.alive = true) :
    I.holds due (Pool.teardownIfUnowned E { p with owners := owners, running := running }) := by
  unfold Pool.teardownIfUnowned
  by_cases some : 0 < owners + running
  · rw [if_pos (by simpa [Pool.alive] using some)]
    exact I.recount holds owners running alive some
  · obtain ⟨rfl, rfl⟩ : owners = 0 ∧ running = 0 := by omega
    rw [if_neg (by simp [Pool.alive])]
    simp only [Pool.teardown, Pool.foldl_pin]
    exact letGoAll E p.factory.handles (I.move holds (.expire due p)) rfl

/-- An operation is done with the factory. -/
theorem departs {α : Type} (E : Environment σ Snapshot)
    {f : Pool σ Snapshot → Pool σ Snapshot × α} {a : α}
    (answer : f { p with running := p.running + 1 } = (q, a)) (busy : 0 < q.running)
    (holds : I.holds due q) : I.holds due (p.withFactory E f).1 := by
  simp only [Pool.withFactory, answer]
  exact I.leave E holds _ _ (Pool.alive_of_running busy)

/-- An operation that keeps the factory alive while it works. -/
theorem withFactory {α : Type} (E : Environment σ Snapshot)
    {f : Pool σ Snapshot → Pool σ Snapshot × α} (holds : I.holds due p) (alive : p.alive = true)
    (balanced : Balanced { p with running := p.running + 1 } (f { p with running := p.running + 1 }).1)
    (inner : I.holds due { p with running := p.running + 1 } →
      I.holds due (f { p with running := p.running + 1 }).1) :
    I.holds due (p.withFactory E f).1 := by
  have entered := inner (I.recount holds p.owners (p.running + 1) alive (by omega))
  refine I.departs E rfl ?_ entered
  rw [balanced.running]
  exact Nat.succ_pos _

theorem withinFactory (E : Environment σ Snapshot) {f : Pool σ Snapshot → Pool σ Snapshot}
    (holds : I.holds due p) (alive : p.alive = true)
    (balanced : Balanced { p with running := p.running + 1 } (f { p with running := p.running + 1 }))
    (inner : I.holds due { p with running := p.running + 1 } →
      I.holds due (f { p with running := p.running + 1 })) :
    I.holds due (p.withinFactory E f) := I.withFactory E holds alive balanced inner

end Invariant

namespace Environment.Upholds

variable (up : E.Upholds I)
include up

/-! ## Letting go of handles -/

/-- A handle in callers' hands or with an operation goes. -/
theorem letGo (holds : I.holds due p) (letsGo : p.LetsGo r q) (factory : q.factory = p.factory)
    (journal : q.journal = p.journal) (alive : q.alive = p.alive) : I.holds due (q.settle E r) := by
  have stays : p.Stays none q := .of_factory letsGo.producers factory journal (by simp [alive])
  have same : q.get r = p.get r := by rw [Pool.get, letsGo.producers]; rfl
  unfold Pool.settle
  split
  case isFalse kept =>
    exact I.rest holds (.kept p r q letsGo (by simpa using kept)) stays letsGo.producers
  case isTrue lost =>
    have undisposed := (Pool.isLost_iff.mp lost).2
    have accounted : (q.get r).owned = true := by
      rw [same] at undisposed ⊢
      exact (I.regular holds).named.owned r (Pool.lt_of_phase undisposed) undisposed
    obtain ⟨outside, events, closing, shut⟩ := Pool.shut_eq E r defaultCloseTimeout q
    have closed := Pool.get_closed r r outside events q
    rw [if_pos ⟨rfl, Pool.lt_of_phase undisposed⟩] at closed
    have length : (q.closed r outside events).producers.length = q.producers.length :=
      Pool.length_closed ..
    have closes := stays.trans (.closed q undisposed outside closing)
    simp only [shut, closed, accounted, Bool.true_and]
    split
    case isFalse dead =>
      have dead : (q.closed r outside events).alive = false := by simpa using dead
      have gone : p.alive = false := alive.symm.trans dead
      exact I.move holds (.shut due p _ r (.lost p r q letsGo lost (fun lives => by
        rw [alive, gone] at lives; cases lives) outside events closing) gone closes
        (length.trans (by rw [letsGo.producers]))
        (.trans (.of_producers letsGo.producers) (.closed r outside events)))
    case isTrue lives =>
      have announced : Step p _ := .lostOwned p r q letsGo lost accounted lives outside events closing
      obtain ⟨copied, told, busy, letGo⟩ :=
        Pool.reportLost_told up.tame r (q.closed r outside events) _ rfl
      rw [closed, length] at told copied letGo busy
      have open_before : (p.get r).phase ≠ .disposed := by
        rw [← same]
        exact undisposed
      have apart : p.Apart r := by
        have lost_places := Pool.apart_of_isLost lost
        rwa [Pool.Apart, factory] at lost_places
      -- The copy is the last producer there is; otherwise only `r` changes.
      have forgets : p.Stays (some r)
          { q.closed r outside events with
            running := q.running + 1
            factory := { q.factory with live := q.factory.live - 1 }
            producers := (q.closed r outside events).producers ++ [(q.get r).closedCopy]
            pinned := ⟨q.producers.length, 0⟩ :: q.pinned } :=
        ⟨fun _ => alive ▸ lives, ⟨closes.places.shared, closes.places.threads, closes.places.items,
          closes.places.listeners⟩, closes.tellings,
          closes.producers.append _ (by simp [Producer.closedCopy])⟩
      have forgotten := I.move holds (.forget due p _ r announced open_before forgets apart
        (by rw [← same, ← letsGo.producers]; rfl))
      rw [copied]
      rw [← letsGo.producers] at forgotten
      have heard := (up.hears .removed).tellAll forgotten
      exact I.leave E (I.rest heard letGo (.of_factory rfl rfl rfl id) rfl) _ _
        (Pool.alive_of_running busy)

theorem unpin (holds : I.holds due p) (h : Handle) : I.holds due (p.unpin E h) :=
  up.letGo holds (.pinned h) rfl rfl rfl

theorem drop (holds : I.holds due p) (h : Handle) : I.holds due (p.drop E h) :=
  up.letGo holds (.held h) rfl rfl rfl

theorem unpinAll (hs : List Handle) (holds : I.holds due p) : I.holds due (p.unpinAll E hs) := by
  induction hs generalizing p with
  | nil => exact holds
  | cons h hs ih => exact ih (up.unpin holds h)

theorem withHandle {α : Type} (holds : I.holds due p) (there : h ∈ p.handles)
    {f : Pool σ Snapshot → Pool σ Snapshot × α}
    (inner : I.holds due (p.pin h) → I.holds due (f (p.pin h)).1) :
    I.holds due (p.withHandle E h f).1 := up.unpin (inner (I.pin holds there)) h

end Environment.Upholds

end ProducerPool
