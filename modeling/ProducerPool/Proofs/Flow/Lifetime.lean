import ProducerPool.Proofs.Later
import Mathlib.Data.Multiset.UnionInter

/-!
# Operations are paths

Every operation is a path of steps, and so is code of callers.  Along with the path each lemma tells
which handles the operation still holds in the end: `Leads p q pins` says that they are `pins`, and
`Balanced p q` that they are those of the beginning, as after every complete operation.  What is held at
both ends is held all the way, so code that runs inside of an operation never lets go of its handles.
-/

set_option autoImplicit false

namespace ProducerPool

variable {σ : Type}

/-- A path on which operations in progress hold the handles `base` all the way. -/
abbrev Above (base : Multiset Handle) : Pool σ Snapshot → Pool σ Snapshot → Prop :=
  Relation.ReflTransGen fun p q => Step p q ∧ base ≤ q.pinned

namespace Above

variable {base less : Multiset Handle} {p q : Pool σ Snapshot}

theorem path (above : Above base p q) : Path p q :=
  Relation.ReflTransGen.mono (fun _ _ step => step.1) _ _ above

theorem mono (above : Above base p q) (le : less ≤ base) : Above less p q :=
  Relation.ReflTransGen.mono (fun _ _ step => ⟨step.1, le.trans step.2⟩) _ _ above

end Above

/-- A path after which operations in progress hold the handles `pins`, and keep the factory alive as
often as before.  What they hold at both ends they hold all the way. -/
structure Leads (p q : Pool σ Snapshot) (pins : Multiset Handle) : Prop where
  above : Above (↑p.pinned ∩ pins) p q
  pinned : (q.pinned : Multiset Handle) = pins
  running : q.running = p.running

/-- A path after which operations in progress hold what they held before. -/
abbrev Balanced (p q : Pool σ Snapshot) : Prop := Leads p q p.pinned

namespace Leads

variable {p q r : Pool σ Snapshot} {pins left : Multiset Handle}

theorem path (leads : Leads p q pins) : Path p q := leads.above.path

theorem refl (p : Pool σ Snapshot) : Balanced p p := ⟨.refl, rfl, rfl⟩

theorem step (s : Step p q) (pinned : (q.pinned : Multiset Handle) = pins)
    (running : q.running = p.running) : Leads p q pins := by
  refine ⟨.single ⟨s, ?_⟩, pinned, running⟩
  rw [pinned]
  exact Multiset.inter_le_right

/-- What is held at both ends has to be held where the two paths meet. -/
theorem trans (first : Leads p q pins) (second : Leads q r left)
    (meet : ↑p.pinned ∩ left ≤ pins) : Leads p r left where
  above := by
    have early : Above (↑p.pinned ∩ left) p q :=
      first.above.mono (Multiset.le_inter Multiset.inter_le_left meet)
    have late : Above (↑p.pinned ∩ left) q r := by
      refine second.above.mono (Multiset.le_inter ?_ Multiset.inter_le_right)
      rw [first.pinned]
      exact meet
    exact early.trans late
  pinned := second.pinned
  running := second.running.trans first.running

/-- A balanced path leaves the account of the path before it as it is. -/
theorem balanced (first : Leads p q pins) (second : Balanced q r) : Leads p r pins := by
  have whole := first.trans second (by rw [first.pinned]; exact Multiset.inter_le_right)
  rwa [first.pinned] at whole

theorem after (first : Balanced p q) (second : Leads q r pins) : Leads p r pins :=
  first.trans second Multiset.inter_le_left

theorem mem_pinned (leads : Leads p q pins) (h : Handle) : h ∈ q.pinned ↔ h ∈ pins := by
  rw [← leads.pinned, Multiset.mem_coe]

theorem note (p : Pool σ Snapshot) (e : Event Snapshot) (plain : e.isPlain = true) :
    Balanced p (p.record e) := .step (.note p e plain) rfl rfl

theorem foldl {α : Type} {f : Pool σ Snapshot → α → Pool σ Snapshot}
    (each : ∀ p x, Balanced p (f p x)) (xs : List α) (p : Pool σ Snapshot) :
    Balanced p (xs.foldl f p) := by
  induction xs generalizing p with
  | nil => exact refl p
  | cons x xs ih => exact (each p x).balanced (ih (f p x))

end Leads

/-- The hooks of the environment are balanced paths. -/
def Environment.Tame (E : Environment σ Snapshot) : Prop :=
  ∀ f, E.Runs f → ∀ p, Balanced p (f p)

namespace Pool

variable {E : Environment σ Snapshot} {p q : Pool σ Snapshot}

theorem mem_handles_of_pinned {h : Handle} (there : h ∈ p.pinned) : h ∈ p.handles :=
  List.mem_append_left _ (List.mem_append_right _ there)

theorem mem_handles_of_factory {h : Handle} (there : h ∈ p.factory.handles) : h ∈ p.handles :=
  List.mem_append_right _ there

/-! ## Notifications and closes -/

theorem tell_balanced (tame : E.Tame) (notice : Notice) (p : Pool σ Snapshot) (listener : String) :
    Balanced p (p.tell E notice listener) := by
  have told : Balanced p (p.record (.notifying listener notice (p.get notice.handle.producer))) :=
    .note p _ rfl
  have heard := told.balanced (tame _ (.listen listener notice) _)
  have ended := heard.balanced (.note _ (.notified listener notice) rfl)
  simp only [tell]
  split
  · exact ended
  · exact ended.balanced (.note _ _ rfl)

theorem tellAll_balanced (tame : E.Tame) (kind : NoticeKind) (h : Handle) (p : Pool σ Snapshot) :
    Balanced p (p.tellAll E kind h) := by
  unfold tellAll
  split
  · exact .refl p
  · exact .foldl (tell_balanced tame _) _ p

/-- Closing a connection marks the producer as disposed of and writes the close down, with its bound. -/
theorem shut_calls (E : Environment σ Snapshot) (r : Ref) (timeout : Duration) (p : Pool σ Snapshot) :
    ∃ outside events, Closing (p.get r).conn events ∧
      .called (p.get r).conn (.close timeout) ∈ events ∧
        p.shut E r timeout = p.closed r outside events := by
  rcases reply : E.close (p.get r).conn timeout p.outside with ⟨outside, error | done⟩
  · refine ⟨outside, _, .failed timeout error (.closeFailed (p.get r).id error), by simp, ?_⟩
    simp only [shut, callClose, record, modify, reply]
    rfl
  · refine ⟨outside, _, .closed timeout, by simp, ?_⟩
    simp only [shut, callClose, record, modify, reply]
    rfl

theorem shut_eq (E : Environment σ Snapshot) (r : Ref) (timeout : Duration) (p : Pool σ Snapshot) :
    ∃ outside events, Closing (p.get r).conn events ∧
      p.shut E r timeout = p.closed r outside events := by
  obtain ⟨outside, events, closing, -, shut⟩ := shut_calls E r timeout p
  exact ⟨outside, events, closing, shut⟩

theorem retire_balanced (tame : E.Tame) (h : Handle) (timeout : Duration) (p : Pool σ Snapshot) :
    Balanced p (p.retire E h timeout) := by
  unfold retire
  split
  · exact .refl p
  · rename_i undisposed
    obtain ⟨outside, events, closing, shut⟩ := shut_eq E h.producer timeout p
    rw [shut]
    have retired : Balanced p { p.closed h.producer outside events with
        factory := { p.factory with live := p.factory.live - 1 } } :=
      .step (.retire p h.producer undisposed outside events closing) rfl rfl
    exact retired.balanced (tellAll_balanced tame _ _ _)

theorem retireAll_balanced (tame : E.Tame) (timeout : Duration) (hs : List Handle)
    (p : Pool σ Snapshot) : Balanced p (p.retireAll E timeout hs) :=
  .foldl (fun p h => retire_balanced tame h timeout p) hs p

/-! ## The factory's own life -/

/-- Handles that operations hold beside a factory that is gone can be let go of one by one. -/
theorem letGoAll_leads (E : Environment σ Snapshot) (hs : List Handle) (p : Pool σ Snapshot)
    (gone : p.alive = false) :
    Leads p
      (hs.foldl (fun p h => shutLost E h.producer { p with pinned := p.pinned.erase h }) p)
      ((p.pinned : Multiset Handle) - hs) := by
  induction hs generalizing p with
  | nil => exact ⟨.refl, by simp, rfl⟩
  | cons h hs ih =>
    have first : ∃ q, shutLost E h.producer { p with pinned := p.pinned.erase h } = q ∧
        Leads p q (p.pinned.erase h : List Handle) ∧ q.alive = false := by
      unfold shutLost
      split
      · rename_i lost
        obtain ⟨outside, events, closing, shut⟩ :=
          shut_eq E h.producer defaultCloseTimeout { p with pinned := p.pinned.erase h }
        rw [shut]
        exact ⟨_, rfl, .step (.lost p _ _ (.pinned h) lost
          (fun alive => by cases gone.symm.trans alive) outside events closing) rfl rfl, gone⟩
      · rename_i kept
        exact ⟨_, rfl, .step (.kept p _ _ (.pinned h) (by simpa using kept)) rfl rfl, gone⟩
    obtain ⟨q, same, leads, gone⟩ := first
    have rest : (p.pinned : Multiset Handle) - ↑(h :: hs) = (q.pinned : Multiset Handle) - hs := by
      rw [leads.pinned, ← Multiset.cons_coe, Multiset.sub_cons, Multiset.coe_erase]
    rw [List.foldl_cons, same, rest]
    refine leads.trans (ih q gone) (Multiset.inter_le_right.trans ?_)
    rw [leads.pinned]
    exact Multiset.sub_le_self _ _

theorem foldl_pin (hs : List Handle) (p : Pool σ Snapshot) :
    hs.foldl (fun p h => p.pin h) p = { p with pinned := hs.reverse ++ p.pinned } := by
  induction hs generalizing p with
  | nil => rfl
  | cons h hs ih =>
    rw [List.foldl_cons, ih]
    simp [pin]

/-- References to a living factory change; when none is left, the factory goes. -/
theorem recount_leads (E : Environment σ Snapshot) (p : Pool σ Snapshot) (owners running : Nat)
    (alive : p.alive = true) :
    let q := teardownIfUnowned E { p with owners := owners, running := running }
    Above p.pinned p q ∧ (q.pinned : Multiset Handle) = p.pinned ∧ q.running = running := by
  unfold teardownIfUnowned
  by_cases some : 0 < owners + running
  · rw [if_pos (by simpa [Pool.alive] using some)]
    exact ⟨.single ⟨.recount p owners running alive some, le_refl _⟩, rfl, rfl⟩
  · obtain ⟨rfl, rfl⟩ : owners = 0 ∧ running = 0 := by omega
    rw [if_neg (by simp [Pool.alive])]
    simp only [teardown, foldl_pin]
    have gone := letGoAll_leads E p.factory.handles
      { p with
        owners := 0, running := 0, factory := p.factory.emptied
        pinned := p.factory.handles.reverse ++ p.pinned } rfl
    have back : ((p.factory.handles.reverse ++ p.pinned : List Handle) : Multiset Handle) -
        p.factory.handles = p.pinned := by
      rw [← Multiset.coe_add, Multiset.coe_reverse, Multiset.add_comm,
        Multiset.add_sub_cancel_right]
    have more : (p.pinned : Multiset Handle) ≤
        (p.factory.handles.reverse ++ p.pinned : List Handle) := by
      rw [← Multiset.coe_add]
      exact Multiset.le_add_left _ _
    refine ⟨.head ⟨.expire p, more⟩ (gone.above.mono ?_), gone.pinned.trans back, gone.running⟩
    exact Multiset.le_inter more (le_of_eq back.symm)

/-- What follows when an operation no longer keeps the factory alive. -/
theorem withFactory_path {α : Type} {f : Pool σ Snapshot → Pool σ Snapshot × α} {a : α}
    (answer : f { p with running := p.running + 1 } = (q, a)) (busy : 0 < q.running) :
    Path q (p.withFactory E f).1 := by
  have left := recount_leads E q q.owners (q.running - 1) (alive_of_running busy)
  simp only [withFactory, answer]
  exact left.1.path

theorem withFactory_yields {α : Type} {f : Pool σ Snapshot → Pool σ Snapshot × α} {a : α}
    (yields : p.withFactory E f = (q, a)) :
    ∃ m, f { p with running := p.running + 1 } = (m, a) ∧ (0 < m.running → Path m q) := by
  rcases answer : f { p with running := p.running + 1 } with ⟨m, b⟩
  have ends := withFactory_path (E := E) answer
  rw [yields] at ends
  simp only [withFactory, answer] at yields
  obtain rfl : b = a := (Prod.mk.inj yields).2
  exact ⟨m, rfl, ends⟩

/-- An operation that keeps the factory alive while it works. -/
theorem withFactory_balanced {α : Type} {f : Pool σ Snapshot → Pool σ Snapshot × α}
    (alive : p.alive = true)
    (inner : Balanced { p with running := p.running + 1 } (f { p with running := p.running + 1 }).1) :
    Balanced p (p.withFactory E f).1 := by
  have entered : Step p { p with running := p.running + 1 } :=
    .recount p p.owners (p.running + 1) alive (by omega)
  have left := recount_leads E (f { p with running := p.running + 1 }).1
    (f { p with running := p.running + 1 }).1.owners
    ((f { p with running := p.running + 1 }).1.running - 1)
    (alive_of_running (by rw [inner.running]; exact Nat.succ_pos _))
  have held : (p.pinned : Multiset Handle) ∩ p.pinned ≤
      (f { p with running := p.running + 1 }).1.pinned := by
    rw [inner.pinned]
    exact Multiset.inter_le_left
  refine ⟨.head ⟨entered, Multiset.inter_le_left⟩ (inner.above.trans (left.1.mono held)),
    left.2.1.trans inner.pinned, left.2.2.trans ?_⟩
  rw [inner.running]
  rfl

theorem withinFactory_balanced {f : Pool σ Snapshot → Pool σ Snapshot} (alive : p.alive = true)
    (inner : Balanced { p with running := p.running + 1 } (f { p with running := p.running + 1 })) :
    Balanced p (p.withinFactory E f) := withFactory_balanced alive inner

/-! ## Letting go of handles -/

theorem length_closed (p : Pool σ Snapshot) (r : Ref) (outside : σ) (events : List (Event Snapshot)) :
    (p.closed r outside events).producers.length = p.producers.length := List.length_modify ..

theorem get_closed (r s : Ref) (outside : σ) (events : List (Event Snapshot)) (p : Pool σ Snapshot) :
    (p.closed r outside events).get s =
      if r = s ∧ s < p.producers.length then { p.get s with phase := .disposed } else p.get s :=
  getD_modify _ _ _ _

/-- A producer that has been retired is closed, whatever its listeners do. -/
theorem retire_disposed (tame : E.Tame) {h : Handle} (timeout : Duration)
    (inside : h.producer < p.producers.length) :
    ((p.retire E h timeout).get h.producer).phase = .disposed := by
  unfold retire
  split
  case isTrue disposed => exact disposed
  case isFalse =>
    obtain ⟨outside, events, -, shut⟩ := shut_eq E h.producer timeout p
    have closed := get_closed h.producer h.producer outside events p
    rw [if_pos ⟨rfl, inside⟩] at closed
    have still := Nat.lt_of_lt_of_le inside (Later.closed p h.producer outside events).producers.length
    have told := tellAll_balanced tame .removed h
      ((p.closed h.producer outside events).onFactory fun f => { f with live := f.live - 1 })
    rw [shut]
    exact ((Later.of_path told.path).get still).disposed (congrArg Producer.phase closed)

theorem retireAll_disposed (tame : E.Tame) (timeout : Duration) {hs : List Handle}
    (inside : ∀ h ∈ hs, h.producer < p.producers.length) :
    ∀ h ∈ hs, ((p.retireAll E timeout hs).get h.producer).phase = .disposed := by
  induction hs generalizing p with
  | nil => exact List.forall_mem_nil _
  | cons x hs ih =>
    have grown := (Later.of_path (retire_balanced tame x timeout p).path).producers.length
    intro h member
    rcases List.mem_cons.mp member with rfl | later
    · have still := Nat.lt_of_lt_of_le (inside h member) grown
      exact ((Later.of_path (retireAll_balanced tame timeout hs _).path).get still).disposed
        (retire_disposed tame timeout (inside h member))
    · exact ih (fun h there => Nat.lt_of_lt_of_le (inside h (List.mem_cons_of_mem x there)) grown) h later

/-- The listeners are told about a lost producer under a closed copy of it, which is let go of then. -/
theorem reportLost_told (tame : E.Tame) (r : Ref) (q announced : Pool σ Snapshot)
    (announces : announced =
      { q with
        running := q.running + 1
        factory := { q.factory with live := q.factory.live - 1 }
        producers := q.producers ++ [(q.get r).closedCopy]
        pinned := ⟨q.producers.length, 0⟩ :: q.pinned }) :
    let t := announced.tellAll E .removed ⟨q.producers.length, 0⟩
    q.withinFactory E (reportLost E r) =
        teardownIfUnowned E
          { t with
            owners := t.owners, running := t.running - 1
            pinned := t.pinned.erase ⟨q.producers.length, 0⟩ } ∧
      Balanced announced t ∧ 0 < t.running ∧
        Step t { t with pinned := t.pinned.erase ⟨q.producers.length, 0⟩ } := by
  have told := tellAll_balanced tame .removed ⟨q.producers.length, 0⟩ announced
  generalize ended : announced.tellAll E .removed ⟨q.producers.length, 0⟩ = t at told
  have busy : 0 < t.running := by
    rw [told.running, announces]
    exact Nat.succ_pos _
  have closed : (t.get q.producers.length).phase = .disposed := by
    refine ((Later.of_path told.path).get ?_).disposed ?_
    · simp [announces]
    · rw [announces]
      simp [get, Producer.closedCopy]
  refine ⟨?_, told, busy, ?_⟩
  · rw [← ended, announces]
    rfl
  · refine .kept t _ _ (.pinned ⟨q.producers.length, 0⟩) ?_
    simp [isLost, get] at closed ⊢
    simp [closed]

theorem withinFactory_reportLost (tame : E.Tame) (r : Ref) (q announced : Pool σ Snapshot)
    (announces : announced =
      { q with
        running := q.running + 1
        factory := { q.factory with live := q.factory.live - 1 }
        producers := q.producers ++ [(q.get r).closedCopy]
        pinned := ⟨q.producers.length, 0⟩ :: q.pinned }) :
    Above q.pinned announced (q.withinFactory E (reportLost E r)) ∧
      ((q.withinFactory E (reportLost E r)).pinned : Multiset Handle) = q.pinned ∧
      (q.withinFactory E (reportLost E r)).running = q.running := by
  obtain ⟨copied, told, busy, letGo⟩ := reportLost_told tame r q announced announces
  generalize announced.tellAll E .removed ⟨q.producers.length, 0⟩ = t at copied told busy letGo
  have left := recount_leads E { t with pinned := t.pinned.erase ⟨q.producers.length, 0⟩ } t.owners
    (t.running - 1) (alive_of_running busy)
  have back : (t.pinned.erase ⟨q.producers.length, 0⟩ : List Handle) =
      (q.pinned : Multiset Handle) := by
    rw [← Multiset.coe_erase, told.pinned, announces, Multiset.coe_erase, List.erase_cons_head]
  have more : (q.pinned : Multiset Handle) ≤ announced.pinned := by
    rw [announces]
    exact Multiset.le_cons_self _ _
  rw [copied]
  refine ⟨(told.above.mono (Multiset.le_inter more more)).trans (.head ⟨letGo, le_of_eq back.symm⟩
    (left.1.mono (le_of_eq back.symm))), left.2.1.trans back, left.2.2.trans ?_⟩
  rw [told.running, announces]
  rfl

theorem LetsGo.running {r : Ref} (letsGo : p.LetsGo r q) : q.running = p.running := by
  cases letsGo <;> rfl

/-- What happens to a producer after a reference to it has been given up. -/
theorem settle_leads (tame : E.Tame) {r : Ref} (letsGo : p.LetsGo r q) :
    Leads p (q.settle E r) q.pinned := by
  have running := letsGo.running
  unfold settle
  split
  case isFalse kept =>
    exact .step (.kept p r q letsGo (by simpa using kept)) rfl running
  case isTrue lost =>
    obtain ⟨outside, events, closing, shut⟩ := shut_eq E r defaultCloseTimeout q
    have same : ((q.closed r outside events).get r).closedCopy = (q.get r).closedCopy := by
      rw [get_closed]
      split <;> rfl
    have owned : ((q.closed r outside events).get r).owned = (q.get r).owned := by
      rw [get_closed]
      split <;> rfl
    simp only [shut, owned]
    split
    case isFalse alone =>
      refine .step (.lost p r q letsGo lost (fun alive => ?_) outside events closing) rfl running
      simpa [show (q.closed r outside events).alive = true from alive] using alone
    case isTrue accounted =>
      obtain ⟨owned, alive⟩ := Bool.and_eq_true_iff.mp accounted
      have announced : Step p _ := .lostOwned p r q letsGo lost owned alive outside events closing
      obtain ⟨told, pinned, back⟩ := withinFactory_reportLost tame r (q.closed r outside events) _ rfl
      rw [same] at told
      have length : (q.closed r outside events).producers.length = q.producers.length :=
        List.length_modify ..
      rw [length] at told
      have more : (p.pinned : Multiset Handle) ∩ q.pinned ≤
          (⟨q.producers.length, 0⟩ :: q.pinned : List Handle) :=
        Multiset.inter_le_right.trans (Multiset.le_cons_self _ _)
      exact ⟨.head ⟨announced, more⟩ (told.mono Multiset.inter_le_right), pinned, back.trans running⟩

end Pool

end ProducerPool
