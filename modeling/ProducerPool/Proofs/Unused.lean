import ProducerPool.Proofs.Closing
import ProducerPool.Proofs.Obtain

/-!
# Connections that nobody uses

A unit of work hands its producer back when it is over, and nothing is called on the connection from
then on but its close.  Parking calls nothing, and once a producer is closed nothing is called on its
connection by anyone, so whatever the listeners that hear of the close go on to do, it is not that.
-/

set_option autoImplicit false

namespace ProducerPool

variable {σ : Type} {E : Environment σ Snapshot} {p q : Pool σ Snapshot} {h : Handle} {r : Ref}
  {conn : Nat} {before between after : List (Event Snapshot)}

/-- Whether an event is a raw call on the connection other than its close. -/
def Event.uses {μ : Type} (conn : Nat) (e : Event μ) : Bool := e.calls conn && !e.closes conn

/-- From the one journal to the other the connection is not used. -/
def Unused (conn : Nat) (before after : List (Event Snapshot)) : Prop :=
  ∃ since, after = since ++ before ∧ ∀ e ∈ since, e.uses conn = false

theorem Closing.not_uses {other : Nat} {events : List (Event Snapshot)} (closing : Closing other events) :
    ∀ e ∈ events, e.uses conn = false := by
  cases closing <;> simp [Event.uses, Event.calls, Event.closes]

namespace Unused

theorem refl (journal : List (Event Snapshot)) : Unused conn journal journal :=
  ⟨[], rfl, List.forall_mem_nil _⟩

theorem trans (first : Unused conn before between) (second : Unused conn between after) :
    Unused conn before after := by
  obtain ⟨early, rfl, unused⟩ := first
  obtain ⟨late, rfl, unused'⟩ := second
  refine ⟨late ++ early, (List.append_assoc ..).symm, fun e member => ?_⟩
  exact (List.mem_append.mp member).elim (unused' e) (unused e)

theorem closing {other : Nat} {events : List (Event Snapshot)} (closing : Closing other events)
    (journal : List (Event Snapshot)) : Unused conn journal (events ++ journal) :=
  ⟨events, rfl, closing.not_uses⟩

/-- Nobody calls anything on the connection of a producer that is closed. -/
theorem of_disposed (audited : p.Audited) (inside : r < p.producers.length)
    (disposed : (p.get r).phase = .disposed) (path : Path p q) :
    Unused (p.get r).conn p.journal q.journal := by
  obtain ⟨since, whole⟩ := (Later.of_path path).journal
  refine ⟨since, whole.symm, fun e member => ?_⟩
  have once : closeCount (p.get r).conn p.journal = 1 := by
    rw [audited.closeCount_conn inside, if_pos disposed]
  obtain ⟨close, earlier, closes⟩ := List.countP_pos_iff.mp (Nat.lt_of_lt_of_eq Nat.zero_lt_one once.symm)
  have orderly : Orderly q.journal := Ledger.orderly (audited.path path)
  rw [← whole] at orderly
  have uncalled := (List.pairwise_append.mp orderly).2.2 e member close earlier (p.get r).conn closes
  simp [Event.uses, uncalled]

end Unused

namespace Pool

/-! ## The end of the factory -/

theorem shutLost_unused (E : Environment σ Snapshot) (r : Ref) (p : Pool σ Snapshot) :
    Unused conn p.journal (shutLost E r p).journal := by
  unfold shutLost
  split
  · obtain ⟨outside, events, closing, shut⟩ := shut_eq E r defaultCloseTimeout p
    rw [shut]
    exact .closing closing p.journal
  · exact .refl p.journal

theorem teardownIfUnowned_unused (E : Environment σ Snapshot) (p : Pool σ Snapshot) :
    Unused conn p.journal (teardownIfUnowned E p).journal := by
  have letGoAll (hs : List Handle) (p : Pool σ Snapshot) : Unused conn p.journal
      (hs.foldl (fun p h => shutLost E h.producer { p with pinned := p.pinned.erase h }) p).journal := by
    induction hs generalizing p with
    | nil => exact .refl p.journal
    | cons x hs ih =>
      exact (shutLost_unused E x.producer { p with pinned := p.pinned.erase x }).trans (ih _)
  unfold teardownIfUnowned
  split
  · exact .refl p.journal
  · unfold teardown
    rw [foldl_pin]
    exact letGoAll p.factory.handles _

theorem withFactory_unused {α : Type} {f : Pool σ Snapshot → Pool σ Snapshot × α}
    (inner : Unused conn p.journal (f { p with running := p.running + 1 }).1.journal) :
    Unused conn p.journal (p.withFactory E f).1.journal :=
  inner.trans (teardownIfUnowned_unused E _)

/-! ## Closing and letting go -/

theorem retire_unused (tame : E.Tame) (audited : p.Audited) (inside : h.producer < p.producers.length)
    (timeout : Duration) :
    Unused (p.get h.producer).conn p.journal (p.retire E h timeout).journal := by
  unfold retire
  split
  case isTrue => exact .refl p.journal
  case isFalse undisposed =>
    obtain ⟨outside, events, closing, shut⟩ := shut_eq E h.producer timeout p
    rw [shut]
    generalize retired : (p.closed h.producer outside events).onFactory
      (fun f => { f with live := f.live - 1 }) = m
    have step : Step p m := by
      rw [← retired]
      exact .retire p h.producer undisposed outside events closing
    have closed := get_closed h.producer h.producer outside events p
    rw [if_pos ⟨rfl, inside⟩] at closed
    have same : m.get h.producer = { p.get h.producer with phase := .disposed } := by
      rw [← retired]
      exact closed
    have still := Nat.lt_of_lt_of_le inside (Later.of_step step).producers.length
    have told := Unused.of_disposed (audited.step step) still (congrArg Producer.phase same)
      (tellAll_balanced tame .removed h m).path
    rw [same] at told
    refine Unused.trans ?_ told
    rw [← retired]
    exact .closing closing p.journal

/-- What happens to a producer after a reference to it has been given up. -/
theorem settle_unused (tame : E.Tame) (audited : p.Audited) (letsGo : p.LetsGo r q) :
    Unused (p.get r).conn p.journal (q.settle E r).journal := by
  have journal : q.journal = p.journal := letsGo.journal
  have same : q.get r = p.get r := by rw [get, letsGo.producers]; rfl
  unfold settle
  split
  case isFalse kept =>
    rw [journal]
    exact .refl p.journal
  case isTrue lost =>
    obtain ⟨outside, events, closing, shut⟩ := shut_eq E r defaultCloseTimeout q
    have undisposed := (isLost_iff.mp lost).2
    have inside := lt_of_phase undisposed
    have closed := get_closed r r outside events q
    rw [if_pos ⟨rfl, inside⟩] at closed
    have shuts : Unused (p.get r).conn p.journal (q.closed r outside events).journal := by
      rw [← journal]
      exact .closing closing q.journal
    simp only [shut]
    split
    case isFalse => exact shuts
    case isTrue accounted =>
      obtain ⟨owned, alive⟩ := Bool.and_eq_true_iff.mp accounted
      rw [closed] at owned
      have announced : Step p _ := .lostOwned p r q letsGo lost owned alive outside events closing
      have length : (q.closed r outside events).producers.length = q.producers.length :=
        List.length_modify ..
      have told := (withinFactory_reportLost tame r (q.closed r outside events) _ rfl).1
      rw [closed, length] at told
      have copied : ((q.closed r outside events).producers ++ [(q.get r).closedCopy]).getD r .absent =
          { q.get r with phase := .disposed } := by
        rw [getD_append, length, if_neg (Nat.ne_of_lt inside)]
        exact closed
      have known : r < ((q.closed r outside events).producers ++ [(q.get r).closedCopy]).length := by
        rw [List.length_append, length]
        exact Nat.lt_add_right 1 inside
      have quiet := Unused.of_disposed (r := r) (audited.step announced) known
        (congrArg Producer.phase copied) told.path
      rw [← same]
      exact (same ▸ shuts).trans (congrArg Producer.conn copied ▸ quiet)

theorem unpin_unused (tame : E.Tame) (audited : p.Audited) (h : Handle) :
    Unused (p.get h.producer).conn p.journal (p.unpin E h).journal :=
  settle_unused tame audited (.pinned h)

/-! ## Closing a handle -/

theorem takeBack_unused (tame : E.Tame) (audited : p.Audited) (there : h ∈ p.pinned)
    (inside : h.producer < p.producers.length) (timeout : Duration) :
    Unused (p.get h.producer).conn p.journal (p.takeBack E h timeout).journal := by
  unfold takeBack
  dsimp only
  split
  case isTrue => exact .refl p.journal
  case isFalse opened =>
  split
  case isTrue healthy =>
    split
    · rw [shelve_healthy _ timeout (Classical.not_not.mp opened) healthy]
      exact .refl p.journal
    · exact .refl p.journal
    · exact .refl p.journal
  case isFalse =>
    split
    case h_1 => exact retire_unused tame audited inside timeout
    case h_2 =>
      have left := (letGo_balanced (.shared h.producer) there rfl).path
      exact retire_unused (p := p.unshare h.producer) tame (audited.path left) inside timeout
    case h_3 t _ =>
      have left := (letGo_balanced (.bound t h.producer) there rfl).path
      exact retire_unused (p := p.unbind t h.producer) tame (audited.path left) inside timeout

theorem close_unused (tame : E.Tame) (audited : p.Audited) (there : h ∈ p.handles)
    (inside : h.producer < p.producers.length) (timeout : Option Duration) :
    Unused (p.get h.producer).conn p.journal (p.close E h timeout).journal := by
  unfold close
  split
  case isTrue => exact .refl p.journal
  case isFalse =>
  split
  case isTrue accounted =>
    have alive := (Bool.and_eq_true_iff.mp accounted).2
    have pinned : Path p (p.pin h) := (pin_leads there).path
    have entered : Path p { p.pin h with running := (p.pin h).running + 1 } :=
      pinned.tail (.recount (p.pin h) p.owners ((p.pin h).running + 1) alive (by omega))
    have taken := takeBack_unused (p := { p.pin h with running := (p.pin h).running + 1 }) tame
      (audited.path entered) List.mem_cons_self inside
      (timeout.getD (p.pin h).factory.config.closeTimeout)
    have left : Unused (p.get h.producer).conn (p.pin h).journal ((p.pin h).withinFactory E
        (takeBack E h (timeout.getD (p.pin h).factory.config.closeTimeout))).journal :=
      withFactory_unused (p := p.pin h) taken
    have balanced := withinFactory_balanced (E := E) (p := p.pin h) alive (takeBack_balanced
      (p := { p.pin h with running := (p.pin h).running + 1 }) tame
      (timeout.getD (p.pin h).factory.config.closeTimeout) List.mem_cons_self
      (alive_of_running (Nat.succ_pos _)))
    have released := unpin_unused tame (audited.path (pinned.trans balanced.path)) h
    rw [((Later.of_path balanced.path).get inside).conn] at released
    exact left.trans released
  case isFalse =>
    unfold shutHandle
    split
    · exact .refl p.journal
    · obtain ⟨outside, events, closing, shut⟩ :=
        shut_eq E h.producer (timeout.getD defaultCloseTimeout) p
      rw [shut]
      exact .closing closing p.journal

end Pool

end ProducerPool
