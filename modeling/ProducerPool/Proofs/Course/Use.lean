import ProducerPool.Proofs.Course.Basic

/-!
# Closing, letting go and working through a handle

The operations that close connections, tell listeners, let go of handles and pass calls on are courses, if
the hooks of the environment are.
-/

set_option autoImplicit false

namespace ProducerPool

variable {σ : Type} {E : Environment σ Snapshot} {p q m : Pool σ Snapshot}

/-- The hooks of the environment are courses. -/
def Environment.Steers (E : Environment σ Snapshot) : Prop := ∀ f, E.Runs f → ∀ p, Course p (f p)

theorem Closing.idle {conn : Nat} {events : List (Event Snapshot)} (closing : Closing conn events) :
    ∀ e ∈ events, e.matters = false := by
  cases closing <;> simp [Event.matters, Operation.mishap?]

/-- The errors of a call that are mishaps are those that spoil. -/
theorem HandleCall.mishap?_eq (call : HandleCall) (error : ClientError) :
    call.toRaw.operation.mishap? (.error error) = if call.spoils error then some error else none := by
  cases call <;> rfl

namespace Pool

/-! ## Small changes -/

theorem still_pin (h : Handle) (p : Pool σ Snapshot) : p.Still (p.pin h) := .of_eq rfl rfl rfl

theorem still_closed {r : Ref} {events : List (Event Snapshot)} (p : Pool σ Snapshot) (outside : σ)
    (closing : Closing (p.get r).conn events) : p.Still (p.closed r outside events) := by
  have disposed : p.Still (p.modify r fun q => { q with phase := .disposed }) :=
    .modify p r _ (fun _ => rfl) fun _ => rfl
  have written := disposed.trans (Still.write _ closing.idle closing.unmarked)
  exact written.trans (.of_eq rfl rfl rfl)

theorem shut_still (E : Environment σ Snapshot) (r : Ref) (timeout : Duration) (p : Pool σ Snapshot) :
    p.Still (p.shut E r timeout) := by
  obtain ⟨outside, events, closing, shut⟩ := shut_eq E r timeout p
  rw [shut]
  exact still_closed p outside closing

theorem shutLost_still (E : Environment σ Snapshot) (r : Ref) (p : Pool σ Snapshot) :
    p.Still (p.shutLost E r) := by
  unfold shutLost
  split
  · exact shut_still E r defaultCloseTimeout p
  · exact .refl p

/-! ## The factory's own life -/

theorem teardownIfUnowned_course (E : Environment σ Snapshot) (p : Pool σ Snapshot) :
    Course p (p.teardownIfUnowned E) := by
  unfold teardownIfUnowned
  split
  · exact .refl p
  · have emptied : p.Still (p.onFactory Factory.emptied) := .of_eq rfl rfl rfl
    have pinned := Course.foldl (fun p h => .still (still_pin h p)) p.factory.handles
      (p.onFactory Factory.emptied)
    refine (Course.still emptied).trans (pinned.trans (.foldl (fun p h => ?_) _ _))
    have erased : p.Still { p with pinned := p.pinned.erase h } := .of_eq rfl rfl rfl
    exact .still (erased.trans (shutLost_still E h.producer _))

theorem dropFactory_course (E : Environment σ Snapshot) (p : Pool σ Snapshot) :
    Course p (p.dropFactory E) := by
  unfold dropFactory
  split
  · exact .refl p
  · have dropped : p.Still { p with owners := p.owners - 1 } := .of_eq rfl rfl rfl
    exact (Course.still dropped).trans (teardownIfUnowned_course E _)

/-- An operation on a pool to which something has happened already. -/
theorem withFactory_course {α : Type} {f : Pool σ Snapshot → Pool σ Snapshot × α}
    (inner : Course p (f { m with running := m.running + 1 }).1) :
    Course p (m.withFactory E f).1 := by
  refine inner.trans ?_
  simp only [withFactory]
  generalize (f { m with running := m.running + 1 }).1 = q
  have left : q.Still { q with running := q.running - 1 } := .of_eq rfl rfl rfl
  exact (Course.still left).trans (teardownIfUnowned_course E _)

theorem withinFactory_course {f : Pool σ Snapshot → Pool σ Snapshot}
    (inner : Course p (f { m with running := m.running + 1 })) : Course p (m.withinFactory E f) :=
  withFactory_course inner

theorem still_enter (p : Pool σ Snapshot) : p.Still { p with running := p.running + 1 } :=
  .of_eq rfl rfl rfl

section Hooks

variable (steers : E.Steers)
include steers

/-! ## Notifications -/

theorem tell_course (notice : Notice) (p : Pool σ Snapshot) (listener : String) :
    Course p (p.tell E notice listener) := by
  have told : p.Still (p.record (.notifying listener notice (p.get notice.handle.producer))) :=
    .record p rfl rfl
  have heard := (Course.still told).trans (steers _ (.listen listener notice) _)
  have ended := heard.trans (.still (.record _ (e := .notified listener notice) rfl rfl))
  simp only [tell]
  split
  · exact ended
  · exact ended.trans (.still (.log _ _))

theorem tellAll_course (kind : NoticeKind) (h : Handle) (p : Pool σ Snapshot) :
    Course p (p.tellAll E kind h) := by
  unfold tellAll
  split
  · exact .refl p
  · exact .foldl (tell_course steers _) _ p

theorem retire_course (h : Handle) (timeout : Duration) (p : Pool σ Snapshot) :
    Course p (p.retire E h timeout) := by
  unfold retire
  split
  · exact .refl p
  · have closed := Course.still (shut_still E h.producer timeout p)
    generalize p.shut E h.producer timeout = m at closed
    have counted : m.Still (m.onFactory fun f => { f with live := f.live - 1 }) := .of_eq rfl rfl rfl
    exact (closed.trans (.still counted)).trans (tellAll_course steers .removed h _)

/-! ## Letting go of handles -/

theorem reportLost_course {r : Ref} (owned : (p.get r).owned = true) :
    Course p (p.reportLost E r) := by
  have copied : p.Turns (p.essence.copied r)
      ((p.onFactory fun f => { f with live := f.live - 1 }).enlist (p.get r).closedCopy).1 := by
    refine ⟨?_, ⟨[], List.forall_mem_nil _, rfl⟩, fun shut s unowned => ?_⟩
    · rw [Essence.copied, essence_get]
      simp [essence, enlist, onFactory, Producer.essence, Producer.closedCopy]
    · have same := getD_append p.producers (p.get r).closedCopy s
      rw [get, enlist] at unowned ⊢
      dsimp only [onFactory] at unowned ⊢
      rw [same] at unowned ⊢
      split
      · rfl
      · rename_i old
        rw [if_neg old] at unowned
        exact shut s unowned
  have told := (Course.turn (.copy r owned) copied).trans
    ((Course.still (still_pin ⟨p.producers.length, 0⟩ _)).trans
      (tellAll_course steers .removed ⟨p.producers.length, 0⟩ _))
  exact told.trans (.still (.of_eq rfl rfl rfl))

theorem settle_course (r : Ref) (p : Pool σ Snapshot) : Course p (p.settle E r) := by
  unfold settle
  split
  · have closed := Course.still (shut_still E r defaultCloseTimeout p)
    dsimp only
    split
    · rename_i accounted
      have owned := (Bool.and_eq_true_iff.mp accounted).1
      refine closed.trans (withinFactory_course ((Course.still (still_enter _)).trans ?_))
      exact reportLost_course steers owned
    · exact closed
  · exact .refl p

theorem drop_course (h : Handle) (p : Pool σ Snapshot) : Course p (p.drop E h) := by
  have erased : p.Still { p with held := p.held.erase h } := .of_eq rfl rfl rfl
  exact (Course.still erased).trans (settle_course steers h.producer _)

theorem unpin_course (h : Handle) (p : Pool σ Snapshot) : Course p (p.unpin E h) := by
  have erased : p.Still { p with pinned := p.pinned.erase h } := .of_eq rfl rfl rfl
  exact (Course.still erased).trans (settle_course steers h.producer _)

/-- An operation disposes of a producer and lets go of it. -/
theorem discard_course (h : Handle) (timeout : Duration) (p : Pool σ Snapshot) :
    Course p ((p.retire E h timeout).unpin E h) :=
  (retire_course steers h timeout p).trans (unpin_course steers h _)

theorem withHandle_course {α : Type} {h : Handle} {f : Pool σ Snapshot → Pool σ Snapshot × α}
    (inner : Course (p.pin h) (f (p.pin h)).1) : Course p (p.withHandle E h f).1 := by
  have held := (Course.still (still_pin h p)).trans inner
  exact held.trans (unpin_course steers h _)

end Hooks

/-! ## Errors that make a producer unusable -/

theorem spoil_turns (r : Ref) (error : ClientError) (p : Pool σ Snapshot) :
    p.Turns (p.essence.spoil r error) (p.spoil r error) := by
  unfold spoil
  dsimp only
  split
  · rename_i spoiled
    refine ⟨?_, ⟨[], List.forall_mem_nil _, rfl⟩, id⟩
    have same := map_essence_modify p.producers r id
      (fun y => { y with failure := y.failure.or (some error) }) fun x there => by
        have here : p.get r = x := by simp [get, there]
        obtain ⟨first, failed⟩ := Option.isSome_iff_exists.mp (here ▸ spoiled)
        simp [Producer.essence, failed]
    rw [List.modify_id] at same
    simp only [essence, Essence.spoil, ← same]
  · rename_i sound
    refine ⟨?_, ⟨[_], by simp [Event.isMark], rfl⟩, fun shut s => ?_⟩
    · have same := map_essence_modify p.producers r (fun q => { q with failure := some error })
        (fun y => { y with failure := y.failure.or (some error) }) fun x there => by
          have here : p.get r = x := by simp [get, there]
          have none : x.failure = none := by simpa [Producer.isSpoiled, here] using sound
          simp [Producer.essence, none]
      simp only [essence, Essence.spoil, ← same]
      simp [modify, log, record, Event.matters]
    · have changed := getD_modify (fun q => { q with failure := some error }) p.producers r s
      rw [get, modify]
      dsimp only [log, record]
      rw [changed]
      split <;> exact shut s

/-- A reply is written down, and it makes the producer unusable if it is a mishap. -/
theorem answered_turns (r : Ref) (conn : Nat) (operation : Operation) (reply : Reply)
    (p : Pool σ Snapshot) {q : Pool σ Snapshot}
    (ends : q = match operation.mishap? reply with
      | none => p.record (.replied conn operation reply)
      | some error => (p.record (.replied conn operation reply)).spoil r error) :
    p.Turns (p.essence.answered r conn operation reply) q := by
  rw [ends, Essence.answered]
  cases mishap : operation.mishap? reply with
  | none =>
    exact Still.record p (by simp [Event.matters, mishap]) rfl
  | some error =>
    have written : p.Turns (p.essence.note (.replied conn operation reply))
        (p.record (.replied conn operation reply)) := .record p (by simp [Event.matters, mishap]) rfl
    have spoiled := spoil_turns r error (p.record (.replied conn operation reply))
    rw [written.essence] at spoiled
    exact written.trans spoiled

section Hooks

variable (steers : E.Steers)
include steers

theorem operate_course (h : Handle) (call : HandleCall) (p : Pool σ Snapshot) :
    Course p (p.operate E h call).1 := by
  unfold operate
  split
  · exact .refl p
  · rename_i may
    refine withHandle_course steers ?_
    have called : (p.pin h).Still ((p.pin h).record (.called (p.get h.producer).conn call.toRaw)) :=
      .record _ rfl rfl
    have inner := (Course.still called).trans (steers _ (.call (p.get h.producer).conn call) _)
    rcases asked : E.call (p.get h.producer).conn call
      ((p.pin h).record (.called (p.get h.producer).conn call.toRaw)) with ⟨m, reply⟩
    rw [asked] at inner
    have answer : callHandle E ((p.pin h).get h.producer).conn call (p.pin h) =
        (m.record (.replied (p.get h.producer).conn call.toRaw.operation reply), reply) := by
      simp only [callHandle, show ((p.pin h).get h.producer).conn = (p.get h.producer).conn from rfl,
        asked]
    rw [answer]
    refine Course.call h may inner call.toRaw.operation reply (answered_turns _ _ _ _ _ ?_)
    rcases reply with error | done
    · simp only [HandleCall.mishap?_eq]
      split <;> rfl
    · rfl

theorem send_course (h : Handle) (r : Record) (callback : Nat) (p : Pool σ Snapshot) :
    Course p (p.send E h r callback).1 := by
  unfold send
  split
  · exact .refl p
  · rename_i may
    refine withHandle_course steers ?_
    have called : (p.pin h).Still ((p.pin h).record (.called (p.get h.producer).conn (.send r.topic))) :=
      .record _ rfl rfl
    have inner := (Course.still called).trans
      (steers _ (.send (p.get h.producer).conn r ⟨h.producer, callback⟩) _)
    rcases asked : E.send (p.get h.producer).conn r ⟨h.producer, callback⟩
      ((p.pin h).record (.called (p.get h.producer).conn (.send r.topic))) with ⟨m, reply⟩
    rw [asked] at inner
    have answer : callSend E ((p.pin h).get h.producer).conn r ⟨h.producer, callback⟩ (p.pin h) =
        (m.record (.replied (p.get h.producer).conn .send reply), reply) := by
      simp only [callSend, show ((p.pin h).get h.producer).conn = (p.get h.producer).conn from rfl,
        asked]
    rw [answer]
    refine Course.call h may inner .send reply (answered_turns _ _ _ _ _ ?_)
    rcases reply with error | done
    · simp only [Operation.mishap?]
      split <;> rfl
    · rfl

/-! ## Closing a handle -/

theorem takeBack_course (h : Handle) (timeout : Duration) (p : Pool σ Snapshot) :
    Course p (p.takeBack E h timeout) := by
  unfold takeBack
  dsimp only
  split
  · exact .refl p
  · rename_i opened
    rw [ne_eq, not_not] at opened
    split
    · rename_i healthy
      split
      · rename_i key placed
        have parked : p.Still (p.modify h.producer fun q => { q with phase := .cached }) :=
          .modify p h.producer _ (fun _ => rfl) fun disposed => by cases opened.symm.trans disposed
        rw [shelve_healthy key timeout opened healthy]
        exact .still (parked.trans (.of_eq rfl rfl rfl))
      · exact .refl p
      · exact .still (.modify p h.producer _ (fun _ => rfl) id)
    · split
      · exact retire_course steers h timeout p
      · have unshared : p.Still (p.unshare h.producer) := .of_eq rfl rfl rfl
        exact (Course.still unshared).trans (retire_course steers h timeout _)
      · rename_i t placed
        have unbound : p.Still (p.unbind t h.producer) := .of_eq rfl rfl rfl
        exact (Course.still unbound).trans (retire_course steers h timeout _)

theorem close_course (h : Handle) (timeout : Option Duration) (p : Pool σ Snapshot) :
    Course p (p.close E h timeout) := by
  unfold close
  split
  · exact .refl p
  · split
    · refine withHandle_course steers ?_
      exact withinFactory_course ((Course.still (still_enter _)).trans (takeBack_course steers h _ _))
    · unfold shutHandle
      split
      · exact .refl p
      · exact .still (shut_still E _ _ p)

end Hooks

/-- A delivery is completed, and the callback runs. -/
theorem deliver_course {callback : Nat → Outcome → Pool σ Snapshot → Pool σ Snapshot} {d : Delivery}
    {outcome : Outcome} (runs : ∀ p, Course p (callback d.callback outcome p)) (p : Pool σ Snapshot) :
    Course p.look (p.look.deliver callback d outcome) := by
  have ended (m : Pool σ Snapshot) : Course m ((callback d.callback outcome m).record (.delivered d)) :=
    (runs m).trans (.still (.record _ rfl rfl))
  have recorded (m : Pool σ Snapshot) : m.Turns (m.essence.note (.delivering d outcome))
      (m.record (.delivering d outcome)) := .record m rfl rfl
  unfold deliver
  refine Course.trans (.deliver p d outcome ?_) (ended _)
  rw [← p.essence_look]
  rcases outcome with error | done
  · have there : p.look.referenced d.producer = p.referenced d.producer := rfl
    dsimp only [Essence.delivered]
    rw [there]
    split
    · have spoiled := spoil_turns d.producer error p.look
      have noted := recorded (p.look.spoil d.producer error)
      rw [spoiled.essence] at noted
      exact spoiled.trans noted
    · exact recorded p.look
  · exact recorded p.look

end Pool

end ProducerPool
