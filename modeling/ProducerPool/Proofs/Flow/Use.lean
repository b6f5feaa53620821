import ProducerPool.Proofs.Flow.Lifetime

/-!
# Working through a handle is a path

The operations on a handle, the deliveries, and what becomes of a handle when it is closed.
-/

set_option autoImplicit false

namespace ProducerPool.Pool

variable {σ : Type} {E : Environment σ Snapshot} {p q : Pool σ Snapshot} {pins : Multiset Handle}

/-! ## Holding a handle meanwhile -/

theorem unpin_leads (tame : E.Tame) (h : Handle) (p : Pool σ Snapshot) :
    Leads p (p.unpin E h) ((p.pinned : Multiset Handle).erase h) := by
  rw [Multiset.coe_erase]
  exact settle_leads tame (.pinned h)

theorem drop_balanced (tame : E.Tame) (h : Handle) (p : Pool σ Snapshot) :
    Balanced p (p.drop E h) := settle_leads tame (.held h)

/-- An operation lets go of a handle that it holds beside `pins`. -/
theorem unpin_of_cons (tame : E.Tame) {h : Handle} (before : Leads p q (h ::ₘ pins)) :
    Leads p (q.unpin E h) pins := by
  have left : ((q.pinned : Multiset Handle).erase h) = pins := by
    rw [before.pinned, Multiset.erase_cons_head]
  have after := unpin_leads tame h q
  rw [left] at after
  exact before.trans after (Multiset.inter_le_right.trans (Multiset.le_cons_self pins h))

theorem unpinAll_leads (tame : E.Tame) (hs : List Handle) (before : Leads p q (hs + pins)) :
    Leads p (q.unpinAll E hs) pins := by
  induction hs generalizing q with
  | nil => rwa [Multiset.coe_nil, Multiset.zero_add] at before
  | cons h hs ih =>
    rw [← Multiset.cons_coe, Multiset.cons_add] at before
    exact ih (unpin_of_cons tame before)

theorem pin_leads {h : Handle} (there : h ∈ p.handles) : Leads p (p.pin h) (h ::ₘ p.pinned) :=
  .step (.pin p h there) rfl rfl

theorem withHandle_balanced {α : Type} (tame : E.Tame) {h : Handle} (there : h ∈ p.handles)
    {f : Pool σ Snapshot → Pool σ Snapshot × α} (inner : Balanced (p.pin h) (f (p.pin h)).1) :
    Balanced p (p.withHandle E h f).1 :=
  unpin_of_cons tame ((pin_leads there).balanced inner)

/-! ## Calls and deliveries -/

theorem spoil_balanced (r : Ref) (error : ClientError) (p : Pool σ Snapshot) :
    Balanced p (p.spoil r error) := by
  unfold spoil
  dsimp only
  split
  · exact .refl p
  · rename_i sound
    exact .step (.spoil p r error _ (by simpa using sound)) rfl rfl

theorem callHandle_balanced (tame : E.Tame) {h : Handle} (may : p.refusal? h = none)
    (call : HandleCall) : Balanced p (callHandle E (p.get h.producer).conn call p).1 := by
  have called : Balanced p (p.record (.called (p.get h.producer).conn call.toRaw)) :=
    .step (.call p h call.toRaw may
      (by cases call <;> simp [HandleCall.toRaw, RawCall.operation])) rfl rfl
  have ran := called.balanced (tame _ (.call (p.get h.producer).conn call) _)
  exact ran.balanced (.note _ _ (by cases call <;> rfl))

theorem callSend_balanced (tame : E.Tame) {h : Handle} (may : p.refusal? h = none) (r : Record)
    (d : Delivery) : Balanced p (callSend E (p.get h.producer).conn r d p).1 := by
  have called : Balanced p (p.record (.called (p.get h.producer).conn (.send r.topic))) :=
    .step (.call p h (.send r.topic) may (by simp [RawCall.operation])) rfl rfl
  have ran := called.balanced (tame _ (.send (p.get h.producer).conn r d) _)
  exact ran.balanced (.note _ _ rfl)

theorem operate_balanced (tame : E.Tame) {h : Handle} (there : h ∈ p.handles) (call : HandleCall) :
    Balanced p (p.operate E h call).1 := by
  unfold operate
  split
  · exact .refl p
  · rename_i may
    refine withHandle_balanced tame there ?_
    have called := callHandle_balanced (p := p.pin h) tame may call
    rcases answer : callHandle E ((p.pin h).get h.producer).conn call (p.pin h) with ⟨p', error | done⟩
    all_goals rw [answer] at called
    · dsimp only
      split
      · exact called.balanced (spoil_balanced _ _ _)
      · exact called
    · exact called

theorem send_balanced (tame : E.Tame) {h : Handle} (there : h ∈ p.handles) (r : Record)
    (callback : Nat) : Balanced p (p.send E h r callback).1 := by
  unfold send
  split
  · exact .refl p
  · rename_i may
    refine withHandle_balanced tame there ?_
    have called := callSend_balanced (p := p.pin h) tame may r ⟨h.producer, callback⟩
    rcases answer : callSend E ((p.pin h).get h.producer).conn r ⟨h.producer, callback⟩ (p.pin h) with
      ⟨p', error | done⟩
    all_goals rw [answer] at called
    · dsimp only
      split
      · exact called.balanced (spoil_balanced _ _ _)
      · exact called
    · exact called

theorem deliver_balanced {callback : Nat → Outcome → Pool σ Snapshot → Pool σ Snapshot}
    {d : Delivery} {outcome : Outcome} (tame : ∀ p, Balanced p (callback d.callback outcome p))
    (p : Pool σ Snapshot) : Balanced p (p.deliver callback d outcome) := by
  have called (q : Pool σ Snapshot) (spoiled : Balanced p q) :
      Balanced p ((callback d.callback outcome (q.record (.delivering d outcome))).record
        (.delivered d)) :=
    ((spoiled.balanced (.note _ _ rfl)).balanced (tame _)).balanced (.note _ _ rfl)
  refine called _ ?_
  split
  · split
    · exact spoil_balanced _ _ _
    · exact .refl p
  · exact .refl p

/-! ## Closing a handle -/

theorem isLost_of_pinned {h : Handle} (there : h ∈ p.pinned) : p.isLost h.producer = false := by
  have referenced : p.referenced h.producer = true :=
    List.any_eq_true.mpr ⟨h, mem_handles_of_pinned there, by simp⟩
  simp [isLost, referenced]

/-- The factory gives up a place of a producer that the operation in progress holds. -/
theorem letGo_balanced {h : Handle} (letsGo : p.LetsGo h.producer q) (there : h ∈ q.pinned)
    (pinned : q.pinned = p.pinned) : Balanced p q :=
  .step (.kept p h.producer q letsGo (isLost_of_pinned there)) (by rw [pinned]) letsGo.running

theorem shelve_balanced {h : Handle} {key : String} (timeout : Duration) (there : h ∈ p.pinned)
    (opened : (p.get h.producer).phase = .opened) (healthy : p.isHealthy h = true)
    (placed : (p.get h.producer).placement = .pooled key) (alive : p.alive = true) :
    Balanced p (p.shelve E h key timeout) := by
  have current := (isHealthy_iff.mp healthy).1.2
  rw [shelve_healthy key timeout opened healthy]
  exact .step (.shelve p h key (mem_handles_of_pinned there) opened placed current alive) rfl rfl

theorem takeBack_balanced (tame : E.Tame) {h : Handle} (timeout : Duration) (there : h ∈ p.pinned)
    (alive : p.alive = true) : Balanced p (p.takeBack E h timeout) := by
  unfold takeBack
  dsimp only
  split
  case isTrue => exact .refl p
  case isFalse opened =>
  split
  case isTrue healthy =>
    split
    case h_1 key placed =>
      exact shelve_balanced timeout there (Classical.not_not.mp opened) healthy placed alive
    case h_2 => exact .refl p
    case h_3 => exact .step (.check p h.producer false) rfl rfl
  case isFalse =>
    split
    case h_1 => exact retire_balanced tame h timeout p
    case h_2 =>
      exact (letGo_balanced (.shared h.producer) there rfl).balanced (retire_balanced tame h timeout _)
    case h_3 t _ =>
      exact (letGo_balanced (.bound t h.producer) there rfl).balanced (retire_balanced tame h timeout _)

theorem shutHandle_balanced (E : Environment σ Snapshot) (h : Handle) (timeout : Duration)
    (alone : p.alive = true → (p.get h.producer).owned = false) :
    Balanced p (p.shutHandle E h timeout).1 := by
  unfold shutHandle
  split
  · exact .refl p
  · rename_i undisposed
    obtain ⟨outside, events, closing, shut⟩ := shut_eq E h.producer timeout p
    rw [shut]
    exact .step (.shut p h.producer undisposed alone outside events closing) rfl rfl

theorem close_balanced (tame : E.Tame) {h : Handle} (there : h ∈ p.handles)
    (timeout : Option Duration) : Balanced p (p.close E h timeout) := by
  unfold close
  split
  case isTrue => exact .refl p
  case isFalse =>
  split
  case isTrue accounted =>
    have alive := (Bool.and_eq_true_iff.mp accounted).2
    refine withHandle_balanced tame there (withinFactory_balanced alive ?_)
    exact takeBack_balanced tame _ List.mem_cons_self (alive_of_running (Nat.succ_pos _))
  case isFalse alone =>
    refine shutHandle_balanced E h _ fun alive => ?_
    simpa [alive] using alone

end ProducerPool.Pool
