import ProducerPool.Proofs.Invariant.Lifetime

/-!
# Working through a handle keeps invariants

The operations on a handle, the deliveries, and what becomes of a handle when it is closed.
-/

set_option autoImplicit false

namespace ProducerPool

variable {σ : Type} {E : Environment σ Snapshot} {I : Invariant σ} {p q : Pool σ Snapshot}
  {due left : List Duty} {h : Handle} {r : Ref}

theorem Invariant.spoil (holds : I.holds due p) (r : Ref) (error : ClientError) :
    I.holds due (p.spoil r error) := by
  unfold Pool.spoil
  dsimp only
  split
  · exact holds
  · rename_i sound
    refine I.still holds (.spoil p r error _ (by simpa using sound)) ?_ (Pool.length_modify ..)
      (.modify (r := r) rfl fun _ back => back)
    have stays := Pool.Stays.modify p r (fun x => { x with failure := some error }) (fun _ => rfl)
      (fun _ => rfl) fun _ => rfl
    exact ⟨stays.alive, stays.places, stays.tellings, stays.producers⟩

theorem Invariant.deliver {callback : Nat → Outcome → Pool σ Snapshot → Pool σ Snapshot}
    {d : Delivery} {outcome : Outcome} (holds : I.holds due p)
    (runs : ∀ p, I.holds due p → I.holds due (callback d.callback outcome p)) :
    I.holds due (p.deliver callback d outcome) := by
  have called (q : Pool σ Snapshot) (spoiled : I.holds due q) :
      I.holds due ((callback d.callback outcome (q.record (.delivering d outcome))).record
        (.delivered d)) :=
    I.note (runs _ (I.note spoiled _ rfl rfl)) _ rfl rfl
  refine called _ ?_
  split
  · split
    · exact I.spoil holds _ _
    · exact holds
  · exact holds

theorem Invariant.shutHandle (E : Environment σ Snapshot) (holds : I.holds due p) (h : Handle)
    (timeout : Duration) (alone : p.alive = true → (p.get h.producer).owned = false) :
    I.holds due (p.shutHandle E h timeout).1 := by
  unfold Pool.shutHandle
  split
  · exact holds
  · rename_i undisposed
    obtain ⟨outside, events, closing, shut⟩ := Pool.shut_eq E h.producer timeout p
    rw [shut]
    have gone : p.alive = false := by
      -- A producer that is not closed is accounted for by a factory that exists.
      have owned := (I.regular holds).named.owned h.producer (Pool.lt_of_phase undisposed) undisposed
      cases lives : p.alive with
      | false => rfl
      | true => cases owned.symm.trans (alone lives)
    exact I.move holds (.shut due p _ h.producer
      (.shut p h.producer undisposed alone outside events closing) gone
      (.closed p undisposed outside closing) (Pool.length_closed ..) (.closed h.producer outside events))

namespace Pool

theorem Placed.apart_of_shared (placed : p.Placed) (shared : (p.get r).placement = .shared)
    (other : ∀ h, p.factory.shared = some h → h.producer ≠ r) : p.Apart r := by
  rintro h there rfl
  rcases Factory.mem_handles.mp there with found | ⟨t, seated⟩ | ⟨key, parked⟩
  · exact other h found rfl
  · cases shared.symm.trans (placed.bound t h seated)
  · cases shared.symm.trans (placed.parked key h parked).1

theorem Placed.apart_of_bound (placed : p.Placed) {t : ThreadId}
    (bound : (p.get r).placement = .thread t)
    (other : ∀ h, (t, h) ∈ p.factory.threads → h.producer ≠ r) : p.Apart r := by
  rintro h there rfl
  rcases Factory.mem_handles.mp there with found | ⟨u, seated⟩ | ⟨key, parked⟩
  · cases bound.symm.trans (placed.shared h found)
  · obtain rfl : t = u := Placement.thread.inj (bound.symm.trans (placed.bound u h seated))
    exact other h seated rfl
  · cases bound.symm.trans (placed.parked key h parked).1

theorem Placed.apart_of_vacates (placed : q.Placed) (vacates : p.Vacates r q) : q.Apart r := by
  have same := vacates.get r
  cases vacates with
  | shared shared =>
    refine placed.apart_of_shared (by rw [same]; exact shared) fun x found => ?_
    simpa using (Option.filter_eq_some_iff.mp found).2
  | bound t bound =>
    refine placed.apart_of_bound (by rw [same]; exact bound) fun x seated => ?_
    simpa using (List.mem_filter.mp seated).2

end Pool

namespace Environment.Upholds

variable (up : E.Upholds I)
include up

/-! ## Calls and deliveries -/

theorem callHandle (holds : I.holds due p) (may : p.refusal? h = none) (call : HandleCall) :
    I.holds due (Pool.callHandle E (p.get h.producer).conn call p).1 := by
  have called : I.holds due (p.record (.called (p.get h.producer).conn call.toRaw)) :=
    I.rest holds (.call p h call.toRaw may
      (by cases call <;> simp [HandleCall.toRaw, RawCall.operation])) (.note p _ rfl) rfl
  have ran := up.hook _ (.call (p.get h.producer).conn call) due _ called
  exact I.note ran _ (by cases call <;> rfl) rfl

theorem callSend (holds : I.holds due p) (may : p.refusal? h = none) (r : Record) (d : Delivery) :
    I.holds due (Pool.callSend E (p.get h.producer).conn r d p).1 := by
  have called : I.holds due (p.record (.called (p.get h.producer).conn (.send r.topic))) :=
    I.rest holds (.call p h (.send r.topic) may (by simp [RawCall.operation])) (.note p _ rfl) rfl
  have ran := up.hook _ (.send (p.get h.producer).conn r d) due _ called
  exact I.note ran _ rfl rfl

theorem operate (holds : I.holds due p) (there : h ∈ p.handles) (call : HandleCall) :
    I.holds due (p.operate E h call).1 := by
  unfold Pool.operate
  split
  · exact holds
  · rename_i may
    refine up.withHandle holds there fun holds => ?_
    have called := up.callHandle holds may call
    rcases answer : Pool.callHandle E ((p.pin h).get h.producer).conn call (p.pin h) with
      ⟨p', error | done⟩
    all_goals rw [answer] at called
    · dsimp only
      split
      · exact I.spoil called _ _
      · exact called
    · exact called

theorem send (holds : I.holds due p) (there : h ∈ p.handles) (r : Record) (callback : Nat) :
    I.holds due (p.send E h r callback).1 := by
  unfold Pool.send
  split
  · exact holds
  · rename_i may
    refine up.withHandle holds there fun holds => ?_
    have called := up.callSend holds may r ⟨h.producer, callback⟩
    rcases answer : Pool.callSend E ((p.pin h).get h.producer).conn r ⟨h.producer, callback⟩ (p.pin h)
      with ⟨p', error | done⟩
    all_goals rw [answer] at called
    · dsimp only
      split
      · exact I.spoil called _ _
      · exact called
    · exact called

/-! ## Closing a handle -/

theorem takeBack (holds : I.holds due p) (timeout : Duration) (there : h ∈ p.pinned)
    (alive : p.alive = true) (lease : (p.get h.producer).lease = h.lease)
    (parks : (p.get h.producer).phase = .opened → p.isHealthy h = true → I.parks h) :
    I.holds due (p.takeBack E h timeout) := by
  unfold Pool.takeBack
  dsimp only
  split
  case isTrue => exact holds
  case isFalse opened =>
  split
  case isTrue healthy =>
    split
    case h_1 key pooled =>
      have opened : (p.get h.producer).phase = .opened := by simpa using opened
      have may := parks opened healthy
      have current := (Pool.isHealthy_iff.mp healthy).1.2
      rw [Pool.shelve_healthy key timeout opened healthy]
      exact I.move holds (.shelve due p h key may lease (Pool.mem_handles_of_pinned there) opened
        pooled current alive)
    case h_2 => exact holds
    case h_3 =>
      have may := parks (by simpa using opened) healthy
      exact I.move holds (.checkIn due p h may lease)
  case isFalse =>
    have inside := (I.regular holds).ordered.genuine.inside (Pool.mem_handles_of_pinned there)
    split
    case h_1 key pooled => exact up.retire holds h timeout (.used due (by simpa using opened) key pooled)
    case h_2 shared =>
      refine (up.hears .removed).retireExposed holds (.unshare due p inside shared ?_) timeout (.due due)
      exact .kept p h.producer _ (.shared h.producer) (Pool.isLost_of_pinned there)
    case h_3 t bound =>
      have vacated : I.holds (.close h.producer :: due) (p.unbind t h.producer) :=
        I.move holds (.unbind due p h.producer inside t bound
          (.kept p h.producer _ (.bound t h.producer) (Pool.isLost_of_pinned there)))
      exact up.retire vacated h timeout (.due due)

/-- Only a handle that is open and healthy is parked by its close. -/
theorem close (holds : I.holds due p) (there : h ∈ p.handles) (timeout : Option Duration)
    (parks : (p.get h.producer).phase = .opened → p.isHealthy h = true → I.parks h) :
    I.holds due (p.close E h timeout) := by
  unfold Pool.close
  split
  case isTrue => exact holds
  case isFalse current =>
  have lease : (p.get h.producer).lease = h.lease := Classical.not_not.mp current
  split
  case isTrue accounted =>
    have alive := (Bool.and_eq_true_iff.mp accounted).2
    refine up.withHandle holds there fun holds => ?_
    have balanced := Pool.takeBack_balanced (p := { p.pin h with running := (p.pin h).running + 1 })
      up.tame (timeout.getD (p.pin h).factory.config.closeTimeout) List.mem_cons_self
      (Pool.alive_of_running (Nat.succ_pos _))
    refine I.withinFactory E holds alive balanced fun holds => ?_
    exact up.takeBack holds _ List.mem_cons_self (Pool.alive_of_running (Nat.succ_pos _)) lease parks
  case isFalse alone =>
    refine I.shutHandle E holds h _ fun alive => ?_
    simpa [alive] using alone

end Environment.Upholds

end ProducerPool
