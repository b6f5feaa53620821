import ProducerPool.Proofs.Flow.Lifetime

/-!
# Relations that operations keep

What a close or a notification does to a pool can be told by a relation between the pools before and
after it, if the relation is kept by the few things that happen on the way and by the code that listeners
run.
-/

set_option autoImplicit false

namespace ProducerPool

variable {σ : Type} {E : Environment σ Snapshot} {R : Pool σ Snapshot → Pool σ Snapshot → Prop}
  {p q : Pool σ Snapshot} {kind : NoticeKind}

/-! ## Notifications -/

/-- The relation is kept by listeners that are told of this kind of thing, and by what is written down
about it. -/
structure Environment.Relates (E : Environment σ Snapshot) (kind : NoticeKind)
    (R : Pool σ Snapshot → Pool σ Snapshot → Prop) : Prop where
  refl : ∀ p, R p p
  trans : ∀ {p q s}, R p q → R q s → R p s
  note : ∀ p e, R p (p.record e)
  hears : ∀ listener notice p, notice.kind = kind → R p (E.listen listener notice p).1

namespace Environment.Relates

variable (relates : E.Relates kind R)
include relates

theorem foldl {α : Type} {f : Pool σ Snapshot → α → Pool σ Snapshot} (each : ∀ p x, R p (f p x))
    (xs : List α) (p : Pool σ Snapshot) : R p (xs.foldl f p) := by
  induction xs generalizing p with
  | nil => exact relates.refl p
  | cons x xs ih => exact relates.trans (each p x) (ih _)

theorem tellAll (h : Handle) (p : Pool σ Snapshot) : R p (p.tellAll E kind h) := by
  have tell (notice : Notice) (same : notice.kind = kind) (p : Pool σ Snapshot) (listener : String) :
      R p (p.tell E notice listener) := by
    have told := relates.note p (.notifying listener notice (p.get notice.handle.producer))
    have heard := relates.trans told (relates.hears listener notice _ same)
    have ended := relates.trans heard (relates.note _ (.notified listener notice))
    simp only [Pool.tell]
    split
    · exact ended
    · exact relates.trans ended (relates.note _ _)
  unfold Pool.tellAll
  split
  · exact relates.refl p
  · exact relates.foldl (tell _ rfl) _ p

end Environment.Relates

/-! ## Closes -/

/-- The relation is about the factory, and about whether it exists; how many producers live does not
matter. -/
structure Environment.Carries (E : Environment σ Snapshot)
    (R : Pool σ Snapshot → Pool σ Snapshot → Prop) : Prop extends E.Relates .removed R where
  still : ∀ p q live, q.alive = p.alive → q.factory = { p.factory with live := live } → R p q
  /-- An operation is done with the factory. -/
  leave : ∀ p, R p (Pool.teardownIfUnowned E { p with running := p.running - 1 })

namespace Environment.Carries

variable (carries : E.Carries R)
include carries

theorem shut (r : Ref) (timeout : Duration) (p : Pool σ Snapshot) : R p (p.shut E r timeout) := by
  obtain ⟨outside, events, -, shut⟩ := Pool.shut_eq E r timeout p
  rw [shut]
  exact carries.still p _ p.factory.live rfl rfl

theorem retire (h : Handle) (timeout : Duration) (p : Pool σ Snapshot) : R p (p.retire E h timeout) := by
  unfold Pool.retire
  split
  · exact carries.refl p
  · obtain ⟨outside, events, -, shut⟩ := Pool.shut_eq E h.producer timeout p
    rw [shut]
    refine carries.trans ?_ (carries.tellAll h _)
    exact carries.still p _ (p.factory.live - 1) rfl rfl

theorem retireAll (timeout : Duration) (hs : List Handle) (p : Pool σ Snapshot) :
    R p (p.retireAll E timeout hs) := carries.foldl (fun p h => carries.retire h timeout p) hs p

/-- An operation that keeps a living factory alive while it works. -/
theorem withFactory {α : Type} {f : Pool σ Snapshot → Pool σ Snapshot × α} (alive : p.alive = true)
    (inner : R { p with running := p.running + 1 } (f { p with running := p.running + 1 }).1) :
    R p (p.withFactory E f).1 := by
  have entered : R p { p with running := p.running + 1 } := by
    refine carries.still p _ p.factory.live ?_ rfl
    rw [alive]
    exact Pool.alive_of_running (Nat.succ_pos _)
  exact carries.trans (carries.trans entered inner) (carries.leave _)

theorem withinFactory {f : Pool σ Snapshot → Pool σ Snapshot} (alive : p.alive = true)
    (inner : R { p with running := p.running + 1 } (f { p with running := p.running + 1 })) :
    R p (p.withinFactory E f) := carries.withFactory (f := fun p => (f p, ())) alive inner

theorem reportLost (r : Ref) (p : Pool σ Snapshot) : R p (p.reportLost E r) := by
  unfold Pool.reportLost
  generalize listed : (p.onFactory fun f => { f with live := f.live - 1 }).enlist (p.get r).closedCopy = m
  have copied : R p (m.1.pin ⟨m.2, 0⟩) := by
    rw [← listed]
    exact carries.still p _ (p.factory.live - 1) rfl rfl
  exact carries.trans (carries.trans copied (carries.tellAll ⟨m.2, 0⟩ _))
    (carries.still _ _ _ rfl rfl)

theorem settle (r : Ref) (p : Pool σ Snapshot) : R p (p.settle E r) := by
  have closed := carries.shut r defaultCloseTimeout p
  unfold Pool.settle
  split
  case isFalse => exact carries.refl p
  case isTrue =>
    dsimp only
    split
    case isFalse => exact closed
    case isTrue accounted =>
      exact carries.trans closed (carries.withFactory (Bool.and_eq_true_iff.mp accounted).2
        (carries.reportLost r _))

theorem unpin (h : Handle) (p : Pool σ Snapshot) : R p (p.unpin E h) := by
  refine carries.trans ?_ (carries.settle h.producer _)
  exact carries.still p _ p.factory.live rfl rfl

theorem unpinAll (hs : List Handle) (p : Pool σ Snapshot) : R p (p.unpinAll E hs) :=
  carries.foldl (fun p h => carries.unpin h p) hs p

theorem drop (h : Handle) (p : Pool σ Snapshot) : R p (p.drop E h) := by
  refine carries.trans ?_ (carries.settle h.producer _)
  exact carries.still p _ p.factory.live rfl rfl

theorem withHandle {α : Type} {h : Handle} {f : Pool σ Snapshot → Pool σ Snapshot × α}
    (inner : R (p.pin h) (f (p.pin h)).1) : R p (p.withHandle E h f).1 := by
  have pinned : R p (p.pin h) := carries.still p _ p.factory.live rfl rfl
  exact carries.trans (carries.trans pinned inner) (carries.unpin h _)

theorem retireTogether (hs : List Handle) (p : Pool σ Snapshot) : R p (p.retireTogether E hs) := by
  rw [Pool.retireTogether, Pool.foldl_pin]
  refine carries.trans (carries.trans ?_ (carries.retireAll _ hs _)) (carries.unpinAll hs _)
  exact carries.still p _ p.factory.live rfl rfl

theorem retireInTurn (timeout : Duration) (hs : List Handle) (p : Pool σ Snapshot) :
    R p (p.retireInTurn E timeout hs) := by
  have inTurn := carries.foldl (f := fun p h => (p.retire E h timeout).unpin E h)
    (fun p h => carries.trans (carries.retire h timeout p) (carries.unpin h _)) hs
  rw [Pool.retireInTurn, Pool.foldl_pin]
  refine carries.trans ?_ (inTurn _)
  exact carries.still p _ p.factory.live rfl rfl

theorem close {h : Handle} (timeout : Option Duration)
    (takesBack : ∀ timeout, R { p.pin h with running := (p.pin h).running + 1 }
      (Pool.takeBack E h timeout { p.pin h with running := (p.pin h).running + 1 })) :
    R p (p.close E h timeout) := by
  unfold Pool.close
  split
  case isTrue => exact carries.refl p
  case isFalse =>
  split
  case isTrue accounted =>
    exact carries.withHandle (carries.withinFactory (p := p.pin h)
      (Bool.and_eq_true_iff.mp accounted).2 (takesBack _))
  case isFalse =>
    unfold Pool.shutHandle
    split
    · exact carries.refl p
    · exact carries.shut h.producer _ p

end Environment.Carries

/-! ## The end of the factory -/

namespace Pool

theorem teardown_emptied (E : Environment σ Snapshot) (p : Pool σ Snapshot) :
    (p.teardown E).factory = p.factory.emptied ∧ (p.teardown E).alive = p.alive := by
  have letGo (p : Pool σ Snapshot) (h : Handle) :
      (shutLost E h.producer { p with pinned := p.pinned.erase h }).factory = p.factory ∧
        (shutLost E h.producer { p with pinned := p.pinned.erase h }).alive = p.alive := by
    unfold shutLost
    split
    · obtain ⟨outside, events, -, shut⟩ :=
        shut_eq E h.producer defaultCloseTimeout { p with pinned := p.pinned.erase h }
      rw [shut]
      exact ⟨rfl, rfl⟩
    · exact ⟨rfl, rfl⟩
  have letGoAll (hs : List Handle) (p : Pool σ Snapshot) :
      let q := hs.foldl (fun p h => shutLost E h.producer { p with pinned := p.pinned.erase h }) p
      q.factory = p.factory ∧ q.alive = p.alive := by
    induction hs generalizing p with
    | nil => exact ⟨rfl, rfl⟩
    | cons h hs ih => exact ⟨(ih _).1.trans (letGo p h).1, (ih _).2.trans (letGo p h).2⟩
  rw [teardown, foldl_pin]
  exact letGoAll p.factory.handles _

/-- A factory that somebody holds stays; one that nobody holds is gone, and nothing is left in it. -/
theorem teardownIfUnowned_cases (E : Environment σ Snapshot) (p : Pool σ Snapshot) :
    p.alive = true ∧ teardownIfUnowned E p = p ∨
      (teardownIfUnowned E p).alive = false ∧
        (teardownIfUnowned E p).factory = p.factory.emptied := by
  unfold teardownIfUnowned
  split
  case isTrue kept => exact Or.inl ⟨kept, rfl⟩
  case isFalse gone =>
    obtain ⟨factory, alive⟩ := teardown_emptied E p
    exact Or.inr ⟨alive.trans (by simpa using gone), factory⟩

end Pool

end ProducerPool
