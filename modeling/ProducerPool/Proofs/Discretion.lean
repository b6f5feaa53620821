import ProducerPool.Proofs.Dealings
import ProducerPool.Proofs.Destroyed
import ProducerPool.Proofs.Threads

/-!
# Runs whose listeners do not call back

Callbacks of sends, raw calls and units of work may do anything in such a run; only whoever is told of a
producer does no more than look at the pool.  Then nobody asks for a producer of a thread while the
thread's seat is free, and nobody destroys the factory while a request obtains its producer.
-/

set_option autoImplicit false

namespace ProducerPool

variable {σ : Type} {E : Environment σ Snapshot} {p q m : Pool σ Snapshot} {t : ThreadId}
  {config : Config}

/-- Code of callers under environments whose listeners do not call back. -/
inductive Discreetly {σ : Type} : Pool σ Snapshot → Pool σ Snapshot → Prop
  | done (p : Pool σ Snapshot) : Discreetly p p
  | act {p q : Pool σ Snapshot} (E : Environment σ Snapshot) (a : Act σ) (discreet : E.Discreet)
      (hooks : ∀ f, E.Runs f → ∀ p, Discreetly p.look (f p))
      (passed : ∀ f, a.Passes f → ∀ p, Discreetly p.look (f p))
      (allowed : a.Allowed p) (rest : Discreetly (a.run E p).look q) : Discreetly p q

theorem Discreetly.code (discreetly : Discreetly p q) : Code p q := by
  induction discreetly with
  | done p => exact .done p
  | act E a _ _ _ allowed _ hooks passed rest => exact .act E a hooks passed allowed rest

theorem Discreetly.reached {outside : σ} (discreetly : Discreetly (Pool.new config outside).look p) :
    Reached config p := ⟨outside, discreetly.code⟩

/-- Where code of callers does no more than look at the pool, listeners do not call back. -/
theorem Discreetly.perform (acts : List (Act σ)) (permits : p.Permits .quiet acts) :
    Discreetly p (p.perform .quiet acts) := by
  induction acts generalizing p with
  | nil => exact .done p
  | cons a rest ih =>
    obtain ⟨plain, allowed, permits⟩ := permits
    refine .act .quiet a Environment.quiet_discreet (fun f runs p => ?_)
      (fun f passes => absurd passes (Act.not_passes plain)) allowed (ih permits)
    cases runs <;> exact .done p.look

/-! ## Seats -/

theorem Looks.calm (looks : Looks p q) (ts : List ThreadId) : Calm ts p q := by
  induction looks with
  | done p => exact .done ts p
  | elsewhere outside _ rest =>
    refine .act .quiet (.elsewhere outside) (fun f runs p => ?_)
      (fun f passes => absurd passes (Act.not_passes rfl)) trivial (fun t asks => by cases asks)
      (fun t asks => by cases asks) rest
    cases runs <;> exact .done ts p.look

/-- Whoever hears of a removal asks for no producer at all. -/
theorem Discreetly.calm (discreetly : Discreetly p q) : Calm [] p q := by
  induction discreetly with
  | done p => exact .done [] p
  | act E a discreet _ _ allowed _ hooks passed rest =>
    exact .act E a hooks passed allowed (fun _ _ => List.not_mem_nil)
      (fun t _ listener notice _ p => (discreet listener notice p).calm [t]) rest

/-- A producer of a thread that is not closed has the thread's seat. -/
theorem Discreetly.seated {outside : σ} {r : Ref}
    (discreetly : Discreetly (Pool.new config outside).look p) (alive : p.alive = true)
    (bound : p.Bound t r) : ∃ h, p.factory.threads.lookup t = some h ∧ h.producer = r := by
  have first : (seatedInvariant []).holds [] (Pool.new config outside) :=
    ⟨.new config outside, .new config outside⟩
  obtain ⟨regular, seated⟩ := discreetly.calm.preserves (Invariant.look first)
  obtain ⟨h, there, same⟩ := seated.seated alive t r bound List.not_mem_nil
  exact ⟨h, lookup_of_mem regular.ordered.placed.seats there, same⟩

/-! ## Requests under which nobody destroys the factory -/

/-- The factory of `q` has been destroyed if and only if that of `p` has. -/
def Pool.KeepsStanding (p q : Pool σ Snapshot) : Prop := q.factory.destroyed = p.factory.destroyed

namespace Environment.Discreet

variable (discreet : E.Discreet)
include discreet

theorem relates (kind : NoticeKind) : E.Relates kind Pool.KeepsStanding where
  refl _ := rfl
  trans first second := second.trans first
  note _ _ := rfl
  hears listener notice p _ := congrArg Factory.destroyed (discreet.hears listener notice p).factory

theorem carries : E.Carries Pool.KeepsStanding where
  toRelates := discreet.relates .removed
  still p q live _ factory := by rw [Pool.KeepsStanding, factory]
  leave p := by
    rcases Pool.teardownIfUnowned_cases E { p with running := p.running - 1 } with ⟨-, same⟩ | ⟨-, gone⟩
    · rw [same]
      rfl
    · rw [Pool.KeepsStanding, gone]
      rfl

end Environment.Discreet

namespace Pool

theorem build_keepsStanding (E : Environment σ Snapshot) (placement : Placement)
    (transactionalId : Option String) (p : Pool σ Snapshot) :
    p.KeepsStanding (build E placement transactionalId p).1 := by
  rcases build_tries E placement transactionalId p with
    ⟨error, outside, events, -, failed⟩ | ⟨clientId, outside, events, -, -, done⟩
  · rw [failed]
    rfl
  · rw [done]
    rfl

section Requests

variable (discreet : E.Discreet)
include discreet

/-- An operation closes a producer that it holds. -/
theorem disposes_keepsStanding (h : Handle) (timeout : Duration) (same : p.KeepsStanding m) :
    p.KeepsStanding ((m.retire E h timeout).unpin E h) := by
  have carries := discreet.carries
  have closed : p.KeepsStanding (m.retire E h timeout) := carries.trans same (carries.retire h timeout m)
  exact carries.trans closed (carries.unpin h _)

theorem renewShared_keepsStanding (p : Pool σ Snapshot) : p.KeepsStanding (renewShared E p).1 := by
  have carries := discreet.carries
  have built := build_keepsStanding E .shared none p
  unfold renewShared
  rcases answer : build E .shared none p with ⟨m, error | h⟩
  all_goals rw [answer] at built
  · exact built
  · have shared : p.KeepsStanding (m.onFactory fun f => { f with shared := some h }) := built
    dsimp only
    refine carries.trans ?_ ((discreet.relates .added).tellAll h _)
    split
    case h_1 => exact shared
    case h_2 s _ => exact disposes_keepsStanding discreet s _ shared

theorem renewBound_keepsStanding (t : ThreadId) (p : Pool σ Snapshot) :
    p.KeepsStanding (renewBound E t p).1 := by
  have carries := discreet.carries
  obtain ⟨transactionalId, n, named, -⟩ := nameBound_names t p
  have built := build_keepsStanding E (.thread t) transactionalId (p.numbered n)
  simp only [renewBound, named]
  rcases answer : build E (.thread t) transactionalId (p.numbered n) with ⟨m, error | h⟩
  all_goals rw [answer] at built
  · exact built
  · have bound : m.KeepsStanding (m.bindThread E t h) := by
      unfold bindThread
      split
      · rfl
      · exact carries.settle _ (m.seat t h)
    exact carries.trans (carries.trans built bound) ((discreet.relates .added).tellAll h _)

theorem obtainBound_keepsStanding (t : ThreadId) (p : Pool σ Snapshot) :
    p.KeepsStanding (obtainBound E t p).1 := by
  unfold obtainBound
  split
  case h_1 => exact renewBound_keepsStanding discreet t p
  case h_2 h _ =>
    dsimp only
    split
    case isTrue => rfl
    case isFalse =>
      refine discreet.carries.trans ?_ (renewBound_keepsStanding discreet t _)
      exact disposes_keepsStanding discreet h _ rfl

theorem takeParked_keepsStanding (key : String) (epoch fuel : Nat) (p : Pool σ Snapshot) :
    p.KeepsStanding (takeParked E key epoch fuel p).1 := by
  induction fuel generalizing p with
  | zero => rfl
  | succ fuel ih =>
    rcases takeParked_turn E key epoch fuel p with
      empty | ⟨h, cache, -, ⟨-, -, reopens⟩ | passesOver⟩
    · rw [empty]
      rfl
    · rw [reopens]
      rfl
    · rw [passesOver]
      have popped : p.KeepsStanding ((p.onFactory fun f => { f with cache := cache }).pin h) := rfl
      exact discreet.carries.trans (disposes_keepsStanding discreet h _ popped) (ih _)

theorem renewPooled_keepsStanding (k : Config.PoolKey) (p : Pool σ Snapshot) :
    p.KeepsStanding (renewPooled E k p).1 := by
  have named : p.KeepsStanding (p.namePooled k).1 := by
    unfold namePooled
    split <;> rfl
  have built := build_keepsStanding E (.pooled k.key) (some (p.namePooled k).2) (p.namePooled k).1
  simp only [renewPooled]
  rcases answer : build E (.pooled k.key) (some (p.namePooled k).2) (p.namePooled k).1 with
    ⟨m, error | h⟩
  all_goals rw [answer] at built
  · exact built.trans named
  · exact discreet.carries.trans (built.trans named) ((discreet.relates .added).tellAll h _)

theorem obtainPooled_keepsStanding (scope : TransactionScope) (p : Pool σ Snapshot) :
    p.KeepsStanding (obtainPooled E scope p).1 := by
  unfold obtainPooled
  split
  case h_1 => rfl
  case h_2 k _ =>
    have taken := takeParked_keepsStanding discreet k.key p.factory.epoch (p.parkedBound E k.key) p
    rcases answer : takeParked E k.key p.factory.epoch (p.parkedBound E k.key) p with ⟨m, - | h⟩
    all_goals rw [answer] at taken
    · exact discreet.carries.trans taken (renewPooled_keepsStanding discreet k m)
    · exact taken

theorem obtain_keepsStanding (t : ThreadId) (p : Pool σ Snapshot) :
    p.KeepsStanding (p.obtain E t).1 := by
  unfold obtain
  split
  · rfl
  · split
    · exact obtainBound_keepsStanding discreet t p
    · split
      · exact obtainPooled_keepsStanding discreet .empty p
      · unfold obtainShared
        split
        · exact renewShared_keepsStanding discreet p
        · split
          · rfl
          · exact renewShared_keepsStanding discreet p

theorem obtainFor_keepsStanding (scope : TransactionScope) (p : Pool σ Snapshot) :
    p.KeepsStanding (p.obtainFor E scope).1 := by
  unfold obtainFor
  split
  · rfl
  · exact obtainPooled_keepsStanding discreet scope p

end Requests

end Pool

theorem Environment.Discreet.isTimely (discreet : E.Discreet) (a : Act σ) (p : Pool σ Snapshot) :
    a.IsTimely E p := by
  intro standing
  cases a with
  | create t =>
    exact (Pool.obtain_keepsStanding discreet t { p with running := p.running + 1 }).trans standing
  | createFor scope =>
    exact (Pool.obtainFor_keepsStanding discreet scope { p with running := p.running + 1 }).trans standing
  | execute scope =>
    exact (Pool.obtainFor_keepsStanding discreet scope { p with running := p.running + 1 }).trans standing
  | _ => exact standing

theorem Discreetly.timely (discreetly : Discreetly p q) : Timely p q := by
  induction discreetly with
  | done p => exact .done p
  | act E a discreet _ _ allowed _ hooks passed rest =>
    exact .act E a hooks passed allowed (discreet.isTimely a _) rest

end ProducerPool
