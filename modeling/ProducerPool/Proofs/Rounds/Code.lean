import ProducerPool.Proofs.Invariant.Move
import ProducerPool.Proofs.Rounds.Create

/-!
# Runs are made of rounds

Whatever code of callers does, the listeners of a notice are those that are registered when it is given,
and each registration is told once, in order.
-/

set_option autoImplicit false

namespace ProducerPool

variable {σ : Type} {E : Environment σ Snapshot} {p q : Pool σ Snapshot} {config : Config}

namespace Pool

section Hooks

variable (recounting : E.Recounting)
include recounting

/-! ## Sweeps -/

theorem retireTogether_recounts (hs : List Handle) (p : Pool σ Snapshot) :
    p.Recounts (p.retireTogether E hs) := by
  have retired (timeout : Duration) (p : Pool σ Snapshot) : p.Recounts (p.retireAll E timeout hs) :=
    .foldl (fun p h => retire_recounts recounting h timeout p) hs p
  have pinned := Recounts.foldl (fun p h => pin_recounts h p) hs p
  exact (pinned.trans (retired _ _)).trans
    (.foldl (fun p h => unpin_recounts recounting h p) hs _)

theorem sweep_recounts (p : Pool σ Snapshot) : p.Recounts (p.sweep E) := by
  have begun : p.Recounts (p.giveUpIdle.log (.resetting p.idle.length)) :=
    Unheard.recounts ⟨rfl, [_], by simp [Event.heard], rfl⟩
  exact begun.trans (retireTogether_recounts recounting _ _)

theorem retireBound_recounts (p : Pool σ Snapshot) : p.Recounts (p.retireBound E) := by
  have cleared : p.Recounts (p.onFactory fun f => { f with threads := [] }) :=
    .of_eq rfl rfl
  have pinned := cleared.trans (.foldl (fun p h => pin_recounts h p) (p.factory.threads.map Prod.snd) _)
  exact pinned.trans (.foldl (fun p h => discard_recounts recounting h _ p) _ _)

theorem destroyNow_recounts (p : Pool σ Snapshot) : p.Recounts (p.destroyNow E) := by
  have marked : p.Recounts ((p.onFactory fun f => { f with destroyed := true }).log .destroying) :=
    Unheard.recounts ⟨rfl, [_], by simp [Event.heard], rfl⟩
  exact (marked.trans (sweep_recounts recounting _)).trans (retireBound_recounts recounting _)

/-! ## Requests -/

theorem reset_recounts (p : Pool σ Snapshot) : p.Recounts (p.reset E) :=
  (Unheard.record p rfl).recounts.trans (withinFactory_recounts (sweep_recounts recounting) _)

theorem destroy_recounts (p : Pool σ Snapshot) : p.Recounts (p.destroy E) := by
  refine (Unheard.record p rfl).recounts.trans (withinFactory_recounts (fun p => ?_) _)
  split
  · exact .refl p
  · exact destroyNow_recounts recounting p

theorem onHostEvent_recounts (event : HostEvent) (p : Pool σ Snapshot) :
    p.Recounts (p.onHostEvent E event) := by
  refine (Unheard.record p rfl).recounts.trans (withinFactory_recounts (fun p => ?_) _)
  cases event with
  | started => exact .of_eq rfl rfl
  | stopped =>
    dsimp only
    split
    · exact .refl p
    · have handled : p.Recounts (p.onFactory fun f => { f with stopHandled := true }) :=
        .of_eq rfl rfl
      exact handled.trans (sweep_recounts recounting _)

theorem closeBound_recounts (t : ThreadId) (p : Pool σ Snapshot) : p.Recounts (p.closeBound E t) := by
  refine withinFactory_recounts (fun p => ?_) p
  split
  · exact .refl p
  · rename_i h _
    have unseated : p.Recounts ((p.onFactory fun f =>
        { f with threads := f.threads.filter fun entry => entry.1 ≠ t }).pin h) :=
      .of_eq rfl rfl
    exact unseated.trans (discard_recounts recounting h _ _)

theorem closeFor_recounts (scope : TransactionScope) (p : Pool σ Snapshot) :
    p.Recounts (p.closeFor E scope).1 := by
  refine withFactory_recounts (fun p => ?_) p
  split
  · exact .refl p
  · rename_i k _
    split
    · have drained : p.Recounts
          (p.onFactory fun f => { f with cache := (p.factory.cache.drain k.key).2 }) :=
        .of_eq rfl rfl
      exact drained.trans (retireTogether_recounts recounting _ _)
    · exact .refl p

/-! ## Units of work -/

section Work

variable {α : Type} {work : Handle → Pool σ Snapshot → Pool σ Snapshot × Except PoolError α}

theorem conclude_recounts (h : Handle) (outcome : Except PoolError α) (p : Pool σ Snapshot) :
    p.Recounts (p.conclude E h outcome).1 := by
  unfold conclude
  rcases outcome with error | value
  · have aborted := operate_recounts recounting h .abort p
    rcases ends : p.operate E h .abort with ⟨m, abortError | done⟩
    all_goals
      rw [ends] at aborted
      dsimp only
    · exact aborted.trans (Unheard.log m _).recounts
    · exact aborted
  · have committed := operate_recounts recounting h .commit p
    rcases ends : p.operate E h .commit with ⟨m, error | done⟩
    all_goals
      rw [ends] at committed
      exact committed

theorem transact_recounts (works : ∀ h p, Recounts p (work h p).1) (h : Handle)
    (p : Pool σ Snapshot) : p.Recounts (p.transact E work h).1 := by
  unfold transact
  have begun := operate_recounts recounting h .begin p
  rcases begins : p.operate E h .begin with ⟨m, error | done⟩
  all_goals
    rw [begins] at begun
    dsimp only
  · exact begun.trans (close_recounts recounting h none m)
  · exact ((begun.trans (works h m)).trans (conclude_recounts recounting h _ _)).trans
      (close_recounts recounting h none _)

theorem execute_recounts (works : ∀ h p, Recounts p (work h p).1) (scope : TransactionScope)
    (p : Pool σ Snapshot) : p.Recounts (p.execute E scope work).1 := by
  refine withFactory_recounts (fun p => ?_) p
  have obtained := obtainFor_recounts recounting scope p
  rcases obtains : p.obtainFor E scope with ⟨m, error | h⟩
  all_goals
    rw [obtains] at obtained
    dsimp only
  · exact obtained
  · exact (obtained.trans (transact_recounts recounting works h m)).trans
      (unpin_recounts recounting h _)

end Work

end Hooks

end Pool

/-! ## Code of callers -/

/-- After an act code of callers goes on; a request to the registry is all that changes registrations. -/
theorem Act.run_recounts (recounting : E.Recounting) (a : Act σ)
    (passed : ∀ f, a.Passes f → ∀ p, Pool.Recounts p (f p)) (p : Pool σ Snapshot) :
    p.Recounts (a.run E p).look := by
  have goesOn {q : Pool σ Snapshot} (ran : p.Recounts q) : p.Recounts q.look := ran.trans (.look q)
  cases a with
  | addListener listener => exact .request (.add listener) p
  | removeListener listener => exact .request (.remove listener) p
  | create t => exact goesOn (Pool.create_recounts recounting t p)
  | createFor scope => exact goesOn (Pool.createFor_recounts recounting scope p)
  | execute scope work =>
    exact goesOn (Pool.execute_recounts recounting (fun h => passed _ (.work scope work h)) scope p)
  | reset => exact goesOn (Pool.reset_recounts recounting p)
  | destroy => exact goesOn (Pool.destroy_recounts recounting p)
  | onHostEvent event => exact goesOn (Pool.onHostEvent_recounts recounting event p)
  | closeBound t => exact goesOn (Pool.closeBound_recounts recounting t p)
  | closeFor scope => exact goesOn (Pool.closeFor_recounts recounting scope p)
  | dropFactory => exact goesOn (Pool.dropFactory_recounts E p)
  | operate h call => exact goesOn (Pool.operate_recounts recounting h call p)
  | send h r callback => exact goesOn (Pool.send_recounts recounting h r callback p)
  | close h timeout => exact goesOn (Pool.close_recounts recounting h timeout p)
  | drop h => exact goesOn (Pool.drop_recounts recounting h p)
  | deliver callback d outcome =>
    exact goesOn (Pool.deliver_recounts (passed _ (.callback callback d outcome)) p)
  | shareFactory | clone | elsewhere => exact goesOn (.of_eq rfl rfl)

theorem Code.recounts (code : Code p q) : p.Recounts q := by
  induction code with
  | done p => exact .refl p
  | act E a _ _ _ _ hooks passed rest =>
    have recounting : E.Recounting := fun f runs p => (Pool.Recounts.look p).trans (hooks f runs p)
    have ran := a.run_recounts recounting fun f passes p =>
      (Pool.Recounts.look p).trans (passed f passes p)
    exact (ran _).trans rest

theorem Environment.Lawful.recounting (lawful : E.Lawful) : E.Recounting :=
  fun f runs p => (Pool.Recounts.look p).trans (lawful f runs p).recounts

/-! ## Rounds of a run -/

/-- How listeners are registered, and how they are told. -/
structure Pool.Convenes (p : Pool σ Snapshot) : Prop where
  /-- Requests to the registry, one after the other, do what they are to do, and nothing else. -/
  registers : ∀ requests, ∃ listeners,
    Registering.ServesAll requests p.factory.listeners (p.registerAll requests).2 listeners ∧
      (p.registerAll requests).1 = p.withListeners listeners
  /-- A notice goes round the listeners that are registered when it is given, whatever they do. -/
  tells : ∀ E : Environment σ Snapshot, E.Lawful → ∀ kind h id, (p.get h.producer).clientId = some id →
    ∃ events, (p.tellAll E kind h).journal = events.reverse ++ p.journal ∧
      Told ⟨kind, id, h⟩ p.factory.listeners p.factory.listeners events
        (p.tellAll E kind h).factory.listeners

/-- All that has been written down in a run is made of complete rounds, those within the others included,
and registrations change by requests only. -/
theorem rounds_complete (reached : Reached config p) :
    Happens [] p.journal.reverse p.factory.listeners ∧ ∀ q : Pool σ Snapshot, q.Convenes := by
  refine ⟨?_, fun q => ⟨fun requests => q.registerAll_serves requests, ?_⟩⟩
  · obtain ⟨outside, code⟩ := reached
    obtain ⟨events, journal, happens⟩ := (Pool.Recounts.look _).trans code.recounts
    have all : p.journal.reverse = events := by
      rw [journal, show (Pool.new config outside).journal = [] from rfl, List.append_nil,
        List.reverse_reverse]
    rw [all]
    exact happens
  · exact fun E lawful kind h id named => Pool.tellAll_told lawful.recounting kind q named

/-- What a listener does that hears of a new producer: it removes a later one and itself, registers
another one, and has the producer closed. -/
def upset : List (Act Unit) := [.removeListener "b", .removeListener "a", .addListener "d", .reset]

def Environment.touchy : Environment Unit Snapshot :=
  { Environment.quiet with
    metrics := fun _ _ => [.ofParts "" "" 0 [(Metric.clientIdTag, "c")]]
    listen := fun listener notice p =>
      if (listener = "a" ∧ notice.kind = .added) ∧ p.look.Permits .quiet upset then
        (p.look.perform .quiet upset, some "upset")
      else (p.look, none) }

theorem Environment.touchy_lawful : Environment.touchy.Lawful := by
  refine .of_listen (fun _ _ _ => rfl) (fun _ _ _ _ => rfl) fun listener notice p => ?_
  dsimp only [Environment.touchy]
  split
  case isTrue both => exact ⟨upset, both.2, rfl⟩
  case isFalse => exact ⟨[], trivial, rfl⟩

/-- The two registrations of the first listener and the one of the other are all told of the new producer,
although they are removed meanwhile; those of that moment are told of its end. -/
theorem rounds_complete_of_touchy :
    let p := (Pool.new {} ()).look.perform .touchy
      [.addListener "a", .addListener "b", .addListener "a", .create 0]
    Reached {} p ∧ Happens [] p.journal.reverse p.factory.listeners ∧
      p.factory.listeners = ["d", "d"] ∧
      (p.tellings.reverse.map fun t => (t.notice.kind, t.listener)) =
        [(.added, "a"), (.removed, "a"), (.removed, "d"), (.added, "b"), (.added, "a")] := by
  intro p
  have reached : Reached {} p := (Reached.start ({} : Config) ()).perform Environment.touchy_lawful
    [.addListener "a", .addListener "b", .addListener "a", .create 0] (by decide +kernel)
  exact ⟨reached, (rounds_complete reached).1, by decide +kernel, by decide +kernel⟩

end ProducerPool
