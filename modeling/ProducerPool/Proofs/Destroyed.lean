import ProducerPool.Proofs.Carried
import ProducerPool.Proofs.Execution

/-!
# Factories that have been destroyed

Once a factory has been destroyed, no request gets anything from it.  Its places lose what they hold and
get nothing any more: nothing is built, and nothing is parked, since no producer of it is fit to be kept.
So when the operation that destroys it has ended, nothing is left in its places, whatever listeners do in
the meantime, unless a request was already building when the factory was destroyed.
-/

set_option autoImplicit false

namespace ProducerPool

variable {σ : Type} {E : Environment σ Snapshot} {f g k : Factory} {p q m : Pool σ Snapshot}
  {h : Handle} {config : Config}

/-! ## Places that lose what they hold -/

/-- Nothing is left in the places of the factory. -/
structure Factory.Bare (f : Factory) : Prop where
  shared : f.shared = none
  threads : f.threads = []
  queues : f.cache.queues = []

/-- A factory that has been destroyed stays so and its places get nothing; if it is destroyed meanwhile,
nothing is left in them in the end. -/
structure Factory.Dwindles (f g : Factory) : Prop where
  destroyed : f.destroyed = true → g.destroyed = true
  shared : f.destroyed = true → f.shared = none → g.shared = none
  threads : f.destroyed = true → f.threads = [] → g.threads = []
  queues : f.destroyed = true → f.cache.queues = [] → g.cache.queues = []
  bare : f.destroyed = false → g.destroyed = true → g.Bare

namespace Factory

theorem Bare.dwindles (bare : f.Bare) (destroyed : f.destroyed = true) (dwindles : f.Dwindles g) :
    g.Bare :=
  ⟨dwindles.shared destroyed bare.shared, dwindles.threads destroyed bare.threads,
    dwindles.queues destroyed bare.queues⟩

namespace Dwindles

theorem shrink (destroyed : g.destroyed = f.destroyed) (shared : f.shared = none → g.shared = none)
    (threads : f.threads = [] → g.threads = [])
    (queues : f.cache.queues = [] → g.cache.queues = []) : f.Dwindles g where
  destroyed gone := destroyed.trans gone
  shared _ := shared
  threads _ := threads
  queues _ := queues
  bare standing gone := by cases standing.symm.trans (destroyed.symm.trans gone)

theorem of_standing (before : f.destroyed = false) (after : g.destroyed = true → g.Bare) :
    f.Dwindles g where
  destroyed gone := by cases before.symm.trans gone
  shared gone := by cases before.symm.trans gone
  threads gone := by cases before.symm.trans gone
  queues gone := by cases before.symm.trans gone
  bare _ := after

theorem refl (f : Factory) : f.Dwindles f := .shrink rfl id id id

theorem trans (first : f.Dwindles k) (second : k.Dwindles g) : f.Dwindles g where
  destroyed := second.destroyed ∘ first.destroyed
  shared gone := second.shared (first.destroyed gone) ∘ first.shared gone
  threads gone := second.threads (first.destroyed gone) ∘ first.threads gone
  queues gone := second.queues (first.destroyed gone) ∘ first.queues gone
  bare standing gone := by
    cases meanwhile : k.destroyed with
    | true => exact (first.bare standing meanwhile).dwindles meanwhile second
    | false => exact second.bare meanwhile gone

theorem emptied (f : Factory) : f.Dwindles f.emptied :=
  .shrink rfl (fun _ => rfl) (fun _ => rfl) fun _ => rfl

end Dwindles

end Factory

namespace Pool

abbrev Dwindles (p q : Pool σ Snapshot) : Prop := p.factory.Dwindles q.factory

theorem teardownIfUnowned_dwindles (E : Environment σ Snapshot) (p : Pool σ Snapshot) :
    p.Dwindles (teardownIfUnowned E p) := by
  rcases teardownIfUnowned_cases E p with ⟨-, same⟩ | ⟨-, emptied⟩
  · rw [same]
    exact .refl _
  · rw [Dwindles, emptied]
    exact .emptied _

end Pool

/-- The hooks of the environment let the places of a destroyed factory dwindle. -/
def Environment.Dwindles (E : Environment σ Snapshot) : Prop :=
  ∀ f, E.Runs f → ∀ p : Pool σ Snapshot, p.Dwindles (f p)

namespace Pool

theorem spoil_factory (r : Ref) (error : ClientError) (spoils : Bool) (p : Pool σ Snapshot) :
    (if spoils then p.spoil r error else p).factory = p.factory := by
  unfold spoil
  dsimp only
  split
  · split <;> rfl
  · rfl

theorem deliver_dwindles {callback : Nat → Outcome → Pool σ Snapshot → Pool σ Snapshot}
    {d : Delivery} {outcome : Outcome}
    (dwindles : ∀ p : Pool σ Snapshot, p.Dwindles (callback d.callback outcome p)) (p : Pool σ Snapshot) :
    p.Dwindles (p.deliver callback d outcome) := by
  have called (q : Pool σ Snapshot) (spoiled : q.factory = p.factory) :
      p.Dwindles ((callback d.callback outcome (q.record (.delivering d outcome))).record
        (.delivered d)) := by
    rw [Dwindles, ← spoiled]
    exact dwindles (q.record (.delivering d outcome))
  refine called _ ?_
  split
  · exact spoil_factory d.producer _ _ p
  · rfl

end Pool

namespace Environment.Dwindles

variable (dwindles : E.Dwindles)
include dwindles

theorem carries : E.Carries Pool.Dwindles where
  refl p := .refl p.factory
  trans := Factory.Dwindles.trans
  note p _ := .refl p.factory
  hears listener notice p _ := dwindles _ (.listen listener notice) p
  still p q live _ factory := by
    rw [Pool.Dwindles, factory]
    exact .shrink rfl id id id
  leave p := Pool.teardownIfUnowned_dwindles E { p with running := p.running - 1 }

/-! ## Working through a handle -/

theorem operate (h : Handle) (call : HandleCall) (p : Pool σ Snapshot) :
    p.Dwindles (p.operate E h call).1 := by
  unfold Pool.operate
  split
  · exact .refl _
  · refine dwindles.carries.withHandle ?_
    have called : (p.pin h).Dwindles (Pool.callHandle E ((p.pin h).get h.producer).conn call (p.pin h)).1 :=
      dwindles _ (.call ((p.pin h).get h.producer).conn call)
        ((p.pin h).record (.called ((p.pin h).get h.producer).conn call.toRaw))
    rcases answer : Pool.callHandle E ((p.pin h).get h.producer).conn call (p.pin h) with
      ⟨q, error | done⟩
    all_goals rw [answer] at called
    · rw [Pool.Dwindles, Pool.spoil_factory]
      exact called
    · exact called

theorem send (h : Handle) (r : Record) (callback : Nat) (p : Pool σ Snapshot) :
    p.Dwindles (p.send E h r callback).1 := by
  unfold Pool.send
  split
  · exact .refl _
  · refine dwindles.carries.withHandle ?_
    have called : (p.pin h).Dwindles
        (Pool.callSend E ((p.pin h).get h.producer).conn r ⟨h.producer, callback⟩ (p.pin h)).1 :=
      dwindles _ (.send ((p.pin h).get h.producer).conn r ⟨h.producer, callback⟩)
        ((p.pin h).record (.called ((p.pin h).get h.producer).conn (.send r.topic)))
    rcases answer : Pool.callSend E ((p.pin h).get h.producer).conn r ⟨h.producer, callback⟩ (p.pin h)
      with ⟨q, error | done⟩
    all_goals rw [answer] at called
    · rw [Pool.Dwindles, Pool.spoil_factory]
      exact called
    · exact called

theorem takeBack (h : Handle) (timeout : Duration) (p : Pool σ Snapshot) :
    p.Dwindles (p.takeBack E h timeout) := by
  unfold Pool.takeBack
  dsimp only
  split
  case isTrue => exact .refl _
  case isFalse opened =>
  split
  case isTrue healthy =>
    split
    · -- It is parked only where the factory stands.
      have standing := (Pool.isHealthy_iff.mp healthy).2
      rw [Pool.shelve_healthy _ timeout (Classical.not_not.mp opened) healthy]
      exact .of_standing standing fun gone => by cases standing.symm.trans gone
    · exact .refl _
    · exact .refl _
  case isFalse =>
    split
    case h_1 => exact dwindles.carries.retire h timeout p
    case h_2 =>
      have vacated : p.Dwindles (p.unshare h.producer) :=
        .shrink rfl (fun empty => by simp [Pool.unshare, Pool.onFactory, empty]) id id
      exact vacated.trans (dwindles.carries.retire h timeout _)
    case h_3 t _ =>
      have vacated : p.Dwindles (p.unbind t h.producer) :=
        .shrink rfl id (fun empty => by simp [Pool.unbind, Pool.onFactory, empty]) id
      exact vacated.trans (dwindles.carries.retire h timeout _)

theorem close (h : Handle) (timeout : Option Duration) (p : Pool σ Snapshot) :
    p.Dwindles (p.close E h timeout) :=
  dwindles.carries.close timeout fun timeout => dwindles.takeBack h timeout _

/-! ## Sweeps -/

theorem sweep (p : Pool σ Snapshot) : p.Dwindles (p.sweep E) := by
  have given : p.Dwindles (p.giveUpIdle.log (.resetting p.idle.length)) := by
    refine .shrink rfl (fun _ => rfl) (fun empty => ?_) fun _ => rfl
    simp [Pool.log, Pool.record, Pool.giveUpIdle, Pool.onFactory, empty]
  exact given.trans (dwindles.carries.retireTogether p.idle _)

/-- A sweep leaves neither a shared producer nor parked ones in a factory that has been destroyed. -/
theorem sweep_bare (destroyed : p.factory.destroyed = true) :
    (p.sweep E).factory.destroyed = true ∧ (p.sweep E).factory.shared = none ∧
      (p.sweep E).factory.cache.queues = [] := by
  have swept : (p.giveUpIdle.log (.resetting p.idle.length)).Dwindles (p.sweep E) :=
    dwindles.carries.retireTogether p.idle _
  exact ⟨swept.destroyed destroyed, swept.shared destroyed rfl, swept.queues destroyed rfl⟩

theorem reset (p : Pool σ Snapshot) (alive : p.alive = true) : p.Dwindles (p.reset E) :=
  dwindles.carries.withinFactory (p := p.record (.requested .reset)) alive (dwindles.sweep _)

/-- The whole of a destruction: a sweep, and then the producers of threads go. -/
theorem destroyNow (p : Pool σ Snapshot) (standing : p.factory.destroyed = false) :
    p.Dwindles (p.destroyNow E) := by
  unfold Pool.destroyNow
  generalize marked : (p.onFactory fun f => { f with destroyed := true }).log .destroying = m
  have destroyed : m.factory.destroyed = true := by
    rw [← marked]
    rfl
  obtain ⟨gone, shared, queues⟩ := dwindles.sweep_bare destroyed
  have unbound : ((m.sweep E).onFactory fun f => { f with threads := [] }).factory.Bare :=
    ⟨shared, rfl, queues⟩
  have retired := dwindles.carries.retireInTurn (m.sweep E).factory.config.closeTimeout
    ((m.sweep E).factory.threads.map Prod.snd) ((m.sweep E).onFactory fun f => { f with threads := [] })
  exact .of_standing standing fun _ => unbound.dwindles gone retired

theorem destroy (p : Pool σ Snapshot) (alive : p.alive = true) : p.Dwindles (p.destroy E) := by
  refine dwindles.carries.withinFactory (p := p.record (.requested .destroy)) alive ?_
  split
  · exact .refl _
  · rename_i standing
    exact dwindles.destroyNow _ (by simpa using standing)

theorem onHostEvent (event : HostEvent) (p : Pool σ Snapshot) (alive : p.alive = true) :
    p.Dwindles (p.onHostEvent E event) := by
  refine dwindles.carries.withinFactory (p := p.record (.requested (.lifecycle event))) alive ?_
  cases event with
  | started => exact .shrink rfl id id id
  | stopped =>
    dsimp only
    split
    · exact .refl _
    · have marked (q : Pool σ Snapshot) : q.Dwindles (q.onFactory fun f => { f with stopHandled := true }) :=
        .shrink rfl id id id
      exact (marked _).trans (dwindles.sweep _)

theorem closeBound (t : ThreadId) (p : Pool σ Snapshot) (alive : p.alive = true) :
    p.Dwindles (p.closeBound E t) := by
  refine dwindles.carries.withinFactory alive ?_
  split
  · exact .refl _
  · rename_i h _
    have given (q : Pool σ Snapshot) : q.Dwindles ((q.onFactory fun f =>
        { f with threads := f.threads.filter fun entry => entry.1 ≠ t }).pin h) :=
      .shrink rfl id (fun empty => by simp [Pool.pin, Pool.onFactory, empty]) id
    exact ((given _).trans (dwindles.carries.retire h _ _)).trans (dwindles.carries.unpin h _)

theorem closeFor (scope : TransactionScope) (p : Pool σ Snapshot) (alive : p.alive = true) :
    p.Dwindles (p.closeFor E scope).1 := by
  refine dwindles.carries.withFactory alive ?_
  dsimp only
  split
  · exact .refl _
  · rename_i k _
    split
    · have given (q : Pool σ Snapshot) : q.Dwindles
          (q.onFactory fun f => { f with cache := (f.cache.drain k.key).2 }) :=
        .shrink rfl id id fun empty => by simp [Pool.onFactory, Cache.drain, empty]
      exact (given _).trans (dwindles.carries.retireTogether _ _)
    · exact .refl _

/-! ## Units of work -/

section Work

variable {α : Type} {work : Handle → Pool σ Snapshot → Pool σ Snapshot × Except PoolError α}

theorem conclude (h : Handle) (outcome : Except PoolError α) (p : Pool σ Snapshot) :
    p.Dwindles (p.conclude E h outcome).1 := by
  cases outcome with
  | ok value =>
    have committed := dwindles.operate h .commit p
    simp only [Pool.conclude]
    split <;> simp_all only
  | error error =>
    have aborted := dwindles.operate h .abort p
    simp only [Pool.conclude]
    rcases answer : p.operate E h .abort with ⟨q, abortError | done⟩
    all_goals rw [answer] at aborted
    all_goals exact aborted

theorem transact (works : ∀ h (p : Pool σ Snapshot), p.Dwindles (work h p).1) (h : Handle)
    (p : Pool σ Snapshot) : p.Dwindles (p.transact E work h).1 := by
  have begun := dwindles.operate h .begin p
  unfold Pool.transact
  rcases answer : p.operate E h .begin with ⟨q, error | done⟩
  all_goals rw [answer] at begun
  · exact begun.trans (dwindles.close h none q)
  · exact ((begun.trans (works h q)).trans (dwindles.conclude h _ _)).trans (dwindles.close h none _)

end Work

end Environment.Dwindles

/-! ## Requests -/

/-- The pool in which a request has obtained its producer, or has failed to obtain one. -/
def Act.obtained (E : Environment σ Snapshot) (p : Pool σ Snapshot) : Act σ → Pool σ Snapshot
  | .create t => (Pool.obtain E t { p with running := p.running + 1 }).1
  | .createFor scope | .execute scope _ =>
    (Pool.obtainFor E scope { p with running := p.running + 1 }).1
  | _ => p

/-- The factory is not destroyed while the request obtains its producer. -/
def Act.IsTimely (E : Environment σ Snapshot) (p : Pool σ Snapshot) (a : Act σ) : Prop :=
  p.factory.destroyed = false → (a.obtained E p).factory.destroyed = false

namespace Pool

theorem obtain_dwindles {t : ThreadId}
    (timely : p.factory.destroyed = false → (p.obtain E t).1.factory.destroyed = false) :
    p.Dwindles (p.obtain E t).1 := by
  cases standing : p.factory.destroyed with
  | true =>
    unfold obtain
    rw [if_pos standing]
    exact .refl _
  | false => exact .of_standing standing fun gone => by cases (timely standing).symm.trans gone

theorem obtainFor_dwindles {scope : TransactionScope}
    (timely : p.factory.destroyed = false → (p.obtainFor E scope).1.factory.destroyed = false) :
    p.Dwindles (p.obtainFor E scope).1 := by
  cases standing : p.factory.destroyed with
  | true =>
    unfold obtainFor
    rw [if_pos standing]
    exact .refl _
  | false => exact .of_standing standing fun gone => by cases (timely standing).symm.trans gone

theorem handOverResult_factory (result : Pool σ Snapshot × Except PoolError Handle) :
    (handOverResult result).1.factory = result.1.factory := by
  rcases result with ⟨q, error | h⟩ <;> rfl

end Pool

theorem Environment.Dwindles.act (dwindles : E.Dwindles) (a : Act σ)
    (passed : ∀ f, a.Passes f → ∀ p : Pool σ Snapshot, p.Dwindles (f p)) (allowed : a.Allowed p)
    (timely : a.IsTimely E p) : p.Dwindles (a.run E p) := by
  have alive (owned : 0 < p.owners) : p.alive = true := Pool.alive_of_owners owned
  cases a with
  | create t =>
    refine dwindles.carries.withFactory (alive allowed) ?_
    rw [Pool.Dwindles, Pool.handOverResult_factory]
    exact Pool.obtain_dwindles timely
  | createFor scope =>
    refine dwindles.carries.withFactory (alive allowed) ?_
    rw [Pool.Dwindles, Pool.handOverResult_factory]
    exact Pool.obtainFor_dwindles timely
  | execute scope work =>
    refine dwindles.carries.withFactory (alive allowed) ?_
    have obtained : Pool.Dwindles { p with running := p.running + 1 }
        (Pool.obtainFor E scope { p with running := p.running + 1 }).1 := Pool.obtainFor_dwindles timely
    dsimp only
    rcases answer : Pool.obtainFor E scope { p with running := p.running + 1 } with ⟨q, error | h⟩
    all_goals rw [answer] at obtained
    · exact obtained
    · exact (obtained.trans (dwindles.transact (fun h => passed _ (.work scope work h)) h q)).trans
        (dwindles.carries.unpin h _)
  | reset => exact dwindles.reset p (alive allowed)
  | destroy => exact dwindles.destroy p (alive allowed)
  | onHostEvent event => exact dwindles.onHostEvent event p (alive allowed)
  | closeBound t => exact dwindles.closeBound t p (alive allowed)
  | closeFor scope => exact dwindles.closeFor scope p (alive allowed)
  | dropFactory =>
    show p.Dwindles (p.dropFactory E)
    unfold Pool.dropFactory
    split
    · exact .refl _
    · exact Pool.teardownIfUnowned_dwindles E { p with owners := p.owners - 1 }
  | operate h call => exact dwindles.operate h call p
  | send h r callback => exact dwindles.send h r callback p
  | close h timeout => exact dwindles.close h timeout p
  | drop h => exact dwindles.carries.drop h p
  | deliver callback d outcome =>
    exact Pool.deliver_dwindles (passed _ (.callback callback d outcome)) p
  | addListener name => exact .shrink rfl id id id
  | removeListener name => exact .shrink rfl id id id
  | shareFactory => exact .refl _
  | clone h => exact .refl _
  | elsewhere outside => exact .refl _

/-! ## Runs -/

/-- Code of callers in whose course no factory is destroyed while a request obtains its producer.  A hook may
do nothing at pools that the run does not come to, so this asks nothing of it there. -/
inductive Timely {σ : Type} : Pool σ Snapshot → Pool σ Snapshot → Prop
  | done (p : Pool σ Snapshot) : Timely p p
  | act {p q : Pool σ Snapshot} (E : Environment σ Snapshot) (a : Act σ)
      (hooks : ∀ f, E.Runs f → ∀ p, Timely p.look (f p))
      (passed : ∀ f, a.Passes f → ∀ p, Timely p.look (f p))
      (allowed : a.Allowed p) (timely : a.IsTimely E p) (rest : Timely (a.run E p).look q) : Timely p q

theorem Timely.code (timely : Timely p q) : Code p q := by
  induction timely with
  | done p => exact .done p
  | act E a _ _ allowed _ _ hooks passed rest => exact .act E a hooks passed allowed rest

theorem Timely.dwindles (timely : Timely p q) : p.Dwindles q := by
  induction timely with
  | done => exact .refl _
  | act E a _ _ allowed timely _ hooks passed rest =>
    have dwindles : E.Dwindles := hooks
    exact (dwindles.act a passed allowed timely).trans rest

/-! ## The end of a destroyed factory -/

/-- How a pool stands between operations once its factory has been destroyed. -/
structure Pool.Finished (p : Pool σ Snapshot) : Prop where
  bare : p.factory.Bare
  create : 0 < p.owners → ∀ (E : Environment σ Snapshot) (t : ThreadId),
    p.create E t = (p, .error .factoryDestroyed)
  createFor : 0 < p.owners → ∀ (E : Environment σ Snapshot) (scope : TransactionScope),
    p.createFor E scope = (p, .error .factoryDestroyed)
  execute : 0 < p.owners → ∀ (E : Environment σ Snapshot) {α : Type} (scope : TransactionScope)
    (work : Handle → Pool σ Snapshot → Pool σ Snapshot × Except PoolError α),
    p.execute E scope work = (p, .error .factoryDestroyed)
  /-- The request is written down, and that is all. -/
  destroy : 0 < p.owners → ∀ E : Environment σ Snapshot, p.destroy E = p.record (.requested .destroy)
  /-- Whatever is not closed is in callers' hands. -/
  held : ∀ r, (p.get r).phase ≠ .disposed → ∃ h ∈ p.held, h.producer = r
  closes : ∀ (E : Environment σ Snapshot) (h : Handle) (timeout : Option Duration), E.Lawful →
    h ∈ p.held → (p.get h.producer).lease = h.lease →
      ((p.close E h timeout).get h.producer).phase = .disposed

namespace Pool

theorem withFactory_idle {α : Type} {f : Pool σ Snapshot → Pool σ Snapshot × α} {a : α}
    (owned : 0 < p.owners)
    (idle : f { p with running := p.running + 1 } = ({ p with running := p.running + 1 }, a)) :
    p.withFactory E f = (p, a) := by
  simp only [withFactory, idle, teardownIfUnowned]
  exact Prod.ext (if_pos (alive_of_owners owned)) rfl

theorem Finished.of_destroyed (reached : Reached config p) (destroyed : p.factory.destroyed = true)
    (bare : p.factory.Bare) : p.Finished where
  bare := bare
  create owned E t := by
    refine withFactory_idle owned ?_
    have refused : obtain E t { p with running := p.running + 1 } =
      ({ p with running := p.running + 1 }, .error .factoryDestroyed) := if_pos destroyed
    rw [refused]
    rfl
  createFor owned E scope := by
    refine withFactory_idle owned ?_
    have refused : obtainFor E scope { p with running := p.running + 1 } =
      ({ p with running := p.running + 1 }, .error .factoryDestroyed) := if_pos destroyed
    rw [refused]
    rfl
  execute owned E α scope work := by
    refine withFactory_idle owned ?_
    have refused : obtainFor E scope { p with running := p.running + 1 } =
      ({ p with running := p.running + 1 }, .error .factoryDestroyed) := if_pos destroyed
    rw [refused]
  destroy owned E := by
    have nothing := withFactory_idle (E := E) (p := p.record (.requested .destroy)) owned
      (f := fun p => (if p.factory.destroyed then p else p.destroyNow E, ())) (a := ())
      (Prod.ext (if_pos destroyed) rfl)
    exact congrArg Prod.fst nothing
  held r undisposed := by
    obtain ⟨outside, path⟩ := reached.path
    have ordered := (Ordered.new config outside).path path
    obtain ⟨h, there, same⟩ := mem_of_referenced (ordered.tended r (lt_of_phase undisposed) undisposed)
    have none : p.factory.handles = [] := by
      simp [Factory.handles, Cache.items, bare.shared, bare.threads, bare.queues]
    rw [handles, reached.idle.1, none, List.append_nil, List.append_nil] at there
    exact ⟨h, there, same⟩
  closes E h timeout lawful there lease := by
    obtain ⟨outside, path⟩ := reached.path
    have ordered := (Ordered.new config outside).path path
    have inside := ordered.genuine.inside (mem_handles.mpr (Or.inl there))
    refine close_disposed lawful.tame timeout inside lease (fun alive cached => ?_)
      (by simp [isHealthy, destroyed])
    obtain ⟨key, x, ⟨items, queue, -⟩, -⟩ := (reached.filed alive).queued h.producer cached
    rw [bare.queues] at queue
    cases queue

end Pool

theorem destroyed_for_good {outside : σ} (timely : Timely (Pool.new config outside).look p)
    (destroyed : p.factory.destroyed = true) : p.Finished :=
  .of_destroyed ⟨outside, timely.code⟩ destroyed (timely.dwindles.bare rfl destroyed)

/-- Acts that can be done one after the other, pass no code along and do not destroy a factory while they
obtain a producer. -/
def Pool.PermitsTimely (E : Environment σ Snapshot) (p : Pool σ Snapshot) : List (Act σ) → Prop
  | [] => True
  | a :: rest =>
    a.isPlain = true ∧ a.Allowed p ∧ a.IsTimely E p ∧ ((a.run E p).look).PermitsTimely E rest

instance (E : Environment σ Snapshot) (p : Pool σ Snapshot) (a : Act σ) : Decidable (a.IsTimely E p) :=
  inferInstanceAs (Decidable (_ = false → _ = false))

instance Pool.decidablePermitsTimely (E : Environment σ Snapshot) :
    (p : Pool σ Snapshot) → (acts : List (Act σ)) → Decidable (p.PermitsTimely E acts)
  | _, [] => inferInstanceAs (Decidable True)
  | p, a :: rest =>
    have := decidablePermitsTimely E (a.run E p).look rest
    inferInstanceAs (Decidable (_ ∧ _ ∧ _ ∧ _))

theorem Timely.perform (hooks : ∀ f, E.Runs f → ∀ p, Timely p.look (f p)) (acts : List (Act σ))
    {p : Pool σ Snapshot} (permits : p.PermitsTimely E acts) : Timely p (p.perform E acts) := by
  induction acts generalizing p with
  | nil => exact .done p
  | cons a rest ih =>
    obtain ⟨plain, allowed, timely, permits⟩ := permits
    exact .act E a hooks (fun f passes => absurd passes (Act.not_passes plain)) allowed timely
      (ih permits)

/-- What a listener does that hears of a removal: it asks for a producer, hands the second one back, and
destroys the factory. -/
def defiance : List (Act Unit) := [.createFor .empty, .close ⟨1, 0⟩ none, .destroy]

def Environment.defiant : Environment Unit Snapshot :=
  { Environment.quiet with
    metrics := fun _ _ => [.ofParts "" "" 0 [(Metric.clientIdTag, "c")]]
    listen := fun _ notice p =>
      if notice.kind = .removed ∧ p.look.PermitsTimely .quiet defiance then
        (p.look.perform .quiet defiance, none)
      else (p.look, none) }

theorem Environment.defiant_timely (f : Pool Unit Snapshot → Pool Unit Snapshot)
    (runs : Environment.defiant.Runs f) (p : Pool Unit Snapshot) : Timely p.look (f p) := by
  have quiet (f : Pool Unit Snapshot → Pool Unit Snapshot) (runs : Environment.quiet.Runs f)
      (p : Pool Unit Snapshot) : Timely p.look (f p) := by
    cases runs <;> exact .done p.look
  cases runs with
  | call => exact .done p.look
  | send => exact .done p.look
  | listen listener notice =>
    dsimp only [Environment.defiant]
    split
    case isTrue both => exact .perform quiet defiance both.2
    case isFalse => exact .done p.look

/-- Of three transactional producers one is parked, and its listener calls back while the factory is being
destroyed: it gets no producer, and what it hands back is closed.  The third one stays with its caller. -/
theorem destroyed_for_good_of_transactional :
    let config : Config := { idPrefix := some "a" }
    let p := (Pool.new config ()).look.perform .defiant
      [.addListener "l", .create 0, .create 0, .create 0, .close ⟨0, 0⟩ none, .destroy]
    Timely (Pool.new config ()).look p ∧ p.factory.destroyed = true ∧ p.connections = 3 ∧
      p.producers.map Producer.phase = [.disposed, .disposed, .opened] ∧ p.Finished := by
  intro config p
  have timely : Timely (Pool.new config ()).look p :=
    .perform Environment.defiant_timely _ (by decide +kernel)
  have destroyed : p.factory.destroyed = true := by decide +kernel
  exact ⟨timely, destroyed, by decide +kernel, by decide +kernel, destroyed_for_good timely destroyed⟩

end ProducerPool
