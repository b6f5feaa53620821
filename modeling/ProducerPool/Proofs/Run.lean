import ProducerPool.Pool.Transaction

/-!
# Runs of a pool

Code of callers is what listeners, callbacks of sends, units of work and raw calls run, and what runs
between the operations.  `Code p q` says that such code can take the pool `p` to `q`: it performs public
operations one after the other, each under an environment whose hooks run code of callers again.  Code
nests as deep as it likes, but every nest of it ends, since `Code` is inductive.

Code of callers writes down the pool whenever it begins to run or goes on: the mark in the journal is a
`Snapshot`, and the journal below it tells the rest.  `Pool.points` reads these pools back, so a
statement about all points of a run also speaks of those inside of operations.
-/

set_option autoImplicit false

namespace ProducerPool

/-- A pool without its journal and without what lies beyond its border. -/
abbrev Snapshot := Pool Unit Empty

namespace Pool

variable {σ : Type}

def snapshot {μ : Type} (p : Pool σ μ) : Snapshot where
  factory := p.factory
  owners := p.owners
  running := p.running
  producers := p.producers
  held := p.held
  pinned := p.pinned
  connections := p.connections
  outside := ()

/-- The pool that was written down over the journal `before`.  What lay beyond the border then is not
written down; `outside` stands in its place. -/
def restored (v : Snapshot) (before : List (Event Snapshot)) (outside : σ) : Pool σ Snapshot where
  factory := v.factory
  owners := v.owners
  running := v.running
  producers := v.producers
  held := v.held
  pinned := v.pinned
  connections := v.connections
  journal := before
  outside := outside

/-- Code of callers begins or goes on. -/
def look (p : Pool σ Snapshot) : Pool σ Snapshot := p.mark p.snapshot

/-- The pools written down in a journal, the latest first. -/
def written (outside : σ) : List (Event Snapshot) → List (Pool σ Snapshot)
  | [] => []
  | .marked v :: before => restored v before outside :: written outside before
  | _ :: before => written outside before

/-- The points of the run so far: the pools that code of callers has seen, the latest first. -/
def points (p : Pool σ Snapshot) : List (Pool σ Snapshot) := written p.outside p.journal

theorem points_look (p : Pool σ Snapshot) : p.look.points = p :: p.points := rfl

/-- Every handle there is: in callers' hands, with operations in progress, or kept by the factory. -/
def handles {μ : Type} (p : Pool σ μ) : List Handle := p.held ++ p.pinned ++ p.factory.handles

end Pool

/-! ## Code of callers -/

/-- What code of callers can do, with the code that it passes along. -/
inductive Act (σ : Type) : Type 1 where
  -- with the factory
  | create (thread : ThreadId)
  | createFor (scope : TransactionScope)
  | execute {α : Type} (scope : TransactionScope)
      (work : Handle → Pool σ Snapshot → Pool σ Snapshot × Except PoolError α)
  | reset
  | destroy
  | onHostEvent (event : HostEvent)
  | closeBound (thread : ThreadId)
  | closeFor (scope : TransactionScope)
  | addListener (name : String)
  | removeListener (name : String)
  | shareFactory
  | dropFactory
  -- with a handle
  | operate (h : Handle) (call : HandleCall)
  | send (h : Handle) (record : Record) (callback : Nat)
  | close (h : Handle) (timeout : Option Duration)
  | clone (h : Handle)
  | drop (h : Handle)
  -- on the side of the raw producers
  | deliver (callback : Nat → Outcome → Pool σ Snapshot → Pool σ Snapshot) (d : Delivery)
      (outcome : Outcome)
  | elsewhere (outside : σ)

namespace Act

variable {σ : Type}

def run (E : Environment σ Snapshot) (p : Pool σ Snapshot) : Act σ → Pool σ Snapshot
  | .create t => (p.create E t).1
  | .createFor scope => (p.createFor E scope).1
  | .execute scope work => (p.execute E scope work).1
  | .reset => p.reset E
  | .destroy => p.destroy E
  | .onHostEvent event => p.onHostEvent E event
  | .closeBound t => p.closeBound E t
  | .closeFor scope => (p.closeFor E scope).1
  | .addListener name => p.addListener name
  | .removeListener name => (p.removeListener name).1
  | .shareFactory => p.shareFactory
  | .dropFactory => p.dropFactory E
  | .operate h call => (p.operate E h call).1
  | .send h record callback => (p.send E h record callback).1
  | .close h timeout => p.close E h timeout
  | .clone h => p.hold h
  | .drop h => p.drop E h
  | .deliver callback d outcome => p.deliver callback d outcome
  | .elsewhere outside => { p with outside := outside }

/-- Code of callers can do only what it has the means for: whoever uses the factory holds a reference to
it, and a handle is used by those who hold it or whom an operation in progress shows it. -/
def Allowed (p : Pool σ Snapshot) : Act σ → Prop
  | .operate h _ | .send h _ _ | .close h _ | .clone h => h ∈ p.held ++ p.pinned
  | .drop h => h ∈ p.held
  | .deliver .. | .elsewhere _ => True
  | _ => 0 < p.owners

instance (p : Pool σ Snapshot) : (a : Act σ) → Decidable (a.Allowed p)
  | .operate h _ | .send h _ _ | .close h _ | .clone h =>
    inferInstanceAs (Decidable (h ∈ p.held ++ p.pinned))
  | .drop h => inferInstanceAs (Decidable (h ∈ p.held))
  | .deliver .. | .elsewhere _ => inferInstanceAs (Decidable True)
  | .create _ | .createFor _ | .execute .. | .reset | .destroy | .onHostEvent _ | .closeBound _
  | .closeFor _ | .addListener _ | .removeListener _ | .shareFactory | .dropFactory =>
    inferInstanceAs (Decidable (0 < p.owners))

/-- The code that an act passes along. -/
inductive Passes : Act σ → (Pool σ Snapshot → Pool σ Snapshot) → Prop
  | work {α : Type} (scope : TransactionScope)
      (work : Handle → Pool σ Snapshot → Pool σ Snapshot × Except PoolError α) (h : Handle) :
      Passes (.execute scope work) fun p => (work h p).1
  | callback (callback : Nat → Outcome → Pool σ Snapshot → Pool σ Snapshot) (d : Delivery)
      (outcome : Outcome) : Passes (.deliver callback d outcome) (callback d.callback outcome)

/-- Whether an act passes no code along. -/
def isPlain : Act σ → Bool
  | .execute .. | .deliver .. => false
  | _ => true

theorem not_passes {a : Act σ} (plain : a.isPlain = true) {f : Pool σ Snapshot → Pool σ Snapshot} :
    ¬a.Passes f := by
  intro passes
  cases passes <;> cases plain

end Act

/-- The hooks of an environment, which run code of callers. -/
inductive Environment.Runs {σ μ : Type} (E : Environment σ μ) : (Pool σ μ → Pool σ μ) → Prop
  | call (conn : Nat) (call : HandleCall) : Runs E fun p => (E.call conn call p).1
  | send (conn : Nat) (r : Record) (d : Delivery) : Runs E fun p => (E.send conn r d p).1
  | listen (listener : String) (notice : Notice) : Runs E fun p => (E.listen listener notice p).1

/-- Code of callers can take the first pool to the second. -/
inductive Code {σ : Type} : Pool σ Snapshot → Pool σ Snapshot → Prop
  | done (p : Pool σ Snapshot) : Code p p
  | act {p q : Pool σ Snapshot} (E : Environment σ Snapshot) (a : Act σ)
      (hooks : ∀ f, E.Runs f → ∀ p, Code p.look (f p))
      (passed : ∀ f, a.Passes f → ∀ p, Code p.look (f p))
      (allowed : a.Allowed p)
      (rest : Code (a.run E p).look q) : Code p q

/-- The hooks of the environment run code of callers. -/
def Environment.Lawful {σ : Type} (E : Environment σ Snapshot) : Prop :=
  ∀ f, E.Runs f → ∀ p, Code p.look (f p)

/-- An environment in which every raw call succeeds and code of callers only looks at the pool. -/
def Environment.quiet {σ : Type} : Environment σ Snapshot where
  connect _ _ outside := (outside, .ok ())
  initTransactions _ outside := (outside, .ok ())
  metrics _ _ := []
  close _ _ outside := (outside, .ok ())
  call _ _ p := (p.look, .ok ())
  send _ _ _ p := (p.look, .ok ())
  listen _ _ p := (p.look, none)
  refills := 0

theorem Environment.quiet_lawful {σ : Type} : (Environment.quiet : Environment σ Snapshot).Lawful := by
  intro f runs p
  cases runs <;> exact .done p.look

theorem Code.trans {σ : Type} {p q r : Pool σ Snapshot} (first : Code p q) (second : Code q r) :
    Code p r := by
  induction first with
  | done => exact second
  | act E a hooks passed allowed _ _ _ ih => exact .act E a hooks passed allowed (ih second)

/-- The pools that a run with a factory of this configuration comes to between operations. -/
def Reached {σ : Type} (config : Config) (p : Pool σ Snapshot) : Prop :=
  ∃ outside : σ, Code (Pool.new config outside).look p

/-- A run goes on with any act that is allowed. -/
theorem Reached.act {σ : Type} {config : Config} {p : Pool σ Snapshot} (reached : Reached config p)
    {E : Environment σ Snapshot} (lawful : E.Lawful) (a : Act σ)
    (passed : ∀ f, a.Passes f → ∀ p, Code p.look (f p)) (allowed : a.Allowed p) :
    Reached config (a.run E p).look := by
  obtain ⟨outside, code⟩ := reached
  exact ⟨outside, code.trans (.act E a lawful passed allowed (.done _))⟩

/-- The pool after acts one after the other under one environment. -/
def Pool.perform {σ : Type} (E : Environment σ Snapshot) (p : Pool σ Snapshot) :
    List (Act σ) → Pool σ Snapshot
  | [] => p
  | a :: rest => ((a.run E p).look).perform E rest

/-- Acts that can be done one after the other and pass no code along. -/
def Pool.Permits {σ : Type} (E : Environment σ Snapshot) (p : Pool σ Snapshot) : List (Act σ) → Prop
  | [] => True
  | a :: rest => a.isPlain = true ∧ a.Allowed p ∧ ((a.run E p).look).Permits E rest

instance Pool.decidablePermits {σ : Type} (E : Environment σ Snapshot) :
    (p : Pool σ Snapshot) → (acts : List (Act σ)) → Decidable (p.Permits E acts)
  | _, [] => inferInstanceAs (Decidable True)
  | p, a :: rest =>
    have := decidablePermits E (a.run E p).look rest
    inferInstanceAs (Decidable (_ ∧ _ ∧ _))

theorem Code.perform {σ : Type} {E : Environment σ Snapshot} (lawful : E.Lawful)
    (acts : List (Act σ)) {p : Pool σ Snapshot} (permits : p.Permits E acts) :
    Code p (p.perform E acts) := by
  induction acts generalizing p with
  | nil => exact .done p
  | cons a rest ih =>
    obtain ⟨plain, allowed, permits⟩ := permits
    exact .act E a lawful (fun f passes => absurd passes (Act.not_passes plain)) allowed (ih permits)

/-- The hooks only look at the pool, and listeners may go on with plain acts that are allowed. -/
theorem Environment.Lawful.of_listen {σ : Type} {E : Environment σ Snapshot}
    (call : ∀ conn call p, (E.call conn call p).1 = p.look)
    (send : ∀ conn r d p, (E.send conn r d p).1 = p.look)
    (listen : ∀ listener notice p, ∃ acts, p.look.Permits .quiet acts ∧
      (E.listen listener notice p).1 = p.look.perform .quiet acts) : E.Lawful := by
  intro f runs p
  cases runs with
  | call conn request => exact call conn request p ▸ .done p.look
  | send conn r d => exact send conn r d p ▸ .done p.look
  | listen listener notice =>
    obtain ⟨acts, permits, goesOn⟩ := listen listener notice p
    have ran := Code.perform quiet_lawful acts permits
    rwa [← goesOn] at ran

theorem Reached.perform {σ : Type} {config : Config} {p : Pool σ Snapshot}
    (reached : Reached config p) {E : Environment σ Snapshot} (lawful : E.Lawful)
    (acts : List (Act σ)) (permits : p.Permits E acts) : Reached config (p.perform E acts) := by
  obtain ⟨outside, code⟩ := reached
  exact ⟨outside, code.trans (.perform lawful acts permits)⟩

theorem Reached.start {σ : Type} (config : Config) (outside : σ) :
    Reached config (Pool.new config outside).look := ⟨outside, .done _⟩

/-- The pools that code of callers gets to see in a run, also inside of operations. -/
def Visited {σ : Type} (config : Config) (p : Pool σ Snapshot) : Prop :=
  ∃ q : Pool σ Snapshot, Reached config q ∧ { p with outside := q.outside } ∈ q.points

theorem Reached.visited {σ : Type} {config : Config} {p : Pool σ Snapshot}
    (reached : Reached config p) : Visited config p := by
  have onward := reached.act Environment.quiet_lawful (.elsewhere p.outside)
    (by intro f passes; cases passes) trivial
  refine ⟨_, onward, ?_⟩
  rw [Pool.points_look]
  exact List.mem_cons_self

/-- The pool `p` is a point of the run that has led to `q`. -/
def Precedes {σ : Type} (p q : Pool σ Snapshot) : Prop :=
  { p with outside := q.outside } ∈ q :: q.points

end ProducerPool
