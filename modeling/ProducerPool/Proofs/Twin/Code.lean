import ProducerPool.Proofs.Twin.Sweep

/-!
# Runs that differ in failures that are only logged

Two runs go abreast if callers do the same in both, inside of operations as well as between them, and what
is asked of the other side of the border is answered alike, except that closes may reply and listeners may
fail differently.  Then nobody can tell one run from the other but by the log: every act is answered alike
in both, and they pass through alike pools.
-/

set_option autoImplicit false

namespace ProducerPool

variable {σ : Type} {S : σ → σ → Prop} {E F : Environment σ Snapshot} {p q p' q' : Pool σ Snapshot}
  {a b : Act σ}

/-! ## Acts -/

namespace Act

/-- What a caller is answered. -/
def answer (E : Environment σ Snapshot) (p : Pool σ Snapshot) : Act σ → Σ α : Type, α
  | .create t => ⟨_, (p.create E t).2⟩
  | .createFor scope => ⟨_, (p.createFor E scope).2⟩
  | .execute scope work => ⟨_, (p.execute E scope work).2⟩
  | .closeFor scope => ⟨_, (p.closeFor E scope).2⟩
  | .removeListener name => ⟨_, (p.removeListener name).2⟩
  | .operate h call => ⟨_, (p.operate E h call).2⟩
  | .send h record callback => ⟨_, (p.send E h record callback).2⟩
  | _ => ⟨Unit, ()⟩

/-- The same act.  Units of work and callbacks are code of the two runs; work comes to the same result where
the pools are alike. -/
inductive Like (S : σ → σ → Prop) : Act σ → Act σ → Prop
  | same (a : Act σ) (plain : a.isPlain = true) (inside : ∀ outside, a ≠ .elsewhere outside) : Like S a a
  | execute {α : Type} (scope : TransactionScope)
      (work work' : Handle → Pool σ Snapshot → Pool σ Snapshot × Except PoolError α)
      (returns : ∀ h {p q}, p.Alike S q → (work h p).2 = (work' h q).2) :
      Like S (.execute scope work) (.execute scope work')
  | deliver (callback callback' : Nat → Outcome → Pool σ Snapshot → Pool σ Snapshot) (d : Delivery)
      (outcome : Outcome) : Like S (.deliver callback d outcome) (.deliver callback' d outcome)
  | elsewhere {s t : σ} (related : S s t) : Like S (.elsewhere s) (.elsewhere t)

/-- The code that two acts pass along, piece by piece. -/
inductive PassesBoth : Act σ → Act σ → (Pool σ Snapshot → Pool σ Snapshot) →
    (Pool σ Snapshot → Pool σ Snapshot) → Prop
  | work {α : Type} (scope : TransactionScope)
      (work work' : Handle → Pool σ Snapshot → Pool σ Snapshot × Except PoolError α) (h : Handle) :
      PassesBoth (.execute scope work) (.execute scope work') (fun p => (work h p).1)
        fun p => (work' h p).1
  | callback (callback callback' : Nat → Outcome → Pool σ Snapshot → Pool σ Snapshot) (d : Delivery)
      (outcome : Outcome) :
      PassesBoth (.deliver callback d outcome) (.deliver callback' d outcome)
        (callback d.callback outcome) (callback' d.callback outcome)

/-- What is the same about an act of two runs, whoever does it. -/
structure Accords (S : σ → σ → Prop) (E F : Environment σ Snapshot) (a b : Act σ)
    (p q : Pool σ Snapshot) : Prop where
  before : p.Alike S q
  answer : a.answer E p = b.answer F q
  metrics : ∀ h, p.metrics E h = q.metrics F h
  after : (a.run E p).Alike S (b.run F q)

end Act

theorem Pool.Agree.pack {α : Type} {x y : Pool σ Snapshot × α} (agree : Pool.Agree S x y) :
    x.1.Alike S y.1 ∧ (⟨α, x.2⟩ : Σ α : Type, α) = ⟨α, y.2⟩ :=
  ⟨agree.alike, congrArg (Sigma.mk α) agree.answer⟩

theorem Environment.Twins.act (twins : E.Twins S F) (like : a.Like S b)
    (passed : ∀ f g, a.PassesBoth b f g → ∀ {p q}, p.Alike S q → (f p).Alike S (g q))
    (alike : p.Alike S q) :
    (a.run E p).Alike S (b.run F q) ∧ a.answer E p = b.answer F q := by
  cases like with
  | execute scope work work' returns =>
    exact (twins.execute (fun h {p q} alike => ⟨passed _ _ (.work scope work work' h) alike,
      returns h alike⟩) scope alike).pack
  | deliver callback callback' d outcome =>
    exact ⟨alike.deliver (passed _ _ (.callback callback callback' d outcome)), rfl⟩
  | elsewhere related => exact ⟨alike.elsewhere related, rfl⟩
  | same _ plain inside =>
    cases a with
    | create t => exact (twins.create t alike).pack
    | createFor scope => exact (twins.createFor scope alike).pack
    | execute => cases plain
    | reset => exact ⟨twins.reset alike, rfl⟩
    | destroy => exact ⟨twins.destroy alike, rfl⟩
    | onHostEvent event => exact ⟨twins.onHostEvent event alike, rfl⟩
    | closeBound t => exact ⟨twins.closeBound t alike, rfl⟩
    | closeFor scope => exact (twins.closeFor scope alike).pack
    | addListener name => exact ⟨alike.update (fun p => p.addListener name) fun _ _ _ => rfl, rfl⟩
    | removeListener name =>
      refine Pool.Agree.pack ⟨alike.update (fun p => (p.removeListener name).1) fun _ _ _ => rfl, ?_⟩
      exact congrArg (fun f : Factory => f.listeners.contains name) alike.factory
    | shareFactory => exact ⟨alike.update (fun p => p.shareFactory) fun _ _ _ => rfl, rfl⟩
    | dropFactory => exact ⟨twins.dropFactory alike, rfl⟩
    | operate h call => exact (twins.operate h call alike).pack
    | send h r callback => exact (twins.send h r callback alike).pack
    | close h timeout => exact ⟨twins.close h timeout alike, rfl⟩
    | clone h => exact ⟨alike.update (fun p => p.hold h) fun _ _ _ => rfl, rfl⟩
    | drop h => exact ⟨twins.drop h alike, rfl⟩
    | deliver => cases plain
    | elsewhere outside => exact absurd rfl (inside outside)

/-! ## Runs -/

/-- Two runs in which callers do the same lead from `p` and `q` to `p'` and `q'`, and `fact` holds of every
pair of acts in their course, at whatever depth.  What may differ is the reply to a close and whether and
how a listener fails. -/
inductive Abreast {σ : Type} (S : σ → σ → Prop)
    (fact : Environment σ Snapshot → Environment σ Snapshot → Act σ → Act σ → Pool σ Snapshot →
      Pool σ Snapshot → Prop) :
    Pool σ Snapshot → Pool σ Snapshot → Pool σ Snapshot → Pool σ Snapshot → Prop
  | done (p q : Pool σ Snapshot) : Abreast S fact p q p q
  | act {p q p' q' : Pool σ Snapshot} (E F : Environment σ Snapshot) (a b : Act σ)
      (corresponds : E.Corresponds S F)
      (hooks : ∀ f g, E.RunsBoth F f g → ∀ p q, p.Alike S q →
        Abreast S fact p.look q.look (f p) (g q))
      (like : a.Like S b)
      (passed : ∀ f g, a.PassesBoth b f g → ∀ p q, p.Alike S q →
        Abreast S fact p.look q.look (f p) (g q))
      (holds : fact E F a b p q)
      (rest : Abreast S fact (a.run E p).look (b.run F q).look p' q') : Abreast S fact p q p' q'

/-- Runs that go abreast, about whose acts nothing else is known. -/
abbrev Together {σ : Type} (S : σ → σ → Prop) := Abreast S fun _ _ _ _ _ _ => True

/-- Runs that go abreast stay alike, and every act in their course gets the same answer. -/
theorem Together.accords (together : Together S p q p' q')
    (alike : p.Alike S q) : p'.Alike S q' ∧ Abreast S (Act.Accords S) p q p' q' := by
  induction together with
  | done p q => exact ⟨alike, .done p q⟩
  | act E F a b corresponds _ like _ _ _ hooks passed rest =>
    -- By induction every hook keeps pools alike, which makes the environments twins.
    have twins : E.Twins S F :=
      ⟨corresponds, fun f g runs p q alike => (hooks f g runs p q alike alike.look).1⟩
    obtain ⟨after, answer⟩ := twins.act like
      (fun f g passes p q alike => (passed f g passes p q alike alike.look).1) alike
    obtain ⟨ends, onward⟩ := rest after.look
    exact ⟨ends, .act E F a b corresponds
      (fun f g runs p q alike => (hooks f g runs p q alike alike.look).2) like
      (fun f g passes p q alike => (passed f g passes p q alike alike.look).2)
      ⟨alike, answer, fun h => twins.metrics h alike, after⟩ onward⟩

/-! ## Failures that nobody notices -/

theorem failures_unnoticed {config : Config} {first first' : σ} (related : S first first')
    (together : Together S (Pool.new config first).look (Pool.new config first').look p q) :
    p.Alike S q ∧
      Abreast S (Act.Accords S) (Pool.new config first).look (Pool.new config first').look p q ∧
      ∀ e ∈ p.journal ++ q.journal, e.softened = some e ∨
        (∃ conn reply, e = .replied conn .close reply) ∨ ∃ line, e = .logged line ∧ line.level = .warn := by
  have fresh : (Pool.new config first : Pool σ Snapshot).Alike S (Pool.new config first') :=
    ⟨rfl, rfl, related⟩
  obtain ⟨ends, accords⟩ := together.accords fresh.look
  exact ⟨ends, accords, fun e _ => e.softened_cases⟩

/-- Clients are known by a name; closes reply and listeners fail as it is said here. -/
def Environment.closing (reply : Reply) (failure : Option String) : Environment Unit Snapshot :=
  { Environment.quiet with
    metrics := fun _ _ => [.ofParts "" "" 0 [(Metric.clientIdTag, "c")]]
    close := fun _ _ outside => (outside, reply)
    listen := fun _ _ p => (p.look, failure) }

/-- In one of the runs the shared producer cannot be closed and the listener fails whenever it is told. -/
theorem failures_unnoticed_of_reset :
    let E : Environment Unit Snapshot := .closing (.ok ()) none
    let F : Environment Unit Snapshot := .closing (.error (.timeout "late")) (some "deaf")
    let acts : List (Act Unit) := [.addListener "l", .create 0, .reset]
    let p := (Pool.new {} ()).look.perform E acts
    let q := (Pool.new {} ()).look.perform F acts
    Together (fun _ _ => True) (Pool.new {} ()).look (Pool.new {} ()).look p q ∧
      p.journal.length + 3 = q.journal.length ∧ p.Alike (fun _ _ => True) q := by
  intro E F acts p q
  have corresponds : E.Corresponds (fun _ _ => True) F :=
    ⟨fun _ _ _ _ _ => ⟨trivial, rfl⟩, fun _ _ _ _ => ⟨trivial, rfl⟩, fun _ _ _ _ => rfl,
      fun _ _ _ _ _ => trivial, fun _ _ _ _ _ => rfl, fun _ _ _ _ _ _ => rfl, rfl⟩
  have hooks (f g : Pool Unit Snapshot → Pool Unit Snapshot) (runs : E.RunsBoth F f g)
      (p q : Pool Unit Snapshot) (_ : p.Alike (fun _ _ => True) q) :
      Together (fun _ _ => True) p.look q.look (f p) (g q) := by
    cases runs <;> exact .done p.look q.look
  have passed {a : Act Unit} (plain : a.isPlain = true) (f g : Pool Unit Snapshot → Pool Unit Snapshot)
      (passes : a.PassesBoth a f g) (p q : Pool Unit Snapshot) (_ : p.Alike (fun _ _ => True) q) :
      Together (fun _ _ => True) p.look q.look (f p) (g q) := by
    cases passes <;> cases plain
  have like {a : Act Unit} (plain : a.isPlain = true) (inside : ∀ outside, a ≠ .elsewhere outside) :
      a.Like (fun _ _ => True) a := .same a plain inside
  have together : Together (fun _ _ => True) (Pool.new {} ()).look (Pool.new {} ()).look p q :=
    .act E F (.addListener "l") _ corresponds hooks (like rfl (by intro _ same; cases same))
      (passed rfl) trivial
      (.act E F (.create 0) _ corresponds hooks (like rfl (by intro _ same; cases same))
        (passed rfl) trivial
        (.act E F .reset _ corresponds hooks (like rfl (by intro _ same; cases same))
          (passed rfl) trivial (.done _ _)))
  exact ⟨together, by decide +kernel, (failures_unnoticed trivial together).1⟩

end ProducerPool
