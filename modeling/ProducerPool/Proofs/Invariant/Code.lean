import ProducerPool.Proofs.Invariant.Sweep

/-!
# Invariants hold at every point of a run

Code of callers keeps an invariant, as long as it closes no handle that may not be parked, and when it
is done, no more is due than when it began.  So between operations nothing is due, and at any other point
of a run what is due is what the operations in progress have yet to close.
-/

set_option autoImplicit false

namespace ProducerPool

variable {σ : Type} {E : Environment σ Snapshot} {I : Invariant σ} {p q : Pool σ Snapshot}
  {due : List Duty} {h : Handle}

/-! ## Code that leaves handles alone -/

/-- Code of callers that closes none of the handles `shuns`, and passes no code along that does. -/
inductive Abstains {σ : Type} (shuns : Handle → Prop) : Pool σ Snapshot → Pool σ Snapshot → Prop
  | done (p : Pool σ Snapshot) : Abstains shuns p p
  | act {p q : Pool σ Snapshot} (E : Environment σ Snapshot) (a : Act σ)
      (hooks : ∀ f, E.Runs f → ∀ p, Abstains shuns p.look (f p))
      (passed : ∀ f, a.Passes f → ∀ p, Abstains shuns p.look (f p))
      (allowed : a.Allowed p) (spares : ∀ h timeout, a = .close h timeout → ¬shuns h)
      (rest : Abstains shuns (a.run E p).look q) : Abstains shuns p q

theorem Abstains.code {shuns : Handle → Prop} (abstains : Abstains shuns p q) : Code p q := by
  induction abstains with
  | done p => exact .done p
  | act E a _ _ allowed _ _ hooks passed rest => exact .act E a hooks passed allowed rest

theorem Code.abstains (code : Code p q) : Abstains (fun _ => False) p q := by
  induction code with
  | done p => exact .done p
  | act E a _ _ allowed _ hooks passed rest =>
    exact .act E a hooks passed allowed (fun _ _ _ => not_false) rest

/-! ## Acts -/

theorem Invariant.look (holds : I.holds due p) : I.holds due p.look :=
  I.rest holds (.look p) ⟨id, .refl _, rfl, .refl _⟩ rfl

/-- An act preserves the invariant until code of callers goes on. -/
theorem Environment.Upholds.act (up : E.Upholds I) (a : Act σ)
    (balanced : ∀ f, a.Passes f → ∀ p, Balanced p (f p))
    (keeps : ∀ f, a.Passes f → ∀ p, I.holds due p → I.holds due (f p)) (allowed : a.Allowed p)
    (parks : ∀ h timeout, a = .close h timeout → I.parks h) (binds : ∀ t, a = .create t → E.Binds I t)
    (holds : I.holds due p) : I.holds due (a.run E p).look := by
  have alive (owned : 0 < p.owners) : p.alive = true := Pool.alive_of_owners owned
  have handle {h : Handle} (there : h ∈ p.held ++ p.pinned) : h ∈ p.handles :=
    List.mem_append_left _ there
  cases a with
  | addListener name => exact I.move holds (.register due p _)
  | removeListener name => exact I.move holds (.register due p _)
  | create t => exact I.look (up.create holds t (alive allowed) (binds t rfl))
  | createFor scope => exact I.look (up.createFor holds scope (alive allowed))
  | execute scope work =>
    exact I.look (up.execute holds (fun h => balanced _ (.work scope work h))
      (fun h => keeps _ (.work scope work h)) scope (alive allowed))
  | reset => exact I.look (up.reset holds (alive allowed))
  | destroy => exact I.look (up.destroy holds (alive allowed))
  | onHostEvent event => exact I.look (up.onHostEvent holds event (alive allowed))
  | closeBound t => exact I.look (up.closeBound holds t (alive allowed))
  | closeFor scope => exact I.look (up.closeFor holds scope (alive allowed))
  | shareFactory =>
    exact I.look (I.recount holds (p.owners + 1) p.running (alive allowed) (by omega))
  | dropFactory => exact I.look (I.dropFactory E holds)
  | operate h call => exact I.look (up.operate holds (handle allowed) call)
  | send h r callback => exact I.look (up.send holds (handle allowed) r callback)
  | close h timeout =>
    exact I.look (up.close holds (handle allowed) timeout fun _ _ => parks h timeout rfl)
  | clone h =>
    exact I.look (I.rest holds (.hold p h (handle allowed)) (.of_factory rfl rfl rfl id) rfl)
  | drop h => exact I.look (up.drop holds h)
  | deliver callback d outcome =>
    exact I.look (I.deliver holds (keeps _ (.callback callback d outcome)))
  | elsewhere outside =>
    exact I.look (I.rest holds (.elsewhere p outside) (.of_factory rfl rfl rfl id) rfl)

/-- Where any thread may be given a new producer, those who ask for one may. -/
theorem Environment.binds_of_forall (E : Environment σ Snapshot) (binds : ∀ t found, I.binds t found)
    (t : ThreadId) : E.Binds I t where
  vacant := binds t none
  renewed _ _ _ _ _ _ := binds t _

/-- Code of callers leaves as much due as it finds. -/
theorem Abstains.preserves {shuns : Handle → Prop} (abstains : Abstains shuns p q)
    (parks : ∀ h, ¬shuns h → I.parks h) (binds : ∀ t found, I.binds t found)
    (holds : I.holds due p) : I.holds due q := by
  induction abstains generalizing due with
  | done => exact holds
  | act E a hooks passed allowed spares _ keeps kept rest =>
    have balanced {f : Pool σ Snapshot → Pool σ Snapshot}
        (runs : ∀ p, Abstains shuns p.look (f p)) (p : Pool σ Snapshot) : Balanced p (f p) :=
      (Pool.look_balanced p).balanced (runs p).code.balanced
    have up : E.Upholds I :=
      ⟨fun f runs => balanced (hooks f runs), fun f runs due p holds => keeps f runs p (I.look holds)⟩
    exact rest (up.act a (fun f passes => balanced (passed f passes))
      (fun f passes p holds => kept f passes p (I.look holds)) allowed
      (fun h timeout same => parks h (spares h timeout same)) (fun t _ => E.binds_of_forall binds t)
      holds)

theorem Environment.upholds_of_abstains {shuns : Handle → Prop}
    (abstains : ∀ f, E.Runs f → ∀ p, Abstains shuns p.look (f p))
    (parks : ∀ h, ¬shuns h → I.parks h) (binds : ∀ t found, I.binds t found) : E.Upholds I where
  tame f runs p := (Pool.look_balanced p).balanced (abstains f runs p).code.balanced
  hook f runs _ p holds := (abstains f runs p).preserves parks binds (I.look holds)

/-! ## Runs -/

/-- The invariant holds, and it has held whenever code of callers went on. -/
def Invariant.throughout (I : Invariant σ) : Invariant σ where
  holds due p := I.holds due p ∧ ∀ m ∈ p.points, ∃ due, I.holds due m.look
  parks := I.parks
  binds := I.binds
  regular holds := I.regular holds.1
  own holds := I.own holds.1
  move := by
    rintro due left p q ⟨holds, before⟩ move
    have held := I.move holds move
    refine ⟨held, fun m point => ?_⟩
    rcases move.journal with ⟨x, same, rfl⟩ | ⟨events, unmarked, journal⟩
    · rw [Pool.points_look, same] at point
      rcases List.mem_cons.mp point with rfl | earlier
      · exact ⟨left, held⟩
      · exact before m earlier
    · rw [Pool.points_of_unmarked unmarked journal] at point
      obtain ⟨x, earlier, rfl⟩ := List.mem_map.mp point
      obtain ⟨due, held⟩ := before x earlier
      exact ⟨due, I.rest held (.elsewhere x.look q.outside) (.of_factory rfl rfl rfl id) rfl⟩

section Runs

variable {config : Config}

/-- Between operations nothing is due. -/
theorem Reached.holds (reached : Reached config p) (parks : ∀ h, I.parks h)
    (binds : ∀ t found, I.binds t found) (first : ∀ outside, I.holds [] (Pool.new config outside)) :
    I.holds [] p := by
  obtain ⟨outside, code⟩ := reached
  exact code.abstains.preserves (fun h _ => parks h) binds (I.look (first outside))

theorem Visited.holds (visited : Visited config p) (parks : ∀ h, I.parks h)
    (binds : ∀ t found, I.binds t found) (first : ∀ outside, I.holds [] (Pool.new config outside)) :
    ∃ due, I.holds due p.look := by
  obtain ⟨q, reached, point⟩ := visited
  have whole : I.throughout.holds [] q :=
    reached.holds parks binds fun outside => ⟨first outside, List.forall_mem_nil _⟩
  obtain ⟨due, held⟩ := whole.2 _ point
  exact ⟨due, I.rest held (.elsewhere { p with outside := q.outside }.look p.outside)
    (.of_factory rfl rfl rfl id) rfl⟩

/-- An act that code of callers may do when it goes on in `p`; it goes on again in `q`. -/
structure Performs (E : Environment σ Snapshot) (a : Act σ) (p q : Pool σ Snapshot) : Prop where
  lawful : E.Lawful
  passed : ∀ f, a.Passes f → ∀ p, Code p.look (f p)
  allowed : a.Allowed p
  result : q = (a.run E p.look).look

/-- An act at any point of a run leaves as much due as it finds. -/
theorem Performs.holds {a : Act σ} (performs : Performs E a p q) (visited : Visited config p)
    (parks : ∀ h, I.parks h) (binds : ∀ t found, I.binds t found)
    (first : ∀ outside, I.holds [] (Pool.new config outside)) :
    ∃ due, I.holds due p.look ∧ I.holds due q := by
  obtain ⟨lawful, passed, allowed, rfl⟩ := performs
  obtain ⟨due, holds⟩ := visited.holds parks binds first
  have spares (h : Handle) (_ : ¬False) : I.parks h := parks h
  have up : E.Upholds I :=
    Environment.upholds_of_abstains (fun f runs p => (lawful f runs p).abstains) spares binds
  refine ⟨due, holds, up.act a (fun f passes p => ?_) (fun f passes p holds => ?_) allowed
    (fun h _ _ => parks h) (fun t _ => E.binds_of_forall binds t) holds⟩
  · exact (Pool.look_balanced p).balanced (passed f passes p).balanced
  · exact (passed f passes p).abstains.preserves spares binds (I.look holds)

end Runs

end ProducerPool
