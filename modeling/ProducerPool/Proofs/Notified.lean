import ProducerPool.Proofs.Informed

/-!
# Notifications of producers that come and go

A listener that is registered once, and has been since before a producer was built, is told once that it
was added and once that it was removed, under the same id, and never about a producer without a client
id.  Code that runs in the course of the operation that builds a producer may close it before everybody
has been told of it.  Then some hear of the removal first, but whoever hears of a producer after that is
shown that it is closed, and everybody has heard of it when the operation ends.
-/

set_option autoImplicit false

namespace ProducerPool

variable {σ : Type} {E : Environment σ Snapshot} {p q m : Pool σ Snapshot} {h : Handle} {r s : Ref}
  {due : List Duty} {times : Nat → Prop} {kind : NoticeKind} {listener : String} {n : Nat} {a : Act σ}
  {config : Config}

namespace Pool

/-- The id that listeners are told is made from the metrics at the time of the construction. -/
theorem build_clientId {placement : Placement} {transactionalId : Option String}
    (builds : build E placement transactionalId p = (q, .ok h)) :
    (q.get h.producer).clientId =
      (Metric.clientId? (E.metrics (q.get h.producer).conn q.outside)).map (listenerId q.factory.config) := by
  rcases build_cases E placement transactionalId p with
    ⟨error, outside, events, -, failed⟩ | ⟨clientId, outside, events, -, read, done⟩
  · rw [failed] at builds
    cases (Prod.mk.inj builds).2
  · rw [done] at builds
    obtain ⟨rfl, same⟩ := Prod.mk.inj builds
    obtain rfl := Except.ok.inj same
    simpa [get, built] using read

/-! ## What a listener has heard -/

/-- What the listener has heard of a producer, where it is registered once. -/
structure Heard (listener : String) (r : Ref) (p : Pool σ Snapshot) : Prop where
  added : p.told listener .added (p.get r).id ≤ 1
  removed : p.told listener .removed (p.get r).id ≤ 1
  undisposed : (p.get r).phase ≠ .disposed → p.told listener .removed (p.get r).id = 0

/-- Whoever is told of a producer is told its client id. -/
theorem Reports.clientId (reports : p.Reports times due) {x : Telling} (member : x ∈ p.tellings)
    (owned : (p.get r).owned = true) (same : x.shown.id = (p.get r).id) :
    (p.get r).clientId = some x.notice.id := by
  have sound := reports.truthful.tellings x member
  rw [← sound.clientId]
  exact (reports.numbered.of_same sound.inside owned (sound.shown.symm.trans same)).1.symm

theorem Reports.nameless (reports : p.Reports times due) (owned : (p.get r).owned = true)
    (nameless : (p.get r).clientId = none) : p.told listener kind (p.get r).id = 0 := by
  refine List.countP_eq_zero.mpr fun x member concerns => ?_
  simp only [Telling.concerns, decide_eq_true_eq] at concerns
  cases nameless.symm.trans (reports.clientId member owned concerns.2.2)

/-- Nothing about the removal of a producer that is not closed has been told or is to be told. -/
theorem Reports.unremoved (reports : p.Reports times due) (undisposed : (p.get r).phase ≠ .disposed) :
    p.announced due .removed (p.get r).id = 0 ∧
      ∀ listener, p.heard due listener .removed (p.get r).id = 0 := by
  have owned := reports.regular.named.owned r (lt_of_phase undisposed) undisposed
  exact reports.truthful.unmentioned fun s inside happened same =>
    Truthful.open_of_sound reports.numbered owned undisposed inside happened same rfl

theorem Reports.once (reports : p.Reports (· = 1) due) (alive : p.alive = true)
    (owned : (p.get r).owned = true) (attends : p.Attends (· = 1) listener r) : p.Heard listener r := by
  have heard (kind : NoticeKind) (happened : p.Happened kind r) :
      p.told listener kind (p.get r).id ≤ 1 := by
    cases known : (p.get r).clientId with
    | none =>
      rw [reports.nameless owned known]
      exact Nat.zero_le 1
    | some id =>
      have told := reports.informed alive kind listener r ⟨happened, owned, by simp [known]⟩ attends
      have part : p.told listener kind (p.get r).id ≤ p.heard due listener kind (p.get r).id :=
        Nat.le_add_left _ _
      omega
  have undisposed (opened : (p.get r).phase ≠ .disposed) :
      p.told listener .removed (p.get r).id = 0 := by
    have none := (reports.unremoved opened).2 listener
    exact (Nat.add_eq_zero_iff.mp none).2
  refine ⟨heard .added (fun removed => by cases removed), ?_, undisposed⟩
  by_cases disposed : (p.get r).phase = .disposed
  · exact heard .removed fun _ => disposed
  · rw [undisposed disposed]
    exact Nat.zero_le 1

/-! ## What an operation adds -/

/-- Nothing about a producer that is built later is due. -/
theorem Reports.unborn (before : p.Reports times due) (after : q.Numbered) (path : Path p q)
    (new : p.producers.length ≤ r) (owned : (q.get r).owned = true) :
    p.announced due kind (q.get r).id = 0 ∧ ∀ listener, p.heard due listener kind (q.get r).id = 0 := by
  refine before.truthful.unmentioned fun s inside _ same => ?_
  obtain ⟨z, owned', number, -⟩ := before.numbered.original s inside
  -- Whatever had the number before was a producer of the factory, and later no other one has it.
  have later := (Later.of_path path).get (lt_of_owned owned')
  have again : z = r := by
    refine after.distinct z r ?_ owned ?_
    · rw [later.owned]
      exact owned'
    · rw [later.id, ← number]
      exact same
  exact absurd (again ▸ lt_of_owned owned') (Nat.not_lt.mpr new)

/-- What was not due when an operation began has been told when it ends. -/
theorem Reports.told_since (before : p.Reports times due) (after : q.Reports times due) (path : Path p q)
    (alive : q.alive = true) (report : q.Reportable kind r) (attends : q.Attends times listener r)
    (unmentioned : p.announced due kind (q.get r).id = 0 ∧
      ∀ listener, p.heard due listener kind (q.get r).id = 0) :
    times (q.told listener kind (q.get r).id) := by
  have duties := before.truthful.duties
  -- The operation leaves the same duties as it finds, and none of them is about the producer.
  have untold : due.countP (Duty.tells q listener kind (q.get r).id) = 0 := by
    rw [tells_path duties path]
    exact (Nat.add_eq_zero_iff.mp (unmentioned.2 listener)).1
  have told := after.informed alive kind listener r report attends
  rw [announced_path duties path, unmentioned.1, Pool.heard, untold, Nat.zero_add] at told
  rcases told with ⟨announced, -⟩ | ⟨-, told⟩
  · cases announced
  · exact told

end Pool

theorem Performs.path (performs : Performs E a p q) : Path p.look q := by
  obtain ⟨lawful, passed, allowed, rfl⟩ := performs
  have ran := Act.run_balanced (p := p.look) lawful.tame a (fun f passes p =>
    (Pool.look_balanced p).balanced (passed f passes p).balanced) allowed
  exact ran.path.tail (.look _)

theorem Performs.reports (performs : Performs E a p q) (visited : Visited config p) (times : Nat → Prop) :
    ∃ due, p.look.Reports times due ∧ q.Reports times due :=
  performs.holds (I := noticeInvariant times) visited (fun _ => trivial) (fun _ _ => trivial)
    fun outside => .new times config outside

theorem Visited.reports (visited : Visited config p) (times : Nat → Prop) :
    ∃ due, p.look.Reports times due :=
  visited.holds (I := noticeInvariant times) (fun _ => trivial) (fun _ _ => trivial)
    fun outside => .new times config outside

/-- What a listener that is registered once has been told when an operation ends that began in `p`. -/
structure Notified (listener : String) (r : Ref) (p q : Pool σ Snapshot) : Prop where
  added : p.producers.length ≤ r → q.told listener .added (q.get r).id = 1
  removed : (p.get r).phase ≠ .disposed ∨ p.producers.length ≤ r →
    (q.get r).phase = .disposed ∨ q.referenced r = false → q.told listener .removed (q.get r).id = 1

theorem Performs.notified (performs : Performs E a p q) (visited : Visited config p)
    (alive : q.alive = true) (owned : (q.get r).owned = true) (known : (q.get r).clientId ≠ none)
    (attends : q.Attends (· = 1) listener r) : Notified listener r p q := by
  obtain ⟨due, before, after⟩ := performs.reports visited (· = 1)
  have path := performs.path
  refine ⟨fun new => ?_, fun open_or_new ended => ?_⟩
  · exact before.told_since after path alive ⟨fun removed => (by cases removed), owned, known⟩ attends
      (before.unborn after.numbered path new owned)
  · have disposed : (q.get r).phase = .disposed := by
      by_contra undisposed
      have tended := after.regular.ordered.tended r (Pool.lt_of_owned owned) undisposed
      rcases ended with disposed | unreferenced
      · exact undisposed disposed
      · cases unreferenced.symm.trans tended
    refine before.told_since after path alive ⟨fun _ => disposed, owned, known⟩ attends ?_
    rcases open_or_new with undisposed | new
    · have later := (Later.of_path path).get (s := r) (Pool.lt_of_phase undisposed)
      rw [later.id]
      exact before.unremoved undisposed
    · exact before.unborn after.numbered path new owned

/-- How listeners hear of producers at a point of a run and of the operations that begin there. -/
structure Notifies (p : Pool σ Snapshot) : Prop where
  heard : p.alive = true → ∀ listener r, (p.get r).owned = true → p.look.Attends (· = 1) listener r →
    p.Heard listener r
  notified : ∀ (E : Environment σ Snapshot) (a : Act σ) (q : Pool σ Snapshot), Performs E a p q →
    q.alive = true → ∀ listener r, (q.get r).owned = true → (q.get r).clientId ≠ none →
      q.Attends (· = 1) listener r → Notified listener r p q
  nameless : ∀ r, (p.get r).owned = true → (p.get r).clientId = none → ∀ listener kind,
    p.told listener kind (p.get r).id = 0
  clientId : ∀ r, (p.get r).owned = true → ∀ x ∈ p.tellings, x.shown.id = (p.get r).id →
    (p.get r).clientId = some x.notice.id
  /-- The client id is made from the metrics at the time of the construction, and is kept. -/
  read : ∀ (E : Environment σ Snapshot) placement transactionalId (m b : Pool σ Snapshot) h,
    Pool.build E placement transactionalId m = (b, .ok h) → (b.get h.producer).clientId =
      (Metric.clientId? (E.metrics (b.get h.producer).conn b.outside)).map
        (Pool.listenerId b.factory.config)
  kept : ∀ m, Precedes m p → ∀ r < m.producers.length, (p.get r).clientId = (m.get r).clientId

theorem notified_once (visited : Visited config p) : Notifies p := by
  obtain ⟨due, reports⟩ := visited.reports (· = 1)
  constructor
  case heard =>
    intro alive listener r owned attends
    obtain ⟨added, removed, undisposed⟩ := reports.once alive owned attends
    exact ⟨added, removed, undisposed⟩
  case notified =>
    intro E a q performs alive listener r owned known attends
    exact performs.notified visited alive owned known attends
  case nameless =>
    intro r owned nameless listener kind
    exact reports.nameless owned nameless
  case clientId =>
    intro r owned x member same
    exact reports.clientId member owned same
  case read =>
    intro E placement transactionalId m b h builds
    exact Pool.build_clientId builds
  case kept =>
    intro m earlier r known
    exact ((Later.of_path (earlier.path visited)).get known).clientId

/-- An environment in which every client has the same id. -/
def Environment.named : Environment Unit Snapshot :=
  { Environment.quiet with metrics := fun _ _ => [.ofParts "" "" 0 [(Metric.clientIdTag, "c")]] }

theorem Environment.named_lawful : Environment.named.Lawful := by
  intro f runs p
  cases runs <;> exact .done p.look

/-- The shared producer is built, and closed by a reset. -/
theorem notified_once_after_reset :
    let config : Config := { name := some "f" }
    let p := (Pool.new config ()).look.perform .named [.addListener "l", .create 0]
    let q := (Act.reset.run .named p.look).look
    Visited config p ∧ p.Heard "l" 0 ∧ q.told "l" .removed 1 = 1 ∧
      ∀ x ∈ p.tellings, x.shown.id = 1 → some "f.c" = some x.notice.id := by
  intro config p q
  have reached := (Reached.start config ()).perform Environment.named_lawful
    [.addListener "l", .create 0] (by decide +kernel)
  have notifies : Notifies p := notified_once reached.visited
  have performs : Performs .named .reset p q :=
    ⟨Environment.named_lawful, fun f passes => absurd passes (Act.not_passes rfl), by decide +kernel, rfl⟩
  have heard := notifies.heard (by decide +kernel) "l" 0 (by decide +kernel)
    (.of_marks 3 (by decide +kernel) (by decide +kernel) (by decide +kernel))
  have notified := notifies.notified .named .reset q performs (by decide +kernel) "l" 0
    (by decide +kernel) (by decide +kernel)
    (.of_marks 5 (by decide +kernel) (by decide +kernel) (by decide +kernel))
  have removed := notified.removed (Or.inl (by decide +kernel)) (Or.inl (by decide +kernel))
  rw [show (q.get 0).id = 1 by decide +kernel] at removed
  have clientId := notifies.clientId 0 (by decide +kernel)
  rw [show (p.get 0).id = 1 by decide +kernel, show (p.get 0).clientId = some "f.c" by decide +kernel]
    at clientId
  exact ⟨reached.visited, heard, removed, clientId⟩

/-! ## Who hears of the removal first -/

theorem added_before_removed (visited : Visited config p) :
    (∀ later x earlier, p.tellings = later ++ x :: earlier → x.notice.kind = .removed →
      ∀ y ∈ later, y.shown.id = x.shown.id → y.shown.phase = .disposed) ∧
    ∀ (E : Environment σ Snapshot) (a : Act σ) (q : Pool σ Snapshot), Performs E a p q →
      q.alive = true → ∀ listener r, p.producers.length ≤ r → (q.get r).owned = true →
        (q.get r).clientId ≠ none → q.Attends (0 < ·) listener r →
          0 < q.told listener .added (q.get r).id := by
  obtain ⟨due, reports⟩ := visited.reports (0 < ·)
  refine ⟨fun later x earlier split removed y member same => ?_, fun E a q performs alive listener r new
    owned known attends => ?_⟩
  · have order : p.tellings.Pairwise _ := reports.truthful.order
    rw [split, List.pairwise_append] at order
    by_contra undisposed
    exact order.2.2 y member x List.mem_cons_self undisposed removed same.symm
  · obtain ⟨due, before, after⟩ := performs.reports visited (0 < ·)
    exact before.told_since after performs.path alive ⟨fun removed => (by cases removed), owned, known⟩
      attends (before.unborn after.numbered performs.path new owned)

/-- Whoever is called `a` resets the factory when a producer is added. -/
def Environment.hasty : Environment Unit Snapshot :=
  { Environment.named with
    listen := fun listener notice p =>
      if (listener = "a" ∧ notice.kind = .added) ∧ 0 < p.owners then ((p.look.reset .quiet).look, none)
      else (p.look, none) }

theorem Environment.hasty_lawful : Environment.hasty.Lawful := by
  refine .of_listen (fun _ _ _ => rfl) (fun _ _ _ _ => rfl) fun listener notice p => ?_
  dsimp only [Environment.hasty]
  split
  case isTrue both => exact ⟨[.reset], ⟨rfl, both.2, trivial⟩, rfl⟩
  case isFalse => exact ⟨[], trivial, rfl⟩

/-- Whoever comes after `a` hears of the removal first, and then of a producer that is closed. -/
theorem added_before_removed_unless_hasty :
    let p := (Pool.new {} ()).look.perform .hasty [.addListener "a", .addListener "l"]
    let q := ((Act.create 0).run .hasty p.look).look
    Visited {} p ∧ 0 < q.told "l" .added 1 := by
  intro p q
  have reached := (Reached.start ({} : Config) ()).perform Environment.hasty_lawful
    [.addListener "a", .addListener "l"] (by decide +kernel)
  have performs : Performs .hasty (.create 0) p q :=
    ⟨Environment.hasty_lawful, fun f passes => absurd passes (Act.not_passes rfl), by decide +kernel, rfl⟩
  have told := (added_before_removed reached.visited).2 .hasty (.create 0) q performs (by decide +kernel)
    "l" 0 (by decide +kernel) (by decide +kernel) (by decide +kernel)
    (.of_marks 6 (by decide +kernel) (by decide +kernel) (by decide +kernel))
  rw [show (q.get 0).id = 1 by decide +kernel] at told
  exact ⟨reached.visited, told⟩

/-- A listener that was there before the producer was built hears of its removal first. -/
theorem removed_before_added :
    let p := (Pool.new {} ()).look.perform .hasty [.addListener "a", .addListener "l", .create 0]
    Environment.hasty.Lawful ∧ Reached {} p ∧ p.alive = true ∧ (p.get 0).owned = true ∧
      (p.get 0).clientId = some "c" ∧ p.Attends (· = 1) "l" 0 ∧
        p.tellings.map (fun x => (x.listener, x.notice.kind, x.shown.id)) =
          [("l", .added, 1), ("l", .removed, 1), ("a", .removed, 1), ("a", .added, 1)] := by
  intro p
  have reached := (Reached.start ({} : Config) ()).perform Environment.hasty_lawful
    [.addListener "a", .addListener "l", .create 0] (by decide +kernel)
  refine ⟨Environment.hasty_lawful, reached, by decide +kernel, by decide +kernel, by decide +kernel, ?_,
    by decide +kernel⟩
  exact .of_marks 6 (by decide +kernel) (by decide +kernel) (by decide +kernel)

end ProducerPool
