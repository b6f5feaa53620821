import ProducerPool.Proofs.Invariant.Move

/-!
# What operations do at one go

After some moves an operation has to go on before code of callers may run.  When a producer loses the place
of the shared one, to a new one, to a close or to a sweep, it is stray until it is closed, and that is what
happens next.  A `Motion` is what an operation does at one go: moves among which no pool is written down,
and after which no producer is stray that was not so before.

What holds of a pool and of what is due in it is an `Invariant` if every motion preserves it.
-/

set_option autoImplicit false

namespace ProducerPool

variable {σ : Type} {p q m : Pool σ Snapshot} {r : Ref} {gone : Option Ref} {h : Handle}
  {parks : Handle → Prop} {binds : ThreadId → Option Handle → Prop} {due mid left : List Duty}

namespace Pool

/-! ## Shared producers out of place -/

/-- The producer is a shared one and not closed. -/
def Sharing (p : Pool σ Snapshot) (r : Ref) : Prop :=
  (p.get r).phase ≠ .disposed ∧ (p.get r).placement = .shared

/-- A shared producer is not closed, and the factory, which lives, does not keep it. -/
structure Stray (p : Pool σ Snapshot) (r : Ref) : Prop where
  alive : p.alive = true
  sharing : p.Sharing r
  other : ∀ h, p.factory.shared = some h → h.producer ≠ r

theorem Sharing.inside (sharing : p.Sharing r) : r < p.producers.length := lt_of_phase sharing.1

theorem Stays.stray (stays : p.Stays gone q) (inside : r < p.producers.length) (stray : q.Stray r) :
    p.Stray r where
  alive := stays.alive stray.alive
  sharing := by
    have other : gone ≠ some r := fun same => stray.sharing.1 (stays.producers.closed r same).2
    have phase : (q.get r).phase = (p.get r).phase := stays.producers.phase r inside other
    have placement : (q.get r).placement = (p.get r).placement := stays.producers.placement r inside
    exact ⟨phase ▸ stray.sharing.1, placement ▸ stray.sharing.2⟩
  other h found := stray.other h (stays.places.shared.trans found)

theorem Stays.settled (stays : p.Stays gone q)
    (length : q.producers.length = p.producers.length) (r : Ref) (stray : q.Stray r) : p.Stray r :=
  stays.stray (length ▸ stray.sharing.inside) stray

theorem Stray.of_modify {f : Producer → Producer} (alive : q.alive = p.alive)
    (shared : q.factory.shared = p.factory.shared) (producers : q.producers = p.producers.modify r f)
    (placement : ∀ x, (f x).placement = x.placement) (undisposed : (p.get r).phase ≠ .disposed)
    (s : Ref) (stray : q.Stray s) : p.Stray s where
  alive := alive ▸ stray.alive
  sharing := by
    have changed : q.get s = if r = s ∧ s < p.producers.length then f (p.get s) else p.get s := by
      rw [get, producers]
      exact getD_modify f p.producers r s
    have sharing := stray.sharing
    rw [Sharing, changed] at sharing
    split at sharing
    · rename_i same
      exact ⟨same.1 ▸ undisposed, (placement _).symm.trans sharing.2⟩
    · exact sharing
  other h found := stray.other h (shared.trans found)

/-- A new producer takes its place, and only the one that was shared before can be stray after that. -/
theorem Seats.stray (seats : Seats binds h m q) (stays : p.Stays none m)
    (new : h.producer = p.producers.length) (length : m.producers.length = p.producers.length + 1)
    (stray : q.Stray r) :
    p.Stray r ∨ (m.get h.producer).placement = .shared ∧ ∃ s, m.factory.shared = some s ∧ s.producer = r := by
  have known : r < p.producers.length + 1 := by
    rw [← length, ← seats.producers]
    exact stray.sharing.inside
  have old (other : r ≠ h.producer) : r < p.producers.length :=
    Nat.lt_of_le_of_ne (Nat.le_of_lt_succ known) (new ▸ other)
  cases seats with
  | pooled key placed =>
    refine Or.inl (stays.stray (old ?_) stray)
    rintro rfl
    cases placed.symm.trans stray.sharing.2
  | bound t placed alive may =>
    have astray : m.Stray r := ⟨stray.alive, stray.sharing, stray.other⟩
    refine Or.inl (stays.stray (old ?_) astray)
    rintro rfl
    cases placed.symm.trans stray.sharing.2
  | shared placed =>
    have other : r ≠ h.producer := (stray.other h rfl).symm
    by_cases displaced : ∃ s, m.factory.shared = some s ∧ s.producer = r
    · exact Or.inr ⟨placed, displaced⟩
    · have astray : m.Stray r :=
        ⟨stray.alive, stray.sharing, fun s found same => displaced ⟨s, found, same⟩⟩
      exact Or.inl (stays.stray (old other) astray)

/-! ## Producers that are checked out -/

/-- Whatever is checked out stays so. -/
def StaysOut (p q : Pool σ Snapshot) : Prop :=
  ∀ r, (q.get r).checkedOut = false → (p.get r).checkedOut = false

namespace StaysOut

theorem of_producers (same : q.producers = p.producers) : p.StaysOut q := by
  intro r back
  rwa [get, same] at back

theorem trans (first : p.StaysOut m) (second : m.StaysOut q) : p.StaysOut q :=
  fun r back => first r (second r back)

theorem modify {f : Producer → Producer} (producers : q.producers = p.producers.modify r f)
    (out : ∀ x, (f x).checkedOut = false → x.checkedOut = false) : p.StaysOut q := by
  intro s back
  rw [get, producers, getD_modify] at back
  split at back
  · exact out _ back
  · exact back

theorem append {x : Producer} (before : p.StaysOut m) (length : m.producers.length = p.producers.length)
    (producers : q.producers = m.producers ++ [x]) : p.StaysOut q := by
  intro s back
  rw [get, producers, getD_append] at back
  split at back
  · rename_i new
    rw [get_eq_absent (Nat.le_of_eq (length.symm.trans new.symm))]
    rfl
  · exact before s back

end StaysOut

/-- Journals that differ by events that write no pool down. -/
def Unseen (p q : Pool σ Snapshot) : Prop :=
  ∃ events, (∀ e ∈ events, e.isMark = false) ∧ q.journal = events ++ p.journal

theorem Unseen.refl (p : Pool σ Snapshot) : p.Unseen p := ⟨[], List.forall_mem_nil _, rfl⟩

theorem Unseen.trans (first : p.Unseen m) (second : m.Unseen q) : p.Unseen q := by
  obtain ⟨early, unmarked, journal⟩ := first
  obtain ⟨late, unmarked', journal'⟩ := second
  refine ⟨late ++ early, fun e member => ?_, by rw [journal', journal, List.append_assoc]⟩
  rcases List.mem_append.mp member with later | earlier
  · exact unmarked' e later
  · exact unmarked e earlier

end Pool

/-! ## Motions -/

/-- Moves one after the other. -/
inductive Moves (parks : Handle → Prop) (binds : ThreadId → Option Handle → Prop) :
    List Duty → Pool σ Snapshot → List Duty → Pool σ Snapshot → Prop
  | refl (due : List Duty) (p : Pool σ Snapshot) : Moves parks binds due p due p
  | tail {due mid left : List Duty} {p m q : Pool σ Snapshot} (moves : Moves parks binds due p mid m)
      (move : Move parks binds mid m left q) : Moves parks binds due p left q

/-- Moves at one go.  Only the close of a handle that `parks` allows checks a producer in. -/
structure Motion (parks : Handle → Prop) (binds : ThreadId → Option Handle → Prop) (due : List Duty)
    (p : Pool σ Snapshot) (left : List Duty) (q : Pool σ Snapshot) : Prop where
  moves : Moves parks binds due p left q
  journal : (∃ m : Pool σ Snapshot, m.points = p.points ∧ q = m.look) ∨ p.Unseen q
  settled : ∀ r, q.Stray r → p.Stray r
  returns : ∀ r, (q.get r).checkedOut = false →
    (p.get r).checkedOut = false ∨ ∃ h, parks h ∧ h.producer = r ∧ (p.get r).lease = h.lease

@[elab_as_elim]
theorem Moves.preserves {holds : List Duty → Pool σ Snapshot → Prop}
    (moves : Moves parks binds due p left q)
    (move : ∀ {due left : List Duty} {p q : Pool σ Snapshot},
      holds due p → Move parks binds due p left q → holds left q)
    (first : holds due p) : holds left q := by
  induction moves with
  | refl => exact first
  | tail _ last ih => exact move (ih first) last

theorem Moves.path (moves : Moves parks binds due p left q) : Path p q := by
  induction moves with
  | refl => exact .refl
  | tail _ last ih => exact ih.trans last.path

/-- Moves of which only the last may leave a stray producer behind, which is `r`. -/
structure Exposes (parks : Handle → Prop) (binds : ThreadId → Option Handle → Prop) (due : List Duty)
    (p : Pool σ Snapshot) (left : List Duty) (q : Pool σ Snapshot) (r : Ref) : Prop where
  moves : Moves parks binds due p left q
  unseen : p.Unseen q
  strays : ∀ s, q.Stray s → s = r ∨ p.Stray s
  out : p.StaysOut q

theorem Exposes.refl (due : List Duty) (p : Pool σ Snapshot) (r : Ref) :
    Exposes parks binds due p due p r :=
  ⟨.refl due p, .refl p, fun _ stray => Or.inr stray, fun _ back => back⟩

/-- The shared producer loses its place to a new one. -/
theorem Exposes.build (due : List Duty) (p m q : Pool σ Snapshot) (s : Handle) (step : Step p m)
    (stays : p.Stays none m) (new : h = ⟨p.producers.length, 0⟩)
    (length : m.producers.length = p.producers.length + 1)
    (opened : (m.get h.producer).phase = .opened) (unseen : p.Unseen m)
    (seats : Pool.Seats binds h m q) (path : Path m q) (stale : m.factory.shared = some s)
    (out : p.StaysOut m) :
    Exposes parks binds due p (.announce .added h :: due) q s.producer where
  moves := .tail (.refl due p) (.build due p m q h step stays new length opened unseen seats path)
  unseen := by
    obtain ⟨events, unmarked, journal⟩ := unseen
    exact ⟨events, unmarked, seats.journal.trans journal⟩
  strays r stray := by
    rcases seats.stray stays (congrArg Handle.producer new) length stray with
      before | ⟨-, x, found, same⟩
    · exact Or.inr before
    · obtain rfl : s = x := Option.some.inj (stale.symm.trans found)
      exact Or.inl same.symm
  out := out.trans (.of_producers seats.producers)

/-- A producer loses the place of the shared one when it is closed. -/
theorem Exposes.unshare (due : List Duty) (p : Pool σ Snapshot) (inside : r < p.producers.length)
    (placed : (p.get r).placement = .shared) (step : Step p (p.unshare r)) :
    Exposes parks binds due p (.close r :: due) (p.unshare r) r where
  moves := .tail (.refl due p) (.vacate due p _ r inside (.shared placed) step)
  unseen := .refl p
  strays s stray := by
    by_cases own : s = r
    · exact Or.inl own
    refine Or.inr ⟨stray.alive, stray.sharing, fun h found same => ?_⟩
    refine stray.other h (Option.filter_eq_some_iff.mpr ⟨found, ?_⟩) same
    rw [same]
    simpa using own
  out := .of_producers rfl

/-- The shared producer loses its place when a new generation begins. -/
theorem Exposes.sweep (due : List Duty) (p : Pool σ Snapshot) (shared : p.factory.shared = some h) :
    Exposes parks binds due p (p.idle.map (fun h => .close h.producer) ++ due)
      { p.giveUpIdle.log (.resetting p.idle.length) with pinned := p.idle.reverse ++ p.pinned }
      h.producer where
  moves := by
    have given : Move parks binds due p (p.idle.map (fun h => .close h.producer) ++ due)
        { p.giveUpIdle with pinned := p.idle.reverse ++ p.pinned } :=
      .giveUp due p p.idle _ (.swept fun h => (p.get h.producer).checkedOut)
    refine .tail (.tail (.refl due p) given) (.still _ _ _ (.note _ (.logged _) rfl) ?_ rfl)
    exact ⟨id, .refl _, rfl, .refl _⟩
  unseen := ⟨[.logged (.resetting p.idle.length)], by simp [Event.isMark], rfl⟩
  strays s stray := by
    by_cases own : s = h.producer
    · exact Or.inl own
    refine Or.inr ⟨stray.alive, stray.sharing, fun x found same => own ?_⟩
    obtain rfl : h = x := Option.some.inj (shared.symm.trans found)
    exact same.symm
  out := .of_producers rfl

namespace Motion

theorem of_move (move : Move parks binds due p left q) (settled : ∀ r, q.Stray r → p.Stray r)
    (out : p.StaysOut q) : Motion parks binds due p left q :=
  ⟨.tail (.refl due p) move, move.journal, settled, fun r back => Or.inl (out r back)⟩

theorem still (due : List Duty) (p q : Pool σ Snapshot) (step : Step p q) (stays : p.Stays none q)
    (length : q.producers.length = p.producers.length) (out : p.StaysOut q) :
    Motion parks binds due p due q :=
  .of_move (.still due p q step stays length) (stays.settled length) out

theorem checkIn (due : List Duty) (p : Pool σ Snapshot) (h : Handle) (may : parks h)
    (lease : (p.get h.producer).lease = h.lease) :
    Motion parks binds due p due (p.modify h.producer fun q => { q with checkedOut := false }) := by
  have stays : p.Stays none (p.modify h.producer fun q => { q with checkedOut := false }) :=
    ⟨id, .refl _, rfl, .modify _ _ _ (fun _ => rfl) (fun _ => rfl) fun _ => rfl⟩
  have move : Move parks binds due p due (p.modify h.producer fun q => { q with checkedOut := false }) :=
    .still due p _ (.check p h.producer false) stays (List.length_modify ..)
  refine ⟨.tail (.refl due p) move, move.journal, stays.settled (List.length_modify ..), fun r back => ?_⟩
  by_cases same : h.producer = r
  · exact Or.inr ⟨h, may, same, same ▸ lease⟩
  · rw [Pool.get, Pool.modify, Pool.getD_modify, if_neg fun both => same both.1] at back
    exact Or.inl back

theorem register (due : List Duty) (p : Pool σ Snapshot) (listeners : List String) :
    Motion parks binds due p due (p.onFactory fun f => { f with listeners := listeners }).look :=
  .of_move (.register due p listeners) (fun _ stray => ⟨stray.alive, stray.sharing, stray.other⟩)
    fun _ back => back

theorem shelve (due : List Duty) (p : Pool σ Snapshot) (h : Handle) (key : String) (may : parks h)
    (lease : (p.get h.producer).lease = h.lease) (there : h ∈ p.handles)
    (opened : (p.get h.producer).phase = .opened)
    (placed : (p.get h.producer).placement = .pooled key)
    (current : (p.get h.producer).epoch = p.factory.epoch) (alive : p.alive = true) :
    Motion parks binds due p due
      { p with
        factory := { p.factory with cache := p.factory.cache.push key h }
        producers := p.producers.modify h.producer fun q => { q with phase := .cached } } :=
  .of_move (.shelve due p h key may lease there opened placed current alive)
    (Pool.Stray.of_modify (r := h.producer) rfl rfl rfl (fun _ => rfl) (by rw [opened]; simp))
    (.modify (r := h.producer) rfl fun _ back => back)

theorem reopen (due : List Duty) (p : Pool σ Snapshot) (key : String) (h : Handle)
    (cache : Cache Handle) (found : p.factory.cache.pop? key = some (h, cache))
    (cached : (p.get h.producer).phase = .cached) (sound : (p.get h.producer).isSpoiled = false) :
    Motion parks binds due p due (p.reopened h cache) :=
  .of_move (.reopen due p key h cache found cached sound)
    (Pool.Stray.of_modify (r := h.producer) rfl rfl rfl (fun _ => rfl) (by rw [cached]; simp))
    (.modify (r := h.producer) rfl fun _ back => back)

/-- The factory gives up handles, but not the shared one. -/
theorem giveUp (due : List Duty) (p : Pool σ Snapshot) (hs : List Handle) (f : Factory)
    (givesUp : p.factory.GivesUp hs f) (kept : f.shared = p.factory.shared) :
    Motion parks binds due p (hs.map (fun h => .close h.producer) ++ due)
      { p with factory := f, pinned := hs.reverse ++ p.pinned } :=
  .of_move (.giveUp due p hs f givesUp)
    (fun _ stray => ⟨stray.alive, stray.sharing, fun h found => stray.other h (kept.trans found)⟩)
    (.of_producers rfl)

theorem unbind (due : List Duty) (p : Pool σ Snapshot) (r : Ref) (inside : r < p.producers.length)
    (t : ThreadId) (placed : (p.get r).placement = .thread t) (step : Step p (p.unbind t r)) :
    Motion parks binds due p (.close r :: due) (p.unbind t r) :=
  .of_move (.vacate due p _ r inside (.bound t placed) step)
    (fun _ stray => ⟨stray.alive, stray.sharing, stray.other⟩) (.of_producers rfl)

theorem shut (due : List Duty) (p q : Pool σ Snapshot) (r : Ref) (step : Step p q)
    (gone : p.alive = false) (stays : p.Stays (some r) q)
    (length : q.producers.length = p.producers.length) (out : p.StaysOut q) :
    Motion parks binds due p due q :=
  .of_move (.shut due p q r step gone stays length) (stays.settled length) out

theorem expire (due : List Duty) (p : Pool σ Snapshot) :
    Motion parks binds due p due
      { p with
        owners := 0, running := 0, factory := p.factory.emptied
        pinned := p.factory.handles.reverse ++ p.pinned } :=
  .of_move (.expire due p) (fun _ stray => by cases stray.alive) (.of_producers rfl)

theorem hush (due : List Duty) (p : Pool σ Snapshot) (kind : NoticeKind) (h : Handle)
    (nameless : (p.get h.producer).clientId = none) :
    Motion parks binds (.announce kind h :: due) p due p :=
  .of_move (.hush due p kind h nameless) (fun _ stray => stray) fun _ back => back

theorem summon (due : List Duty) (p : Pool σ Snapshot) (kind : NoticeKind) (h : Handle) (id : String)
    (known : (p.get h.producer).clientId = some id) :
    Motion parks binds (.announce kind h :: due) p
      (p.factory.listeners.map (fun listener => .tell listener ⟨kind, id, h⟩) ++ due) p :=
  .of_move (.summon due p kind h id known) (fun _ stray => stray) fun _ back => back

theorem tell (due : List Duty) (p : Pool σ Snapshot) (listener : String) (notice : Notice) :
    Motion parks binds (.tell listener notice :: due) p due
      (p.record (.notifying listener notice (p.get notice.handle.producer))) :=
  .of_move (.tell due p listener notice)
    (fun _ stray => ⟨stray.alive, stray.sharing, stray.other⟩) (.of_producers rfl)

/-- A lost producer is closed; the copy that listeners will be shown is closed from the start. -/
theorem forget (due : List Duty) (p q : Pool σ Snapshot) (r : Ref) (step : Step p q)
    (undisposed : (p.get r).phase ≠ .disposed) (stays : p.Stays (some r) q) (apart : p.Apart r)
    (copied : q.producers =
      (p.producers.modify r fun x => { x with phase := .disposed }) ++ [(p.get r).closedCopy]) :
    Motion parks binds due p (.announce .removed ⟨p.producers.length, 0⟩ :: due) q := by
  refine .of_move (.forget due p q r step undisposed stays apart copied) (fun s stray => ?_) ?_
  · have known := stray.sharing.inside
    rw [copied, List.length_append, List.length_modify] at known
    refine stays.stray (Nat.lt_of_le_of_ne (Nat.le_of_lt_succ known) ?_) stray
    rintro rfl
    refine stray.sharing.1 ?_
    rw [Pool.get, copied, Pool.getD_append, if_pos (List.length_modify ..).symm]
    rfl
  · have closed : p.StaysOut (p.modify r fun x => { x with phase := .disposed }) :=
      .modify (r := r) rfl fun _ back => back
    exact closed.append (List.length_modify ..) copied

/-- A new producer takes its place, which is not that of another shared one. -/
theorem build (due : List Duty) (p m q : Pool σ Snapshot) (h : Handle) (step : Step p m)
    (stays : p.Stays none m) (new : h = ⟨p.producers.length, 0⟩)
    (length : m.producers.length = p.producers.length + 1)
    (opened : (m.get h.producer).phase = .opened) (unseen : p.Unseen m)
    (seats : Pool.Seats binds h m q) (path : Path m q)
    (vacant : (m.get h.producer).placement = .shared → m.factory.shared = none) (out : p.StaysOut m) :
    Motion parks binds due p (.announce .added h :: due) q := by
  refine .of_move (.build due p m q h step stays new length opened unseen seats path) (fun r stray => ?_)
    (out.trans (.of_producers seats.producers))
  rcases seats.stray stays (congrArg Handle.producer new) length stray with before | ⟨placed, s, found, -⟩
  · exact before
  · cases (vacant placed).symm.trans found

/-- A producer is closed that may be stray until then. -/
theorem retire (exposes : Exposes parks binds due p mid m h.producer) (step : Step m q)
    (undisposed : (m.get h.producer).phase ≠ .disposed) (stays : m.Stays (some h.producer) q)
    (length : q.producers.length = m.producers.length) (frees : m.Frees h.producer mid left)
    (unseen : m.Unseen q) (out : m.StaysOut q) :
    Motion parks binds due p (.announce .removed h :: left) q where
  moves := .tail exposes.moves (.retire mid left m q h step undisposed stays length frees)
  journal := Or.inr (exposes.unseen.trans unseen)
  settled r stray := by
    rcases exposes.strays r (stays.settled length r stray) with rfl | before
    · exact absurd (stays.producers.closed h.producer rfl).2 stray.sharing.1
    · exact before
  returns r back := Or.inl (exposes.out.trans out r back)

theorem clear (exposes : Exposes parks binds due p mid m r) (disposed : (m.get r).phase = .disposed)
    (frees : m.Frees r mid left) : Motion parks binds due p left m where
  moves := by
    cases frees with
    | due => exact .tail exposes.moves (.clear left m r disposed)
    | apart => exact exposes.moves
    | used => exact exposes.moves
  journal := Or.inr exposes.unseen
  settled s stray := by
    rcases exposes.strays s stray with rfl | before
    · exact absurd disposed stray.sharing.1
    · exact before
  returns s back := Or.inl (exposes.out s back)

theorem path (motion : Motion parks binds due p left q) : Path p q := motion.moves.path

end Motion

/-! ## Invariants -/

/-- What holds of a pool and of what is due in it, and is preserved by every motion. -/
structure Invariant (σ : Type) where
  holds : List Duty → Pool σ Snapshot → Prop
  /-- The handles that may be closed so that their producers are parked. -/
  parks : Handle → Prop
  /-- The threads that may be given a new producer, in place of which handle. -/
  binds : ThreadId → Option Handle → Prop
  regular : ∀ {due : List Duty} {p : Pool σ Snapshot}, holds due p → p.Regular
  /-- A handle that is not known yet may be parked. -/
  own : ∀ {due : List Duty} {p : Pool σ Snapshot} {h : Handle}, holds due p → p.New h → parks h
  move : ∀ {due left : List Duty} {p q : Pool σ Snapshot},
    holds due p → Motion parks binds due p left q → holds left q

/-- Listeners that are told of this keep the invariant and leave as much due as they find. -/
def Environment.Hears (E : Environment σ Snapshot) (I : Invariant σ) (kind : NoticeKind) : Prop :=
  ∀ listener notice, notice.kind = kind → ∀ (due : List Duty) (p : Pool σ Snapshot),
    I.holds due p → I.holds due (E.listen listener notice p).1

/-- The hooks of the environment keep the invariant, and leave as much due as they find. -/
structure Environment.Upholds (E : Environment σ Snapshot) (I : Invariant σ) : Prop where
  tame : E.Tame
  hook : ∀ f, E.Runs f → ∀ (due : List Duty) (p : Pool σ Snapshot), I.holds due p → I.holds due (f p)

theorem Environment.Upholds.hears {E : Environment σ Snapshot} {I : Invariant σ} (up : E.Upholds I)
    (kind : NoticeKind) : E.Hears I kind := fun listener notice _ => up.hook _ (.listen listener notice)

end ProducerPool
