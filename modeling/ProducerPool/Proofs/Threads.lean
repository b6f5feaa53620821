import ProducerPool.Proofs.Kept

/-!
# One producer for each thread

A thread has at most one producer that is not closed, and that one is in the thread's seat: otherwise
nothing that the factory does to its producers would reach it.  A request for a thread whose producer is
unusable first disposes of that producer, and then builds another one and puts it in the seat.  Listeners
are told of the removal in between, while the seat is free.  If none of them asks for a producer of the
same thread, the property holds between all operations.  If one does, its producer loses the seat to the
one that the request builds, and stays open.
-/

set_option autoImplicit false

namespace ProducerPool

variable {σ : Type} {E : Environment σ Snapshot} {p q m : Pool σ Snapshot} {h : Handle}
  {hs : List Handle} {r : Ref} {due left : List Duty} {t : ThreadId} {ts : List ThreadId}
  {config : Config}

/-! ## Calm runs -/

/-- Code of callers that asks for no producer of the threads `ts`; and whoever hears of a removal in the
course of a request for a thread does not ask for one of that thread either. -/
inductive Calm {σ : Type} : List ThreadId → Pool σ Snapshot → Pool σ Snapshot → Prop
  | done (ts : List ThreadId) (p : Pool σ Snapshot) : Calm ts p p
  | act {ts : List ThreadId} {p q : Pool σ Snapshot} (E : Environment σ Snapshot) (a : Act σ)
      (hooks : ∀ f, E.Runs f → ∀ p, Calm ts p.look (f p))
      (passed : ∀ f, a.Passes f → ∀ p, Calm ts p.look (f p))
      (allowed : a.Allowed p) (spares : ∀ t, a = .create t → t ∉ ts)
      (hears : ∀ t, a = .create t → ∀ listener notice, notice.kind = .removed → ∀ p,
        Calm (t :: ts) p.look (E.listen listener notice p).1)
      (rest : Calm ts (a.run E p).look q) : Calm ts p q

theorem Calm.code (calm : Calm ts p q) : Code p q := by
  induction calm with
  | done => exact .done _
  | act E a _ _ allowed _ _ _ hooks passed _ rest => exact .act E a hooks passed allowed rest

/-! ## Seats -/

namespace Pool

/-- The producer is bound to the thread and not closed. -/
def Bound (p : Pool σ Snapshot) (t : ThreadId) (r : Ref) : Prop :=
  (p.get r).phase ≠ .disposed ∧ (p.get r).placement = .thread t

/-- Producers of threads that need not be closed have their seats; those of the threads `ts` are free. -/
structure Seated (ts : List ThreadId) (due : List Duty) (p : Pool σ Snapshot) : Prop where
  seated : p.alive = true → ∀ t r, p.Bound t r → .close r ∉ due →
    ∃ h, (t, h) ∈ p.factory.threads ∧ h.producer = r
  unique : ∀ t r s, p.Bound t r → p.Bound t s → .close r ∉ due → .close s ∉ due → r = s
  free : ∀ t ∈ ts, ∀ h, (t, h) ∉ p.factory.threads

theorem Bound.inside (bound : p.Bound t r) : r < p.producers.length := lt_of_phase bound.1

theorem Bound.congr (bound : p.Bound t r) (phase : (q.get r).phase = (p.get r).phase)
    (placement : (q.get r).placement = (p.get r).placement) : q.Bound t r :=
  ⟨by rw [phase]; exact bound.1, placement.trans bound.2⟩

end Pool

/-- Who gives up a handle keeps those of the threads that are not among what is given up. -/
theorem Factory.GivesUp.keeps_bound {f g : Factory} (givesUp : f.GivesUp hs g)
    (seats : (f.threads.map Prod.fst).Nodup) (seated : (t, h) ∈ f.threads) (kept : h ∉ hs) :
    (t, h) ∈ g.threads := by
  cases givesUp with
  | popped => exact seated
  | drained => exact seated
  | unseated u x found =>
    refine List.mem_filter.mpr ⟨seated, decide_eq_true ?_⟩
    rintro rfl
    have same := (lookup_of_mem seats seated).symm.trans found
    exact kept (List.mem_singleton.mpr (Option.some.inj same))
  | cleared => exact absurd (List.mem_map.mpr ⟨(t, h), seated, rfl⟩) kept
  | swept out =>
    cases taken : out h with
    | true => exact List.mem_filter.mpr ⟨seated, taken⟩
    | false =>
      refine absurd (List.mem_append_right _ (List.mem_map.mpr ⟨(t, h), ?_, rfl⟩)) kept
      exact List.mem_filter.mpr ⟨seated, by simp [taken]⟩

namespace Pool.Seated

theorem new (config : Config) (outside : σ) :
    (Pool.new config outside : Pool σ Snapshot).Seated [] [] where
  seated _ _ _ bound _ := absurd bound.inside (Nat.not_lt_zero _)
  unique _ _ _ bound := absurd bound.inside (Nat.not_lt_zero _)
  free _ none := by cases none

/-- The seats stay as they are, and no producer of a thread comes in. -/
theorem shrink (seated : p.Seated ts due) (alive : q.alive = true → p.alive = true)
    (threads : q.factory.threads = p.factory.threads)
    (before : ∀ t r, q.Bound t r → .close r ∉ left → p.Bound t r ∧ .close r ∉ due) :
    q.Seated ts left where
  seated lives t r bound unowed := by
    obtain ⟨was, undue⟩ := before t r bound unowed
    rw [threads]
    exact seated.seated (alive lives) t r was undue
  unique t r s first second unowed unowed' := by
    obtain ⟨was, undue⟩ := before t r first unowed
    obtain ⟨was', undue'⟩ := before t s second unowed'
    exact seated.unique t r s was was' undue undue'
  free t member := by
    rw [threads]
    exact seated.free t member

theorem of_steady {gone : Option Ref} (steady : Steady gone p.producers q.producers)
    (bound : q.Bound t r) (inside : r < p.producers.length) : p.Bound t r := by
  have other : gone ≠ some r := fun same => bound.1 (steady.closed r same).2
  exact bound.congr (steady.phase r inside other).symm (steady.placement r inside).symm

theorem stays {gone : Option Ref} (seated : p.Seated ts due) (stays : p.Stays gone q)
    (length : ∀ t r, q.Bound t r → r < p.producers.length)
    (same : ∀ r, gone ≠ some r → .close r ∉ left → .close r ∉ due) : q.Seated ts left := by
  refine seated.shrink stays.alive stays.places.threads fun t r bound unowed => ?_
  have other : gone ≠ some r := fun same => bound.1 (stays.producers.closed r same).2
  exact ⟨of_steady stays.producers bound (length t r bound), same r other unowed⟩

theorem giveUp {f : Factory} (seated : p.Seated ts due) (seats : (p.factory.threads.map Prod.fst).Nodup)
    (givesUp : p.factory.GivesUp hs f) :
    Seated ts (hs.map (fun h => .close h.producer) ++ due)
      { p with factory := f, pinned := hs.reverse ++ p.pinned } where
  seated alive t r bound unowed := by
    rw [List.mem_append, not_or] at unowed
    obtain ⟨h, there, rfl⟩ := seated.seated alive t r bound unowed.2
    refine ⟨h, givesUp.keeps_bound seats there fun given => unowed.1 ?_, rfl⟩
    exact List.mem_map.mpr ⟨h, given, rfl⟩
  unique t r s first second unowed unowed' :=
    seated.unique t r s first second (fun owed => unowed (List.mem_append_right _ owed))
      fun owed => unowed' (List.mem_append_right _ owed)
  free t member h there := seated.free t member h (givesUp.bound there)

theorem vacate (seated : p.Seated ts due) (vacates : p.Vacates r q) :
    q.Seated ts (.close r :: due) where
  seated alive t s bound unowed := by
    rw [List.mem_cons, not_or] at unowed
    rw [vacates.alive] at alive
    have same := vacates.get s
    obtain ⟨h, there, rfl⟩ := seated.seated alive t s (bound.congr (by rw [same]) (by rw [same])) unowed.2
    refine ⟨h, ?_, rfl⟩
    cases vacates with
    | shared => exact there
    | bound u =>
      refine List.mem_filter.mpr ⟨there, ?_⟩
      have other : h.producer ≠ r := fun same => unowed.1 (by rw [same])
      simp [other]
  unique t s s' first second unowed unowed' := by
    have same := vacates.get s
    have same' := vacates.get s'
    exact seated.unique t s s' (first.congr (by rw [same]) (by rw [same]))
      (second.congr (by rw [same']) (by rw [same'])) (fun owed => unowed (List.mem_cons_of_mem _ owed))
      fun owed => unowed' (List.mem_cons_of_mem _ owed)
  free t member h there := seated.free t member h (vacates.of_bound there)

/-- A new producer takes its place; a thread gets one only where its seat is free. -/
theorem seats (seated : p.Seated ts due) (stays : p.Stays none m)
    (length : m.producers.length = p.producers.length + 1) (new : h.producer = p.producers.length)
    (seats : Seats (fun t found => t ∉ ts ∧ found = none) h m q) : q.Seated ts due := by
  have before (t : ThreadId) (r : Ref) (bound : m.Bound t r) (other : r ≠ h.producer) :
      p.Bound t r := by
    have inside : r < p.producers.length + 1 := length ▸ bound.inside
    exact of_steady stays.producers bound
      (Nat.lt_of_le_of_ne (Nat.le_of_lt_succ inside) (new ▸ other))
  cases seats with
  | pooled key placed =>
    refine seated.shrink stays.alive stays.places.threads fun t r bound unowed => ⟨?_, unowed⟩
    refine before t r bound ?_
    rintro rfl
    cases placed.symm.trans bound.2
  | shared placed =>
    refine seated.shrink stays.alive stays.places.threads fun t r bound unowed => ⟨?_, unowed⟩
    refine before t r bound ?_
    rintro rfl
    cases placed.symm.trans bound.2
  | bound u placed alive may =>
    obtain ⟨apart, vacant⟩ := may
    have lives := stays.alive alive
    rw [stays.places.threads] at vacant
    -- Nobody else is bound to the thread, since its seat is free.
    have sole (r : Ref) (bound : m.Bound u r) (unowed : .close r ∉ due) : r = h.producer := by
      by_contra other
      obtain ⟨x, there, -⟩ := seated.seated lives u r (before u r bound other) unowed
      exact not_mem_of_lookup vacant there
    refine ⟨fun _ t r bound unowed => ?_, fun t r s first second unowed unowed' => ?_,
      fun t member x there => ?_⟩
    · by_cases own : t = u
      · subst own
        exact ⟨h, List.mem_append_right _ List.mem_cons_self, (sole r bound unowed).symm⟩
      · have other : r ≠ h.producer := by
          rintro rfl
          exact own (Placement.thread.inj (bound.2.symm.trans placed))
        obtain ⟨x, there, same⟩ := seated.seated lives t r (before t r bound other) unowed
        rw [← stays.places.threads] at there
        exact ⟨x, List.mem_append_left _ (List.mem_filter.mpr ⟨there, decide_eq_true own⟩), same⟩
    · by_cases own : t = u
      · subst own
        rw [sole r first unowed, sole s second unowed']
      · have other {r : Ref} (bound : m.Bound t r) : r ≠ h.producer := by
          rintro rfl
          exact own (Placement.thread.inj (bound.2.symm.trans placed))
        exact seated.unique t r s (before t r first (other first)) (before t s second (other second))
          unowed unowed'
    · rcases List.mem_append.mp there with earlier | newest
      · rw [stays.places.threads] at earlier
        exact seated.free t member x (List.mem_filter.mp earlier).1
      · obtain rfl := (Prod.mk.inj (List.mem_singleton.mp newest)).1
        exact apart member

/-- A producer is parked or opened again. -/
theorem requeue {f : Producer → Producer} (seated : p.Seated ts due) (alive : q.alive = p.alive)
    (threads : q.factory.threads = p.factory.threads) (producers : q.producers = p.producers.modify r f)
    (placement : ∀ x, (f x).placement = x.placement) (undisposed : (p.get r).phase ≠ .disposed) :
    q.Seated ts due := by
  refine seated.shrink (by rw [alive]; exact id) threads fun t s bound unowed => ⟨?_, unowed⟩
  have changed : q.get s = if r = s ∧ s < p.producers.length then f (p.get s) else p.get s := by
    rw [get, producers]
    exact getD_modify f p.producers r s
  by_cases same : r = s ∧ s < p.producers.length
  · rw [if_pos same] at changed
    obtain ⟨rfl, -⟩ := same
    exact ⟨undisposed, by rw [← placement, ← changed]; exact bound.2⟩
  · rw [if_neg same] at changed
    exact bound.congr (by rw [changed]) (by rw [changed])

theorem move {parks : Handle → Prop} (seated : p.Seated ts due) (regular : p.Regular)
    (move : Move parks (fun t found => t ∉ ts ∧ found = none) due p left q) : q.Seated ts left := by
  have inside (length : q.producers.length = p.producers.length) (t : ThreadId) (r : Ref)
      (bound : q.Bound t r) : r < p.producers.length := by
    rw [← length]
    exact bound.inside
  cases move with
  | still _ _ _ step stays length =>
    exact seated.stays stays (inside length) fun _ _ unowed => unowed
  | register => exact ⟨seated.seated, seated.unique, seated.free⟩
  | build _ _ m _ h step stays new length opened _ seats =>
    have placed := seated.seats stays length (congrArg Handle.producer new) seats
    exact placed.shrink id rfl fun t r bound unowed => ⟨bound, by simpa using unowed⟩
  | shelve _ _ h key _ _ _ opened =>
    exact seated.requeue (r := h.producer) rfl rfl rfl (fun _ => rfl) (by rw [opened]; simp)
  | reopen _ _ key h cache found cached =>
    exact seated.requeue (r := h.producer) rfl rfl rfl (fun _ => rfl) (by rw [cached]; simp)
  | giveUp _ _ hs f givesUp => exact seated.giveUp regular.ordered.placed.seats givesUp
  | vacate _ _ _ r _ vacates => exact seated.vacate vacates
  | clear _ _ r disposed =>
    refine seated.shrink id rfl fun t s bound unowed => ⟨bound, ?_⟩
    rw [List.mem_cons, not_or]
    exact ⟨fun same => bound.1 (Duty.close.inj same ▸ disposed), unowed⟩
  | retire _ left _ _ h step _ stays length frees =>
    refine seated.stays stays (inside length) fun r other unowed => ?_
    have undue : .close r ∉ left := by simpa using unowed
    cases frees with
    | due =>
      rw [List.mem_cons, not_or]
      exact ⟨fun same => other (by rw [Duty.close.inj same]), undue⟩
    | apart => exact undue
    | used => exact undue
  | forget _ _ _ r step _ stays _ copied =>
    refine seated.stays stays (fun t s bound => ?_) fun _ _ unowed => by simpa using unowed
    have known := bound.inside
    rw [copied, List.length_append, List.length_modify] at known
    refine Nat.lt_of_le_of_ne (Nat.le_of_lt_succ known) ?_
    -- The copy is closed from the start.
    rintro rfl
    refine bound.1 ?_
    rw [get, copied, getD_append, if_pos (List.length_modify ..).symm]
    rfl
  | shut _ _ _ r step _ stays length =>
    exact seated.stays stays (inside length) fun _ _ unowed => unowed
  | expire =>
    refine ⟨fun alive => ?_, seated.unique, ?_⟩
    · cases alive
    · rintro t - h there
      cases there
  | hush => exact seated.shrink id rfl fun t r bound unowed => ⟨bound, by simpa using unowed⟩
  | summon => exact seated.shrink id rfl fun t r bound unowed => ⟨bound, by simpa using unowed⟩
  | tell => exact seated.shrink id rfl fun t r bound unowed => ⟨bound, by simpa using unowed⟩

end Pool.Seated

/-! ## Runs -/

/-- Threads have their producers in their seats, and those of the threads `ts` are free. -/
def seatedInvariant (ts : List ThreadId) : Invariant σ where
  holds due p := p.Regular ∧ p.Seated ts due
  parks _ := True
  binds t found := t ∉ ts ∧ found = none
  regular holds := holds.1
  own _ _ := trivial
  move holds motion := motion.moves.preserves
    (fun holds move => ⟨holds.1.path move.path, holds.2.move holds.1 move⟩) holds

/-- Where those who hear of a removal ask for no producer of the thread, its seat is still free when its
old producer has been disposed of. -/
theorem Environment.binds_of_hears (hears : E.Hears (seatedInvariant (t :: ts)) .removed)
    (apart : t ∉ ts) : E.Binds (seatedInvariant ts) t where
  vacant := ⟨apart, rfl⟩
  renewed due p h timeout holds vacant := by
    obtain ⟨regular, seated⟩ := holds
    have free : ∀ u ∈ t :: ts, ∀ x, (u, x) ∉ p.factory.threads := by
      rintro u (_ | ⟨_, member⟩) x
      · exact not_mem_of_lookup vacant
      · exact seated.free u member x
    have retired : (seatedInvariant (t :: ts)).holds due (p.retire E h timeout) :=
      hears.retire ⟨regular, seated.seated, seated.unique, free⟩ h timeout (.due due)
    refine ⟨apart, List.lookup_eq_none_iff.mpr fun entry there => bne_iff_ne.mpr ?_⟩
    rintro rfl
    exact retired.2.free entry.1 List.mem_cons_self entry.2 there

theorem Calm.preserves (calm : Calm ts p q) (holds : (seatedInvariant ts).holds due p) :
    (seatedInvariant ts).holds due q := by
  induction calm generalizing due with
  | done => exact holds
  | @act ts p q E a hooks passed allowed spares hears _ keeps kept heard rest =>
    have balanced {ts : List ThreadId} {f : Pool σ Snapshot → Pool σ Snapshot}
        (runs : ∀ p, Calm ts p.look (f p)) (p : Pool σ Snapshot) : Balanced p (f p) :=
      (Pool.look_balanced p).balanced (runs p).code.balanced
    have up : E.Upholds (seatedInvariant ts) :=
      ⟨fun f runs => balanced (hooks f runs),
        fun f runs due p holds => keeps f runs p (Invariant.look holds)⟩
    exact rest (up.act a (fun f passes => balanced (passed f passes))
      (fun f passes p holds => kept f passes p (Invariant.look holds)) allowed
      (fun _ _ _ => trivial)
      (fun t same => Environment.binds_of_hears
        (fun listener notice kind due p holds =>
          heard t same listener notice kind p (Invariant.look holds)) (spares t same))
      holds)

theorem bound_unique {outside : σ} (calm : Calm [] (Pool.new config outside).look p) :
    (∀ t r s, p.Bound t r → p.Bound t s → r = s) ∧
      (p.alive = true → ∀ t r, p.Bound t r →
        ∃ h, p.factory.threads.lookup t = some h ∧ h.producer = r) := by
  have first : (seatedInvariant []).holds [] (Pool.new config outside) :=
    ⟨.new config outside, .new config outside⟩
  obtain ⟨regular, seated⟩ := calm.preserves (Invariant.look first)
  refine ⟨fun t r s bound bound' => ?_, fun alive t r bound => ?_⟩
  · exact seated.unique t r s bound bound' List.not_mem_nil List.not_mem_nil
  · obtain ⟨h, there, same⟩ := seated.seated alive t r bound List.not_mem_nil
    exact ⟨h, lookup_of_mem regular.ordered.placed.seats there, same⟩

/-- Where code of callers only looks, runs are calm. -/
theorem Calm.perform (acts : List (Act σ)) (permits : p.Permits .quiet acts) :
    Calm [] p (p.perform .quiet acts) := by
  induction acts generalizing p with
  | nil => exact .done [] p
  | cons a rest ih =>
    obtain ⟨plain, allowed, permits⟩ := permits
    refine .act .quiet a (fun f runs p => ?_) (fun f passes => absurd passes (Act.not_passes plain))
      allowed (fun _ _ => List.not_mem_nil) (fun _ _ _ _ _ p => .done _ p.look) (ih permits)
    cases runs <;> exact .done [] p.look

/-- A thread whose producer has been outdated by a reset gets another one. -/
theorem bound_unique_after_reset :
    let config : Config := { perThread := true }
    let p := (Pool.new config ()).look.perform .quiet [.create 0, .create 1, .reset, .create 0]
    Calm [] (Pool.new config ()).look p ∧ p.Bound 0 2 ∧ (∀ r, p.Bound 0 r → r = 2) ∧
      ∃ h, p.factory.threads.lookup 0 = some h ∧ h.producer = 2 := by
  intro config p
  have calm : Calm [] (Pool.new config ()).look p :=
    .perform [.create 0, .create 1, .reset, .create 0] (by decide +kernel)
  have bound : p.Bound 0 2 := by constructor <;> decide +kernel
  obtain ⟨unique, seated⟩ := bound_unique calm
  exact ⟨calm, bound, fun r other => unique 0 r 2 other bound, seated (by decide +kernel) 0 2 bound⟩

/-! ## A request in the course of another -/

/-- Whoever hears of a removal asks for a producer of the thread 0. -/
def Environment.eager : Environment Unit Snapshot :=
  { Environment.quiet with
    metrics := fun _ _ => [.ofParts "" "" 0 [(Metric.clientIdTag, "c")]]
    listen := fun _ notice p =>
      if notice.kind = .removed ∧ 0 < p.owners then ((p.look.create .quiet 0).1.look, none)
      else (p.look, none) }

theorem Environment.eager_lawful : Environment.eager.Lawful := by
  refine .of_listen (fun _ _ _ => rfl) (fun _ _ _ _ => rfl) fun listener notice p => ?_
  dsimp only [Environment.eager]
  split
  case isTrue both => exact ⟨[.create 0], ⟨rfl, both.2, trivial⟩, rfl⟩
  case isFalse => exact ⟨[], trivial, rfl⟩

/-- The request that a listener makes while the seat is free yields a producer that loses its seat to the
one of the request in progress, and stays open. -/
theorem bound_without_seat :
    let config : Config := { perThread := true }
    let p := (Pool.new config ()).look.perform .eager [.addListener "l", .create 0, .reset, .create 0]
    Environment.eager.Lawful ∧ Reached config p ∧ p.Bound 0 1 ∧ p.Bound 0 2 ∧
      p.factory.threads = [(0, ⟨2, 0⟩)] := by
  intro config p
  have reached := (Reached.start config ()).perform Environment.eager_lawful
    [.addListener "l", .create 0, .reset, .create 0] (by decide +kernel)
  refine ⟨Environment.eager_lawful, reached, ?_, ?_, by decide +kernel⟩
  · constructor <;> decide +kernel
  · constructor <;> decide +kernel

end ProducerPool
