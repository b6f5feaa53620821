import ProducerPool.Proofs.TransactionalId

/-!
# What operations owe

An operation that takes producers out of the places of the factory has to close them before it ends, and
one that builds or closes a producer has to tell the listeners; code of callers runs in the meantime.
`Move` takes a pool together with what is due in it: what operations in progress have yet to do, the next
duty first.  A move is a step of an operation with all that the operation knows when it takes it, so moves
are fewer than steps and say more.
-/

set_option autoImplicit false

namespace ProducerPool

variable {σ : Type} {p q m : Pool σ Snapshot} {r : Ref} {gone : Option Ref} {h : Handle}

/-! ## Producers that stay as they are -/

/-- No producer changes its phase or its lease, except that `gone` is closed. -/
structure Steady (gone : Option Ref) (xs ys : List Producer) : Prop where
  length : xs.length ≤ ys.length
  lease : ∀ r < xs.length, (ys.getD r .absent).lease = (xs.getD r .absent).lease
  placement : ∀ r < xs.length, (ys.getD r .absent).placement = (xs.getD r .absent).placement
  phase : ∀ r < xs.length, gone ≠ some r → (ys.getD r .absent).phase = (xs.getD r .absent).phase
  closed : ∀ r, gone = some r → r < ys.length ∧ (ys.getD r .absent).phase = .disposed
  fresh : ∀ r, xs.length ≤ r → (ys.getD r .absent).phase ≠ .cached

namespace Steady

variable {xs ys zs : List Producer}

theorem getD_of_length_le (out : xs.length ≤ r) : xs.getD r .absent = .absent := by
  simp [List.getElem?_eq_none out]

theorem refl (xs : List Producer) : Steady none xs xs where
  length := Nat.le_refl _
  lease _ _ := rfl
  placement _ _ := rfl
  phase _ _ _ := rfl
  closed _ none := by cases none
  fresh r out := by
    rw [getD_of_length_le out]
    simp [Producer.absent]

theorem trans (first : Steady none xs ys) (second : Steady gone ys zs) : Steady gone xs zs where
  length := Nat.le_trans first.length second.length
  lease r inside :=
    (second.lease r (Nat.lt_of_lt_of_le inside first.length)).trans (first.lease r inside)
  placement r inside :=
    (second.placement r (Nat.lt_of_lt_of_le inside first.length)).trans (first.placement r inside)
  phase r inside other :=
    (second.phase r (Nat.lt_of_lt_of_le inside first.length) other).trans
      (first.phase r inside (by simp))
  closed := second.closed
  fresh r out := by
    rcases Nat.lt_or_ge r ys.length with inside | beyond
    · by_cases same : gone = some r
      · rw [(second.closed r same).2]
        simp
      · rw [second.phase r inside same]
        exact first.fresh r out
    · exact second.fresh r beyond

/-- One producer changes in another respect. -/
theorem modify (xs : List Producer) (r : Ref) (f : Producer → Producer)
    (lease : ∀ x, (f x).lease = x.lease) (placement : ∀ x, (f x).placement = x.placement)
    (phase : ∀ x, (f x).phase = x.phase) : Steady none xs (xs.modify r f) where
  length := by simp
  lease s _ := by rw [Pool.getD_modify]; split <;> simp [lease]
  placement s _ := by rw [Pool.getD_modify]; split <;> simp [placement]
  phase s _ _ := by rw [Pool.getD_modify]; split <;> simp [phase]
  closed _ none := by cases none
  fresh s out := by
    rw [getD_of_length_le (by simpa using out)]
    simp [Producer.absent]

theorem dispose (xs : List Producer) {r : Ref} (inside : r < xs.length) :
    Steady (some r) xs (xs.modify r fun x => { x with phase := .disposed }) where
  length := by simp
  lease s _ := by rw [Pool.getD_modify]; split <;> rfl
  placement s _ := by rw [Pool.getD_modify]; split <;> rfl
  phase s _ other := by
    rw [Pool.getD_modify, if_neg]
    rintro ⟨rfl, -⟩
    exact other rfl
  closed s same := by
    obtain rfl : r = s := Option.some.inj same
    rw [Pool.getD_modify, if_pos ⟨rfl, inside⟩]
    exact ⟨by simpa using inside, rfl⟩
  fresh s out := by
    rw [getD_of_length_le (by simpa using out)]
    simp [Producer.absent]

/-- A producer is added that is not parked. -/
theorem append (steady : Steady gone xs ys) (x : Producer) (unparked : x.phase ≠ .cached) :
    Steady gone xs (ys ++ [x]) where
  length := by
    rw [List.length_append]
    exact Nat.le_add_right_of_le steady.length
  lease s inside := by
    rw [Pool.getD_append, if_neg (Nat.ne_of_lt (Nat.lt_of_lt_of_le inside steady.length))]
    exact steady.lease s inside
  placement s inside := by
    rw [Pool.getD_append, if_neg (Nat.ne_of_lt (Nat.lt_of_lt_of_le inside steady.length))]
    exact steady.placement s inside
  phase s inside other := by
    rw [Pool.getD_append, if_neg (Nat.ne_of_lt (Nat.lt_of_lt_of_le inside steady.length))]
    exact steady.phase s inside other
  closed s same := by
    obtain ⟨inside, disposed⟩ := steady.closed s same
    rw [Pool.getD_append, if_neg (Nat.ne_of_lt inside), List.length_append]
    exact ⟨Nat.lt_add_right _ inside, disposed⟩
  fresh s out := by
    rw [Pool.getD_append]
    split
    · exact unparked
    · exact steady.fresh s out

end Steady

/-! ## What listeners have been told -/

/-- A notification that has begun, with the producer as it was then. -/
structure Telling where
  listener : String
  notice : Notice
  shown : Producer
deriving DecidableEq

def Event.telling? {μ : Type} : Event μ → Option Telling
  | .notifying listener notice shown => some ⟨listener, notice, shown⟩
  | _ => none

theorem Closing.untold {conn : Nat} {events : List (Event Snapshot)} (closing : Closing conn events) :
    events.filterMap Event.telling? = [] := by
  cases closing <;> rfl

theorem Connecting.untold {conn : Nat} {events : List (Event Snapshot)}
    (connecting : Connecting conn events) : events.filterMap Event.telling? = [] := by
  cases connecting <;> rfl

theorem Failing.untold {conn : Nat} {events : List (Event Snapshot)} (failing : Failing conn events) :
    events.filterMap Event.telling? = [] := by
  cases failing with
  | refused => rfl
  | uninitialised _ _ _ closing closed =>
    rw [List.filterMap_append, closed.untold]
    rfl

namespace Pool

/-- The notifications so far, the latest first. -/
def tellings (p : Pool σ Snapshot) : List Telling := p.journal.filterMap Event.telling?

theorem tellings_of_append {events : List (Event Snapshot)} (untold : events.filterMap Event.telling? = [])
    (journal : q.journal = events ++ p.journal) : q.tellings = p.tellings := by
  rw [tellings, journal, List.filterMap_append, untold]
  rfl

end Pool

/-! ## Places that stay as they are -/

/-- The factory keeps its places and its listeners. -/
structure Factory.Keeps (f g : Factory) : Prop where
  shared : g.shared = f.shared
  threads : g.threads = f.threads
  items : g.cache.items = f.cache.items
  listeners : g.listeners = f.listeners

theorem Factory.Keeps.refl (f : Factory) : f.Keeps f := ⟨rfl, rfl, rfl, rfl⟩

namespace Pool

/-- No producer changes its phase or its lease, except that `gone` is closed; the factory keeps its
places, and nobody is told anything. -/
structure Stays (gone : Option Ref) (p q : Pool σ Snapshot) : Prop where
  alive : q.alive = true → p.alive = true
  places : p.factory.Keeps q.factory
  tellings : q.tellings = p.tellings
  producers : Steady gone p.producers q.producers

theorem Stays.trans (first : p.Stays none m) (second : m.Stays gone q) : p.Stays gone q where
  alive := first.alive ∘ second.alive
  places :=
    ⟨second.places.shared.trans first.places.shared, second.places.threads.trans first.places.threads,
      second.places.items.trans first.places.items,
      second.places.listeners.trans first.places.listeners⟩
  tellings := second.tellings.trans first.tellings
  producers := first.producers.trans second.producers

/-- The factory keeps no handle to the producer. -/
def Apart (p : Pool σ Snapshot) (r : Ref) : Prop := ∀ h ∈ p.factory.handles, h.producer ≠ r

end Pool

/-! ## Duties -/

/-- What an operation in progress has yet to do. -/
inductive Duty where
  | close (r : Ref)
  /-- To tell every listener that is registered then. -/
  | announce (kind : NoticeKind) (h : Handle)
  | tell (listener : String) (notice : Notice)
deriving DecidableEq

namespace Pool

/-- Why the producer `r` may be closed: it is due, it is in no place, or it is in use; and what is due
after that. -/
inductive Frees (p : Pool σ Snapshot) (r : Ref) : List Duty → List Duty → Prop
  | due (left : List Duty) : p.Frees r (.close r :: left) left
  | apart (due : List Duty) (apart : p.Apart r) : p.Frees r due due
  | used (due : List Duty) (opened : (p.get r).phase = .opened) (key : String)
      (pooled : (p.get r).placement = .pooled key) : p.Frees r due due

/-- The factory gives up the place of one producer. -/
inductive Vacates (p : Pool σ Snapshot) (r : Ref) : Pool σ Snapshot → Prop
  | shared (placed : (p.get r).placement = .shared) : p.Vacates r (p.unshare r)
  | bound (t : ThreadId) (placed : (p.get r).placement = .thread t) : p.Vacates r (p.unbind t r)

/-- The handle of a new producer takes its place in the factory; `binds` says which threads may be given
a producer in place of which handle. -/
inductive Seats (binds : ThreadId → Option Handle → Prop) (h : Handle) :
    Pool σ Snapshot → Pool σ Snapshot → Prop
  /-- A pooled producer takes no place until it is handed back. -/
  | pooled (p : Pool σ Snapshot) (key : String) (placed : (p.get h.producer).placement = .pooled key) :
      Seats binds h p p
  | shared (p : Pool σ Snapshot) (placed : (p.get h.producer).placement = .shared) :
      Seats binds h p
        { p with
          factory := { p.factory with shared := some h }
          pinned := p.factory.shared.toList ++ p.pinned }
  | bound (p : Pool σ Snapshot) (t : ThreadId) (placed : (p.get h.producer).placement = .thread t)
      (alive : p.alive = true) (may : binds t (p.factory.threads.lookup t)) :
      Seats binds h p
        { p.seat t h with pinned := (p.factory.threads.lookup t).toList ++ p.pinned }

namespace Vacates

variable (vacates : p.Vacates r q)
include vacates

theorem producers : q.producers = p.producers := by cases vacates <;> rfl

theorem get (s : Ref) : q.get s = p.get s := by cases vacates <;> rfl

theorem alive : q.alive = p.alive := by cases vacates <;> rfl

theorem cache : q.factory.cache = p.factory.cache := by cases vacates <;> rfl

theorem of_shared (found : q.factory.shared = some h) : p.factory.shared = some h := by
  cases vacates with
  | shared => exact (Option.filter_eq_some_iff.mp found).1
  | bound => exact found

theorem of_bound {t : ThreadId} (seated : (t, h) ∈ q.factory.threads) : (t, h) ∈ p.factory.threads := by
  cases vacates with
  | shared => exact seated
  | bound => exact (List.mem_filter.mp seated).1

theorem handles (there : h ∈ q.factory.handles) : h ∈ p.factory.handles := by
  rw [Factory.mem_handles] at there ⊢
  rw [vacates.cache] at there
  exact there.imp vacates.of_shared (Or.imp_left fun ⟨t, seated⟩ => ⟨t, vacates.of_bound seated⟩)

end Vacates

namespace Seats

variable {binds : ThreadId → Option Handle → Prop} (seats : Seats binds h p q)
include seats

theorem producers : q.producers = p.producers := by cases seats <;> rfl

theorem alive : q.alive = p.alive := by cases seats <;> rfl

theorem tellings : q.tellings = p.tellings := by cases seats <;> rfl

theorem listeners : q.factory.listeners = p.factory.listeners := by cases seats <;> rfl

theorem journal : q.journal = p.journal := by cases seats <;> rfl

end Seats

/-- The handle is of a producer, or under a lease, that the pool does not know yet. -/
def New (p : Pool σ Snapshot) (h : Handle) : Prop :=
  p.producers.length ≤ h.producer ∨ (p.get h.producer).lease < h.lease

theorem New.before (path : Path p q) (new : q.New h) : p.New h := by
  have later := Later.of_path path
  rcases Nat.lt_or_ge h.producer p.producers.length with inside | out
  · rcases new with out | higher
    · exact absurd (Nat.le_trans later.producers.length out) (Nat.not_le.mpr inside)
    · exact Or.inr (Nat.lt_of_le_of_lt (later.get inside).lease higher)
  · exact Or.inl out

/-- What holds at every point of a run. -/
structure Regular (p : Pool σ Snapshot) : Prop where
  ordered : p.Ordered
  named : p.Named p.factory.config

namespace Regular

theorem new (config : Config) (outside : σ) : (Pool.new config outside : Pool σ Snapshot).Regular :=
  ⟨.new config outside, .new config outside⟩

theorem path (regular : p.Regular) (path : Path p q) : q.Regular where
  ordered := regular.ordered.path path
  named := by
    rw [(Later.of_path path).config]
    exact regular.named.path path

end Regular

end Pool

/-! ## Moves -/

open Pool in
/-- One move of an operation or of code of callers.  `parks` says which handles may be closed so that
their producers are parked. -/
inductive Move {σ : Type} (parks : Handle → Prop) (binds : ThreadId → Option Handle → Prop) :
    List Duty → Pool σ Snapshot → List Duty → Pool σ Snapshot → Prop
  | still (due : List Duty) (p q : Pool σ Snapshot) (step : Step p q) (stays : p.Stays none q)
      (length : q.producers.length = p.producers.length) : Move parks binds due p due q
  /-- Listeners are registered or removed, and code of callers goes on. -/
  | register (due : List Duty) (p : Pool σ Snapshot) (listeners : List String) :
      Move parks binds due p due (p.onFactory fun f => { f with listeners := listeners }).look
  -- producers that come
  | build (due : List Duty) (p m q : Pool σ Snapshot) (h : Handle) (step : Step p m)
      (stays : p.Stays none m) (new : h = ⟨p.producers.length, 0⟩)
      (length : m.producers.length = p.producers.length + 1)
      (opened : (m.get h.producer).phase = .opened)
      (journal : ∃ events, (∀ e ∈ events, e.isMark = false) ∧ m.journal = events ++ p.journal)
      (seats : Seats binds h m q) (path : Path m q) :
      Move parks binds due p (.announce .added h :: due) q
  | shelve (due : List Duty) (p : Pool σ Snapshot) (h : Handle) (key : String) (may : parks h)
      (lease : (p.get h.producer).lease = h.lease) (there : h ∈ p.handles)
      (opened : (p.get h.producer).phase = .opened)
      (placed : (p.get h.producer).placement = .pooled key)
      (current : (p.get h.producer).epoch = p.factory.epoch) (alive : p.alive = true) :
      Move parks binds due p due
        { p with
          factory := { p.factory with cache := p.factory.cache.push key h }
          producers := p.producers.modify h.producer fun q => { q with phase := .cached } }
  | reopen (due : List Duty) (p : Pool σ Snapshot) (key : String) (h : Handle) (cache : Cache Handle)
      (found : p.factory.cache.pop? key = some (h, cache))
      (cached : (p.get h.producer).phase = .cached)
      (sound : (p.get h.producer).isSpoiled = false) :
      Move parks binds due p due (p.reopened h cache)
  -- producers that go
  /-- What the factory gives up has to be closed. -/
  | giveUp (due : List Duty) (p : Pool σ Snapshot) (hs : List Handle) (f : Factory)
      (givesUp : p.factory.GivesUp hs f) :
      Move parks binds due p (hs.map (fun h => .close h.producer) ++ due)
        { p with factory := f, pinned := hs.reverse ++ p.pinned }
  | vacate (due : List Duty) (p q : Pool σ Snapshot) (r : Ref) (inside : r < p.producers.length)
      (vacates : p.Vacates r q) (step : Step p q) : Move parks binds due p (.close r :: due) q
  /-- Others have closed a producer that was due. -/
  | clear (due : List Duty) (p : Pool σ Snapshot) (r : Ref)
      (disposed : (p.get r).phase = .disposed) : Move parks binds (.close r :: due) p due p
  | retire (due left : List Duty) (p q : Pool σ Snapshot) (h : Handle) (step : Step p q)
      (undisposed : (p.get h.producer).phase ≠ .disposed) (stays : p.Stays (some h.producer) q)
      (length : q.producers.length = p.producers.length) (frees : p.Frees h.producer due left) :
      Move parks binds due p (.announce .removed h :: left) q
  /-- A lost producer is closed, and listeners will be shown a copy of it. -/
  | forget (due : List Duty) (p q : Pool σ Snapshot) (r : Ref) (step : Step p q)
      (undisposed : (p.get r).phase ≠ .disposed) (stays : p.Stays (some r) q) (apart : p.Apart r)
      (copied : q.producers =
        (p.producers.modify r fun x => { x with phase := .disposed }) ++ [(p.get r).closedCopy]) :
      Move parks binds due p (.announce .removed ⟨p.producers.length, 0⟩ :: due) q
  /-- A producer is closed that no factory accounts for any more. -/
  | shut (due : List Duty) (p q : Pool σ Snapshot) (r : Ref) (step : Step p q)
      (gone : p.alive = false) (stays : p.Stays (some r) q)
      (length : q.producers.length = p.producers.length) : Move parks binds due p due q
  | expire (due : List Duty) (p : Pool σ Snapshot) :
      Move parks binds due p due
        { p with
          owners := 0, running := 0, factory := p.factory.emptied
          pinned := p.factory.handles.reverse ++ p.pinned }
  -- listeners
  | hush (due : List Duty) (p : Pool σ Snapshot) (kind : NoticeKind) (h : Handle)
      (nameless : (p.get h.producer).clientId = none) :
      Move parks binds (.announce kind h :: due) p due p
  | summon (due : List Duty) (p : Pool σ Snapshot) (kind : NoticeKind) (h : Handle) (id : String)
      (known : (p.get h.producer).clientId = some id) :
      Move parks binds (.announce kind h :: due) p
        (p.factory.listeners.map (fun listener => .tell listener ⟨kind, id, h⟩) ++ due) p
  | tell (due : List Duty) (p : Pool σ Snapshot) (listener : String) (notice : Notice) :
      Move parks binds (.tell listener notice :: due) p due
        (p.record (.notifying listener notice (p.get notice.handle.producer)))

namespace Move

variable {parks : Handle → Prop} {binds : ThreadId → Option Handle → Prop} {due left : List Duty}

theorem path (move : Move parks binds due p left q) : Path p q := by
  cases move with
  | still _ _ _ step => exact .single step
  | register _ _ listeners =>
    exact .tail (.single (.settings p listeners p.factory.destroyed p.factory.stopHandled id)) (.look _)
  | build _ _ m _ h step _ _ _ _ _ _ path => exact .head step path
  | shelve _ _ h key _ _ there opened placed current alive =>
    exact .single (.shelve p h key there opened placed current alive)
  | reopen _ _ key h cache found cached sound =>
    exact .single (.reopen p key h cache found cached sound)
  | giveUp _ _ hs f givesUp => exact .single (.giveUp p hs f givesUp)
  | vacate _ _ _ r _ _ step => exact .single step
  | retire _ _ _ _ h step => exact .single step
  | forget _ _ _ r step => exact .single step
  | shut _ _ _ r step => exact .single step
  | expire => exact .single (.expire p)
  | tell _ _ listener notice => exact .single (.note p _ rfl)
  | _ => exact .refl

/-- A move writes the pool down, with the listeners that it may have changed, or it writes no pool. -/
theorem journal (move : Move parks binds due p left q) :
    (∃ m : Pool σ Snapshot, m.points = p.points ∧ q = m.look) ∨
      ∃ events, (∀ e ∈ events, e.isMark = false) ∧ q.journal = events ++ p.journal := by
  have single {q : Pool σ Snapshot} (step : Step p q) :
      (∃ m : Pool σ Snapshot, m.points = p.points ∧ q = m.look) ∨
        ∃ events, (∀ e ∈ events, e.isMark = false) ∧ q.journal = events ++ p.journal :=
    step.journal.imp_left fun same => ⟨p, rfl, same⟩
  cases move with
  | still _ _ _ step => exact single step
  | register _ _ listeners => exact Or.inl ⟨p.onFactory fun f => { f with listeners := listeners }, rfl, rfl⟩
  | build _ _ m _ h _ _ _ _ _ journal seats => exact Or.inr (by cases seats <;> exact journal)
  | reopen _ _ key h cache found cached sound => exact single (.reopen p key h cache found cached sound)
  | vacate _ _ _ r _ _ step => exact single step
  | retire _ _ _ _ h step => exact single step
  | forget _ _ _ r step => exact single step
  | shut _ _ _ r step => exact single step
  | tell _ _ listener notice => exact single (.note p _ rfl)
  | _ => exact Or.inr ⟨[], List.forall_mem_nil _, rfl⟩

end Move

end ProducerPool
