import ProducerPool.Proofs.Points

/-!
# Rounds of notices

A notice goes round the listeners that are registered when it is given, and a round is made whatever they
do meanwhile: they may fail, register and remove listeners, and bring about further notices, which go round
the listeners of that moment before the first round goes on.

`Happens` tells which events can follow one another then.  Its rounds are spelled out by `Told`, listener
by listener.
-/

set_option autoImplicit false

namespace ProducerPool

variable {σ : Type} {p q m : Pool σ Snapshot}

/-! ## The registry -/

/-- What the registry of listeners is asked for. -/
inductive Registering where
  | add (listener : String)
  | remove (listener : String)
deriving DecidableEq

/-- How the registry answers, and the registrations that are left, in order.  Only a removal has an answer:
whether there was a registration. -/
inductive Registering.Serves : Registering → List String → Option Bool → List String → Prop
  | added (listener : String) (listeners : List String) :
      Serves (.add listener) listeners none (listeners ++ [listener])
  | removed (listener : String) (before after : List String) (first : listener ∉ before) :
      Serves (.remove listener) (before ++ listener :: after) (some true) (before ++ after)
  | unknown (listener : String) (listeners : List String) (none : listener ∉ listeners) :
      Serves (.remove listener) listeners (some false) listeners

/-- The answers to requests one after the other, and the registrations in the end. -/
inductive Registering.ServesAll :
    List Registering → List String → List (Option Bool) → List String → Prop
  | nil (listeners : List String) : ServesAll [] listeners [] listeners
  | cons {request : Registering} {requests : List Registering} {answer : Option Bool}
      {answers : List (Option Bool)} {before between after : List String}
      (first : request.Serves before answer between) (rest : ServesAll requests between answers after) :
      ServesAll (request :: requests) before (answer :: answers) after

namespace Pool

variable {μ : Type}

/-- The pool serves a request to its registry. -/
def register (p : Pool σ μ) : Registering → Pool σ μ × Option Bool
  | .add listener => (p.addListener listener, none)
  | .remove listener => (p.removeListener listener).map id some

def registerAll (p : Pool σ μ) : List Registering → Pool σ μ × List (Option Bool)
  | [] => (p, [])
  | request :: requests =>
    let rest := (p.register request).1.registerAll requests
    (rest.1, (p.register request).2 :: rest.2)

/-- The pool with other registrations. -/
def withListeners (listeners : List String) (p : Pool σ μ) : Pool σ μ :=
  p.onFactory fun f => { f with listeners := listeners }

theorem register_serves (p : Pool σ μ) (request : Registering) :
    ∃ listeners, request.Serves p.factory.listeners (p.register request).2 listeners ∧
      (p.register request).1 = p.withListeners listeners := by
  cases request with
  | add listener => exact ⟨_, .added listener p.factory.listeners, rfl⟩
  | remove listener =>
    refine ⟨p.factory.listeners.erase listener, ?_, rfl⟩
    have answers : (p.register (.remove listener)).2 =
        some (decide (listener ∈ p.factory.listeners)) := by
      simp [register, removeListener]
    rw [answers]
    by_cases known : listener ∈ p.factory.listeners
    · obtain ⟨before, after, first, split, erased⟩ := List.exists_erase_eq known
      rw [erased, split, decide_eq_true (by simp)]
      exact .removed listener before after first
    · rw [List.erase_of_not_mem known, decide_eq_false known]
      exact .unknown listener p.factory.listeners known

/-- The registrations follow the requests, and nothing else in the pool changes. -/
theorem registerAll_serves (requests : List Registering) (p : Pool σ μ) :
    ∃ listeners, Registering.ServesAll requests p.factory.listeners (p.registerAll requests).2 listeners ∧
      (p.registerAll requests).1 = p.withListeners listeners := by
  induction requests generalizing p with
  | nil => exact ⟨p.factory.listeners, .nil _, rfl⟩
  | cons request requests ih =>
    obtain ⟨between, first, changed⟩ := p.register_serves request
    obtain ⟨after, rest, ends⟩ := ih (p.withListeners between)
    refine ⟨after, .cons first ?_, ?_⟩
    · rw [changed]
      exact rest
    · calc (p.registerAll (request :: requests)).1
          = ((p.register request).1.registerAll requests).1 := rfl
        _ = p.withListeners after := by rw [changed, ends]; rfl

end Pool

/-! ## What happens -/

/-- Whether an event is part of a round, or a mark of code of callers. -/
def Event.heard {μ : Type} : Event μ → Bool
  | .notifying .. | .notified .. | .marked _ => true
  | _ => false

/-- What is written down about a listener that has been told: the error of one that has failed. -/
def Notice.complaint {μ : Type} (notice : Notice) : Option String → List (Event μ)
  | none => []
  | some message => [.logged (.listenerFailed notice.kind notice.id message)]

/-- What is written down where a listener is told and `within` happens meanwhile. -/
def Notice.telling {μ : Type} (notice : Notice) (listener : String) (shown : Producer)
    (within : List (Event μ)) (failure : Option String) : List (Event μ) :=
  .notifying listener notice shown :: within ++ .notified listener notice :: notice.complaint failure

mutual

/-- From the registrations `before` to the registrations `after` the events can happen, the earliest
first. -/
inductive Happens : List String → List (Event Snapshot) → List String → Prop
  | nothing (listeners : List String) : Happens listeners [] listeners
  | aside (listeners : List String) (e : Event Snapshot) (unheard : e.heard = false) :
      Happens listeners [e] listeners
  /-- Code of callers goes on and finds the registrations as they were. -/
  | look (v : Snapshot) : Happens v.factory.listeners [.marked v] v.factory.listeners
  /-- Code of callers has made a request to the registry and goes on. -/
  | request (request : Registering) (answer : Option Bool) (before : List String) (v : Snapshot)
      (serves : request.Serves before answer v.factory.listeners) :
      Happens before [.marked v] v.factory.listeners
  /-- A notice goes round the listeners that are registered at its beginning. -/
  | round (notice : Notice) {before after : List String} {events : List (Event Snapshot)}
      (told : Told notice before before events after) : Happens before events after
  | both {before between after : List String} {early late : List (Event Snapshot)}
      (first : Happens before early between) (second : Happens between late after) :
      Happens before (early ++ late) after

/-- The listeners `due` are told, one after the other, while the registrations change from `before` to
`after`. -/
inductive Told : Notice → List String → List String → List (Event Snapshot) → List String → Prop
  | nobody (notice : Notice) (listeners : List String) : Told notice [] listeners [] listeners
  | next (notice : Notice) (listener : String) (shown : Producer) (failure : Option String)
      {due before between after : List String} {within later : List (Event Snapshot)}
      (hears : Happens before within between) (rest : Told notice due between later after) :
      Told notice (listener :: due) before (notice.telling listener shown within failure ++ later) after

end

theorem Happens.asides (listeners : List String) {events : List (Event Snapshot)}
    (unheard : ∀ e ∈ events, e.heard = false) : Happens listeners events listeners := by
  induction events with
  | nil => exact .nothing listeners
  | cons e events ih =>
    have first := Happens.aside listeners e (unheard e List.mem_cons_self)
    exact first.both (ih fun e member => unheard e (List.mem_cons_of_mem _ member))

namespace Pool

/-- From `p` to `q` no listener hears of anything, and code of callers does not run. -/
structure Unheard (p q : Pool σ Snapshot) : Prop where
  listeners : q.factory.listeners = p.factory.listeners
  journal : ∃ events, (∀ e ∈ events, e.heard = false) ∧ q.journal = events ++ p.journal

/-- What has been written down from `p` to `q` can happen. -/
def Recounts (p q : Pool σ Snapshot) : Prop :=
  ∃ events, q.journal = events.reverse ++ p.journal ∧
    Happens p.factory.listeners events q.factory.listeners

namespace Unheard

theorem record (p : Pool σ Snapshot) {e : Event Snapshot} (unheard : e.heard = false) :
    p.Unheard (p.record e) := ⟨rfl, [e], by simpa using unheard, rfl⟩

theorem log (p : Pool σ Snapshot) (line : LogLine) : p.Unheard (p.log line) := record p rfl

theorem recounts (unheard : p.Unheard q) : p.Recounts q := by
  obtain ⟨events, quiet, journal⟩ := unheard.journal
  refine ⟨events.reverse, by rw [List.reverse_reverse, journal], ?_⟩
  rw [unheard.listeners]
  exact .asides _ fun e member => quiet e (List.mem_reverse.mp member)

end Unheard

namespace Recounts

/-- Nothing has been written down. -/
theorem of_eq (listeners : q.factory.listeners = p.factory.listeners)
    (journal : q.journal = p.journal) : p.Recounts q :=
  Unheard.recounts ⟨listeners, [], List.forall_mem_nil _, journal⟩

theorem refl (p : Pool σ Snapshot) : p.Recounts p := of_eq rfl rfl

theorem trans (first : p.Recounts m) (second : m.Recounts q) : p.Recounts q := by
  obtain ⟨early, journal, happens⟩ := first
  obtain ⟨late, journal', happens'⟩ := second
  refine ⟨early ++ late, ?_, happens.both happens'⟩
  rw [journal', journal, List.reverse_append, List.append_assoc]

theorem foldl {α : Type} {f : Pool σ Snapshot → α → Pool σ Snapshot}
    (each : ∀ p x, Recounts p (f p x)) (xs : List α) (p : Pool σ Snapshot) :
    p.Recounts (xs.foldl f p) := by
  induction xs generalizing p with
  | nil => exact refl p
  | cons x xs ih => exact (each p x).trans (ih (f p x))

theorem look (p : Pool σ Snapshot) : p.Recounts p.look := ⟨[.marked p.snapshot], rfl, .look p.snapshot⟩

/-- After a request to the registry code of callers goes on. -/
theorem request (request : Registering) (p : Pool σ Snapshot) :
    p.Recounts (p.register request).1.look := by
  obtain ⟨listeners, serves, changed⟩ := p.register_serves request
  rw [changed]
  exact ⟨[.marked (p.withListeners listeners).snapshot], rfl,
    .request request _ _ (p.withListeners listeners).snapshot serves⟩

end Recounts

/-! ## Rounds -/

section Hooks

variable {E : Environment σ Snapshot} (recounting : ∀ f, E.Runs f → ∀ p, Recounts p (f p))
include recounting

/-- What one listener does lies between its two events, and only its error comes after them. -/
theorem tell_happens (notice : Notice) (p : Pool σ Snapshot) (listener : String) :
    ∃ shown failure within,
      Happens p.factory.listeners within (p.tell E notice listener).factory.listeners ∧
        (p.tell E notice listener).journal =
          (notice.telling listener shown within failure).reverse ++ p.journal := by
  obtain ⟨within, journal, hears⟩ := recounting _ (.listen listener notice)
    (p.record (.notifying listener notice (p.get notice.handle.producer)))
  rcases heard : E.listen listener notice
    (p.record (.notifying listener notice (p.get notice.handle.producer))) with ⟨q, failure⟩
  rw [heard] at journal hears
  dsimp only [record] at journal
  refine ⟨p.get notice.handle.producer, failure, within, ?_⟩
  simp only [tell, heard]
  cases failure with
  | none => exact ⟨hears, by simp [record, journal, Notice.telling, Notice.complaint]⟩
  | some message => exact ⟨hears, by simp [record, log, journal, Notice.telling, Notice.complaint]⟩

/-- The listeners of a round are told in order, whatever code they run. -/
theorem foldl_tell_told (notice : Notice) (due : List String) (p : Pool σ Snapshot) :
    ∃ events, (due.foldl (tell E notice) p).journal = events.reverse ++ p.journal ∧
      Told notice due p.factory.listeners events (due.foldl (tell E notice) p).factory.listeners := by
  induction due generalizing p with
  | nil => exact ⟨[], rfl, .nobody notice _⟩
  | cons listener due ih =>
    obtain ⟨shown, failure, within, hears, journal⟩ := tell_happens recounting notice p listener
    obtain ⟨later, journal', rest⟩ := ih (p.tell E notice listener)
    refine ⟨_, ?_, .next notice listener shown failure hears rest⟩
    rw [List.foldl_cons, journal', journal, List.reverse_append, List.append_assoc]

/-- Every notice about a producer that has a client id goes round. -/
theorem tellAll_told (kind : NoticeKind) {h : Handle} {id : String} (p : Pool σ Snapshot)
    (named : (p.get h.producer).clientId = some id) :
    ∃ events, (p.tellAll E kind h).journal = events.reverse ++ p.journal ∧
      Told ⟨kind, id, h⟩ p.factory.listeners p.factory.listeners events
        (p.tellAll E kind h).factory.listeners := by
  unfold tellAll
  rw [named]
  exact foldl_tell_told recounting ⟨kind, id, h⟩ p.factory.listeners p

theorem tellAll_recounts (kind : NoticeKind) (h : Handle) (p : Pool σ Snapshot) :
    p.Recounts (p.tellAll E kind h) := by
  cases named : (p.get h.producer).clientId with
  | none =>
    unfold tellAll
    rw [named]
    exact .refl p
  | some id =>
    obtain ⟨events, journal, told⟩ := tellAll_told recounting kind p named
    exact ⟨events, journal, .round ⟨kind, id, h⟩ told⟩

end Hooks

end Pool

end ProducerPool
