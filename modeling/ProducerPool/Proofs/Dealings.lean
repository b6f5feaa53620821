import ProducerPool.Proofs.Slots

/-!
# Operations whose listeners do not call back

Where listeners do no more than look at the pool, all that an operation does can be told from the pool it
begins in: the pool it ends in, and its dealings with what lies beyond the border, in order.  Only what lies
beyond the border itself is left open, and what is written down without consequence: the answers to closes
and what the log says.
-/

set_option autoImplicit false

namespace ProducerPool

variable {σ : Type} {E : Environment σ Snapshot} {p q m : Pool σ Snapshot} {h x : Handle}
  {hs : List Handle} {r : Ref} {timeout : Duration} {dealings first second : List (Event Snapshot)}

/-! ## Listeners that do not call back -/

/-- Code of callers that calls nothing.  What lies beyond the border may change. -/
inductive Looks {σ : Type} : Pool σ Snapshot → Pool σ Snapshot → Prop
  | done (p : Pool σ Snapshot) : Looks p p
  | elsewhere {p q : Pool σ Snapshot} (outside : σ)
      (rest : Looks ({ p with outside := outside } : Pool σ Snapshot).look q) : Looks p q

/-- Listeners do not call back, whatever they are told. -/
def Environment.Discreet (E : Environment σ Snapshot) : Prop :=
  ∀ listener notice (p : Pool σ Snapshot), Looks p.look (E.listen listener notice p).1

theorem Looks.code (looks : Looks p q) : Code p q := by
  induction looks with
  | done p => exact .done p
  | elsewhere outside _ rest =>
    exact .act .quiet (.elsewhere outside) Environment.quiet_lawful
      (fun f passes => absurd passes (Act.not_passes rfl)) trivial rest

theorem Environment.quiet_discreet : (Environment.quiet : Environment σ Snapshot).Discreet :=
  fun _ _ p => .done p.look

/-! ## Dealings -/

/-- What a pool does beyond its border, and the answers on which it depends what it does next. -/
def Event.isDealing {μ : Type} : Event μ → Bool
  | .connecting .. | .connected .. | .called .. | .notifying .. => true
  | .replied _ operation _ => operation = .initTransactions
  | _ => false

namespace Pool

/-- The pool `q` is `p` after these dealings, in the order in which they took place.  What lies beyond the
border may have changed meanwhile. -/
def Deals (dealings : List (Event Snapshot)) (p q : Pool σ Snapshot) : Prop :=
  ∃ outside events, events.reverse.filter Event.isDealing = dealings ∧
    q = { p with outside := outside, journal := events ++ p.journal }

namespace Deals

theorem refl (p : Pool σ Snapshot) : Deals [] p p := ⟨p.outside, [], rfl, rfl⟩

theorem trans (before : Deals first p m) (after : Deals second m q) :
    Deals (first ++ second) p q := by
  obtain ⟨_, early, rfl, rfl⟩ := before
  obtain ⟨outside, late, rfl, rfl⟩ := after
  refine ⟨outside, late ++ early, ?_, ?_⟩
  · simp
  · simp

/-- What is written down without consequence. -/
theorem note (p : Pool σ Snapshot) (e : Event Snapshot) (idle : e.isDealing = false) :
    Deals [] p (p.record e) := ⟨p.outside, [e], by simp [idle], rfl⟩

theorem record (p : Pool σ Snapshot) (e : Event Snapshot) (deals : e.isDealing = true) :
    Deals [e] p (p.record e) := ⟨p.outside, [e], by simp [deals], rfl⟩

theorem get (deals : Deals dealings p q) (r : Ref) : q.get r = p.get r := by
  obtain ⟨_, _, _, rfl⟩ := deals
  rfl

theorem factory (deals : Deals dealings p q) : q.factory = p.factory := by
  obtain ⟨_, _, _, rfl⟩ := deals
  rfl

theorem owners (deals : Deals dealings p q) : q.owners = p.owners := by
  obtain ⟨_, _, _, rfl⟩ := deals
  rfl

theorem connections (deals : Deals dealings p q) : q.connections = p.connections := by
  obtain ⟨_, _, _, rfl⟩ := deals
  rfl

/-- A change of the pool that neither reads nor changes what lies beyond the border and the journal. -/
theorem map (deals : Deals dealings p q) (f : Pool σ Snapshot → Pool σ Snapshot)
    (steady : ∀ p outside journal, f { p with outside := outside, journal := journal } =
      { f p with outside := outside, journal := journal })
    (journal : ∀ p, (f p).journal = p.journal) : Deals dealings (f p) (f q) := by
  obtain ⟨outside, events, same, rfl⟩ := deals
  refine ⟨outside, events, same, ?_⟩
  rw [steady, journal]

end Deals

end Pool

theorem Looks.deals (looks : Looks p q) : Pool.Deals [] p q := by
  induction looks with
  | done p => exact .refl p
  | @elsewhere p q outside _ rest =>
    have moved : Pool.Deals [] p ({ p with outside := outside } : Pool σ Snapshot).look :=
      ⟨outside, [.marked ({ p with outside := outside } : Pool σ Snapshot).snapshot], rfl, rfl⟩
    exact moved.trans rest

theorem Environment.Discreet.hears (discreet : E.Discreet) (listener : String) (notice : Notice)
    (p : Pool σ Snapshot) : Pool.Deals [] p (E.listen listener notice p).1 := by
  have looked : Pool.Deals [] p p.look := .note p (.marked p.snapshot) rfl
  exact looked.trans (discreet listener notice p).deals

/-! ## Notifications and closes -/

namespace Pool

/-- The notifications of all listeners that are registered, in order. -/
def notices (kind : NoticeKind) (h : Handle) (p : Pool σ Snapshot) : List (Event Snapshot) :=
  match (p.get h.producer).clientId with
  | none => []
  | some id => p.factory.listeners.map fun listener =>
      .notifying listener ⟨kind, id, h⟩ (p.get h.producer)

/-- The pool once the producers of these handles have been closed. -/
def discard {μ : Type} (hs : List Handle) (p : Pool σ μ) : Pool σ μ :=
  { p with
    factory := { p.factory with live := p.factory.live - hs.length }
    producers := hs.foldl (fun producers h => producers.modify h.producer fun x =>
      { x with phase := .disposed }) p.producers }

/-- Disposing of a producer is one raw close within this bound, of which listeners are then told. -/
def ending (timeout : Duration) (p : Pool σ Snapshot) (h : Handle) : List (Event Snapshot) :=
  .called (p.get h.producer).conn (.close timeout) :: (p.discard [h]).notices .removed h

theorem get_modify {μ : Type} (f : Producer → Producer) (p : Pool σ μ) (r s : Ref) :
    (p.modify r f).get s = if r = s ∧ s < p.producers.length then f (p.get s) else p.get s :=
  getD_modify f p.producers r s

/-- Whether a producer can be used does not depend on its being checked out. -/
theorem isUsable_checked (r : Ref) :
    (p.modify r fun x => { x with checkedOut := true }).isUsable h = p.isUsable h := by
  simp only [isUsable, get_modify]
  split <;> rfl

theorem get_discard (hs : List Handle) (p : Pool σ Snapshot) (r : Ref) :
    (p.discard hs).get r =
      if r ∈ hs.map Handle.producer then { p.get r with phase := .disposed } else p.get r := by
  have modified (xs : List Producer) :
      (hs.foldl (fun producers h => producers.modify h.producer fun x =>
        { x with phase := .disposed }) xs).getD r .absent =
      if r ∈ hs.map Handle.producer then { xs.getD r .absent with phase := .disposed }
      else xs.getD r .absent := by
    induction hs generalizing xs with
    | nil => simp
    | cons h hs ih =>
      rw [List.foldl_cons, ih, getD_modify, List.map_cons]
      by_cases first : h.producer = r
      · subst first
        by_cases inside : h.producer < xs.length
        · simp [inside]
        · -- Where there is no producer, what stands there is closed already.
          simp [inside, Producer.absent]
      · have other : r ≠ h.producer := fun same => first same.symm
        simp [first, other]
  exact modified p.producers

theorem discard_length (hs : List Handle) (p : Pool σ Snapshot) :
    (p.discard hs).producers.length = p.producers.length := by
  have kept (xs : List Producer) : (hs.foldl (fun producers h => producers.modify h.producer fun x =>
      { x with phase := .disposed }) xs).length = xs.length := by
    induction hs generalizing xs with
    | nil => rfl
    | cons h hs ih => rw [List.foldl_cons, ih, List.length_modify]
  exact kept p.producers

theorem discard_cons (h : Handle) (hs : List Handle) (p : Pool σ Snapshot) :
    (p.discard [h]).discard hs = p.discard (h :: hs) := by
  simp [discard, Nat.sub_sub, Nat.add_comm]

/-- How a producer ends depends on that producer only, and on who is registered. -/
theorem ending_congr (same : q.get h.producer = p.get h.producer)
    (listeners : q.factory.listeners = p.factory.listeners) :
    q.ending timeout h = p.ending timeout h := by
  have closed : (q.discard [h]).get h.producer = (p.discard [h]).get h.producer := by
    rw [get_discard, get_discard, same]
  have heard : (q.discard [h]).factory.listeners = (p.discard [h]).factory.listeners := listeners
  rw [ending, ending, same, notices, notices, closed, heard]

theorem tellAll_deals (discreet : E.Discreet) (kind : NoticeKind) (h : Handle)
    (p : Pool σ Snapshot) : Deals (p.notices kind h) p (p.tellAll E kind h) := by
  have tell (notice : Notice) (listener : String) (p : Pool σ Snapshot) :
      Deals [.notifying listener notice (p.get notice.handle.producer)] p
        (p.tell E notice listener) := by
    have told := Deals.record p (.notifying listener notice (p.get notice.handle.producer)) rfl
    have heard := told.trans (discreet.hears listener notice _)
    have ended := heard.trans (.note _ (.notified listener notice) rfl)
    simp only [Pool.tell]
    split
    · exact ended
    · exact ended.trans (.note _ _ rfl)
  have tellEach (notice : Notice) (listeners : List String) (p : Pool σ Snapshot) :
      Deals (listeners.map fun listener =>
          .notifying listener notice (p.get notice.handle.producer)) p
        (listeners.foldl (Pool.tell E notice) p) := by
    induction listeners generalizing p with
    | nil => exact .refl p
    | cons listener listeners ih =>
      have told := tell notice listener p
      have rest := ih (p.tell E notice listener)
      rw [told.get] at rest
      exact told.trans rest
  rw [tellAll, notices]
  cases (p.get h.producer).clientId with
  | none => exact .refl p
  | some id => exact tellEach ⟨kind, id, h⟩ p.factory.listeners p

/-- Closing a connection is one call. -/
theorem closing_dealings {conn : Nat} {events : List (Event Snapshot)} (closing : Closing conn events)
    (called : .called conn (.close timeout) ∈ events) :
    events.reverse.filter Event.isDealing = [.called conn (.close timeout)] := by
  cases closing with
  | closed t =>
    obtain rfl : timeout = t := by simpa using called
    rfl
  | failed t =>
    obtain rfl : timeout = t := by simpa using called
    rfl

theorem retire_deals (discreet : E.Discreet) (timeout : Duration)
    (undisposed : (p.get h.producer).phase ≠ .disposed) :
    Deals (p.ending timeout h) (p.discard [h]) (p.retire E h timeout) := by
  obtain ⟨outside, events, closing, called, shut⟩ := shut_calls E h.producer timeout p
  have closed : Deals [.called (p.get h.producer).conn (.close timeout)] (p.discard [h])
      ((p.closed h.producer outside events).onFactory fun f => { f with live := f.live - 1 }) :=
    ⟨outside, events, closing_dealings closing called, rfl⟩
  have told := tellAll_deals discreet .removed h
    ((p.closed h.producer outside events).onFactory fun f => { f with live := f.live - 1 })
  unfold retire
  rw [if_neg undisposed, shut]
  have same : notices .removed h
      ((p.closed h.producer outside events).onFactory fun f => { f with live := f.live - 1 }) =
      (p.discard [h]).notices .removed h := by
    rw [notices, notices, closed.get, closed.factory]
  rw [same] at told
  exact closed.trans told

/-- Several producers end one after the other, each as if it were the only one. -/
theorem retireAll_deals (discreet : E.Discreet) (timeout : Duration)
    (apart : (hs.map Handle.producer).Nodup)
    (undisposed : ∀ h ∈ hs, (p.get h.producer).phase ≠ .disposed) :
    Deals (hs.flatMap (p.ending timeout)) (p.discard hs) (p.retireAll E timeout hs) := by
  induction hs generalizing p with
  | nil => exact .refl p
  | cons h hs ih =>
    obtain ⟨new, apart⟩ := List.nodup_cons.mp apart
    have first : Deals (p.ending timeout h) (p.discard [h]) (p.retire E h timeout) :=
      retire_deals discreet timeout (undisposed h List.mem_cons_self)
    -- The others are still as they were.
    have spared (x : Handle) (member : x ∈ hs) :
        (p.retire E h timeout).get x.producer = p.get x.producer := by
      have other : x.producer ∉ [h].map Handle.producer := by
        intro same
        rw [List.map_singleton, List.mem_singleton] at same
        exact new (same ▸ List.mem_map.mpr ⟨x, member, rfl⟩)
      rw [first.get, get_discard, if_neg other]
    have rest := ih (p := p.retire E h timeout) apart fun x member => by
      rw [spared x member]
      exact undisposed x (List.mem_cons_of_mem h member)
    have same : hs.flatMap ((p.retire E h timeout).ending timeout) = hs.flatMap (p.ending timeout) := by
      refine List.flatMap_congr fun x member => ending_congr (spared x member) ?_
      rw [first.factory]
      rfl
    have begun := first.map (discard hs) (fun _ _ _ => rfl) fun _ => rfl
    rw [discard_cons] at begun
    rw [same] at rest
    exact begun.trans rest

/-! ## References that operations hold -/

/-- Nothing follows when a reference to a closed producer is given up. -/
theorem unpin_of_disposed (disposed : (p.get h.producer).phase = .disposed) :
    p.unpin E h = { p with pinned := p.pinned.erase h } := by
  have closed : (({ p with pinned := p.pinned.erase h } : Pool σ Snapshot).get h.producer).phase =
    .disposed := disposed
  rw [unpin, settle, if_neg (by simp [isLost, closed])]

/-- An operation holds a producer while it disposes of it. -/
theorem retirePinned_deals (discreet : E.Discreet) (timeout : Duration)
    (undisposed : (p.get h.producer).phase ≠ .disposed) :
    Deals (p.ending timeout h) (p.discard [h])
      (((p.pin h).retire E h timeout).unpin E h) := by
  have retired := retire_deals (p := p.pin h) discreet timeout undisposed
  have disposed : (((p.pin h).retire E h timeout).get h.producer).phase = .disposed := by
    rw [retired.get, get_discard, if_pos (by simp)]
  have released := retired.map (fun q => { q with pinned := q.pinned.erase h }) (fun _ _ _ => rfl)
    fun _ => rfl
  rw [unpin_of_disposed disposed]
  have kept : ({ (p.pin h).discard [h] with pinned := ((p.pin h).discard [h]).pinned.erase h } :
      Pool σ Snapshot) = p.discard [h] := by
    have back : ((p.pin h).discard [h]).pinned.erase h = p.pinned := List.erase_cons_head h p.pinned
    rw [back]
    rfl
  exact kept ▸ released

theorem unpinAll_of_disposed (disposed : ∀ h ∈ hs, (p.get h.producer).phase = .disposed) :
    p.unpinAll E hs = { p with pinned := p.pinned.diff hs } := by
  induction hs generalizing p with
  | nil => rfl
  | cons h hs ih =>
    have released : p.unpin E h = { p with pinned := p.pinned.erase h } :=
      unpin_of_disposed (disposed h List.mem_cons_self)
    have rest := ih (p := { p with pinned := p.pinned.erase h })
      fun x member => disposed x (List.mem_cons_of_mem h member)
    rw [unpinAll, List.foldl_cons, released, List.diff_cons]
    exact rest

theorem reverse_append_diff {hs : List Handle} (apart : hs.Nodup) (pinned : List Handle) :
    (hs.reverse ++ pinned).diff hs = pinned := by
  induction hs generalizing pinned with
  | nil => rfl
  | cons h hs ih =>
    obtain ⟨new, apart⟩ := List.nodup_cons.mp apart
    rw [List.diff_cons, List.reverse_cons, List.append_assoc, List.singleton_append,
      List.erase_append_right _ (by simpa using new), List.erase_cons_head]
    exact ih apart pinned

theorem retireTogether_deals (discreet : E.Discreet) (apart : (hs.map Handle.producer).Nodup)
    (undisposed : ∀ h ∈ hs, (p.get h.producer).phase ≠ .disposed) :
    Deals (hs.flatMap (p.ending p.factory.config.closeTimeout)) (p.discard hs)
      (p.retireTogether E hs) := by
  have retired := retireAll_deals (p := { p with pinned := hs.reverse ++ p.pinned })
    discreet p.factory.config.closeTimeout apart undisposed
  rw [retireTogether, foldl_pin]
  generalize done : retireAll E p.factory.config.closeTimeout hs
    { p with pinned := hs.reverse ++ p.pinned } = q at retired
  have disposed : ∀ h ∈ hs, (q.get h.producer).phase = .disposed := by
    intro h member
    rw [retired.get, get_discard, if_pos (List.mem_map.mpr ⟨h, member, rfl⟩)]
  have released := retired.map (fun q => { q with pinned := q.pinned.diff hs }) (fun _ _ _ => rfl)
    fun _ => rfl
  have same : (hs.reverse ++ p.pinned).diff hs = p.pinned :=
    reverse_append_diff (List.Nodup.of_map _ apart) p.pinned
  rw [unpinAll_of_disposed disposed]
  have ended : ({ discard hs { p with pinned := hs.reverse ++ p.pinned } with
      pinned := (hs.reverse ++ p.pinned).diff hs } : Pool σ Snapshot) = p.discard hs := by
    rw [same]
    rfl
  exact ended ▸ released

/-- An operation after which somebody still holds the factory. -/
theorem withFactory_alive {α : Type} {f : Pool σ Snapshot → Pool σ Snapshot × α} {a : α}
    (answer : f { p with running := p.running + 1 } = (m, a))
    (alive : ({ m with running := m.running - 1 } : Pool σ Snapshot).alive = true) :
    p.withFactory E f = ({ m with running := m.running - 1 }, a) := by
  simp only [withFactory, answer, teardownIfUnowned]
  rw [if_pos alive]

end Pool

end ProducerPool
