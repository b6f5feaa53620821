import ProducerPool.Proofs.Attendance

/-!
# What listeners are told

When a producer with a client id has been built, and when it has been closed, all listeners are told.
Other code may run before they have been told, also code that closes the new producer or that is told of
other producers; until then it is due.  What has been told is true: the id is the one that the producer
has had from the start, a removal is told only of a producer that is closed, and whoever hears of the
producer afterwards is shown that it is.
-/

set_option autoImplicit false

namespace ProducerPool

variable {σ : Type} {p q m : Pool σ Snapshot} {h : Handle} {r s : Ref} {due left : List Duty}
  {parks : Handle → Prop} {binds : ThreadId → Option Handle → Prop} {times : Nat → Prop}
  {kind : NoticeKind} {listener : String} {n : Nat} {d : Duty} {x : Telling}

/-! ## Counting -/

/-- The duty to tell everybody about a producer with this number. -/
def Duty.announces (p : Pool σ Snapshot) (kind : NoticeKind) (n : Nat) : Duty → Bool
  | .announce k h => k = kind ∧ (p.get h.producer).id = n
  | _ => false

/-- The duty to tell this listener about a producer with this number. -/
def Duty.tells (p : Pool σ Snapshot) (listener : String) (kind : NoticeKind) (n : Nat) : Duty → Bool
  | .tell l notice => l = listener ∧ notice.kind = kind ∧ (p.get notice.handle.producer).id = n
  | _ => false

def Telling.concerns (listener : String) (kind : NoticeKind) (n : Nat) (x : Telling) : Bool :=
  x.listener = listener ∧ x.notice.kind = kind ∧ x.shown.id = n

namespace Pool

/-- How often the listener has been told about the producer with this number. -/
def told (p : Pool σ Snapshot) (listener : String) (kind : NoticeKind) (n : Nat) : Nat :=
  p.tellings.countP (Telling.concerns listener kind n)

/-- How many announcements about the producer with this number are due. -/
def announced (p : Pool σ Snapshot) (due : List Duty) (kind : NoticeKind) (n : Nat) : Nat :=
  due.countP (Duty.announces p kind n)

/-- How often the listener has been told about the producer with this number, or has to be. -/
def heard (p : Pool σ Snapshot) (due : List Duty) (listener : String) (kind : NoticeKind) (n : Nat) :
    Nat :=
  due.countP (Duty.tells p listener kind n) + p.told listener kind n

/-- A removal is of a producer that is closed. -/
def Happened (p : Pool σ Snapshot) (kind : NoticeKind) (r : Ref) : Prop :=
  kind = .removed → (p.get r).phase = .disposed

theorem Happened.path (happened : p.Happened kind r) (path : Path p q) (inside : r < p.producers.length) :
    q.Happened kind r := fun removed => ((Later.of_path path).get inside).disposed (happened removed)

end Pool

/-! ## Nothing untrue is told -/

/-- What there is to tell is true. -/
def Duty.Sound (p : Pool σ Snapshot) : Duty → Prop
  | .close _ => True
  | .announce kind h => h.producer < p.producers.length ∧ p.Happened kind h.producer
  | .tell _ notice =>
    notice.handle.producer < p.producers.length ∧ p.Happened notice.kind notice.handle.producer ∧
      (p.get notice.handle.producer).clientId = some notice.id

/-- What has been told is true. -/
structure Telling.Sound (p : Pool σ Snapshot) (x : Telling) : Prop where
  inside : x.notice.handle.producer < p.producers.length
  happened : p.Happened x.notice.kind x.notice.handle.producer
  clientId : (p.get x.notice.handle.producer).clientId = some x.notice.id
  shown : x.shown.id = (p.get x.notice.handle.producer).id

theorem Duty.Sound.path (sound : d.Sound p) (path : Path p q) : d.Sound q := by
  have later := Later.of_path path
  have grown := later.producers.length
  cases d with
  | close => trivial
  | announce kind h =>
    obtain ⟨inside, happened⟩ := sound
    exact ⟨Nat.lt_of_lt_of_le inside grown, happened.path path inside⟩
  | tell listener notice =>
    obtain ⟨inside, happened, clientId⟩ := sound
    exact ⟨Nat.lt_of_lt_of_le inside grown, happened.path path inside,
      (later.get inside).clientId.trans clientId⟩

theorem Telling.Sound.path (sound : x.Sound p) (path : Path p q) : x.Sound q where
  inside := Nat.lt_of_lt_of_le sound.inside (Later.of_path path).producers.length
  happened := sound.happened.path path sound.inside
  clientId := ((Later.of_path path).get sound.inside).clientId.trans sound.clientId
  shown := sound.shown.trans ((Later.of_path path).get sound.inside).id.symm

namespace Pool

/-- What is due to be told and what has been told is true, and nobody who has heard of the removal of a
producer is shown it open afterwards. -/
structure Truthful (due : List Duty) (p : Pool σ Snapshot) : Prop where
  duties : ∀ d ∈ due, d.Sound p
  tellings : ∀ x ∈ p.tellings, x.Sound p
  order : p.tellings.Pairwise fun later earlier =>
    later.shown.phase ≠ .disposed → earlier.notice.kind = .removed → earlier.shown.id ≠ later.shown.id

namespace Truthful

theorem new (config : Config) (outside : σ) :
    (Pool.new config outside : Pool σ Snapshot).Truthful [] where
  duties _ none := by cases none
  tellings _ none := by cases none
  order := .nil

/-- Who is not closed has not been announced as removed. -/
theorem open_of_sound (numbered : p.Numbered) (owned : (p.get r).owned = true)
    (undisposed : (p.get r).phase ≠ .disposed) (inside : s < p.producers.length)
    (happened : p.Happened kind s) (same : (p.get s).id = (p.get r).id) : kind ≠ .removed := by
  intro removed
  rcases (numbered.of_same inside owned same).2 with rfl | ⟨-, disposed⟩
  · exact undisposed (happened removed)
  · exact undisposed disposed

/-- What a move makes due is true. -/
theorem duty (truthful : p.Truthful due) (move : Move parks binds due p left q) (member : d ∈ left) :
    d ∈ due ∨ d.Sound q := by
  have closing {r : Ref} (sub : left = .close r :: due) : d ∈ due ∨ d.Sound q := by
    rw [sub] at member
    rcases List.mem_cons.mp member with rfl | before
    · exact Or.inr trivial
    · exact Or.inl before
  cases move with
  | build _ _ m _ h step stays new length opened _ seats =>
    rcases List.mem_cons.mp member with rfl | before
    · refine Or.inr ⟨?_, fun removed => by cases removed⟩
      rw [seats.producers, length, new]
      exact Nat.lt_succ_self _
    · exact Or.inl before
  | giveUp _ _ hs =>
    rcases List.mem_append.mp member with given | before
    · obtain ⟨h, -, rfl⟩ := List.mem_map.mp given
      exact Or.inr trivial
    · exact Or.inl before
  | vacate => exact closing rfl
  | clear => exact Or.inl (List.mem_cons_of_mem _ member)
  | retire _ left _ _ h step undisposed stays length frees =>
    rcases List.mem_cons.mp member with rfl | before
    · have closed := stays.producers.closed h.producer rfl
      exact Or.inr ⟨closed.1, fun _ => closed.2⟩
    · refine Or.inl ?_
      cases frees with
      | due => exact List.mem_cons_of_mem _ before
      | apart => exact before
      | used => exact before
  | forget _ _ _ r step undisposed stays _ copied =>
    rcases List.mem_cons.mp member with rfl | before
    · refine Or.inr ⟨?_, fun _ => ?_⟩
      · rw [copied]
        simp
      · rw [get, copied, getD_append, if_pos (List.length_modify ..).symm]
        rfl
    · exact Or.inl before
  | hush => exact Or.inl (List.mem_cons_of_mem _ member)
  | summon _ _ kind h id known =>
    obtain ⟨inside, happened⟩ := truthful.duties _ List.mem_cons_self
    rcases List.mem_append.mp member with called | before
    · obtain ⟨listener, -, rfl⟩ := List.mem_map.mp called
      exact Or.inr ⟨inside, happened, known⟩
    · exact Or.inl (List.mem_cons_of_mem _ before)
  | tell => exact Or.inl (List.mem_cons_of_mem _ member)
  | _ => exact Or.inl member

theorem move (truthful : p.Truthful due) (regular : p.Regular) (numbered : p.Numbered)
    (move : Move parks binds due p left q) : q.Truthful left := by
  have path := move.path
  have duties : ∀ d ∈ left, d.Sound q := fun d member =>
    (truthful.duty move member).elim (fun before => (truthful.duties d before).path path) id
  have tellings : ∀ x ∈ p.tellings, x.Sound q := fun x member => (truthful.tellings x member).path path
  rcases move.tellings with same | ⟨listener, notice, rfl, rfl⟩
  · exact ⟨duties, same ▸ tellings, same ▸ truthful.order⟩
  · obtain ⟨inside, happened, clientId⟩ := truthful.duties _ List.mem_cons_self
    refine ⟨duties, ?_, ?_⟩
    · rintro x (_ | ⟨_, before⟩)
      · exact ⟨inside, happened, clientId, rfl⟩
      · exact tellings x before
    · -- Had somebody been told of the removal, that would be true, and the producer closed by now.
      refine List.pairwise_cons.mpr ⟨fun x before undisposed removed same => ?_, truthful.order⟩
      have sound := truthful.tellings x before
      have owned := regular.named.owned _ inside undisposed
      exact open_of_sound numbered owned undisposed sound.inside sound.happened
        (sound.shown.symm.trans same) removed

theorem unmentioned (truthful : p.Truthful due)
    (other : ∀ s < p.producers.length, p.Happened kind s → (p.get s).id ≠ n) :
    p.announced due kind n = 0 ∧ ∀ listener, p.heard due listener kind n = 0 := by
  refine ⟨List.countP_eq_zero.mpr fun d member counts => ?_, fun listener => ?_⟩
  · have sound := truthful.duties d member
    cases d with
    | announce k h =>
      simp only [Duty.announces, decide_eq_true_eq] at counts
      obtain ⟨rfl, same⟩ := counts
      exact other h.producer sound.1 sound.2 same
    | _ => cases counts
  · refine Nat.add_eq_zero_iff.mpr ⟨List.countP_eq_zero.mpr fun d member counts => ?_,
      List.countP_eq_zero.mpr fun x member counts => ?_⟩
    · have sound := truthful.duties d member
      cases d with
      | tell l notice =>
        simp only [Duty.tells, decide_eq_true_eq] at counts
        obtain ⟨-, rfl, same⟩ := counts
        exact other notice.handle.producer sound.1 sound.2.1 same
      | _ => cases counts
    · have sound := truthful.tellings x member
      simp only [Telling.concerns, decide_eq_true_eq] at counts
      obtain ⟨-, rfl, same⟩ := counts
      exact other x.notice.handle.producer sound.inside sound.happened (sound.shown.symm.trans same)

end Truthful

end Pool

end ProducerPool
