import ProducerPool.Proofs.Notices

/-!
# Listeners that are there hear everything

For every producer that has been built the announcement is due, or it has been made and what a listener
has been told and what it has yet to be told add up to one notification for each of its registrations;
and the same holds of the removal of a producer once it is closed.  So nothing is forgotten and nothing
is told twice, whatever code runs between two notifications.
-/

set_option autoImplicit false

namespace ProducerPool

variable {σ : Type} {p q m : Pool σ Snapshot} {h : Handle} {r : Ref} {due left : List Duty}
  {parks : Handle → Prop} {binds : ThreadId → Option Handle → Prop} {times : Nat → Prop}
  {kind : NoticeKind} {listener : String} {n : Nat}

namespace Pool

/-- A producer with a client id for which the notification is to be made. -/
structure Reportable (p : Pool σ Snapshot) (kind : NoticeKind) (r : Ref) : Prop where
  happened : p.Happened kind r
  owned : (p.get r).owned = true
  known : (p.get r).clientId ≠ none

/-- A listener that has been there since before a producer was built has been told of it, or has to be,
as often as it is registered, unless everybody has yet to be told. -/
def Informed (times : Nat → Prop) (due : List Duty) (p : Pool σ Snapshot) : Prop :=
  p.alive = true → ∀ kind listener r, p.Reportable kind r → p.Attends times listener r →
    p.announced due kind (p.get r).id = 1 ∧ p.heard due listener kind (p.get r).id = 0 ∨
      p.announced due kind (p.get r).id = 0 ∧ times (p.heard due listener kind (p.get r).id)

end Pool

/-! ## Counting goes on -/

/-- Whether it is something to tell. -/
def Duty.isNotice : Duty → Bool
  | .close _ => false
  | _ => true

theorem Duty.countP_congr {f : Duty → Bool} (notices : ∀ r, f (.close r) = false)
    (same : left.filter Duty.isNotice = due.filter Duty.isNotice) : left.countP f = due.countP f := by
  have filtered (due : List Duty) : due.countP f = (due.filter Duty.isNotice).countP f := by
    rw [List.countP_filter]
    refine List.countP_congr fun d _ => ?_
    cases d <;> simp [notices, Duty.isNotice]
  rw [filtered left, filtered due, same]

namespace Pool

theorem announced_congr (same : left.filter Duty.isNotice = due.filter Duty.isNotice) :
    p.announced left kind n = p.announced due kind n := Duty.countP_congr (fun _ => rfl) same

theorem heard_congr (same : left.filter Duty.isNotice = due.filter Duty.isNotice) :
    p.heard left listener kind n = p.heard due listener kind n :=
  congrArg (· + p.told listener kind n) (Duty.countP_congr (fun _ => rfl) same)

theorem announced_path (duties : ∀ d ∈ due, d.Sound p) (path : Path p q) :
    q.announced due kind n = p.announced due kind n := by
  refine List.countP_congr fun d member => ?_
  have sound := duties d member
  cases d with
  | announce k h => simp [Duty.announces, ((Later.of_path path).get sound.1).id]
  | _ => simp [Duty.announces]

theorem tells_path (duties : ∀ d ∈ due, d.Sound p) (path : Path p q) :
    due.countP (Duty.tells q listener kind n) = due.countP (Duty.tells p listener kind n) := by
  refine List.countP_congr fun d member => ?_
  have sound := duties d member
  cases d with
  | tell l notice => simp [Duty.tells, ((Later.of_path path).get sound.1).id]
  | _ => simp [Duty.tells]

theorem heard_path (duties : ∀ d ∈ due, d.Sound p) (path : Path p q) (same : q.tellings = p.tellings) :
    q.heard due listener kind n = p.heard due listener kind n := by
  rw [heard, heard, tells_path duties path, told, told, same]

theorem announced_cons (k : NoticeKind) (h : Handle) :
    p.announced (.announce k h :: due) kind n =
      p.announced due kind n + if k = kind ∧ (p.get h.producer).id = n then 1 else 0 := by
  simp [announced, List.countP_cons, Duty.announces]

theorem heard_cons (k : NoticeKind) (h : Handle) :
    p.heard (.announce k h :: due) listener kind n = p.heard due listener kind n := by
  simp [heard, Duty.tells]

/-- One notification is due for each registration of a listener. -/
theorem tells_listeners (k : NoticeKind) (id : String) (h : Handle) (listeners : List String) :
    listeners.countP (Duty.tells p listener kind n ∘ fun listener => .tell listener ⟨k, id, h⟩) =
      if k = kind ∧ (p.get h.producer).id = n then listeners.count listener else 0 := by
  by_cases same : k = kind ∧ (p.get h.producer).id = n
  · rw [if_pos same]
    refine List.countP_congr fun l _ => ?_
    simp [Duty.tells, same.1, same.2]
  · rw [if_neg same]
    refine List.countP_eq_zero.mpr fun l _ tells => same ?_
    simp only [Function.comp_apply, Duty.tells, decide_eq_true_eq] at tells
    exact tells.2

/-- A notification that is due is made. -/
theorem heard_record (notice : Notice) {l : String} :
    (p.record (.notifying listener notice (p.get notice.handle.producer))).heard due l kind n =
      p.heard (.tell listener notice :: due) l kind n := by
  have tellings : (p.record (.notifying listener notice (p.get notice.handle.producer))).tellings =
      ⟨listener, notice, p.get notice.handle.producer⟩ :: p.tellings := rfl
  have tells : due.countP (Duty.tells
      (p.record (.notifying listener notice (p.get notice.handle.producer))) l kind n) =
        due.countP (Duty.tells p l kind n) :=
    List.countP_congr fun d _ => by cases d <;> exact Iff.rfl
  have concerns : Telling.concerns l kind n ⟨listener, notice, p.get notice.handle.producer⟩ =
      Duty.tells p l kind n (.tell listener notice) := rfl
  rw [heard, heard, told, told, tellings, tells, List.countP_cons, List.countP_cons, concerns]
  omega

theorem announced_record (notice : Notice) :
    (p.record (.notifying listener notice (p.get notice.handle.producer))).announced due kind n =
      p.announced (.tell listener notice :: due) kind n := by
  rw [announced, announced, List.countP_cons_of_neg (by simp [Duty.announces])]
  exact List.countP_congr fun d _ => by cases d <;> exact Iff.rfl

theorem Truthful.of_notices (truthful : p.Truthful due)
    (same : left.filter Duty.isNotice = due.filter Duty.isNotice) : ∀ d ∈ left, d.Sound p := by
  intro d member
  by_cases notice : d.isNotice = true
  · have noticed : d ∈ left.filter Duty.isNotice := List.mem_filter.mpr ⟨member, notice⟩
    rw [same] at noticed
    exact truthful.duties d (List.mem_filter.mp noticed).1
  · cases d with
    | close => trivial
    | _ => exact absurd rfl notice

theorem Reportable.before (report : q.Reportable kind r) (path : Path p q) (known : r < p.producers.length)
    (happened : p.Happened kind r) : p.Reportable kind r where
  happened := happened
  owned := by
    rw [← ((Later.of_path path).get known).owned]
    exact report.owned
  known := by
    rw [← ((Later.of_path path).get known).clientId]
    exact report.known

/-! ## Moves -/

namespace Informed

/-- Nothing new is to be told. -/
theorem carry (informed : p.Informed times due) (truthful : p.Truthful due)
    (move : Move parks binds due p left q) (tellings : q.tellings = p.tellings)
    (notices : left.filter Duty.isNotice = due.filter Duty.isNotice)
    (backs : ∀ kind r, q.Reportable kind r → r < p.producers.length ∧ p.Happened kind r) :
    q.Informed times left := by
  intro alive kind listener r report attends
  obtain ⟨known, happened⟩ := backs kind r report
  have sound := truthful.of_notices notices
  rw [((Later.of_path move.path).get known).id, announced_path sound move.path,
    heard_path sound move.path tellings, announced_congr notices, heard_congr notices]
  exact informed (move.alive alive) kind listener r (report.before move.path known happened)
    (attends.before move known)

/-- Everybody has yet to be told of the producer `x`. -/
theorem arise {k : NoticeKind} {x : Ref} (informed : p.Informed times due) (truthful : p.Truthful due)
    (move : Move parks binds due p (.announce k h :: left) q) (tellings : q.tellings = p.tellings)
    (notices : left.filter Duty.isNotice = due.filter Duty.isNotice)
    (number : (q.get h.producer).id = (q.get x).id)
    (unheard : p.announced due k (q.get x).id = 0 ∧ ∀ listener, p.heard due listener k (q.get x).id = 0)
    (others : ∀ kind r, q.Reportable kind r → kind = k ∧ r = x ∨
      (r < p.producers.length ∧ p.Happened kind r) ∧ ¬(k = kind ∧ (q.get x).id = (q.get r).id)) :
    q.Informed times (.announce k h :: left) := by
  intro alive kind listener r report attends
  have sound := truthful.of_notices notices
  rw [announced_cons, heard_cons, announced_path sound move.path, heard_path sound move.path tellings,
    announced_congr notices, heard_congr notices, number]
  rcases others kind r report with ⟨rfl, rfl⟩ | ⟨⟨known, happened⟩, other⟩
  · rw [if_pos ⟨rfl, rfl⟩, unheard.1, unheard.2]
    exact Or.inl ⟨rfl, rfl⟩
  · rw [if_neg other, Nat.add_zero, ((Later.of_path move.path).get known).id]
    exact informed (move.alive alive) kind listener r (report.before move.path known happened)
      (attends.before move known)

/-- Nobody is told of a producer without a client id. -/
theorem hush {k : NoticeKind} (informed : p.Informed times (.announce k h :: due))
    (truthful : p.Truthful (.announce k h :: due)) (numbered : p.Numbered)
    (nameless : (p.get h.producer).clientId = none) : p.Informed times due := by
  intro alive kind listener r report attends
  have told := informed alive kind listener r report attends
  have other : (p.get h.producer).id ≠ (p.get r).id := by
    intro same
    obtain ⟨inside, -⟩ := truthful.duties _ List.mem_cons_self
    exact report.known ((numbered.of_same inside report.owned same).1.symm.trans nameless)
  rw [announced_cons, heard_cons, if_neg fun both => other both.2] at told
  exact told

/-- Everybody who is there now is to be told. -/
theorem summon {k : NoticeKind} {id : String} (informed : p.Informed times (.announce k h :: due))
    (current : p.Current) :
    p.Informed times (p.factory.listeners.map (fun listener => .tell listener ⟨k, id, h⟩) ++ due) := by
  intro alive kind listener r report attends
  have told := informed alive kind listener r report attends
  rw [announced_cons, heard_cons] at told
  have announced : p.announced (p.factory.listeners.map (fun listener => .tell listener ⟨k, id, h⟩) ++ due)
      kind (p.get r).id = p.announced due kind (p.get r).id := by
    simp [Pool.announced, List.countP_map, Function.comp_def, Duty.announces]
  have heard : p.heard (p.factory.listeners.map (fun listener => .tell listener ⟨k, id, h⟩) ++ due)
      listener kind (p.get r).id = p.heard due listener kind (p.get r).id +
        if k = kind ∧ (p.get h.producer).id = (p.get r).id then p.factory.listeners.count listener
        else 0 := by
    rw [Pool.heard, Pool.heard, List.countP_append, List.countP_map, tells_listeners]
    omega
  rw [announced, heard]
  by_cases same : k = kind ∧ (p.get h.producer).id = (p.get r).id
  · rw [if_pos same] at told ⊢
    -- The announcement was due, so it was the only one, and nobody had been told.
    obtain ⟨first, second⟩ : p.announced due kind (p.get r).id = 0 ∧
        p.heard due listener kind (p.get r).id = 0 := by omega
    rw [first, second, Nat.zero_add]
    exact Or.inr ⟨rfl, attends.count current⟩
  · rw [if_neg same, Nat.add_zero] at told ⊢
    exact told

/-- Whoever is to be told has been told then. -/
theorem tell {notice : Notice} (informed : p.Informed times (.tell listener notice :: due))
    (move : Move parks binds (.tell listener notice :: due) p due
      (p.record (.notifying listener notice (p.get notice.handle.producer)))) :
    Informed times due (p.record (.notifying listener notice (p.get notice.handle.producer))) := by
  intro alive kind l r report attends
  have known := lt_of_owned report.owned
  have told := informed alive kind l r ⟨report.happened, report.owned, report.known⟩
    (attends.before move known)
  rw [← announced_record, ← heard_record] at told
  exact told

end Informed

/-- Nothing has happened to producers that stay as they are. -/
theorem Happened.before {gone : Option Ref} (happened : q.Happened kind r)
    (steady : Steady gone p.producers q.producers) (known : r < p.producers.length)
    (other : gone ≠ some r) : p.Happened kind r := fun removed =>
  (steady.phase r known other).symm.trans (happened removed)

namespace Informed

/-- A producer is parked or opened again. -/
theorem requeue {f : Producer → Producer} {x : Ref} (informed : p.Informed times due)
    (truthful : p.Truthful due) (move : Move parks binds due p due q) (tellings : q.tellings = p.tellings)
    (producers : q.producers = p.producers.modify x f) (undisposed : ∀ y, (f y).phase ≠ .disposed) :
    q.Informed times due := by
  refine informed.carry truthful move tellings rfl fun kind r report => ?_
  have known : r < p.producers.length := by
    have inside := lt_of_owned report.owned
    rwa [producers, List.length_modify] at inside
  refine ⟨known, fun removed => ?_⟩
  have disposed := report.happened removed
  rw [get, producers, getD_modify] at disposed
  split at disposed
  · exact absurd disposed (undisposed _)
  · exact disposed

theorem build (informed : p.Informed times due) (truthful : p.Truthful due) (regular : p.Regular)
    (numbered : p.Numbered) (move : Move parks binds due p (.announce .added h :: due) q)
    (step : Step p m) (stays : p.Stays none m) (new : h.producer = p.producers.length)
    (length : m.producers.length = p.producers.length + 1)
    (opened : (m.get h.producer).phase = .opened) (seats : Seats binds h m q) :
    q.Informed times (.announce .added h :: due) := by
  have same (r : Ref) : q.get r = m.get r := by rw [get, seats.producers]; rfl
  have undisposed : (m.get h.producer).phase ≠ .disposed := by
    rw [opened]
    simp
  have owned := (regular.path (.single step)).named.owned _ (lt_of_phase undisposed) undisposed
  have number : (q.get h.producer).id = p.factory.nextId := by
    rw [same]
    rcases step.owned_cases owned with ⟨before, -⟩ | ⟨-, number⟩
    · exact absurd new (Nat.ne_of_lt before)
    · exact number
  refine informed.arise truthful move (seats.tellings.trans stays.tellings) rfl rfl ?_ ?_
  -- The number is drawn only now, so nothing that has been told or is due can be about it.
  · exact truthful.unmentioned fun s before _ mentioned =>
      absurd (mentioned.trans number) (Nat.ne_of_lt (numbered.below s before))
  · intro kind r report
    by_cases own : r = h.producer
    · subst own
      refine Or.inl ⟨?_, rfl⟩
      cases kind with
      | added => rfl
      | removed => exact absurd (same _ ▸ report.happened rfl) undisposed
    · have inside := lt_of_owned report.owned
      rw [seats.producers, length] at inside
      have known : r < p.producers.length :=
        Nat.lt_of_le_of_ne (Nat.le_of_lt_succ inside) (new ▸ own)
      have happened : m.Happened kind r := fun removed => by
        rw [← same]
        exact report.happened removed
      refine Or.inr ⟨⟨known, happened.before stays.producers known (by simp)⟩, ?_⟩
      rintro ⟨-, mentioned⟩
      rw [number, ((Later.of_path move.path).get known).id] at mentioned
      exact absurd mentioned.symm (Nat.ne_of_lt (numbered.below r known))

/-- A producer of the factory is closed. -/
theorem close {x : Ref} (informed : p.Informed times due) (truthful : p.Truthful due)
    (regular : p.Regular) (numbered : p.Numbered)
    (move : Move parks binds due p (.announce .removed h :: left) q)
    (notices : left.filter Duty.isNotice = due.filter Duty.isNotice)
    (undisposed : (p.get x).phase ≠ .disposed) (stays : p.Stays (some x) q)
    (number : (q.get h.producer).id = (q.get x).id)
    (inside : ∀ r, (q.get r).owned = true → r < p.producers.length) :
    q.Informed times (.announce .removed h :: left) := by
  have there := lt_of_phase undisposed
  have owned := regular.named.owned x there undisposed
  refine informed.arise truthful move stays.tellings notices number ?_ ?_
  -- The producer has been open until now, so its removal has not been told and is not due.
  · rw [((Later.of_path move.path).get there).id]
    exact truthful.unmentioned fun s before happened same =>
      Truthful.open_of_sound numbered owned undisposed before happened same rfl
  · intro kind r report
    have known := inside r report.owned
    by_cases own : r = x
    · cases kind with
      | removed => exact Or.inl ⟨rfl, own⟩
      | added => exact Or.inr ⟨⟨known, fun removed => by cases removed⟩, fun both => by cases both.1⟩
    · refine Or.inr ⟨⟨known, report.happened.before stays.producers known ?_⟩, ?_⟩
      · exact fun same => own (Option.some.inj same).symm
      · rintro ⟨-, same⟩
        have later := (Later.of_path move.path).get known
        rw [((Later.of_path move.path).get there).id, later.id] at same
        have owned' : (p.get r).owned = true := by
          rw [← later.owned]
          exact report.owned
        exact own (numbered.distinct x r owned owned' same).symm

theorem move (informed : p.Informed times due) (truthful : p.Truthful due) (regular : p.Regular)
    (numbered : p.Numbered) (current : p.Current) (move : Move parks binds due p left q) :
    q.Informed times left := by
  have same (tellings : q.tellings = p.tellings) (producers : q.producers = p.producers)
      (notices : left.filter Duty.isNotice = due.filter Duty.isNotice) : q.Informed times left := by
    refine informed.carry truthful move tellings notices fun kind r report => ⟨?_, fun removed => ?_⟩
    · rw [← producers]
      exact lt_of_owned report.owned
    · have disposed := report.happened removed
      rw [get, producers] at disposed
      exact disposed
  have dead (gone : p.alive = false) : q.Informed times left := fun alive =>
    Bool.noConfusion (gone.symm.trans (move.alive alive))
  have whole := move
  cases move with
  | still _ _ _ _ stays length =>
    refine informed.carry truthful whole stays.tellings rfl fun kind r report => ?_
    have known : r < p.producers.length := length ▸ lt_of_owned report.owned
    exact ⟨known, report.happened.before stays.producers known (by simp)⟩
  | register => exact same rfl rfl rfl
  | build _ _ m _ h step stays new length opened _ seats =>
    exact informed.build truthful regular numbered whole step stays (congrArg Handle.producer new) length
      opened seats
  | shelve _ _ h => exact informed.requeue truthful whole rfl rfl fun _ => by simp
  | reopen _ _ key h => exact informed.requeue truthful whole rfl rfl fun _ => by simp
  | giveUp _ _ hs =>
    refine same rfl rfl ?_
    rw [List.filter_append, List.filter_eq_nil_iff.mpr, List.nil_append]
    intro d given
    obtain ⟨h, -, rfl⟩ := List.mem_map.mp given
    simp [Duty.isNotice]
  | vacate _ _ _ _ _ vacates =>
    exact same (by cases vacates <;> rfl) vacates.producers (List.filter_cons_of_neg (by simp [Duty.isNotice]))
  | clear => exact same rfl rfl (List.filter_cons_of_neg (by simp [Duty.isNotice])).symm
  | retire _ left _ _ h step undisposed stays length frees =>
    refine informed.close truthful regular numbered whole ?_ undisposed stays rfl fun r owned =>
      length ▸ lt_of_owned owned
    cases frees with
    | due => exact (List.filter_cons_of_neg (by simp [Duty.isNotice])).symm
    | apart => rfl
    | used => rfl
  | forget _ _ _ x step undisposed stays _ copied =>
    have copy : q.get p.producers.length = (p.get x).closedCopy := by
      rw [get, copied, getD_append, if_pos (List.length_modify ..).symm]
    have later := (Later.of_path whole.path).get (lt_of_phase undisposed)
    refine informed.close truthful regular numbered whole rfl undisposed stays ?_ fun r owned => ?_
    · rw [copy, later.id]
      rfl
    · have inside := lt_of_owned owned
      rw [copied, List.length_append, List.length_modify] at inside
      refine Nat.lt_of_le_of_ne (Nat.le_of_lt_succ inside) ?_
      -- The copy stands for the producer and is none of the factory itself.
      rintro rfl
      rw [copy] at owned
      cases owned
  | shut _ _ _ _ _ gone => exact dead gone
  | expire => exact fun alive => by cases alive
  | hush _ _ _ _ nameless => exact informed.hush truthful numbered nameless
  | summon => exact informed.summon current
  | tell => exact informed.tell whole

end Informed

end Pool

/-- Listeners hear the truth, and those who are there all the time hear everything. -/
structure Pool.Reports (times : Nat → Prop) (due : List Duty) (p : Pool σ Snapshot) : Prop where
  regular : p.Regular
  numbered : p.Numbered
  current : p.Current
  truthful : p.Truthful due
  informed : p.Informed times due

theorem Pool.Reports.new (times : Nat → Prop) (config : Config) (outside : σ) :
    (Pool.new config outside : Pool σ Snapshot).Reports times [] where
  regular := .new config outside
  numbered := .new config outside
  current _ none := by cases none
  truthful := .new config outside
  informed _ _ _ _ report := absurd (lt_of_owned report.owned) (Nat.not_lt_zero _)

def noticeInvariant (times : Nat → Prop) : Invariant σ where
  holds due p := p.Reports times due
  parks _ := True
  binds _ _ := True
  regular holds := holds.regular
  own _ _ := trivial
  move holds motion := motion.moves.preserves (fun holds move =>
    { regular := holds.regular.path move.path
      numbered := holds.numbered.path move.path
      current := holds.current.move move
      truthful := holds.truthful.move holds.regular holds.numbered move
      informed := holds.informed.move holds.truthful holds.regular holds.numbered holds.current move })
    holds

end ProducerPool
