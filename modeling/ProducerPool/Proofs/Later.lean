import ProducerPool.Proofs.Step

/-!
# What never goes back

`Later p q` says how a pool can have changed when it is looked at again: producers are only added, and
each keeps its identity, stays disposed of, keeps its first failure, and leaves the cache only under a
higher lease; the epoch never falls and the journal only grows.  Every step keeps to this, so any two
points of a run are related by it, whatever lies between them.
-/

set_option autoImplicit false

namespace ProducerPool

/-! ## One producer -/

/-- How a producer can have changed. -/
structure Producer.Later (x y : Producer) : Prop where
  identity : y = { x with
    phase := y.phase, lease := y.lease, failure := y.failure, checkedOut := y.checkedOut }
  disposed : x.phase = .disposed → y.phase = .disposed
  lease : x.lease ≤ y.lease
  /-- A producer is opened again only under a higher lease. -/
  reopened : y.phase = .opened → x.phase = .opened ∨ x.lease < y.lease
  failure : ∀ error, x.failure = some error → y.failure = some error

namespace Producer.Later

variable {x y z : Producer}

theorem refl (x : Producer) : x.Later x :=
  ⟨rfl, fun done => done, Nat.le_refl _, Or.inl, fun _ failed => failed⟩

theorem trans (first : x.Later y) (second : y.Later z) : x.Later z where
  identity := by rw [second.identity, first.identity]
  disposed := second.disposed ∘ first.disposed
  lease := Nat.le_trans first.lease second.lease
  reopened opened := by
    rcases second.reopened opened with before | higher
    · rcases first.reopened before with before | higher
      · exact Or.inl before
      · exact Or.inr (Nat.lt_of_lt_of_le higher second.lease)
    · exact Or.inr (Nat.lt_of_le_of_lt first.lease higher)
  failure error failed := second.failure error (first.failure error failed)

theorem conn (later : x.Later y) : y.conn = x.conn := by rw [later.identity]

theorem epoch (later : x.Later y) : y.epoch = x.epoch := by rw [later.identity]

theorem placement (later : x.Later y) : y.placement = x.placement := by rw [later.identity]

theorem owned (later : x.Later y) : y.owned = x.owned := by rw [later.identity]

theorem transactionalId (later : x.Later y) : y.transactionalId = x.transactionalId := by
  rw [later.identity]

theorem isSpoiled (later : x.Later y) (spoiled : x.isSpoiled = true) : y.isSpoiled = true := by
  obtain ⟨error, failed⟩ := Option.isSome_iff_exists.mp spoiled
  exact Option.isSome_iff_exists.mpr ⟨error, later.failure error failed⟩

theorem dispose (x : Producer) : x.Later { x with phase := .disposed } :=
  ⟨rfl, fun _ => rfl, Nat.le_refl _, by simp, fun _ failed => failed⟩

theorem park (x : Producer) (opened : x.phase = .opened) : x.Later { x with phase := .cached } where
  identity := rfl
  disposed disposed := by cases opened.symm.trans disposed
  lease := Nat.le_refl _
  reopened := by simp
  failure _ failed := failed

theorem reopen (x : Producer) (cached : x.phase = .cached) :
    x.Later { x with phase := .opened, lease := x.lease + 1 } where
  identity := rfl
  disposed disposed := by cases cached.symm.trans disposed
  lease := Nat.le_succ _
  reopened _ := Or.inr (Nat.lt_succ_self _)
  failure _ failed := failed

theorem spoil (x : Producer) (error : ClientError) (sound : x.isSpoiled = false) :
    x.Later { x with failure := some error } where
  identity := rfl
  disposed done := done
  lease := Nat.le_refl _
  reopened := Or.inl
  failure earlier failed := by
    rw [Producer.isSpoiled, failed] at sound
    cases sound

theorem check (x : Producer) (out : Bool) : x.Later { x with checkedOut := out } :=
  ⟨rfl, fun done => done, Nat.le_refl _, Or.inl, fun _ failed => failed⟩

end Producer.Later

/-! ## The list of producers -/

/-- How the list of producers can have changed. -/
structure Growing (xs ys : List Producer) : Prop where
  length : xs.length ≤ ys.length
  each : ∀ r < xs.length, (xs.getD r .absent).Later (ys.getD r .absent)

namespace Growing

variable {xs ys zs : List Producer}

theorem refl (xs : List Producer) : Growing xs xs := ⟨Nat.le_refl _, fun _ _ => .refl _⟩

theorem trans (first : Growing xs ys) (second : Growing ys zs) : Growing xs zs where
  length := Nat.le_trans first.length second.length
  each r inside := (first.each r inside).trans
    (second.each r (Nat.lt_of_lt_of_le inside first.length))

theorem modify (xs : List Producer) (r : Ref) (f : Producer → Producer)
    (later : (xs.getD r .absent).Later (f (xs.getD r .absent))) : Growing xs (xs.modify r f) where
  length := by simp
  each s _ := by
    rw [Pool.getD_modify]
    split
    · rename_i same
      rw [← same.1]
      exact later
    · exact .refl _

theorem append (xs : List Producer) (x : Producer) : Growing xs (xs ++ [x]) where
  length := by simp
  each s inside := by
    rw [Pool.getD_append, if_neg (Nat.ne_of_lt inside)]
    exact .refl _

end Growing

/-! ## The pool -/

/-- How a pool can have changed when it is looked at later. -/
structure Later {σ : Type} (p q : Pool σ Snapshot) : Prop where
  producers : Growing p.producers q.producers
  epoch : p.factory.epoch ≤ q.factory.epoch
  sequence : p.factory.sequence ≤ q.factory.sequence
  config : q.factory.config = p.factory.config
  journal : p.journal <:+ q.journal

namespace Later

variable {σ : Type} {p q r : Pool σ Snapshot}

theorem refl (p : Pool σ Snapshot) : Later p p :=
  ⟨.refl _, Nat.le_refl _, Nat.le_refl _, rfl, List.suffix_refl _⟩

theorem trans (first : Later p q) (second : Later q r) : Later p r where
  producers := first.producers.trans second.producers
  epoch := Nat.le_trans first.epoch second.epoch
  sequence := Nat.le_trans first.sequence second.sequence
  config := second.config.trans first.config
  journal := first.journal.trans second.journal

theorem get (later : Later p q) {s : Ref} (inside : s < p.producers.length) :
    (p.get s).Later (q.get s) := later.producers.each s inside

/-- Nothing but references and places of the factory has changed. -/
theorem of_letsGo {s : Ref} (letsGo : p.LetsGo s q) : Later p q := by
  cases letsGo <;> exact ⟨.refl _, Nat.le_refl _, Nat.le_refl _, rfl, List.suffix_refl _⟩

theorem closed (p : Pool σ Snapshot) (s : Ref) (outside : σ) (events : List (Event Snapshot)) :
    Later p (p.closed s outside events) :=
  ⟨.modify _ _ _ (.dispose _), Nat.le_refl _, Nat.le_refl _, rfl, List.suffix_append _ _⟩

theorem of_givesUp {f g : Factory} {hs : List Handle} (givesUp : f.GivesUp hs g) :
    f.epoch ≤ g.epoch ∧ g.sequence = f.sequence ∧ g.config = f.config := by
  cases givesUp <;> exact ⟨by simp, rfl, rfl⟩

theorem of_names {f : Factory} {placement : Placement} {transactionalId : Option String} {n : Nat}
    (names : f.Names placement transactionalId n) : f.sequence ≤ n := by
  cases names <;> omega

theorem of_step (step : Step p q) : Later p q := by
  cases step with
  | look | note | call => exact ⟨.refl _, Nat.le_refl _, Nat.le_refl _, rfl, List.suffix_cons _ _⟩
  | kept _ _ letsGo => exact of_letsGo letsGo
  | lost s q letsGo => exact (of_letsGo letsGo).trans (closed q s _ _)
  | lostOwned s q letsGo _ _ _ outside events =>
    have closed := (of_letsGo letsGo).trans (closed q s outside events)
    exact ⟨closed.producers.trans (.append _ _), closed.epoch, closed.sequence, closed.config,
      closed.journal⟩
  | build _ _ _ _ _ _ names =>
    exact ⟨.append _ _, Nat.le_refl _, of_names names, rfl,
      (List.suffix_append _ _).trans (List.suffix_cons _ _)⟩
  | fail _ _ _ _ _ names =>
    exact ⟨.refl _, Nat.le_refl _, of_names names, rfl, List.suffix_append _ _⟩
  | spoil s error line sound =>
    exact ⟨.modify _ _ _ (.spoil _ error sound), Nat.le_refl _, Nat.le_refl _, rfl,
      List.suffix_cons _ _⟩
  | check s out =>
    exact ⟨.modify _ _ _ (.check _ out), Nat.le_refl _, Nat.le_refl _, rfl, List.suffix_refl _⟩
  | shelve h key _ opened =>
    exact ⟨.modify _ _ _ (.park _ opened), Nat.le_refl _, Nat.le_refl _, rfl, List.suffix_refl _⟩
  | reopen key h cache _ cached =>
    exact ⟨.modify _ _ _ (.reopen _ cached), Nat.le_refl _, Nat.le_refl _, rfl, List.suffix_cons _ _⟩
  | retire s _ outside events =>
    exact ⟨.modify _ _ _ (.dispose _), Nat.le_refl _, Nat.le_refl _, rfl, List.suffix_append _ _⟩
  | shut s _ _ outside events => exact closed p s outside events
  | giveUp hs f givesUp =>
    obtain ⟨epoch, sequence, config⟩ := of_givesUp givesUp
    exact ⟨.refl _, epoch, Nat.le_of_eq sequence.symm, config, List.suffix_refl _⟩
  | _ => exact ⟨.refl _, Nat.le_refl _, Nat.le_refl _, rfl, List.suffix_refl _⟩

theorem of_path (path : Path p q) : Later p q := by
  induction path with
  | refl => exact .refl p
  | tail _ step ih => exact ih.trans (of_step step)

end Later

end ProducerPool
