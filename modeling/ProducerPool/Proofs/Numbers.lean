import ProducerPool.Proofs.Places

/-!
# The numbers of producers

A factory numbers its producers in the order in which it builds them, so the number tells which producer
is meant.  The copy of a lost producer that listeners are shown has the number and the client id of the
original, and is made when the original is closed.
-/

set_option autoImplicit false

namespace ProducerPool

variable {σ : Type} {p q : Pool σ Snapshot} {r s : Ref}

theorem Producer.Later.id {x y : Producer} (later : x.Later y) : y.id = x.id := by rw [later.identity]

theorem Producer.Later.clientId {x y : Producer} (later : x.Later y) : y.clientId = x.clientId := by
  rw [later.identity]

namespace Pool

theorem lt_of_owned (owned : (p.get r).owned = true) : r < p.producers.length := by
  refine Nat.lt_of_not_le fun out => ?_
  rw [get_eq_absent out] at owned
  cases owned

end Pool

namespace Step

/-- Numbers are only drawn, never given back. -/
theorem nextId (step : Step p q) : p.factory.nextId ≤ q.factory.nextId := by
  cases step with
  | kept r m letsGo => cases letsGo <;> exact Nat.le_refl _
  | lost r m letsGo => cases letsGo <;> exact Nat.le_refl _
  | lostOwned r m letsGo => cases letsGo <;> exact Nat.le_refl _
  | build => exact Nat.le_succ _
  | fail => exact Nat.le_succ _
  | giveUp hs f givesUp => cases givesUp <;> exact Nat.le_refl _
  | _ => exact Nat.le_refl _

/-- A producer of the factory was there before, or it has the next number. -/
theorem owned_cases (step : Step p q) (owned : (q.get r).owned = true) :
    r < p.producers.length ∧ (p.get r).owned = true ∨
      r = p.producers.length ∧ (q.get r).id = p.factory.nextId := by
  rcases Nat.lt_or_ge r p.producers.length with before | new
  · exact Or.inl ⟨before, by rw [← ((Later.of_step step).get before).owned]; exact owned⟩
  · obtain ⟨last, ⟨_, _, _, _, _, built⟩ | ⟨y, -, copy⟩⟩ := step.newcomer new (Pool.lt_of_owned owned)
    · exact Or.inr ⟨last, by rw [built]⟩
    · rw [copy] at owned
      cases owned

end Step

namespace Pool

/-- The producer `s` is `r` itself, or a copy of it that was made when `r` was closed. -/
def Mirrors (p : Pool σ Snapshot) (s r : Ref) : Prop :=
  s = r ∨ (p.get s).owned = false ∧ (p.get r).phase = .disposed

structure Numbered (p : Pool σ Snapshot) : Prop where
  below : ∀ r < p.producers.length, (p.get r).id < p.factory.nextId
  distinct : ∀ r s, (p.get r).owned = true → (p.get s).owned = true → (p.get r).id = (p.get s).id →
    r = s
  /-- Whatever is shown to listeners is a producer of the factory or a copy of one. -/
  original : ∀ s < p.producers.length, ∃ r, (p.get r).owned = true ∧ (p.get s).id = (p.get r).id ∧
    (p.get s).clientId = (p.get r).clientId ∧ p.Mirrors s r

namespace Numbered

theorem new (config : Config) (outside : σ) : (Pool.new config outside : Pool σ Snapshot).Numbered where
  below _ inside := absurd inside (Nat.not_lt_zero _)
  distinct _ _ owned := absurd (lt_of_owned owned) (Nat.not_lt_zero _)
  original _ inside := absurd inside (Nat.not_lt_zero _)

/-- The number of a producer of the factory is its own and that of its copies. -/
theorem of_same (numbered : p.Numbered) (inside : s < p.producers.length)
    (owned : (p.get r).owned = true) (same : (p.get s).id = (p.get r).id) :
    (p.get s).clientId = (p.get r).clientId ∧ p.Mirrors s r := by
  obtain ⟨x, owned', number, clientId, mirrors⟩ := numbered.original s inside
  obtain rfl : x = r := numbered.distinct x r owned' owned (number.symm.trans same)
  exact ⟨clientId, mirrors⟩

theorem step_below (numbered : p.Numbered) (step : Step p q) {r : Ref}
    (inside : r < q.producers.length) : (q.get r).id < q.factory.nextId := by
  rcases Nat.lt_or_ge r p.producers.length with before | new
  · rw [((Later.of_step step).get before).id]
    exact Nat.lt_of_lt_of_le (numbered.below r before) step.nextId
  · obtain ⟨-, ⟨_, _, _, _, ⟨-, drawn⟩, built⟩ | ⟨y, ⟨before, -⟩, copy⟩⟩ := step.newcomer new inside
    · rw [built]
      exact drawn
    · rw [copy]
      exact Nat.lt_of_lt_of_le (numbered.below y before) step.nextId

theorem step_distinct (numbered : p.Numbered) (step : Step p q) {r s : Ref}
    (first : (q.get r).owned = true) (second : (q.get s).owned = true)
    (same : (q.get r).id = (q.get s).id) : r = s := by
  have below {x : Ref} (before : x < p.producers.length) : (q.get x).id < p.factory.nextId := by
    rw [((Later.of_step step).get before).id]
    exact numbered.below x before
  rcases step.owned_cases first with ⟨before, owned⟩ | ⟨last, number⟩
  · rcases step.owned_cases second with ⟨before', owned'⟩ | ⟨-, number'⟩
    · rw [((Later.of_step step).get before).id, ((Later.of_step step).get before').id] at same
      exact numbered.distinct r s owned owned' same
    · exact absurd (same.trans number') (Nat.ne_of_lt (below before))
  · rcases step.owned_cases second with ⟨before', -⟩ | ⟨last', -⟩
    · exact absurd (same.symm.trans number) (Nat.ne_of_lt (below before'))
    · rw [last, last']

theorem step_original (numbered : p.Numbered) (step : Step p q) {s : Ref}
    (inside : s < q.producers.length) :
    ∃ r, (q.get r).owned = true ∧ (q.get s).id = (q.get r).id ∧
      (q.get s).clientId = (q.get r).clientId ∧ q.Mirrors s r := by
  have keeps {x : Ref} (before : x < p.producers.length) : (p.get x).Later (q.get x) :=
    (Later.of_step step).get before
  have carried {y : Ref} (before : y < p.producers.length) :
      ∃ z, (q.get z).owned = true ∧ (p.get y).id = (q.get z).id ∧
        (p.get y).clientId = (q.get z).clientId ∧
          (y = z ∨ (p.get y).owned = false ∧ (q.get z).phase = .disposed) := by
    obtain ⟨z, owned, number, clientId, mirrors⟩ := numbered.original y before
    have persists := keeps (lt_of_owned owned)
    refine ⟨z, by rw [persists.owned]; exact owned, by rw [persists.id]; exact number,
      by rw [persists.clientId]; exact clientId, mirrors.imp_right fun ⟨unowned, disposed⟩ => ?_⟩
    exact ⟨unowned, persists.disposed disposed⟩
  rcases Nat.lt_or_ge s p.producers.length with before | new
  · obtain ⟨z, owned, number, clientId, mirrors⟩ := carried before
    have persists := keeps before
    refine ⟨z, owned, by rw [persists.id]; exact number, by rw [persists.clientId]; exact clientId, ?_⟩
    exact mirrors.imp_right fun ⟨unowned, disposed⟩ => ⟨by rw [persists.owned]; exact unowned, disposed⟩
  · obtain ⟨-, ⟨_, _, _, _, _, built⟩ | ⟨y, ⟨before, -, closed⟩, copy⟩⟩ := step.newcomer new inside
    · exact ⟨s, by rw [built], rfl, rfl, Or.inl rfl⟩
    · obtain ⟨z, owned, number, clientId, mirrors⟩ := carried before
      -- The step has closed the one that is copied, and a copy is of one that was closed before.
      have disposed : (q.get z).phase = .disposed := by
        rcases mirrors with rfl | ⟨-, disposed⟩
        · exact closed
        · exact disposed
      exact ⟨z, owned, by rw [copy]; exact number, by rw [copy]; exact clientId,
        Or.inr ⟨by rw [copy]; rfl, disposed⟩⟩

theorem step (numbered : p.Numbered) (step : Step p q) : q.Numbered where
  below _ inside := numbered.step_below step inside
  distinct _ _ first second same := numbered.step_distinct step first second same
  original _ inside := numbered.step_original step inside

theorem path (numbered : p.Numbered) (path : Path p q) : q.Numbered :=
  Path.preserves (fun _ _ holds => holds.step) path numbered

end Numbered

end Pool

/-- No copy is made of a producer that has been closed. -/
theorem Path.uncopied (path : Path p q) (numbered : p.Numbered) (owned : (p.get s).owned = true)
    (closed : (p.get s).phase = .disposed) (new : p.producers.length ≤ r)
    (inside : r < q.producers.length) (unowned : (q.get r).owned = false) :
    (q.get s).id ≠ (q.get r).id := by
  induction path with
  | refl => exact absurd inside (Nat.not_lt.mpr new)
  | @tail m q before step ih =>
    have later := Later.of_path before
    have known := Pool.lt_of_owned owned
    have within := Nat.lt_of_lt_of_le known later.producers.length
    have persists := (Later.of_step step).get within
    rcases Nat.lt_or_ge r m.producers.length with there | late
    · have same := (Later.of_step step).get there
      rw [persists.id, same.id]
      exact ih there (same.owned ▸ unowned)
    · obtain ⟨-, ⟨_, _, _, _, _, built⟩ | ⟨y, ⟨-, ⟨owned', undisposed⟩, -⟩, copy⟩⟩ :=
        step.newcomer late inside
      · rw [built] at unowned
        cases unowned
      · -- The one that is copied was not closed before.
        intro same
        rw [persists.id, copy] at same
        obtain rfl := (numbered.path before).distinct s y ((later.get known).owned.trans owned) owned' same
        exact undisposed ((later.get known).disposed closed)

end ProducerPool
