import ProducerPool.Proofs.Obtain

/-!
# When two producers have one transactional id

The transactional id of a producer is drawn from the sequence, as a prefix with a number after it, or it
is the key of its queue.  No number is drawn twice, but that does not keep ids apart: a prefix that ends
in digits can make up for a shorter number, and a key may look like a drawn id.  Two producers that are
not closed have one id in exactly these cases.
-/

set_option autoImplicit false

namespace ProducerPool

variable {σ : Type} {p q : Pool σ Snapshot} {config : Config} {f : Factory} {x y : Producer}
  {a b key : String} {n m : Nat}

/-! ## Texts with a number at their end -/

theorem numberText_injective (same : toString n = toString m) : n = m := by
  have digits := congrArg String.toList same
  rw [Nat.toString_eq_repr, Nat.toString_eq_repr, Nat.toList_repr, Nat.toList_repr] at digits
  rw [← Nat.ofDigitChars_ten_toDigits (n := n), digits, Nat.ofDigitChars_ten_toDigits]

theorem numberText_ne_empty : toString n ≠ "" := by
  rw [Nat.toString_eq_repr]
  exact Nat.repr_ne_empty

/-- Two texts cut in two are equal where one cut lies before the other and the rest makes up for it. -/
theorem text_append_eq_append {s t : String} : a ++ s = b ++ t ↔
    ∃ d, b = a ++ d ∧ s = d ++ t ∨ a = b ++ d ∧ t = d ++ s := by
  constructor
  · intro same
    have characters := congrArg String.toList same
    rw [String.toList_append, String.toList_append] at characters
    rcases List.append_eq_append_iff.mp characters with ⟨d, first, second⟩ | ⟨d, first, second⟩
    · refine ⟨String.ofList d, Or.inl ⟨?_, ?_⟩⟩ <;> apply String.ext <;> simpa
    · refine ⟨String.ofList d, Or.inr ⟨?_, ?_⟩⟩ <;> apply String.ext <;> simpa
  · rintro ⟨d, ⟨rfl, rfl⟩ | ⟨rfl, rfl⟩⟩
    · rw [String.append_assoc]
    · rw [String.append_assoc]

/-! ## Drawn ids and keys -/

/-- The transactional id is the number `n` of the sequence after the prefix `a`: that of the queue, or
the configured one for a producer of a thread. -/
inductive Producer.Drawn (config : Config) (x : Producer) (a : String) (n : Nat) : Prop
  | pooled (id : x.transactionalId = some (a ++ toString n)) (placed : x.placement = .pooled a)
  | bound (id : x.transactionalId = some (a ++ toString n)) (t : ThreadId)
      (placed : x.placement = .thread t) (configured : config.idPrefix = some a)

/-- The transactional id is the key of the queue. -/
def Producer.Keyed (x : Producer) (key : String) : Prop :=
  x.transactionalId = some key ∧ x.placement = .pooled key

namespace Producer.Drawn

theorem id (drawn : x.Drawn config a n) : x.transactionalId = some (a ++ toString n) := by
  cases drawn with
  | pooled id => exact id
  | bound id => exact id

/-- A producer tells its prefix and its number. -/
theorem unique (first : x.Drawn config a n) (second : x.Drawn config b m) : a = b ∧ n = m := by
  have same : a = b := by
    cases first with
    | pooled _ placed =>
      cases second with
      | pooled _ placed' => exact Placement.pooled.inj (placed.symm.trans placed')
      | bound _ t placed' => cases placed.symm.trans placed'
    | bound _ t placed configured =>
      cases second with
      | pooled _ placed' => cases placed.symm.trans placed'
      | bound _ u placed' configured' => exact Option.some.inj (configured.symm.trans configured')
  refine ⟨same, numberText_injective ?_⟩
  have texts := Option.some.inj (first.id.symm.trans second.id)
  rw [same] at texts
  exact (String.append_right_inj b).mp texts

theorem not_keyed (drawn : x.Drawn config a n) : ¬x.Keyed key := by
  rintro ⟨id, placed⟩
  cases drawn with
  | pooled id' placed' =>
    obtain rfl : a = key := Placement.pooled.inj (placed'.symm.trans placed)
    have texts := Option.some.inj (id'.symm.trans id)
    exact numberText_ne_empty ((String.append_right_inj a).mp (texts.trans String.append_empty.symm))
  | bound id' t placed' => cases placed'.symm.trans placed

/-- Only the id and the placement count. -/
theorem congr (drawn : x.Drawn config a n) (id : y.transactionalId = x.transactionalId)
    (placed : y.placement = x.placement) : y.Drawn config a n := by
  cases drawn with
  | pooled id' placed' => exact .pooled (id.trans id') (placed.trans placed')
  | bound id' t placed' configured => exact .bound (id.trans id') t (placed.trans placed') configured

theorem later (drawn : x.Drawn config a n) (later : x.Later y) : y.Drawn config a n :=
  drawn.congr later.transactionalId later.placement

theorem of_later (later : x.Later y) (drawn : y.Drawn config a n) : x.Drawn config a n :=
  drawn.congr later.transactionalId.symm later.placement.symm

end Producer.Drawn

namespace Factory.Names

/-- A new name is the next one of the sequence, which moves on, or the key of a queue. -/
theorem origin {placement : Placement} {transactionalId : Option String}
    (names : f.Names placement transactionalId n) (configured : f.config = config)
    (id : x.transactionalId = transactionalId) (placed : x.placement = placement) :
    x.transactionalId = none ∨ (∃ a, x.Drawn config a f.sequence ∧ n = f.sequence + 1) ∨
      ∃ key, x.Keyed key := by
  cases names with
  | shared => exact Or.inl id
  | bound => exact Or.inl id
  | boundDrawn t idPrefix drawn =>
    rw [configured] at drawn
    exact Or.inr (Or.inl ⟨idPrefix, .bound id t placed drawn, rfl⟩)
  | keyed key => exact Or.inr (Or.inr ⟨key, id, placed⟩)
  | drawn idPrefix => exact Or.inr (Or.inl ⟨idPrefix, .pooled id placed, rfl⟩)

end Factory.Names

/-! ## Names in a pool -/

structure Pool.Named (config : Config) (p : Pool σ Snapshot) : Prop where
  configured : p.factory.config = config
  /-- Every id has been drawn before, or it is a key. -/
  origin : ∀ r < p.producers.length, ∀ id, (p.get r).transactionalId = some id →
    (∃ a n, (p.get r).Drawn config a n ∧ n < p.factory.sequence) ∨ (p.get r).Keyed id
  /-- No number is drawn twice. -/
  distinct : ∀ r s a b n m, r < s → s < p.producers.length →
    (p.get r).owned = true → (p.get s).owned = true →
      (p.get r).Drawn config a n → (p.get s).Drawn config b m → n ≠ m
  /-- Only closed copies are not accounted for. -/
  owned : ∀ r < p.producers.length, (p.get r).phase ≠ .disposed → (p.get r).owned = true

namespace Pool.Named

theorem new (config : Config) (outside : σ) :
    (Pool.new config outside : Pool σ Snapshot).Named config where
  configured := rfl
  origin _ inside := by cases inside
  distinct _ _ _ _ _ _ _ inside := by cases inside
  owned _ inside := by cases inside

theorem number_lt (named : p.Named config) {r : Ref} (inside : r < p.producers.length)
    (drawn : (p.get r).Drawn config a n) : n < p.factory.sequence := by
  rcases named.origin r inside _ drawn.id with ⟨b, m, drawn', before⟩ | keyed
  · rw [(drawn.unique drawn').2]
    exact before
  · exact absurd keyed drawn.not_keyed

theorem step (named : p.Named config) (step : Step p q) : q.Named config := by
  have later := Later.of_step step
  refine ⟨later.config.trans named.configured, ?_, ?_, ?_⟩
  · -- A producer that is not new, or the copy of one, has its origin from before.
    have old {s : Ref} (before : s < p.producers.length) {y : Producer}
        (same : y.transactionalId = (p.get s).transactionalId)
        (placed : y.placement = (p.get s).placement) (id : String) (has : y.transactionalId = some id) :
        (∃ a n, y.Drawn config a n ∧ n < q.factory.sequence) ∨ y.Keyed id := by
      rcases named.origin s before id (same.symm.trans has) with ⟨a, n, drawn, bound⟩ | keyed
      · exact Or.inl ⟨a, n, drawn.congr same placed, Nat.lt_of_lt_of_le bound later.sequence⟩
      · exact Or.inr ⟨has, placed.trans keyed.2⟩
    intro r inside id has
    rcases Nat.lt_or_ge r p.producers.length with before | new
    · have change := later.get before
      exact old before change.transactionalId change.placement id has
    · obtain ⟨-, ⟨_, _, _, names, _, built⟩ | ⟨s, ⟨known, -⟩, copy⟩⟩ := step.newcomer new inside
      · rcases names.origin named.configured (congrArg Producer.transactionalId built)
          (congrArg Producer.placement built) with none | ⟨a, drawn, moved⟩ | ⟨key, keyed⟩
        · cases none.symm.trans has
        · exact Or.inl ⟨a, _, drawn, by omega⟩
        · obtain rfl : key = id := Option.some.inj (keyed.1.symm.trans has)
          exact Or.inr keyed
      · exact old known (by rw [copy]; rfl) (by rw [copy]; rfl) id has
  · intro r s a b n m before inside owned owned' drawn drawn'
    rcases Nat.lt_or_ge s p.producers.length with old | new
    · have old' : r < p.producers.length := Nat.lt_trans before old
      have change := later.get old
      have change' := later.get old'
      rw [change'.owned] at owned
      rw [change.owned] at owned'
      exact named.distinct r s a b n m before old owned owned' (drawn.of_later change')
        (drawn'.of_later change)
    · obtain ⟨last, ⟨_, _, _, names, _, built⟩ | ⟨t, ⟨known, -⟩, copy⟩⟩ := step.newcomer new inside
      · have old' : r < p.producers.length := last ▸ before
        have bound := named.number_lt old' (drawn.of_later (later.get old'))
        rcases names.origin named.configured (congrArg Producer.transactionalId built)
          (congrArg Producer.placement built) with none | ⟨c, fresh, -⟩ | ⟨key, keyed⟩
        · cases none.symm.trans drawn'.id
        · rw [(drawn'.unique fresh).2]
          exact Nat.ne_of_lt bound
        · exact absurd keyed drawn'.not_keyed
      · rw [copy] at owned'
        cases owned'
  · intro r inside undisposed
    rcases Nat.lt_or_ge r p.producers.length with before | new
    · have change := later.get before
      rw [change.owned]
      exact named.owned r before fun disposed => undisposed (change.disposed disposed)
    · obtain ⟨-, ⟨_, _, _, _, _, built⟩ | ⟨s, ⟨known, -⟩, copy⟩⟩ := step.newcomer new inside
      · rw [built]
      · exact absurd (congrArg Producer.phase copy) undisposed

theorem path (named : p.Named config) (path : Path p q) : q.Named config :=
  Path.preserves (fun _ _ named step => named.step step) path named

/-- No number is drawn twice by producers that are not closed. -/
theorem numbers_differ (named : p.Named config) {r s : Ref} (different : r ≠ s)
    (undisposed : (p.get r).phase ≠ .disposed) (undisposed' : (p.get s).phase ≠ .disposed)
    (drawn : (p.get r).Drawn config a n) (drawn' : (p.get s).Drawn config b m) : n ≠ m := by
  have inside := Pool.lt_of_phase undisposed
  have inside' := Pool.lt_of_phase undisposed'
  have owned := named.owned r inside undisposed
  have owned' := named.owned s inside' undisposed'
  rcases Nat.lt_or_gt_of_ne different with before | after
  · exact named.distinct r s a b n m before inside' owned owned' drawn drawn'
  · exact (named.distinct s r b a m n after inside owned' owned drawn' drawn).symm

end Pool.Named

theorem Pool.Named.of_visited (visited : Visited config p) : p.Named config := by
  obtain ⟨outside, path⟩ := visited.path
  exact (Pool.Named.new config outside).path path

/-! ## Ids that collide -/

/-- One of two drawn ids makes up for its shorter number by a prefix that ends in digits. -/
def Overlap (a : String) (n : Nat) (b : String) (m : Nat) : Prop :=
  ∃ d, d ≠ "" ∧
    (b = a ++ d ∧ toString n = d ++ toString m ∨ a = b ++ d ∧ toString m = d ++ toString n)

theorem overlap_iff (different : n ≠ m) : Overlap a n b m ↔ a ++ toString n = b ++ toString m := by
  constructor
  · rintro ⟨d, -, found⟩
    exact text_append_eq_append.mpr ⟨d, found⟩
  · intro same
    obtain ⟨d, found⟩ := text_append_eq_append.mp same
    refine ⟨d, ?_, found⟩
    rintro rfl
    rcases found with ⟨-, numbers⟩ | ⟨-, numbers⟩
    · exact different (numberText_injective (numbers.trans String.empty_append))
    · exact different (numberText_injective (numbers.trans String.empty_append)).symm

theorem transactionalIds_collide_iff (visited : Visited config p) :
    (∀ r, (p.get r).phase ≠ .disposed → ∀ id, (p.get r).transactionalId = some id →
      (∃ a n, (p.get r).Drawn config a n) ∨ (p.get r).Keyed id) ∧
    ∀ r s a n, r ≠ s → (p.get r).phase ≠ .disposed → (p.get s).phase ≠ .disposed →
      (p.get r).Drawn config a n →
        ((p.get s).transactionalId = (p.get r).transactionalId ↔
          (p.get s).Keyed (a ++ toString n) ∨
            ∃ b m, (p.get s).Drawn config b m ∧ n ≠ m ∧ Overlap a n b m) := by
  have named := Pool.Named.of_visited visited
  refine ⟨fun r undisposed id has => ?_, fun r s a n different undisposed undisposed' drawn => ?_⟩
  · refine (named.origin r (Pool.lt_of_phase undisposed) id has).imp_left ?_
    rintro ⟨a, n, drawn, -⟩
    exact ⟨a, n, drawn⟩
  rw [drawn.id]
  constructor
  · intro same
    rcases named.origin s (Pool.lt_of_phase undisposed') _ same with ⟨b, m, drawn', -⟩ | keyed
    · have apart := named.numbers_differ different undisposed undisposed' drawn drawn'
      have texts := Option.some.inj (same.symm.trans drawn'.id)
      exact Or.inr ⟨b, m, drawn', apart, (overlap_iff apart).mpr texts⟩
    · exact Or.inl keyed
  · rintro (keyed | ⟨b, m, drawn', apart, overlap⟩)
    · exact keyed.1
    · rw [drawn'.id, (overlap_iff apart).mp overlap]

/-- A key that looks like a drawn id: the suffix is the number that the sequence begins with. -/
theorem transactionalIds_collide_iff_of_suffix :
    let config : Config := { idPrefix := some "a", perPartition := true }
    let p := (Pool.new config ()).look.perform .quiet [.createFor { idSuffix := some "0" }, .create 0]
    Visited config p ∧ (p.get 1).Drawn config "a" 0 ∧
      ((p.get 0).Keyed ("a" ++ toString 0) ∨
        ∃ b m, (p.get 0).Drawn config b m ∧ 0 ≠ m ∧ Overlap "a" 0 b m) := by
  intro config p
  have reached := (Reached.start config ()).perform Environment.quiet_lawful
    [.createFor { idSuffix := some "0" }, .create 0] (by decide +kernel)
  have drawn : (p.get 1).Drawn config "a" 0 := .pooled (by decide +kernel) (by decide +kernel)
  have collide := (transactionalIds_collide_iff reached.visited).2 1 0 "a" 0 (by decide)
    (by decide +kernel) (by decide +kernel) drawn
  exact ⟨reached.visited, drawn, collide.mp (by decide +kernel)⟩

/-- Eleven producers whose ids are all drawn: the number 0 after "a1" and the number 10 after "a" make
the same id. -/
theorem drawn_ids_collide :
    let p := (Pool.new {} ()).look.perform .quiet
      (.createFor { idPrefix := some "a1" } ::
        List.replicate 10 (.createFor { idPrefix := some "a" }))
    Visited {} p ∧ (p.get 0).phase ≠ .disposed ∧ (p.get 10).phase ≠ .disposed ∧
      (p.get 0).Drawn {} "a1" 0 ∧ (p.get 10).Drawn {} "a" 10 ∧
        (p.get 10).transactionalId = (p.get 0).transactionalId := by
  intro p
  have reached := (Reached.start {} ()).perform Environment.quiet_lawful
    (.createFor { idPrefix := some "a1" } ::
      List.replicate 10 (.createFor { idPrefix := some "a" })) (by decide +kernel)
  refine ⟨reached.visited, by decide +kernel, by decide +kernel, ?_, ?_, by decide +kernel⟩
  · exact .pooled (by decide +kernel) (by decide +kernel)
  · exact .pooled (by decide +kernel) (by decide +kernel)

end ProducerPool
