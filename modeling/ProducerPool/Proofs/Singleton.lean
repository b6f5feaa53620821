import ProducerPool.Proofs.Carried
import ProducerPool.Proofs.Invariant.Code

/-!
# The shared producer

A factory that shares one producer among all callers builds a new one only when the old one cannot be used,
and closes that as soon as the new one has taken its place.  So where code of callers runs, no shared
producer is open but the one that the factory keeps, and whoever still holds a handle to an older one can
do nothing with it: its close does not even look at the place of the new one.
-/

set_option autoImplicit false

namespace ProducerPool

variable {σ : Type} {E : Environment σ Snapshot} {p q m : Pool σ Snapshot} {h s : Handle} {r : Ref}
  {config : Config}

/-! ## Wherever code of callers runs -/

/-- No shared producer is stray, as an invariant. -/
def soleInvariant : Invariant σ where
  holds _ p := p.Regular ∧ ∀ r, ¬p.Stray r
  parks _ := True
  binds _ _ := True
  regular holds := holds.1
  own _ _ := trivial
  move holds motion :=
    ⟨holds.1.path motion.path, fun r stray => holds.2 r (motion.settled r stray)⟩

theorem Visited.not_stray (visited : Visited config p) (r : Ref) : ¬p.Stray r := by
  have first (outside : σ) : soleInvariant.holds [] (Pool.new config outside) :=
    ⟨.new config outside, fun r stray => absurd stray.sharing.inside (Nat.not_lt_zero r)⟩
  obtain ⟨due, -, settled⟩ := visited.holds (fun _ => trivial) (fun _ _ => trivial) first
  exact fun stray => settled r ⟨stray.alive, stray.sharing, stray.other⟩

theorem Pool.Sharing.kept (sharing : p.Sharing r) (alive : p.alive = true) (settled : ¬p.Stray r) :
    ∃ h, p.factory.shared = some h ∧ h.producer = r := by
  refine Classical.byContradiction fun none => settled ⟨alive, sharing, fun h found same => ?_⟩
  exact none ⟨h, found, same⟩

/-! ## Closes that leave the shared producer alone -/

/-- If the factory still exists, it has existed all along and keeps the same shared producer. -/
def Pool.KeepsShared (p q : Pool σ Snapshot) : Prop :=
  q.alive = true → p.alive = true ∧ q.factory.shared = p.factory.shared

/-- Listeners that are told of a removal leave the shared producer in its place. -/
def Environment.SparesShared (E : Environment σ Snapshot) : Prop :=
  ∀ listener notice (p : Pool σ Snapshot), notice.kind = .removed →
    p.KeepsShared (E.listen listener notice p).1

namespace Pool

namespace KeepsShared

theorem refl (p : Pool σ Snapshot) : p.KeepsShared p := fun alive => ⟨alive, rfl⟩

theorem trans (first : p.KeepsShared m) (second : m.KeepsShared q) : p.KeepsShared q := by
  intro alive
  obtain ⟨before, same⟩ := second alive
  exact (first before).imp_right same.trans

theorem of_eq (alive : q.alive = p.alive) (shared : q.factory.shared = p.factory.shared) :
    p.KeepsShared q := fun lives => ⟨alive ▸ lives, shared⟩

theorem leave (E : Environment σ Snapshot) (p : Pool σ Snapshot) :
    p.KeepsShared (teardownIfUnowned E { p with running := p.running - 1 }) := by
  intro alive
  rcases teardownIfUnowned_cases E { p with running := p.running - 1 } with ⟨kept, same⟩ | ⟨gone, -⟩
  · rw [same]
    refine ⟨?_, rfl⟩
    simp only [Pool.alive, decide_eq_true_eq] at kept ⊢
    omega
  · cases gone.symm.trans alive

theorem carries (spares : E.SparesShared) : E.Carries (KeepsShared (σ := σ)) where
  refl := refl
  trans := trans
  note _ _ := refl _
  hears := spares
  still _ _ _ alive factory := .of_eq alive (by rw [factory])
  leave := leave E

end KeepsShared

theorem takeBack_keepsShared (spares : E.SparesShared) (timeout : Duration)
    (other : ∀ s, p.factory.shared = some s → s.producer ≠ h.producer) :
    p.KeepsShared (p.takeBack E h timeout) := by
  unfold takeBack
  dsimp only
  split
  case isTrue => exact .refl p
  case isFalse opened =>
  split
  case isTrue healthy =>
    split
    · rw [shelve_healthy _ timeout (Classical.not_not.mp opened) healthy]
      exact .of_eq rfl rfl
    · exact .refl p
    · exact .of_eq rfl rfl
  case isFalse =>
    split
    case h_1 => exact (KeepsShared.carries spares).retire h timeout p
    case h_2 =>
      -- The place is given up only if it is that of the producer itself.
      have kept : (p.unshare h.producer).factory.shared = p.factory.shared := by
        show p.factory.shared.filter (fun s => s.producer ≠ h.producer) = p.factory.shared
        cases found : p.factory.shared with
        | none => rfl
        | some s => simpa using other s found
      have vacated : p.KeepsShared (p.unshare h.producer) := .of_eq rfl kept
      exact vacated.trans ((KeepsShared.carries spares).retire h timeout _)
    case h_3 t _ =>
      have vacated : p.KeepsShared (p.unbind t h.producer) := .of_eq rfl rfl
      exact vacated.trans ((KeepsShared.carries spares).retire h timeout _)

theorem close_keepsShared (spares : E.SparesShared) (timeout : Option Duration)
    (other : ∀ s, p.factory.shared = some s → s.producer ≠ h.producer) :
    p.KeepsShared (p.close E h timeout) :=
  (KeepsShared.carries spares).close timeout fun timeout => takeBack_keepsShared spares timeout other

/-- The close of a handle whose producer is closed does nothing. -/
theorem close_of_disposed (E : Environment σ Snapshot) (timeout : Option Duration)
    (disposed : (p.get h.producer).phase = .disposed) : p.close E h timeout = p := by
  have kept : p.isLost h.producer = false := by simp [isLost, disposed]
  have same (m : Pool σ Snapshot) (producers : m.producers = p.producers) :
      (m.get h.producer).phase = .disposed := by rwa [get, producers]
  unfold close
  split
  case isTrue => rfl
  case isFalse =>
  split
  case isTrue accounted =>
    have alive := (Bool.and_eq_true_iff.mp accounted).2
    have taken (timeout : Duration) : takeBack E h timeout
        { p.pin h with running := (p.pin h).running + 1 } =
          { p.pin h with running := (p.pin h).running + 1 } := by
      have spent := same { p.pin h with running := (p.pin h).running + 1 } rfl
      unfold takeBack
      rw [if_pos (by simp [spent])]
    have left : (p.pin h).withinFactory E
        (takeBack E h (timeout.getD (p.pin h).factory.config.closeTimeout)) = p.pin h := by
      simp only [withinFactory, withFactory, taken, teardownIfUnowned]
      exact if_pos alive
    have back : ({ p.pin h with pinned := (p.pin h).pinned.erase h } : Pool σ Snapshot) = p := by
      rw [pin, List.erase_cons_head]
    simp only [withHandle, left, unpin, settle, back, kept, Bool.false_eq_true, if_false]
  case isFalse =>
    unfold shutHandle
    rw [if_pos disposed]

end Pool

/-! ## The shared producer of a run -/

theorem shared_sole (visited : Visited config p) (alive : p.alive = true) :
    (∀ r, p.Sharing r → ∃ h, p.factory.shared = some h ∧ h.producer = r) ∧
      (∀ r s, p.Sharing r → p.Sharing s → r = s) ∧
      (∀ (E : Environment σ Snapshot) (h : Handle) (timeout : Option Duration),
        (p.get h.producer).placement = .shared →
        (∀ s, p.factory.shared = some s → s.producer ≠ h.producer) → p.close E h timeout = p) ∧
      ∀ (E : Environment σ Snapshot) (h : Handle) (timeout : Option Duration), E.SparesShared →
        (∀ s, p.factory.shared = some s → s.producer ≠ h.producer) →
          (p.close E h timeout).alive = true →
            (p.close E h timeout).factory.shared = p.factory.shared := by
  have kept (r : Ref) (sharing : p.Sharing r) :=
    sharing.kept alive (visited.not_stray r)
  refine ⟨kept, fun r s sharing sharing' => ?_, fun E h timeout placed other => ?_,
    fun E h timeout spares other lives => (Pool.close_keepsShared spares timeout other lives).2⟩
  · obtain ⟨h, found, rfl⟩ := kept r sharing
    obtain ⟨x, found', rfl⟩ := kept s sharing'
    rw [found] at found'
    exact congrArg Handle.producer (Option.some.inj found')
  · refine Pool.close_of_disposed E timeout (Classical.byContradiction fun undisposed => ?_)
    obtain ⟨s, found, same⟩ := kept h.producer ⟨undisposed, placed⟩
    exact other s found same

/-- A reset closes the shared producer, and the next request builds another one; a clone of the first is
still in callers' hands. -/
theorem shared_sole_after_reset :
    let p := (Pool.new {} ()).look.perform .quiet [.create 0, .reset, .create 0]
    Visited {} p ∧ ⟨0, 0⟩ ∈ p.held ∧ p.factory.shared = some ⟨1, 0⟩ ∧ p.Sharing 1 ∧
      (∀ r, p.Sharing r → r = 1) ∧ ∀ timeout, p.close .quiet ⟨0, 0⟩ timeout = p := by
  intro p
  have kept : p.factory.shared = some ⟨1, 0⟩ := by decide +kernel
  have visited : Visited {} p := ((Reached.start {} ()).perform Environment.quiet_lawful
    [.create 0, .reset, .create 0] (by decide +kernel)).visited
  have sharing : p.Sharing 1 := by constructor <;> decide +kernel
  obtain ⟨-, sole, spent, -⟩ := shared_sole visited (by decide +kernel)
  refine ⟨visited, by decide +kernel, kept, sharing, fun r other => sole r 1 other sharing,
    fun timeout => spent .quiet ⟨0, 0⟩ timeout (by decide +kernel) fun s found => ?_⟩
  obtain rfl : ⟨1, 0⟩ = s := Option.some.inj (kept.symm.trans found)
  decide

end ProducerPool
