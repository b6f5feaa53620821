import ProducerPool.Proofs.Course.Code
import ProducerPool.Proofs.Numbers
import ProducerPool.Proofs.Transactions

/-!
# The first mishap counts

A producer becomes unusable by a mishap: a raw call through it is answered with an error that spoils, or a
delivery of it ends in a fatal error.  The failure that is kept with the producer is its first mishap since
it was built, in the order in which they are written down, and nothing replaces it or takes it away.

A delivery may come after the last handle to its producer has gone.  Then there is no producer to be made
unusable, and no handle is left that could tell.
-/

set_option autoImplicit false

namespace ProducerPool

variable {σ μ : Type} {p q m : Pool σ Snapshot} {r s : Ref} {conn : Option Nat}

/-! ## Mishaps -/

/-- The error of an event that makes the producer `r` unusable; `conn` is its connection, if it has one. -/
def Event.mishap? (conn : Option Nat) (r : Ref) : Event μ → Option ClientError
  | .replied other operation reply => if conn = some other then operation.mishap? reply else none
  | .delivering d (.error error) => if d.producer = r && error.isFatal then some error else none
  | _ => none

/-- The lease under which a producer is built. -/
def Event.opens (r : Ref) : Event μ → Bool
  | .leased h => h = ⟨r, 0⟩
  | _ => false

/-- The mishaps of a producer since it was built, the first one first; of the events the latest comes
first. -/
def mishaps (conn : Option Nat) (r : Ref) : List (Event μ) → List ClientError
  | [] => []
  | e :: earlier => if e.opens r then [] else mishaps conn r earlier ++ (e.mishap? conn r).toList

/-- What has been written down about a producer of the factory. -/
def Pool.mishaps (p : Pool σ Snapshot) (r : Ref) : List ClientError :=
  ProducerPool.mishaps (some (p.get r).conn) r p.journal

theorem mishaps_cons (conn : Option Nat) (r : Ref) {e : Event μ} (unopened : e.opens r = false)
    (earlier : List (Event μ)) :
    mishaps conn r (e :: earlier) = mishaps conn r earlier ++ (e.mishap? conn r).toList := by
  simp [mishaps, unopened]

/-- An event that is no mishap. -/
theorem mishaps_idle (conn : Option Nat) (r : Ref) {e : Event μ} (unopened : e.opens r = false)
    (harmless : e.mishap? conn r = none) (earlier : List (Event μ)) :
    mishaps conn r (e :: earlier) = mishaps conn r earlier := by
  rw [mishaps_cons conn r unopened, harmless, Option.toList_none, List.append_nil]

theorem Event.idle_of_not_matters {e : Event μ} (idle : e.matters = false) (conn : Option Nat) (r : Ref) :
    e.opens r = false ∧ e.mishap? conn r = none := by
  cases e with
  | leased h =>
    refine ⟨?_, rfl⟩
    simp only [matters, decide_eq_false_iff_not] at idle
    simp only [opens, decide_eq_false_iff_not]
    rintro rfl
    exact idle rfl
  | replied other operation reply =>
    refine ⟨rfl, ?_⟩
    have none : operation.mishap? reply = none := by simpa [matters] using idle
    simp [mishap?, none]
  | delivering => cases idle
  | _ => exact ⟨rfl, rfl⟩

/-- Only events that matter are mishaps. -/
theorem mishaps_filter (conn : Option Nat) (r : Ref) (events : List (Event μ)) :
    mishaps conn r (events.filter Event.matters) = mishaps conn r events := by
  induction events with
  | nil => rfl
  | cons e earlier ih =>
    cases matters : e.matters with
    | true =>
      rw [List.filter_cons_of_pos matters]
      simp only [mishaps, ih]
    | false =>
      obtain ⟨unopened, harmless⟩ := Event.idle_of_not_matters matters conn r
      rw [List.filter_cons_of_neg (by simp [matters]), ih, mishaps_idle conn r unopened harmless]

/-! ## What is kept with producers -/

/-- The connection through which calls of a producer go; a copy that listeners are shown has none. -/
def Producer.line (x : Producer) : Option Nat := if x.owned then some x.conn else none

namespace Essence

variable {x y : Essence} {gone gone' : Nat → Ref → Prop} {e : Event Snapshot}

/-- Each producer of the factory has a connection of its own, and its failure is its first mishap.  The
failure of a copy is the first mishap of the original until it was copied, or of the copy from then on.

This need not be so of producers that are gone; `gone n r` says that `r` was gone when there were at most
`n` producers. -/
structure Blamed (gone : Nat → Ref → Prop) (x : Essence) : Prop where
  below : ∀ r, (x.get r).owned = true → (x.get r).conn < x.connections
  distinct : ∀ r s, (x.get r).owned = true → (x.get s).owned = true → (x.get r).conn = (x.get s).conn →
    r = s
  first : ∀ r, (x.get r).owned = true →
    (x.get r).failure = (mishaps (some (x.get r).conn) r x.events).head? ∨ gone x.producers.length r
  copied : ∀ r < x.producers.length, (x.get r).owned = false →
    ∃ s, (x.get s).owned = true ∧ (x.get s).id = (x.get r).id ∧
      ∃ since early, x.events = since ++ early ∧
        ((x.get r).failure = (mishaps (some (x.get s).conn) s early ++ mishaps none r since).head? ∨
          gone r s ∨ gone x.producers.length r)

/-- Whatever is gone in one sense is gone in the other. -/
def Wider (gone gone' : Nat → Ref → Prop) : Prop := ∀ n n' r, n ≤ n' → gone n r → gone' n' r

namespace Blamed

theorem mono (blamed : x.Blamed gone) (wider : Wider gone gone') : x.Blamed gone' where
  below := blamed.below
  distinct := blamed.distinct
  first r there := (blamed.first r there).imp_right (wider _ _ r (Nat.le_refl _))
  copied r inside unowned := by
    obtain ⟨s, there, same, since, early, split, told⟩ := blamed.copied r inside unowned
    have lost := Or.imp (wider r r s (Nat.le_refl _)) (wider _ _ r (Nat.le_refl x.producers.length))
    exact ⟨s, there, same, since, early, split, told.imp_right lost⟩

/-- One event is noted.  It has spoiled the producers whose mishap it is, as far as they are there, and
nothing else about producers has changed. -/
theorem note (blamed : x.Blamed gone) (wider : Wider gone gone')
    (connections : x.connections ≤ y.connections) (length : y.producers.length = x.producers.length)
    (identity : ∀ r, y.get r = { x.get r with failure := (y.get r).failure })
    (events : y.events = e :: x.events) (unopened : ∀ r < x.producers.length, e.opens r = false)
    (failure : ∀ r < x.producers.length, (y.get r).failure =
      (x.get r).failure.or (e.mishap? (x.get r).line r) ∨ gone' x.producers.length r) :
    y.Blamed gone' := by
  have owned (r : Ref) : (y.get r).owned = (x.get r).owned := by rw [identity]
  have conn (r : Ref) : (y.get r).conn = (x.get r).conn := by rw [identity]
  have id (r : Ref) : (y.get r).id = (x.get r).id := by rw [identity]
  -- What the event adds to the mishaps is what it adds to the failure, if there was none.
  have onward {r : Ref} {events : List (Event Snapshot)} (before : List ClientError)
      (inside : r < x.producers.length)
      (told : (x.get r).failure = (before ++ mishaps (x.get r).line r events).head?) :
      (y.get r).failure = (before ++ mishaps (x.get r).line r (e :: events)).head? ∨
        gone' x.producers.length r := by
    refine (failure r inside).imp_left fun grown => ?_
    rw [grown, told, mishaps_cons _ r (unopened r inside), ← List.append_assoc]
    simp only [List.head?_append, Option.head?_toList]
  have lost (r : Ref) := wider _ _ r (Nat.le_refl x.producers.length)
  refine ⟨fun r there => ?_, fun r s there there' same => ?_, fun r there => ?_, fun r inside unowned => ?_⟩
  · rw [conn]
    exact Nat.lt_of_lt_of_le (blamed.below r (owned r ▸ there)) connections
  · rw [conn, conn] at same
    exact blamed.distinct r s (owned r ▸ there) (owned s ▸ there') same
  · rw [owned] at there
    have line : (x.get r).line = some (x.get r).conn := if_pos there
    rw [conn, events, length, ← line]
    rcases blamed.first r there with told | gone
    · exact onward [] (lt_of_owned there) (line ▸ told)
    · exact Or.inr (lost r gone)
  · rw [length] at inside
    rw [owned] at unowned
    obtain ⟨s, there, same, since, early, split, told⟩ := blamed.copied r inside unowned
    have line : (x.get r).line = none := if_neg (by simp [unowned])
    refine ⟨s, by rw [owned]; exact there, by rw [id, id]; exact same, e :: since, early,
      by rw [events, split, List.cons_append], ?_⟩
    rw [conn, length, ← line]
    rcases told with told | gone
    · exact (onward _ inside (line ▸ told)).imp_right Or.inr
    · exact Or.inr (gone.imp (wider r r s (Nat.le_refl r)) (lost r))

/-- A producer is added: a new one with a connection of its own, or the copy of one. -/
theorem add (blamed : x.Blamed gone) (wider : Wider gone gone') (z : Producer)
    (new : z.owned = true → z.conn < x.connections ∧
      (∀ r, (x.get r).owned = true → (x.get r).conn ≠ z.conn) ∧
        z.failure = (mishaps (some z.conn) x.producers.length x.events).head?)
    (copy : z.owned = false → ∃ s, (x.get s).owned = true ∧ (x.get s).id = z.id ∧
      (x.get s).failure = z.failure) :
    Blamed gone' { x with producers := x.producers ++ [z] } := by
  have get (r : Ref) := get_append (y := { x with producers := x.producers ++ [z] }) rfl r
  have other {r : Ref} (there : (x.get r).owned = true) : r ≠ x.producers.length :=
    Nat.ne_of_lt (lt_of_owned there)
  have lost (r : Ref) : gone x.producers.length r → gone' (x.producers ++ [z]).length r :=
    wider _ _ r (by simp)
  refine ⟨fun r there => ?_, fun r s there there' same => ?_, fun r there => ?_, fun r inside unowned => ?_⟩
  · rw [get] at there ⊢
    split at there
    · rename_i last
      rw [if_pos last]
      exact (new there).1
    · rename_i old
      rw [if_neg old]
      exact blamed.below r there
  · rw [get] at there same
    rw [get] at there' same
    by_cases last : r = x.producers.length <;> by_cases last' : s = x.producers.length
    · rw [last, last']
    · rw [if_pos last] at there same
      rw [if_neg last'] at there' same
      exact absurd same.symm ((new there).2.1 s there')
    · rw [if_neg last] at there same
      rw [if_pos last'] at there' same
      exact absurd same ((new there').2.1 r there)
    · rw [if_neg last] at there same
      rw [if_neg last'] at there' same
      exact blamed.distinct r s there there' same
  · rw [get] at there ⊢
    split at there
    · rename_i last
      rw [if_pos last, last]
      exact Or.inl (new there).2.2
    · rename_i old
      rw [if_neg old]
      exact (blamed.first r there).imp_right (lost r)
  · rw [get] at unowned ⊢
    split at unowned
    · rename_i last
      obtain ⟨s, there, same, failure⟩ := copy unowned
      refine ⟨s, ?_, ?_, [], x.events, rfl, ?_⟩
      · rw [get, if_neg (other there)]
        exact there
      · rw [get, if_neg (other there), if_pos last]
        exact same
      · rw [get, if_neg (other there), if_pos last, ← failure, mishaps, List.append_nil, last]
        exact (blamed.first s there).imp_right fun gone => Or.inl (wider _ _ s (Nat.le_refl _) gone)
    · rename_i old
      have before : r < x.producers.length := by
        refine Nat.lt_of_le_of_ne (Nat.le_of_lt_succ ?_) old
        simpa using inside
      obtain ⟨s, there, same, since, early, split, told⟩ := blamed.copied r before unowned
      refine ⟨s, ?_, ?_, since, early, split, ?_⟩
      · rw [get, if_neg (other there)]
        exact there
      · rw [get, if_neg (other there), if_neg old]
        exact same
      · rw [get, if_neg (other there), if_neg old]
        exact told.imp_right (Or.imp (wider r r s (Nat.le_refl r)) (lost r))

/-! ### Turns -/

/-- An event is noted that is nobody's mishap. -/
theorem idle (blamed : x.Blamed gone) (wider : Wider gone gone')
    (connections : x.connections ≤ y.connections) (producers : y.producers = x.producers)
    (events : y.events = e :: x.events) (unopened : ∀ r < x.producers.length, e.opens r = false)
    (harmless : ∀ conn r, e.mishap? conn r = none) : y.Blamed gone' := by
  have same (r : Ref) : y.get r = x.get r := by rw [get, producers, get]
  refine blamed.note wider connections (by rw [producers]) (fun r => by rw [same]) events unopened
    fun r _ => Or.inl ?_
  rw [same, harmless, Option.or_none]

theorem requested (blamed : x.Blamed gone) (wider : Wider gone gone) (request : Request) :
    (x.requested request).Blamed gone := by
  obtain ⟨_, _, _, requested⟩ := x.requested_eq request
  rw [requested]
  exact blamed.idle wider (Nat.le_refl _) rfl rfl (fun _ _ => rfl) fun _ _ => rfl

theorem attempted (blamed : x.Blamed gone) (wider : Wider gone gone) (placement : Placement)
    (transactionalId : Option String) : (x.attempted placement transactionalId).Blamed gone :=
  blamed.idle wider (Nat.le_succ _) rfl rfl (fun _ _ => rfl) fun _ _ => rfl

theorem built (blamed : x.Blamed gone) (wider : Wider gone gone) (placement : Placement)
    (transactionalId clientId : Option String) :
    (x.built placement transactionalId clientId).Blamed gone := by
  have leased : ((x.attempted placement transactionalId).note
      (.leased ⟨x.producers.length, 0⟩)).Blamed gone := by
    refine (blamed.attempted wider placement transactionalId).idle wider (Nat.le_refl _) rfl rfl
      (fun r inside => ?_) fun _ _ => rfl
    have other : (⟨x.producers.length, 0⟩ : Handle) ≠ ⟨r, 0⟩ := by
      rintro same
      exact Nat.ne_of_lt inside (congrArg Handle.producer same).symm
    exact decide_eq_false other
  refine leased.add wider _ (fun _ => ⟨Nat.lt_succ_self _, fun r there => ?_, ?_⟩) fun unowned => by
    cases unowned
  · exact Nat.ne_of_lt (blamed.below r there)
  · simp [mishaps, Essence.note, Event.opens, Essence.attempted, Producer.essence]

theorem copied_essence (blamed : x.Blamed gone) (wider : Wider gone gone)
    (owned : (x.get r).owned = true) : (x.copied r).Blamed gone :=
  blamed.add wider _ (fun there => by cases there) fun _ => ⟨r, owned, rfl, rfl⟩

/-- An event is noted that spoils one producer, and is no mishap of any other. -/
theorem spoil (blamed : x.Blamed gone) (wider : Wider gone gone') (r : Ref) (error : ClientError)
    (unopened : ∀ s, e.opens s = false)
    (mishap : r < x.producers.length → e.mishap? (x.get r).line r = some error)
    (others : ∀ s < x.producers.length, s ≠ r → e.mishap? (x.get s).line s = none) :
    ((x.spoil r error).note e).Blamed gone' := by
  have get (s : Ref) : ((x.spoil r error).note e).get s = _ := get_spoil r s error x
  refine blamed.note wider (Nat.le_refl _) (List.length_modify ..) (fun s => ?_) rfl
    (fun s _ => unopened s) fun s inside => Or.inl ?_
  · rw [get]
    split <;> rfl
  · rw [get]
    split
    · rename_i here
      obtain rfl := here.1
      rw [mishap inside]
    · rename_i elsewhere
      rw [others s inside fun same => elsewhere ⟨same.symm, inside⟩, Option.or_none]

/-- A raw call of a producer of the factory is answered. -/
theorem answered (blamed : x.Blamed gone) (wider : Wider gone gone) (owned : (x.get r).owned = true)
    (operation : Operation) (reply : Reply) :
    (x.answered r (x.get r).conn operation reply).Blamed gone := by
  unfold Essence.answered
  cases mishap : operation.mishap? reply with
  | none => exact blamed
  | some error =>
    refine blamed.spoil (e := .replied (x.get r).conn operation reply) wider r error
      (fun _ => rfl) (fun _ => ?_) fun s _ other => ?_
    · have line : (x.get r).line = some (x.get r).conn := if_pos owned
      simp [Event.mishap?, line, mishap]
    · -- No other producer has this connection.
      have apart : (x.get s).line ≠ some (x.get r).conn := by
        intro same
        unfold Producer.line at same
        split at same
        · rename_i there
          exact other (blamed.distinct s r there owned (Option.some.inj same))
        · cases same
      simp [Event.mishap?, apart]

/-- A delivery is completed; a producer that is not there any more is gone. -/
theorem delivered (blamed : x.Blamed gone) (wider : Wider gone gone') (there : Bool)
    (d : Delivery) (outcome : Outcome)
    (lost : there = false → d.producer < x.producers.length → gone' x.producers.length d.producer) :
    (x.delivered there d outcome).Blamed gone' := by
  have mishap (conn : Option Nat) (s : Ref) (error : ClientError) :
      Event.mishap? (μ := Snapshot) conn s (.delivering d (.error error)) =
        if d.producer = s && error.isFatal then some error else none := rfl
  rcases outcome with error | receipt
  · unfold Essence.delivered
    dsimp only
    split
    · rename_i spoils
      obtain ⟨fatal, -⟩ := Bool.and_eq_true_iff.mp spoils
      refine blamed.spoil wider d.producer error (fun _ => rfl) (fun _ => ?_) fun s _ other => ?_
      · simp [mishap, fatal]
      · simp [mishap, Ne.symm other]
    · rename_i harmless
      refine blamed.note wider (Nat.le_refl _) rfl (fun _ => rfl) rfl (fun _ _ => rfl)
        fun s inside => ?_
      by_cases counts : d.producer = s ∧ error.isFatal = true
      · obtain ⟨rfl, fatal⟩ := counts
        exact Or.inr (lost (by simpa [fatal] using harmless) inside)
      · refine Or.inl ?_
        have none : (decide (d.producer = s) && error.isFatal) ≠ true := by simpa using counts
        rw [mishap, if_neg none, Option.or_none]
        rfl
  · exact blamed.idle wider (Nat.le_refl _) rfl rfl (fun _ _ => rfl) fun _ _ => rfl

end Blamed

end Essence

/-! ## Runs -/

namespace Pool

/-- The last handle to a producer had gone when callers looked at the pool and there were at most `n`
producers. -/
def Bygone (p : Pool σ Snapshot) (n : Nat) (r : Ref) : Prop :=
  ∃ outside : σ, ∃ x ∈ written outside p.journal, x.producers.length ≤ n ∧ r < x.producers.length ∧
    x.referenced r = false

theorem Bygone.wider : Essence.Wider p.Bygone p.Bygone := by
  rintro n n' r more ⟨outside, x, passed, few, rest⟩
  exact ⟨outside, x, passed, Nat.le_trans few more, rest⟩

theorem Turns.wider {x : Essence} (turns : p.Turns x q) : Essence.Wider p.Bygone q.Bygone := by
  rintro n n' r more gone
  obtain ⟨outside, y, passed, rest⟩ := Bygone.wider n n' r more gone
  exact ⟨outside, y, by rw [turns.written]; exact passed, rest⟩

theorem Bygone.look : Essence.Wider p.Bygone p.look.Bygone := by
  rintro n n' r more gone
  obtain ⟨outside, y, passed, rest⟩ := Bygone.wider n n' r more gone
  exact ⟨outside, y, List.mem_cons_of_mem _ passed, rest⟩

/-- Failures are first mishaps, as far as the producers are still there. -/
structure Blamed (p : Pool σ Snapshot) : Prop where
  shut : p.Sealed
  essence : p.essence.Blamed p.Bygone

namespace Blamed

theorem new (config : Config) (outside : σ) : (Pool.new config outside : Pool σ Snapshot).Blamed where
  shut _ _ := rfl
  essence := by
    have none {r : Ref}
        (there : ((Pool.new config outside : Pool σ Snapshot).essence.get r).owned = true) : False :=
      Nat.not_lt_zero r (Essence.lt_of_owned there)
    exact ⟨fun _ there => (none there).elim, fun _ _ there => (none there).elim,
      fun _ there => (none there).elim, fun _ inside => absurd inside (Nat.not_lt_zero _)⟩

/-- A handle that is not refused is to a producer of the factory. -/
theorem owned {h : Handle} (blamed : p.Blamed) (may : p.refusal? h = none) :
    (p.get h.producer).owned = true := by
  refine Bool.not_eq_false _ ▸ fun unowned => ?_
  have closed := blamed.shut h.producer unowned
  simp [refusal?, Producer.refusal?, closed] at may

end Blamed

theorem blamed_keeps : Keeps (σ := σ) Pool.Blamed where
  turn p q x blamed changes turns := by
    refine ⟨turns.sealing blamed.shut, ?_⟩
    rw [turns.essence]
    refine Essence.Blamed.mono ?_ turns.wider
    cases changes with
    | still => exact blamed.essence
    | copy r owned => exact blamed.essence.copied_essence Bygone.wider (p.essence_owned r ▸ owned)
    | build placement transactionalId clientId => exact blamed.essence.built Bygone.wider ..
    | fail placement transactionalId => exact blamed.essence.attempted Bygone.wider ..
    | request request => exact blamed.essence.requested Bygone.wider request
  look p blamed := by
    refine ⟨blamed.shut, ?_⟩
    rw [essence_look]
    exact blamed.essence.mono Bygone.look
  call p m q h operation reply blamed may inner meanwhile turns := by
    -- The producer of the call is the same before and after the code that ran inside of it.
    have owned := blamed.owned may
    have inside := lt_of_owned owned
    have grown := inner.grows.get h.producer (by rw [essence_length]; exact inside)
    have conn : (m.essence.get h.producer).conn = (p.get h.producer).conn := by
      rw [grown, ← p.essence_conn]
    have there : (m.essence.get h.producer).owned = true := by
      rw [grown, ← owned, ← p.essence_owned]
    refine ⟨turns.sealing meanwhile.shut, ?_⟩
    rw [turns.essence, ← conn]
    exact (meanwhile.essence.answered Bygone.wider there operation reply).mono turns.wider
  deliver p q d outcome blamed turns := by
    refine ⟨turns.sealing blamed.shut, ?_⟩
    have before := blamed.essence
    rw [essence_look] at before
    rw [turns.essence]
    refine before.delivered turns.wider _ d outcome fun gone inside => ?_
    rw [essence_length] at inside ⊢
    exact turns.wider _ _ _ (Nat.le_refl _)
      ⟨p.outside, p, List.mem_cons_self, Nat.le_refl _, inside, gone⟩

end Pool

section Runs

variable {config : Config}

theorem Visited.blamed (visited : Visited config p) : p.Blamed :=
  Pool.blamed_keeps.visited (fun outside => Pool.Blamed.new config outside) visited

theorem Visited.numbered (visited : Visited config p) : p.Numbered := by
  obtain ⟨outside, path⟩ := visited.path
  exact (Pool.Numbered.new config outside).path path

/-- Where a producer had gone, the run has come from there. -/
theorem Visited.bygone {n : Nat} (visited : Visited config p) (gone : p.Bygone n r) :
    ∃ x : Pool σ Snapshot, x.Ordered ∧ x.Numbered ∧ Path x p ∧ x.producers.length ≤ n ∧
      r < x.producers.length ∧ x.referenced r = false := by
  obtain ⟨outside, x, passed, rest⟩ := gone
  obtain ⟨first, path⟩ := visited.path
  rw [Pool.written_outside p.outside] at passed
  obtain ⟨y, point, rfl⟩ := List.mem_map.mp passed
  obtain ⟨early, late⟩ := Path.through path rfl y point
  exact ⟨y, (Pool.Ordered.new config first).path early, (Pool.Numbered.new config first).path early,
    late, rest⟩

/-- A producer to which there is a handle has always been referred to. -/
theorem Visited.not_bygone {n : Nat} {h : Handle} (visited : Visited config p) (there : h ∈ p.handles) :
    ¬p.Bygone n h.producer := by
  intro gone
  obtain ⟨x, ordered, -, late, -, inside, unreferenced⟩ := visited.bygone gone
  cases (late.unreferenced ordered inside unreferenced).symm.trans (Pool.referenced_of_mem there)

/-- A producer that has been copied was referred to until then. -/
theorem Visited.not_bygone_of_copy (visited : Visited config p) (owned : (p.get s).owned = true)
    (inside : r < p.producers.length) (unowned : (p.get r).owned = false)
    (same : (p.get s).id = (p.get r).id) : ¬p.Bygone r s := by
  intro gone
  obtain ⟨x, ordered, numbered, late, few, known, unreferenced⟩ := visited.bygone gone
  have later := (Later.of_path late).get known
  have closed : (x.get s).phase = .disposed := by
    by_contra undisposed
    cases unreferenced.symm.trans (ordered.tended s known undisposed)
  exact late.uncopied numbered (later.owned ▸ owned) closed few inside unowned same

/-- The failure of a producer of the factory is its first mishap. -/
theorem Visited.first_mishap {h : Handle} (visited : Visited config p) (there : h ∈ p.handles)
    (owned : (p.get h.producer).owned = true) :
    (p.get h.producer).failure = (p.mishaps h.producer).head? := by
  have first := visited.blamed.essence.first h.producer (by rw [p.essence_owned]; exact owned)
  rw [p.essence_events, mishaps_filter, p.essence_conn, p.essence_get] at first
  exact first.resolve_right (visited.not_bygone there)

/-- A copy is closed, and it has the first mishap of the original until it was copied. -/
theorem Visited.copied {h : Handle} (visited : Visited config p) (there : h ∈ p.handles)
    (unowned : (p.get h.producer).owned = false) :
    (p.get h.producer).phase = .disposed ∧
      ∃ s, (p.get s).owned = true ∧ (p.get s).id = (p.get h.producer).id ∧
        ∃ since early, p.journal = since ++ early ∧ (p.get h.producer).failure =
          (mishaps (some (p.get s).conn) s early ++ mishaps none h.producer since).head? := by
  obtain ⟨outside, path⟩ := visited.path
  have inside := ((Pool.Ordered.new config outside).path path).genuine.inside there
  refine ⟨visited.blamed.shut _ unowned, ?_⟩
  obtain ⟨s, owned, same, since, early, split, told⟩ :=
    visited.blamed.essence.copied h.producer (by rw [p.essence_length]; exact inside)
      (by rw [p.essence_owned]; exact unowned)
  rw [p.essence_events] at split
  obtain ⟨late, first, whole, rfl, rfl⟩ := List.filter_eq_append_iff.mp split
  rw [mishaps_filter, mishaps_filter, p.essence_conn, p.essence_get] at told
  rw [p.essence_owned] at owned
  rw [p.essence_get, p.essence_get] at same
  refine ⟨s, owned, same, late, first, whole, told.resolve_right ?_⟩
  rintro (gone | gone)
  · exact visited.not_bygone_of_copy owned inside unowned same gone
  · exact visited.not_bygone there gone

end Runs

/-! ## Answers and deliveries -/

namespace Pool

variable {E : Environment σ Snapshot} {h : Handle}

/-- The error of a raw call is passed on as it is. -/
theorem operate_answer (may : p.refusal? h = none) (call : HandleCall) :
    (p.operate E h call).2 =
      (E.call (p.get h.producer).conn call
        ((p.pin h).record (.called (p.get h.producer).conn call.toRaw))).2.mapError .client := by
  rw [operate_eq may rfl]

/-- The raw producer is given a record together with the callback that is to run on its delivery. -/
theorem send_answer (may : p.refusal? h = none) (record : Record) (callback : Nat) :
    (p.send E h record callback).2 =
      (E.send (p.get h.producer).conn record ⟨h.producer, callback⟩
        ((p.pin h).record (.called (p.get h.producer).conn (.send record.topic)))).2.mapError .client := by
  rcases asked : E.send (p.get h.producer).conn record ⟨h.producer, callback⟩
    ((p.pin h).record (.called (p.get h.producer).conn (.send record.topic))) with ⟨m, reply⟩
  have answer : callSend E ((p.pin h).get h.producer).conn record ⟨h.producer, callback⟩ (p.pin h) =
      (m.record (.replied (p.get h.producer).conn .send reply), reply) := by
    simp only [callSend, show ((p.pin h).get h.producer).conn = (p.get h.producer).conn from rfl, asked]
  unfold send
  rw [may]
  rcases reply with error | done
  all_goals
    simp only [withHandle, answer]
    rfl

theorem spoil_failure (inside : r < p.producers.length) (error : ClientError) :
    ((p.spoil r error).get r).failure = some ((p.get r).failure.getD error) := by
  have failure (m : Pool σ Snapshot) : (m.essence.get r).failure = (m.get r).failure := by
    rw [essence_get]
    rfl
  have within : r < p.essence.producers.length := by rw [essence_length]; exact inside
  rw [← failure, (spoil_turns r error p).essence, Essence.get_spoil, if_pos ⟨rfl, within⟩, ← failure]
  cases (p.essence.get r).failure <;> rfl

/-- The callback of a delivery runs once and on the outcome as it is; a fatal outcome has been counted
against the producer by then. -/
theorem deliver_eq (callback : Nat → Outcome → Pool σ Snapshot → Pool σ Snapshot) (d : Delivery)
    (outcome : Outcome) (p : Pool σ Snapshot) :
    ∃ m, p.deliver callback d outcome = (callback d.callback outcome m).record (.delivered d) ∧
      m.journal.head? = some (.delivering d outcome) ∧
        ∀ error, outcome = .error error → error.isFatal = true → p.referenced d.producer = true →
          d.producer < p.producers.length →
            (m.get d.producer).failure = some ((p.get d.producer).failure.getD error) := by
  refine ⟨_, rfl, rfl, ?_⟩
  rintro error rfl fatal there inside
  simp only [fatal, there, Bool.and_true, if_true]
  exact spoil_failure inside error

/-- What can be relied on about failures, answers and deliveries. -/
structure Accountable (config : Config) (p : Pool σ Snapshot) : Prop where
  /-- A producer of the factory has failed by its first mishap. -/
  first : ∀ h ∈ p.handles, (p.get h.producer).owned = true →
    (p.get h.producer).failure = (p.mishaps h.producer).head?
  /-- The closed copy of a lost producer has the first mishap of the original until it was copied. -/
  copied : ∀ h ∈ p.handles, (p.get h.producer).owned = false →
    (p.get h.producer).phase = .disposed ∧
      ∃ s, (p.get s).owned = true ∧ (p.get s).id = (p.get h.producer).id ∧
        ∃ since early, p.journal = since ++ early ∧ (p.get h.producer).failure =
          (ProducerPool.mishaps (some (p.get s).conn) s early ++
            ProducerPool.mishaps none h.producer since).head?
  /-- A failure is there to stay. -/
  kept : ∀ q, Visited config q → Precedes p q → ∀ h ∈ p.handles, ∀ error,
    (p.get h.producer).failure = some error → (q.get h.producer).failure = some error
  /-- A call answers with the error of the raw call. -/
  answers : ∀ (E : Environment σ Snapshot) (h : Handle), p.refusal? h = none → ∀ call,
    (p.operate E h call).2 =
      (E.call (p.get h.producer).conn call
        ((p.pin h).record (.called (p.get h.producer).conn call.toRaw))).2.mapError .client
  /-- So does sending, and the raw producer gets the callback of the caller. -/
  sends : ∀ (E : Environment σ Snapshot) (h : Handle), p.refusal? h = none → ∀ record callback,
    (p.send E h record callback).2 =
      (E.send (p.get h.producer).conn record ⟨h.producer, callback⟩
        ((p.pin h).record
          (.called (p.get h.producer).conn (.send record.topic)))).2.mapError .client
  /-- A delivery runs its callback once, in a pool `m` that knows of the failure already. -/
  delivers : ∀ (callback : Nat → Outcome → Pool σ Snapshot → Pool σ Snapshot) (d : Delivery)
    (outcome : Outcome), ∃ m,
      p.deliver callback d outcome = (callback d.callback outcome m).record (.delivered d) ∧
        m.journal.head? = some (.delivering d outcome) ∧
          ∀ error, outcome = .error error → error.isFatal = true → p.referenced d.producer = true →
            (m.get d.producer).failure = some ((p.get d.producer).failure.getD error)

end Pool

/-- At every point of a run the failure of a producer is its first mishap. -/
theorem failure_is_first_mishap {config : Config} (visited : Visited config p) :
    p.Accountable config where
  first _ there owned := visited.first_mishap there owned
  copied _ there unowned := visited.copied there unowned
  kept q visited' before h there error failed := by
    obtain ⟨outside, path⟩ := visited.path
    have inside := ((Pool.Ordered.new config outside).path path).genuine.inside there
    exact ((Later.of_path (before.path visited')).get inside).failure error failed
  answers _ _ may call := Pool.operate_answer may call
  sends _ _ may record callback := Pool.send_answer may record callback
  delivers callback d outcome := by
    obtain ⟨outside, path⟩ := visited.path
    obtain ⟨m, delivers, noted, failed⟩ := p.deliver_eq callback d outcome
    refine ⟨m, delivers, noted, fun error same fatal there => failed error same fatal there ?_⟩
    obtain ⟨h, known, here⟩ := Pool.mem_of_referenced there
    rw [← here]
    exact ((Pool.Ordered.new config outside).path path).genuine.inside known

/-- A producer waits in its queue when two deliveries of it fail for good: the first failure counts. -/
theorem failure_is_first_mishap_of_parked :
    let config : Config := { idPrefix := some "a" }
    let lost (message : String) (p : Pool Unit Snapshot) :=
      (p.deliver (fun _ _ p => p.look) ⟨0, 0⟩ (.error (.fenced message))).look
    let p := lost "later" (lost "first" ((Pool.new config ()).look.perform .quiet
      [.create 0, .send ⟨0, 0⟩ { topic := "t" } 0, .close ⟨0, 0⟩ none]))
    Visited config p ∧ p.Accountable config ∧ ⟨0, 0⟩ ∈ p.handles ∧ (p.get 0).owned = true ∧
      p.mishaps 0 = [.fenced "first", .fenced "later"] ∧
        (p.get 0).failure = some (.fenced "first") := by
  intro config lost p
  have lawful : (Environment.quiet : Environment Unit Snapshot).Lawful := Environment.quiet_lawful
  have parked := (Reached.start config ()).perform lawful
    [.create 0, .send ⟨0, 0⟩ { topic := "t" } 0, .close ⟨0, 0⟩ none] (by decide +kernel)
  have loses (message : String) {q : Pool Unit Snapshot} (reached : Reached config q) :
      Reached config (lost message q) :=
    reached.act lawful (.deliver (fun _ _ p => p.look) ⟨0, 0⟩ (.error (.fenced message)))
      (by rintro f ⟨⟩ q; exact .done q.look) trivial
  have visited : Visited config p := (loses "later" (loses "first" parked)).visited
  have accountable := failure_is_first_mishap visited
  have there : (⟨0, 0⟩ : Handle) ∈ p.handles := by decide +kernel
  have owned : (p.get 0).owned = true := by decide +kernel
  have mishaps : p.mishaps 0 = [.fenced "first", .fenced "later"] := by decide +kernel
  refine ⟨visited, accountable, there, owned, mishaps, ?_⟩
  rw [accountable.first ⟨0, 0⟩ there owned, mishaps]
  rfl

end ProducerPool
