import ProducerPool.Proofs.Lease
import ProducerPool.Proofs.Slots

/-!
# No producer is parked inside a transaction

Where `execute` has begun a transaction and its producer is parked afterwards, the transaction has been
committed or aborted on that producer before, and the answer was no fatal error: one that is fatal makes
the producer unusable, so that it is closed.  An error that is not fatal does not, so the answer need not
have been a success; and code that closes the handle before the transaction ends parks the producer as it
is.
-/

set_option autoImplicit false

namespace ProducerPool

variable {σ : Type} {E : Environment σ Snapshot} {p q m : Pool σ Snapshot} {h : Handle} {r : Ref}
  {due left : List Duty} {gone : Option Ref}

/-! ## A producer that its handle has taken -/

namespace Pool

/-- The producer is under the lease of the handle, and it is not parked. -/
structure Taken (h : Handle) (p : Pool σ Snapshot) : Prop where
  inside : h.producer < p.producers.length
  lease : (p.get h.producer).lease = h.lease
  unparked : (p.get h.producer).phase ≠ .cached

namespace Taken

theorem steady (taken : p.Taken h) (steady : Steady gone p.producers q.producers) : q.Taken h where
  inside := Nat.lt_of_lt_of_le taken.inside steady.length
  lease := (steady.lease h.producer taken.inside).trans taken.lease
  unparked cached := by
    by_cases same : gone = some h.producer
    · cases cached.symm.trans (steady.closed h.producer same).2
    · exact taken.unparked ((steady.phase h.producer taken.inside same).symm.trans cached)

theorem modify (taken : p.Taken h) {f : Producer → Producer} (other : r ≠ h.producer)
    (producers : q.producers = p.producers.modify r f) : q.Taken h := by
  have same : q.get h.producer = p.get h.producer := by
    rw [get, producers, getD_modify, if_neg fun both => other both.1]
    rfl
  refine ⟨?_, ?_, ?_⟩
  · rw [producers, List.length_modify]
    exact taken.inside
  · rw [same]
    exact taken.lease
  · rw [same]
    exact taken.unparked

theorem of_producers (taken : p.Taken h) (producers : q.producers = p.producers) : q.Taken h := by
  have steady : Steady none p.producers q.producers := by rw [producers]; exact .refl _
  exact taken.steady steady

theorem move {binds : ThreadId → Option Handle → Prop} (taken : p.Taken h)
    (move : Move (fun x => x ≠ h) binds due p left q) : q.Taken h := by
  cases move with
  | still _ _ _ step stays => exact taken.steady stays.producers
  | build _ _ m _ x step stays _ _ _ _ seats =>
    have first : m.Taken h := taken.steady stays.producers
    exact first.of_producers seats.producers
  | shelve _ _ x key may lease =>
    refine taken.modify (r := x.producer) (fun same => may ?_) rfl
    obtain ⟨producer, number⟩ := x
    obtain rfl : producer = h.producer := same
    obtain rfl : number = h.lease := lease.symm.trans taken.lease
    rfl
  | reopen _ _ key x cache found cached =>
    refine taken.modify (r := x.producer) (fun same => taken.unparked ?_) rfl
    rw [← same]
    exact cached
  | vacate _ _ _ r _ vacates => exact taken.of_producers vacates.producers
  | retire _ _ _ _ x step _ stays => exact taken.steady stays.producers
  | forget _ _ _ r step _ stays => exact taken.steady stays.producers
  | shut _ _ _ r step _ stays => exact taken.steady stays.producers
  | clear => exact taken
  | hush => exact taken
  | summon => exact taken
  | _ => exact taken.of_producers rfl

end Taken

end Pool

/-- As long as nobody closes the handle, it keeps its producer from being parked. -/
def takenInvariant (h : Handle) : Invariant σ where
  holds _ p := p.Regular ∧ p.Taken h
  parks x := x ≠ h
  binds _ _ := True
  regular holds := holds.1
  own := by
    rintro _ p x ⟨-, taken⟩ new rfl
    rcases new with out | higher
    · exact absurd taken.inside (Nat.not_lt.mpr out)
    · exact absurd taken.lease (Nat.ne_of_lt higher)
  move holds motion := motion.moves.preserves
    (fun holds move => ⟨holds.1.path move.path, holds.2.move move⟩) holds

/-! ## Calls that have been answered -/

/-- Between the two journals a call on the connection was made and answered. -/
def Answered (conn : Nat) (call : HandleCall) (reply : Reply) (before after : List (Event Snapshot)) :
    Prop :=
  ∃ early between late, after = late ++ .replied conn call.toRaw.operation reply ::
    (between ++ .called conn call.toRaw :: (early ++ before))

namespace Answered

variable {conn : Nat} {call : HandleCall} {reply : Reply} {before after first last : List (Event Snapshot)}

theorem widen (answered : Answered conn call reply before after) (earlier : first <:+ before)
    (later : after <:+ last) : Answered conn call reply first last := by
  obtain ⟨early, between, late, rfl⟩ := answered
  obtain ⟨since, rfl⟩ := earlier
  obtain ⟨onward, rfl⟩ := later
  exact ⟨early ++ since, between, onward ++ late, by simp⟩

end Answered

namespace Pool

theorem spoil_isSpoiled (inside : r < p.producers.length) (error : ClientError) :
    ((p.spoil r error).get r).isSpoiled = true := by
  unfold spoil
  dsimp only
  split
  · assumption
  · have failed := getD_modify (fun q => { q with failure := some error }) p.producers r r
    rw [if_pos ⟨rfl, inside⟩] at failed
    exact congrArg Producer.isSpoiled failed

/-- An answer that spoils makes the producer unusable. -/
def spoilBy (h : Handle) (call : HandleCall) (reply : Reply) (p : Pool σ Snapshot) : Pool σ Snapshot :=
  match reply with
  | .ok () => p
  | .error error => if call.spoils error then p.spoil h.producer error else p

theorem spoilBy_balanced (h : Handle) (call : HandleCall) (reply : Reply) (p : Pool σ Snapshot) :
    Balanced p (p.spoilBy h call reply) := by
  rcases reply with error | done
  · dsimp only [spoilBy]
    split
    · exact spoil_balanced _ _ _
    · exact .refl p
  · exact .refl p

/-- A call that is not refused is passed on, and its answer is taken in while the operation holds the
handle. -/
theorem operate_eq {reply : Reply} {call : HandleCall} (may : p.refusal? h = none)
    (asked : E.call (p.get h.producer).conn call
      ((p.pin h).record (.called (p.get h.producer).conn call.toRaw)) = (m, reply)) :
    p.operate E h call =
      (((m.record (.replied (p.get h.producer).conn call.toRaw.operation reply)).spoilBy h call
        reply).unpin E h, reply.mapError .client) := by
  have answer : callHandle E ((p.pin h).get h.producer).conn call (p.pin h) =
      (m.record (.replied (p.get h.producer).conn call.toRaw.operation reply), reply) := by
    simp only [callHandle, show ((p.pin h).get h.producer).conn = (p.get h.producer).conn from rfl,
      asked]
  unfold operate
  rw [may]
  rcases reply with error | done
  all_goals
    simp only [withHandle, answer, spoilBy]
    rfl

/-- A call that is not refused is answered, and an answer that spoils leaves the producer unusable. -/
theorem operate_answered (tame : E.Tame) (ordered : p.Ordered) (there : h ∈ p.handles)
    (may : p.refusal? h = none) (call : HandleCall) :
    ∃ reply, Answered (p.get h.producer).conn call reply p.journal (p.operate E h call).1.journal ∧
      ((p.operate E h call).2 = .ok () ↔ reply = .ok ()) ∧
        ∀ error, reply = .error error → call.spoils error = true →
          ((p.operate E h call).1.get h.producer).isSpoiled = true := by
  rcases asked : E.call (p.get h.producer).conn call
    ((p.pin h).record (.called (p.get h.producer).conn call.toRaw)) with ⟨m, reply⟩
  rw [operate_eq may asked]
  have grown := tame _ (.call (p.get h.producer).conn call)
    ((p.pin h).record (.called (p.get h.producer).conn call.toRaw))
  rw [asked] at grown
  obtain ⟨between, called⟩ := (Later.of_path grown.path).journal
  generalize answers : m.record (.replied (p.get h.producer).conn call.toRaw.operation reply) = n
  have onward := (spoilBy_balanced h call reply n).path.trans (unpin_leads tame h _).path
  obtain ⟨late, whole⟩ := (Later.of_path onward).journal
  refine ⟨reply, ⟨[], between, late, ?_⟩, by cases reply <;> simp [Except.mapError], ?_⟩
  · rw [← whole, ← answers, List.nil_append]
    exact congrArg (late ++ ·) (congrArg (_ :: ·) called.symm)
  · rintro error rfl spoils
    have inside : h.producer < n.producers.length := by
      rw [← answers]
      exact Nat.lt_of_lt_of_le (ordered.genuine.inside there) (Later.of_path grown.path).producers.length
    have spoiled : ((n.spoilBy h call (.error error)).get h.producer).isSpoiled = true := by
      simp only [spoilBy, spoils, if_true]
      exact spoil_isSpoiled inside error
    have still := Nat.lt_of_lt_of_le inside
      (Later.of_path (spoilBy_balanced h call (.error error) n).path).producers.length
    exact ((Later.of_path (unpin_leads tame h _).path).get still).isSpoiled spoiled

theorem operate_refused {error : PoolError} (refused : p.refusal? h = some error) (call : HandleCall) :
    p.operate E h call = (p, .error error) := by
  unfold operate
  rw [refused]

end Pool

/-! ## The end of a transaction -/

/-- The call that ends the transaction of a unit of work. -/
def HandleCall.ending {α : Type} : Except PoolError α → HandleCall
  | .ok _ => .commit
  | .error _ => .abort

namespace Pool

section Work

variable {α : Type} {work : Handle → Pool σ Snapshot → Pool σ Snapshot × Except PoolError α}
  {scope : TransactionScope}

theorem conclude_path (E : Environment σ Snapshot) (h : Handle) (outcome : Except PoolError α)
    (p : Pool σ Snapshot) :
    Path (p.operate E h (.ending outcome)).1 (p.conclude E h outcome).1 := by
  cases outcome with
  | ok value =>
    simp only [conclude, HandleCall.ending]
    split <;> simp_all [Relation.ReflTransGen.refl]
  | error error =>
    simp only [conclude, HandleCall.ending]
    rcases p.operate E h .abort with ⟨q, abortError | done⟩
    · exact .single (.note q _ rfl)
    · exact .refl

theorem healthy_of_parked (up : E.Upholds (takenInvariant h)) {c : Pool σ Snapshot}
    (there : h ∈ c.pinned) (busy : 0 < c.running) (holds : (takenInvariant h).holds [] c)
    {f : Pool σ Snapshot → Pool σ Snapshot × Except PoolError α} {a : Except PoolError α}
    (answer : f { p with running := p.running + 1 } = ((c.close E h none).unpin E h, a))
    (parked : ((p.withFactory E f).1.get h.producer).phase = .cached) :
    (c.get h.producer).phase = .opened ∧ c.isHealthy h = true := by
  by_contra unfit
  have closed := up.close holds (mem_handles_of_pinned there) none fun opened healthy =>
    absurd ⟨opened, healthy⟩ unfit
  have still : 0 < ((c.close E h none).unpin E h).running := by
    rw [(unpin_leads up.tame h _).running,
      (close_balanced up.tame (mem_handles_of_pinned there) none).running]
    exact busy
  have left := (takenInvariant h).departs E answer still (up.unpin closed h)
  exact left.2.unparked parked

/-- Where the producer is open and healthy when the transaction has ended, the call that ends it has been
answered, and not by a fatal error. -/
theorem conclude_answered (up : E.Upholds (takenInvariant h)) (taken : (takenInvariant h).holds due p)
    (there : h ∈ p.pinned) (outcome : Except PoolError α)
    (opened : ((p.conclude E h outcome).1.get h.producer).phase = .opened)
    (healthy : (p.conclude E h outcome).1.isHealthy h = true) :
    ∃ reply, (∀ error, reply = .error error → error.isFatal = false) ∧
      Answered (p.get h.producer).conn (.ending outcome) reply p.journal
        (p.conclude E h outcome).1.journal := by
  have concluded := up.conclude taken there outcome
  have later := Later.of_path (conclude_path E h outcome p)
  -- A call that is refused would leave the producer closed.
  have may : p.refusal? h = none := by
    by_contra refused
    obtain ⟨error, refusal⟩ := Option.ne_none_iff_exists'.mp refused
    rw [operate_refused refusal] at later
    refine refused (refusal?_eq_none.mpr ⟨?_, taken.2.lease⟩)
    refine ((later.get taken.2.inside).reopened opened).resolve_right fun higher => ?_
    rw [taken.2.lease, concluded.2.lease] at higher
    exact Nat.lt_irrefl _ higher
  obtain ⟨reply, answered, -, spoils⟩ := operate_answered up.tame taken.1.ordered
    (mem_handles_of_pinned there) may (.ending outcome)
  refine ⟨reply, fun error same => ?_, answered.widen (List.suffix_refl _) later.journal⟩
  -- A fatal answer would have left the producer unusable.
  cases fatal : error.isFatal with
  | false => rfl
  | true =>
    have spoiled := spoils error same (by cases outcome <;> exact fatal)
    have known := (Later.of_path (operate_balanced up.tame (mem_handles_of_pinned there)
      (.ending outcome)).path).producers.length
    have unusable := (later.get (Nat.lt_of_lt_of_le taken.2.inside known)).isSpoiled spoiled
    simp [isHealthy, unusable] at healthy

end Work

end Pool

/-- The work of `execute` begins at a point of the run, while the operation holds the handle. -/
theorem Visited.begins {config : Config} {scope : TransactionScope} (visited : Visited config p)
    (tame : E.Tame) (owned : 0 < p.owners)
    (yields : Pool.obtainFor E scope { p with running := p.running + 1 } = (m, .ok h)) :
    m.Regular ∧ h ∈ m.pinned ∧ 0 < m.running := by
  obtain ⟨⟨outside, path⟩, there, busy⟩ := visited.obtains tame owned yields
  exact ⟨(Pool.Regular.new config outside).path path, there, busy⟩

/-- Where the raw begin of `execute` has succeeded in `b` and the producer is parked in the end, the raw
commit or abort was answered without a fatal error in between. -/
theorem parked_after_ending {config : Config} {α : Type} {scope : TransactionScope}
    {work : Handle → Pool σ Snapshot → Pool σ Snapshot × Except PoolError α} {b : Pool σ Snapshot}
    (visited : Visited config p) (owned : 0 < p.owners)
    (hooks : ∀ f, E.Runs f → ∀ p, Abstains (fun x => x = h) p.look (f p))
    (works : ∀ x p, Code p.look (work x p).1)
    (spares : ∀ p, Abstains (fun x => x = h) p.look (work h p).1)
    (yields : Pool.obtainFor E scope { p with running := p.running + 1 } = (m, .ok h))
    (begins : m.operate E h .begin = (b, .ok ()))
    (parked : ((p.execute E scope work).1.get h.producer).phase = .cached) :
    Answered (m.get h.producer).conn .begin (.ok ()) m.journal b.journal ∧
      ∃ reply, (∀ error, reply = .error error → error.isFatal = false) ∧
        Answered (m.get h.producer).conn (.ending (work h b).2) reply b.journal
          (p.execute E scope work).1.journal := by
  have up : E.Upholds (takenInvariant h) :=
    Environment.upholds_of_abstains hooks (fun x other => other) fun _ _ => trivial
  have tame := up.tame
  obtain ⟨regular, there, busy⟩ := visited.begins tame owned yields
  have handle := Pool.mem_handles_of_pinned there
  have known := regular.ordered.genuine.inside handle
  have may : m.refusal? h = none := by
    cases refused : m.refusal? h with
    | none => rfl
    | some error =>
      rw [Pool.operate_refused refused] at begins
      cases (Prod.mk.inj begins).2
  -- The handle keeps its producer when the transaction has begun, when the work is done, and so on.
  obtain ⟨opened, current⟩ := Pool.refusal?_eq_none.mp may
  have taken : (takenInvariant h).holds [] m := ⟨regular, known, current, by simp [opened]⟩
  have begun := up.operate taken handle .begin
  have first := Pool.operate_balanced tame handle .begin
  obtain ⟨reply, asked, accepted, -⟩ := Pool.operate_answered tame regular.ordered handle may .begin
  rw [begins] at begun first asked accepted
  rw [accepted.mp rfl] at asked
  have worked := Code.works_balanced works h b
  have kept := (spares b).preserves (fun x other => other) (fun _ _ => trivial)
    ((takenInvariant h).look begun)
  rcases whole : work h b with ⟨w, outcome⟩
  rw [whole] at worked kept
  have second := first.balanced worked
  have still : h ∈ w.pinned := (second.mem_pinned h).mpr there
  have third := second.balanced (Pool.conclude_balanced tame still outcome)
  have yet : h ∈ (w.conclude E h outcome).1.pinned := (third.mem_pinned h).mpr there
  obtain ⟨opened, healthy⟩ := Pool.healthy_of_parked (a := (w.conclude E h outcome).2) up yet
    (by rw [third.running]; exact busy) (up.conclude kept still outcome)
    (by simp only [yields, Pool.transact, begins, whole]) parked
  obtain ⟨reply, sound, ended⟩ := Pool.conclude_answered up kept still outcome opened healthy
  rw [((Later.of_path second.path).get known).conn] at ended
  -- What follows on the transaction only adds to the journal.
  have leaves : Path (m.transact E work h).1 (p.execute E scope work).1 :=
    (Pool.execute_path tame (Code.works_balanced works) yields).2
  rw [show (m.transact E work h).1 = (w.conclude E h outcome).1.close E h none by
    simp only [Pool.transact, begins, whole]] at leaves
  have closes := (Pool.close_balanced tame (Pool.mem_handles_of_pinned yet) none).path
  exact ⟨asked, reply, sound, ended.widen (Later.of_path worked.path).journal
    (Later.of_path (closes.trans leaves)).journal⟩

/-- A transaction whose work only looks, and which is committed. -/
theorem parked_after_ending_quiet :
    let config : Config := { idPrefix := some "a" }
    let work : Handle → Pool Unit Snapshot → Pool Unit Snapshot × Except PoolError Unit :=
      fun _ p => (p.look, .ok ())
    let p := (Pool.new config ()).look
    let m := (Pool.obtainFor .quiet .empty { p with running := p.running + 1 }).1
    let b := (m.operate .quiet ⟨0, 0⟩ .begin).1
    Visited config p ∧ ((p.execute .quiet .empty work).1.get 0).phase = .cached ∧
      ∃ reply, (∀ error, reply = .error error → error.isFatal = false) ∧
        Answered 0 .commit reply b.journal (p.execute .quiet .empty work).1.journal := by
  intro config work p m b
  have visited : Visited config p := (Reached.start config ()).visited
  have parked : ((p.execute .quiet .empty work).1.get 0).phase = .cached := by decide +kernel
  have works (h : Handle) (p : Pool Unit Snapshot) : Code p.look (work h p).1 := .done p.look
  have spares (p : Pool Unit Snapshot) : Abstains (fun x => x = ⟨0, 0⟩) p.look (work ⟨0, 0⟩ p).1 :=
    .done p.look
  have ended := parked_after_ending visited (by decide)
    (fun f runs p => by cases runs <;> exact .done p.look) works spares (m := m) (b := b) (by rfl)
    (by rfl) parked
  exact ⟨visited, parked, ended.2⟩

/-! ## What may come in between -/

/-- A begin that has succeeded. -/
def Event.begins : Event Snapshot → Bool
  | .replied _ .beginTransaction (.ok _) => true
  | _ => false

/-- A commit or an abort that has succeeded. -/
def Event.endsTransaction : Event Snapshot → Bool
  | .replied _ .commitTransaction (.ok _) | .replied _ .abortTransaction (.ok _) => true
  | _ => false

/-- Every commit and every abort runs out of time. -/
def Environment.slow : Environment Unit Snapshot :=
  { Environment.quiet with
    call := fun _ call p =>
      (p.look, if call = .commit ∨ call = .abort then .error (.timeout "slow") else .ok ()) }

theorem Environment.slow_lawful : Environment.slow.Lawful := by
  intro f runs p
  cases runs <;> exact .done p.look

/-- Whoever hears of the second producer closes the first. -/
def Environment.meddling : Environment Unit Snapshot :=
  { Environment.quiet with
    metrics := fun _ _ => [.ofParts "" "" 0 [(Metric.clientIdTag, "c")]]
    listen := fun _ notice p =>
      if notice.handle.producer = 1 ∧ ⟨0, 0⟩ ∈ p.held ++ p.pinned then
        (((p.look.close .quiet ⟨0, 0⟩ none).look), none)
      else (p.look, none) }

theorem Environment.meddling_lawful : Environment.meddling.Lawful := by
  refine .of_listen (fun _ _ _ => rfl) (fun _ _ _ _ => rfl) fun listener notice p => ?_
  dsimp only [Environment.meddling]
  split
  case isTrue both => exact ⟨[.close ⟨0, 0⟩ none], ⟨rfl, both.2, trivial⟩, rfl⟩
  case isFalse => exact ⟨[], trivial, rfl⟩

/-- Work that asks for a second producer. -/
def asking (_ : Handle) (p : Pool Unit Snapshot) : Pool Unit Snapshot × Except PoolError Unit :=
  (if 0 < p.owners then (p.look.createFor .meddling { idPrefix := some "b" }).1.look else p.look, .ok ())

theorem asking_code (h : Handle) (p : Pool Unit Snapshot) : Code p.look (asking h p).1 := by
  dsimp only [asking]
  split
  case isTrue owned =>
    exact .act .meddling (.createFor { idPrefix := some "b" }) Environment.meddling_lawful
      (fun f passes => absurd passes (Act.not_passes rfl)) owned (.done _)
  case isFalse => exact .done p.look

/-- A commit that runs out of time leaves the producer healthy, so that it is parked; and a listener that
closes the handle of the work has its producer parked before the transaction ends. -/
theorem parked_in_open_transaction :
    let p := (Pool.new { idPrefix := some "a" } ()).look.perform .quiet [.addListener "l"]
    let late := (p.execute .slow .empty fun _ p => (p.look, .ok ())).1
    let meddled := (p.execute .meddling .empty asking).1
    Visited { idPrefix := some "a" } p ∧ Environment.slow.Lawful ∧ Environment.meddling.Lawful ∧
      (∀ h q, Code q.look (asking h q).1) ∧
        (late.get 0).phase = .cached ∧ late.journal.any Event.begins = true ∧
          late.journal.any Event.endsTransaction = false ∧
            (meddled.get 0).phase = .cached ∧ meddled.journal.any Event.begins = true ∧
              meddled.journal.any Event.endsTransaction = false := by
  intro p late meddled
  have reached := (Reached.start { idPrefix := some "a" } ()).perform Environment.quiet_lawful
    [.addListener "l"] (by decide +kernel)
  exact ⟨reached.visited, Environment.slow_lawful, Environment.meddling_lawful, asking_code,
    by decide +kernel, by decide +kernel, by decide +kernel, by decide +kernel, by decide +kernel,
    by decide +kernel⟩

end ProducerPool
