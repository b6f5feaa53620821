import ProducerPool.Scripted

/-!
# Scripted producers follow their script

What a scripted producer does is settled by the history of its dealings with callers: which failures are
queued and not used up yet, whether deliveries fail, and which records have been acknowledged.  The callback
of a send runs in the course of the send, and may use the producer like any other caller.
-/

set_option autoImplicit false

namespace ProducerPool

/-! ## Small numbers are doubles -/

/-- A whole number of at most 53 binary digits is a double. -/
theorem nearestDouble_eq_self {n : Nat} (small : n < Nat.pow 2 53) : nearestDouble n = n := by
  have digits : n.log2 - 52 = 0 := by
    rcases Nat.eq_zero_or_pos n with rfl | positive
    · rfl
    · have fits := (Nat.log2_lt (Nat.pos_iff_ne_zero.mp positive)).mpr small
      omega
  have sign : ¬(n : Int) < 0 := by omega
  simp [nearestDouble, digits, sign, Nat.mod_one]

namespace Scripted

/-! ## Histories -/

/-- What happens between callers and a scripted producer. -/
inductive Happening where
  /-- The next call of the operation without a failure yet is to fail. -/
  | queued (operation : Operation) (error : ClientError)
  /-- Deliveries are to fail from now on. -/
  | failing (error : ClientError)
  | asked (call : RawCall)
  /-- The callback of a send begins to run. -/
  | delivering (record : Record) (outcome : Outcome)
  | delivered
  | replied (reply : Reply)
  | looked (shown : Scripted)

/-- What has happened, the latest first. -/
abbrev History := List Happening

namespace History

/-- The failures of an operation that no call has used up, the oldest first. -/
def pending (operation : Operation) : History → List ClientError
  | [] => []
  | .queued op error :: earlier =>
    if op = operation then pending operation earlier ++ [error] else pending operation earlier
  | .asked call :: earlier =>
    if call.operation = operation then (pending operation earlier).tail else pending operation earlier
  | _ :: earlier => pending operation earlier

/-- The error with which deliveries fail, if they are to fail. -/
def deliveryFailure? : History → Option ClientError
  | [] => none
  | .failing error :: _ => some error
  | _ :: earlier => deliveryFailure? earlier

/-- The calls in order. -/
def calls : History → List RawCall
  | [] => []
  | .asked call :: earlier => calls earlier ++ [call]
  | _ :: earlier => calls earlier

/-- The records whose callbacks have been told of a receipt, in order. -/
def acknowledged : History → List (Record × Receipt)
  | [] => []
  | .delivering record (.ok receipt) :: earlier => acknowledged earlier ++ [(record, receipt)]
  | _ :: earlier => acknowledged earlier

/-- What the callback of a send is to be told that is accepted now. -/
def outcome (record : Record) (h : History) : Outcome :=
  match h.deliveryFailure? with
  | some error => .error error
  | none => .ok ⟨record.topic, record.partition.getD 0, h.acknowledged.length⟩

end History

/-! ## Scripts -/

/-- What a producer shows of itself agrees with the history. -/
structure Shows (p : Scripted) (h : History) : Prop where
  calls : p.calls = h.calls
  records : p.records = h.acknowledged.map Prod.fst
  nextOffset : p.nextOffset = p.records.length
  /-- Beyond that number of sends a double need not hold the number of records. -/
  metrics : p.count .send < Nat.pow 2 53 →
    ∃ m, p.metrics = [m] ∧ m.name = "record-send-total" ∧ m.value = p.records.length ∧
      m.reported = p.records.length

/-- A history goes on to another one as the script has it. -/
inductive Plays : History → History → Prop
  | refl (h : History) : Plays h h
  | trans {h later last : History} (first : Plays h later) (second : Plays later last) : Plays h last
  | look (p : Scripted) (h : History) (shows : p.Shows h) : Plays h (.looked p :: h)
  | queue (operation : Operation) (error : ClientError) (h : History) :
      Plays h (.queued operation error :: h)
  | failDeliveries (error : ClientError) (h : History) : Plays h (.failing error :: h)
  /-- A call fails with the oldest failure of its operation, and nothing comes of it. -/
  | fails (call : RawCall) {error : ClientError} {h : History}
      (due : (h.pending call.operation).head? = some error) :
      Plays h (.replied (.error error) :: .asked call :: h)
  | works (call : RawCall) {h : History} (plain : call.operation ≠ .send)
      (clear : h.pending call.operation = []) : Plays h (.replied (.ok ()) :: .asked call :: h)
  /-- A send without a failure runs its callback once, and returns when that has ended. -/
  | accepts (record : Record) {h within : History} (clear : h.pending .send = [])
      (meanwhile : Plays (.delivering record (h.outcome record) :: .asked (.send record.topic) :: h)
        within) :
      Plays h (.replied (.ok ()) :: .delivered :: within)

/-- What a caller does with a producer.  It may look at the producer, and it goes on as it likes with what
it sees and with the replies; so do its callbacks. -/
inductive Caller where
  | done
  | look (next : Scripted → Caller)
  | failNext (operation : Operation) (error : ClientError) (next : Caller)
  | failDeliveries (error : ClientError) (next : Caller)
  | call (request : RawCall) (plain : request.operation ≠ .send) (next : Reply → Caller)
  | send (record : Record) (callback : Outcome → Caller) (next : Reply → Caller)

/-- The producer after the caller is done with it, and what has happened. -/
def Caller.run : Caller → Scripted × History → Scripted × History
  | .done, s => s
  | .look next, (p, h) => (next p).run (p, .looked p :: h)
  | .failNext operation error next, (p, h) =>
    next.run (p.failNext operation error, .queued operation error :: h)
  | .failDeliveries error next, (p, h) => next.run (p.failDeliveries error, .failing error :: h)
  | .call request _ next, (p, h) =>
    let (p, reply) := p.respond request
    (next reply).run (p, .replied reply :: .asked request :: h)
  | .send record callback next, (p, h) =>
    let deliver := fun outcome (s : Scripted × History) =>
      ((callback outcome).run (s.1, .delivering record outcome :: s.2)).map id (.delivered :: ·)
    let (s, reply) := submit Prod.fst (fun p s => (p, s.2)) record deliver
      (p, .asked (.send record.topic) :: h)
    (next reply).run (s.1, .replied reply :: s.2)

/-! ## One step -/

/-- The producer is in the state that the history has led to. -/
structure Accords (p : Scripted) (h : History) : Prop where
  calls : p.calls = h.calls
  failures : ∀ operation,
    (p.failures.filter fun f => f.1 = operation).map Prod.snd = h.pending operation
  deliveryFailure : p.deliveryFailure = h.deliveryFailure?
  records : p.records = h.acknowledged.map Prod.fst
  nextOffset : p.nextOffset = h.acknowledged.length
  /-- Records are acknowledged by sends only. -/
  sends : p.records.length ≤ p.count .send

namespace Accords

variable {p : Scripted} {h : History}

theorem new (clientId : String) : Accords { clientId := clientId } [] where
  calls := rfl
  failures _ := rfl
  deliveryFailure := rfl
  records := rfl
  nextOffset := rfl
  sends := Nat.le_refl 0

theorem failNext (accords : p.Accords h) (operation : Operation) (error : ClientError) :
    (p.failNext operation error).Accords (.queued operation error :: h) where
  calls := accords.calls
  failures other := by
    rw [Scripted.failNext, List.filter_append, List.map_append, accords.failures other,
      History.pending]
    by_cases same : operation = other <;> simp [same]
  deliveryFailure := accords.deliveryFailure
  records := accords.records
  nextOffset := accords.nextOffset
  sends := accords.sends

theorem failDeliveries (accords : p.Accords h) (error : ClientError) :
    (p.failDeliveries error).Accords (.failing error :: h) :=
  { accords with deliveryFailure := rfl }

/-- A call uses up the oldest failure of its operation, with which it fails. -/
theorem respond (accords : p.Accords h) (call : RawCall) :
    (p.respond call).1.Accords (.asked call :: h) ∧
      (p.respond call).2 = (h.pending call.operation).head?.elim (.ok ()) .error := by
  have taken := takeFailure_fst call.operation p.failures
  rw [accords.failures] at taken
  refine ⟨⟨?_, fun other => ?_, accords.deliveryFailure, accords.records, accords.nextOffset, ?_⟩, ?_⟩
  · exact congrArg (· ++ [call]) accords.calls
  · have left := takeFailure_snd call.operation other p.failures
    have before := accords.failures other
    rw [History.pending, ← before]
    by_cases same : other = call.operation
    · rw [if_pos same] at left
      rw [if_pos same.symm, ← List.map_tail]
      exact congrArg (List.map Prod.snd) left
    · rw [if_neg same] at left
      rw [if_neg (Ne.symm same)]
      exact congrArg (List.map Prod.snd) left
  · refine Nat.le_trans accords.sends ?_
    simp [count, Scripted.respond]
  · rw [← taken, Scripted.respond]
    rcases takeFailure call.operation p.failures with ⟨error | -, left⟩ <;> rfl

/-- A send is refused like any other call, and then nothing else changes; or it is accepted, and what its
callback is to be told follows from the history. -/
theorem send (accords : p.Accords h) (record : Record) :
    (∃ q error, p.send record = (q, .error error) ∧ (h.pending .send).head? = some error ∧
      q.Accords (.asked (.send record.topic) :: h)) ∨
    ∃ q, p.send record = (q, .ok (h.outcome record)) ∧ h.pending .send = [] ∧
      q.Accords (.delivering record (h.outcome record) :: .asked (.send record.topic) :: h) := by
  obtain ⟨next, reply⟩ := accords.respond (.send record.topic)
  have counted : p.records.length + 1 ≤ (p.respond (.send record.topic)).1.count .send := by
    have sends := accords.sends
    simp only [count] at sends
    simp [count, Scripted.respond, RawCall.operation]
    exact sends
  have kept : (p.respond (.send record.topic)).1.records = p.records := rfl
  rcases responds : p.respond (.send record.topic) with ⟨q, answer⟩
  rw [responds] at next reply counted kept
  dsimp only at next reply counted kept
  rw [show RawCall.operation (.send record.topic) = .send from rfl] at reply
  cases due : (h.pending .send).head? with
  | some error =>
    rw [due, Option.elim_some] at reply
    refine Or.inl ⟨q, error, ?_, rfl, next⟩
    simp only [Scripted.send, responds, reply]
  | none =>
    rw [due, Option.elim_none] at reply
    refine Or.inr ?_
    rw [List.head?_eq_none_iff.mp due, History.outcome]
    cases failing : h.deliveryFailure? with
    | some error =>
      have known : q.deliveryFailure = some error := next.deliveryFailure.trans failing
      refine ⟨q, ?_, rfl, { next with }⟩
      simp only [Scripted.send, responds, reply, known]
    | none =>
      have known : q.deliveryFailure = none := next.deliveryFailure.trans failing
      have offset : q.nextOffset = h.acknowledged.length := next.nextOffset
      refine ⟨{ q with records := q.records ++ [record], nextOffset := q.nextOffset + 1 }, ?_, rfl, ?_⟩
      · simp only [Scripted.send, responds, reply, known, offset]
      · exact
          { next with
            records := by simp [History.acknowledged, next.records]
            nextOffset := by simp [History.acknowledged, offset]
            sends := by
              rw [List.length_append, kept]
              exact counted }

theorem metrics (accords : p.Accords h) (few : p.count .send < Nat.pow 2 53) :
    ∃ m, p.metrics = [m] ∧ m.name = "record-send-total" ∧ m.value = p.records.length ∧
      m.reported = p.records.length := by
  have small : p.records.length < Nat.pow 2 53 := Nat.lt_of_le_of_lt accords.sends few
  have exactly := nearestDouble_eq_self small
  have bound : Nat.pow 2 53 = 0x20000000000000 := rfl
  refine ⟨_, rfl, rfl, exactly, ?_⟩
  simp only [Metric.reported, Metric.ofParts, exactly]
  omega

theorem shows (accords : p.Accords h) : p.Shows h where
  calls := accords.calls
  records := accords.records
  nextOffset := by rw [accords.nextOffset, accords.records, List.length_map]
  metrics := accords.metrics

end Accords

/-! ## A whole run -/

/-- A caller leaves the producer as the script has it, whatever its callbacks do. -/
theorem Caller.run_plays (caller : Caller) {p : Scripted} {h : History} (accords : p.Accords h) :
    (caller.run (p, h)).1.Accords (caller.run (p, h)).2 ∧ Plays h (caller.run (p, h)).2 := by
  induction caller generalizing p h with
  | done => exact ⟨accords, .refl h⟩
  | look next ih =>
    have seen : p.Accords (.looked p :: h) := { accords with }
    obtain ⟨ends, plays⟩ := ih p seen
    exact ⟨ends, .trans (.look p h accords.shows) plays⟩
  | failNext operation error next ih =>
    obtain ⟨ends, plays⟩ := ih (accords.failNext operation error)
    exact ⟨ends, .trans (.queue operation error h) plays⟩
  | failDeliveries error next ih =>
    obtain ⟨ends, plays⟩ := ih (accords.failDeliveries error)
    exact ⟨ends, .trans (.failDeliveries error h) plays⟩
  | call request plain next ih =>
    obtain ⟨asked, reply⟩ := accords.respond request
    have replied : (p.respond request).1.Accords
        (.replied (p.respond request).2 :: .asked request :: h) := { asked with }
    obtain ⟨ends, plays⟩ := ih (p.respond request).2 replied
    refine ⟨ends, .trans ?_ plays⟩
    cases due : (h.pending request.operation).head? with
    | some error =>
      rw [due] at reply
      rw [reply]
      exact .fails request due
    | none =>
      rw [due] at reply
      rw [reply]
      exact .works request plain (List.head?_eq_none_iff.mp due)
  | send record callback next ihCallback ihNext =>
    rcases accords.send record with ⟨q, error, refused, due, asked⟩ | ⟨q, accepted, clear, told⟩
    · have replied : q.Accords (.replied (.error error) :: .asked (.send record.topic) :: h) :=
        { asked with }
      obtain ⟨ends, plays⟩ := ihNext (.error error) replied
      simp only [Caller.run, submit, refused]
      exact ⟨ends, .trans (.fails (.send record.topic) due) plays⟩
    · obtain ⟨within, meanwhile⟩ := ihCallback (h.outcome record) told
      have replied : Accords _ (.replied (.ok ()) :: .delivered :: _) := { within with }
      obtain ⟨ends, plays⟩ := ihNext (.ok ()) replied
      simp only [Caller.run, submit, accepted]
      exact ⟨ends, .trans (.accepts record clear meanwhile) plays⟩

/-- The offsets of the records that have been acknowledged count up from zero. -/
def History.Numbered (h : History) : Prop :=
  h.acknowledged.map (fun a => a.2.offset) = (List.range h.acknowledged.length).map Int.ofNat

theorem Plays.numbered {h later : History} (plays : Plays h later) (before : h.Numbered) :
    later.Numbered := by
  induction plays with
  | refl | look | queue | failDeliveries | fails | works => exact before
  | trans _ _ ih ih' => exact ih' (ih before)
  | @accepts record h within clear meanwhile ih =>
    refine ih ?_
    rw [History.Numbered, History.outcome]
    cases h.deliveryFailure? with
    | some error => exact before
    | none =>
      rw [History.Numbered] at before
      simp [History.acknowledged, before, List.range_succ]

/-- What a producer and its history are like after a caller has used it. -/
structure Follows (p : Scripted) (h : History) : Prop where
  plays : Plays [] h
  shows : p.Shows h
  numbered : h.Numbered

/-- Whatever callers do with a new producer, and their callbacks in the course of it, it follows its
script. -/
theorem follows_script (clientId : String) (caller : Caller) :
    let ends := caller.run ({ clientId := clientId }, [])
    ends.1.Follows ends.2 := by
  intro ends
  obtain ⟨accords, plays⟩ := caller.run_plays (Accords.new clientId)
  exact ⟨plays, accords.shows, plays.numbered rfl⟩

/-- The second send is accepted, and so is the one that its callback makes. -/
example :
    let record : Record := { topic := "t" }
    let again : Outcome → Caller := fun _ => .send record (fun _ => .done) fun _ => .done
    let caller : Caller := .failNext .send (.other "full") <|
      .send record again fun _ => .send record again fun _ => .done
    let ends := caller.run ({ clientId := "c" }, [])
    ends.1.count .send = 3 ∧ ends.2.acknowledged.map (fun a => a.2.offset) = [0, 1] := by
  decide +kernel

end Scripted

end ProducerPool
