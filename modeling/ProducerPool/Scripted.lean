import ProducerPool.Raw

/-!
# Scripted producers

A raw producer that keeps everything in process.  It acknowledges records at once with increasing
offsets, keeps a journal of every call, and fails where it was told to: a failure queued for an
operation is used up by the next call of that operation, and a delivery failure stays.
-/

set_option autoImplicit false

namespace ProducerPool

structure Scripted where
  clientId : String
  calls : List RawCall := []
  /-- Failures still to come, in the order they were queued. -/
  failures : List (Operation × ClientError) := []
  deliveryFailure : Option ClientError := none
  records : List Record := []
  nextOffset : Nat := 0

namespace Scripted

/-- The next call of `operation` not yet due to fail fails with `error`. -/
def failNext (operation : Operation) (error : ClientError) (p : Scripted) : Scripted :=
  { p with failures := p.failures ++ [(operation, error)] }

/-- Every later delivery fails with `error`. -/
def failDeliveries (error : ClientError) (p : Scripted) : Scripted :=
  { p with deliveryFailure := some error }

def takeFailure (operation : Operation) :
    List (Operation × ClientError) → Option ClientError × List (Operation × ClientError)
  | [] => (none, [])
  | (op, error) :: rest =>
    if op = operation then (some error, rest)
    else
      let (found, left) := takeFailure operation rest
      (found, (op, error) :: left)

/-- Journals a call and lets it fail if a failure is queued for it. -/
def respond (call : RawCall) (p : Scripted) : Scripted × Reply :=
  let (failure, left) := takeFailure call.operation p.failures
  ({ p with calls := p.calls ++ [call], failures := left },
    match failure with
    | some error => .error error
    | none => .ok ())

/-- Takes a record: refused with an error, or accepted with the outcome that its callback is to be
told.  Only an acknowledged record is stored and takes an offset. -/
def send (record : Record) (p : Scripted) : Scripted × Except ClientError Outcome :=
  match p.respond (.send record.topic) with
  | (p, .error error) => (p, .error error)
  | (p, .ok ()) =>
    match p.deliveryFailure with
    | some error => (p, .ok (.error error))
    | none =>
      ({ p with records := p.records ++ [record], nextOffset := p.nextOffset + 1 },
        .ok (.ok ⟨record.topic, record.partition.getD 0, p.nextOffset⟩))

/-- Sends a record through the producer that stands in a larger state.  Only the callback of a send that
is accepted runs, before the send returns, and it may go on with the whole of that state. -/
def submit {σ : Type} (get : σ → Scripted) (set : Scripted → σ → σ) (record : Record)
    (callback : Outcome → σ → σ) (s : σ) : σ × Reply :=
  match (get s).send record with
  | (p, .error error) => (set p s, .error error)
  | (p, .ok outcome) => (callback outcome (set p s), .ok ())

def count (operation : Operation) (p : Scripted) : Nat :=
  p.calls.countP fun call => call.operation = operation

def metrics (p : Scripted) : List Metric :=
  [.ofParts "record-send-total" "producer-metrics" p.records.length [(Metric.clientIdTag, p.clientId)]]

/-! ## The queue of failures -/

/-- The failure taken is the oldest one of the operation. -/
theorem takeFailure_fst (operation : Operation) (failures : List (Operation × ClientError)) :
    (takeFailure operation failures).1 =
      ((failures.filter fun f => f.1 = operation).map Prod.snd).head? := by
  induction failures with
  | nil => rfl
  | cons failure rest ih =>
    obtain ⟨op, error⟩ := failure
    by_cases same : op = operation
    · simp [takeFailure, same]
    · simp [takeFailure, same, ih]

/-- Of the operation's own failures that one is gone, and those of the others are all left. -/
theorem takeFailure_snd (operation other : Operation) (failures : List (Operation × ClientError)) :
    ((takeFailure operation failures).2.filter fun f => f.1 = other) =
      if other = operation then (failures.filter fun f => f.1 = other).tail
      else failures.filter fun f => f.1 = other := by
  induction failures with
  | nil => simp [takeFailure]
  | cons failure rest ih =>
    obtain ⟨op, error⟩ := failure
    by_cases same : op = operation
    · subst same
      by_cases asked : other = op
      · simp [takeFailure, asked]
      · simp [takeFailure, asked, Ne.symm asked]
    · by_cases asked : op = other
      · subst asked
        simp [takeFailure, same] at ih ⊢
        simpa using ih
      · simp [takeFailure, same, asked, ih]

end Scripted

end ProducerPool
