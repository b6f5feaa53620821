import ProducerPool.Proofs.Identity
import ProducerPool.Proofs.Transactions
import ProducerPool.Proofs.Unused

/-!
# Units of work from beginning to end

`execute` attempts three calls through the handle that it obtains: it begins, and once the work is over
it commits or aborts, whichever the outcome asks for, and never both.  An attempt is refused where the
work has given the handle away; otherwise the raw call is made once.  What `execute` returns follows from
the outcome and from these answers alone, and when it returns the handle may not operate any more.

A producer on which the raw begin has failed is closed, provided that the handle still has it: if the raw
begin has had the handle closed, the producer may be parked by then, and it is not looked at again.
-/

set_option autoImplicit false

namespace ProducerPool

variable {σ : Type} {E : Environment σ Snapshot} {p q m b w c : Pool σ Snapshot} {h : Handle}
  {call : HandleCall}

/-! ## Attempts -/

/-- From `p` to `q` a call has been attempted once through the handle, with this result.  Beside what the
raw call itself runs, nothing else has been called on the connection. -/
inductive Attempts (E : Environment σ Snapshot) (h : Handle) (call : HandleCall)
    (p q : Pool σ Snapshot) : Except PoolError Unit → Prop
  | refused (error : PoolError) (refusal : p.refusal? h = some error)
      (unused : Unused (p.get h.producer).conn p.journal q.journal) :
      Attempts E h call p q (.error error)
  | answered (m : Pool σ Snapshot) (reply : Reply) (between : List (Event Snapshot))
      (may : p.refusal? h = none)
      (asked : E.call (p.get h.producer).conn call
        ((p.pin h).record (.called (p.get h.producer).conn call.toRaw)) = (m, reply))
      (ran : m.journal = between ++ .called (p.get h.producer).conn call.toRaw :: p.journal)
      (unused : Unused (p.get h.producer).conn
        (.replied (p.get h.producer).conn call.toRaw.operation reply :: m.journal) q.journal) :
      Attempts E h call p q (reply.mapError .client)

/-- The code that the raw call of an operation runs does not close the handle. -/
def Pool.CallSpares (E : Environment σ Snapshot) (h : Handle) (call : HandleCall) (p : Pool σ Snapshot) :
    Prop :=
  let asking := (p.pin h).record (.called (p.get h.producer).conn call.toRaw)
  Abstains (fun x => x = h) asking.look (E.call (p.get h.producer).conn call asking).1

theorem Attempts.widen {answer : Except PoolError Unit} (attempts : Attempts E h call p q answer)
    (unused : Unused (p.get h.producer).conn q.journal w.journal) : Attempts E h call p w answer := by
  cases attempts with
  | refused error refusal before => exact .refused error refusal (before.trans unused)
  | answered m reply between may asked ran before =>
    exact .answered m reply between may asked ran (before.trans unused)

namespace Pool

theorem spoilBy_unused {conn : Nat} (h : Handle) (call : HandleCall) (reply : Reply)
    (p : Pool σ Snapshot) : Unused conn p.journal (p.spoilBy h call reply).journal := by
  rcases reply with error | done
  · dsimp only [spoilBy]
    split
    · unfold spoil
      dsimp only
      split
      · exact .refl p.journal
      · exact ⟨[_], rfl, by simp [Event.uses, Event.calls]⟩
    · exact .refl p.journal
  · exact .refl p.journal

/-- To operate is to attempt the call once. -/
theorem operate_attempts (tame : E.Tame) (audited : p.Audited) (ordered : p.Ordered)
    (there : h ∈ p.handles) (call : HandleCall) :
    Attempts E h call p (p.operate E h call).1 (p.operate E h call).2 := by
  cases refused : p.refusal? h with
  | some error =>
    rw [operate_refused refused]
    exact .refused error refused (.refl p.journal)
  | none =>
    rcases asked : E.call (p.get h.producer).conn call
      ((p.pin h).record (.called (p.get h.producer).conn call.toRaw)) with ⟨m, reply⟩
    rw [operate_eq refused asked]
    have inside := ordered.genuine.inside there
    have called := callHandle_balanced (p := p.pin h) tame refused call
    rw [show callHandle E ((p.pin h).get h.producer).conn call (p.pin h) =
      (m.record (.replied (p.get h.producer).conn call.toRaw.operation reply), reply) by
        simp only [callHandle, show ((p.pin h).get h.producer).conn = (p.get h.producer).conn from rfl,
          asked]] at called
    have grown := tame _ (.call (p.get h.producer).conn call)
      ((p.pin h).record (.called (p.get h.producer).conn call.toRaw))
    rw [asked] at grown
    obtain ⟨between, whole⟩ := (Later.of_path grown.path).journal
    refine .answered m reply between refused asked whole.symm ?_
    have heeded := ((pin_leads there).path.trans called.path).trans (spoilBy_balanced h call reply _).path
    have released := unpin_unused tame (audited.path heeded) h
    rw [((Later.of_path heeded).get inside).conn] at released
    exact (spoilBy_unused h call reply _).trans released

/-! ## The end of the work -/

section Work

variable {α : Type} {work : Handle → Pool σ Snapshot → Pool σ Snapshot × Except PoolError α}
  {scope : TransactionScope}

theorem conclude_unused {conn : Nat} (E : Environment σ Snapshot) (h : Handle)
    (outcome : Except PoolError α) (p : Pool σ Snapshot) :
    Unused conn (p.operate E h (.ending outcome)).1.journal (p.conclude E h outcome).1.journal := by
  rcases outcome with error | value
  · simp only [conclude, HandleCall.ending]
    rcases p.operate E h .abort with ⟨q, abortError | done⟩
    · exact ⟨[_], rfl, by simp [Event.uses, Event.calls]⟩
    · exact .refl q.journal
  · simp only [conclude, HandleCall.ending]
    rcases p.operate E h .commit with ⟨q, commitError | done⟩ <;> exact .refl q.journal

theorem conclude_ok (E : Environment σ Snapshot) (h : Handle) (value : α) (p : Pool σ Snapshot) :
    (p.conclude E h (.ok value)).2 = (p.operate E h .commit).2.map fun _ => value := by
  simp only [conclude]
  rcases p.operate E h .commit with ⟨q, error | done⟩ <;> rfl

theorem conclude_error (E : Environment σ Snapshot) (h : Handle) (error : PoolError)
    (p : Pool σ Snapshot) : (p.conclude E h (.error error : Except PoolError α)).2 = .error error := by
  simp only [conclude]
  rcases p.operate E h .abort with ⟨q, abortError | done⟩ <;> rfl

/-- What comes after the transaction uses the connection no more. -/
theorem execute_unused (tame : E.Tame) (audited : (m.transact E work h).1.Audited)
    (yields : obtainFor E scope { p with running := p.running + 1 } = (m, .ok h)) :
    Unused ((m.transact E work h).1.get h.producer).conn (m.transact E work h).1.journal
        (p.execute E scope work).1.journal ∧
      (p.execute E scope work).2 = (m.transact E work h).2 := by
  simp only [execute, withFactory, yields]
  exact ⟨(unpin_unused tame audited h).trans (teardownIfUnowned_unused E _), trivial⟩

/-! ## Producers on which no transaction could begin -/

theorem takeBack_disposed (tame : E.Tame) (timeout : Duration) (inside : h.producer < p.producers.length)
    (unparked : (p.get h.producer).phase ≠ .cached) (unfit : p.isHealthy h = false) :
    ((p.takeBack E h timeout).get h.producer).phase = .disposed := by
  unfold takeBack
  dsimp only
  split
  case isTrue shut =>
    cases phase : (p.get h.producer).phase with
    | opened => exact absurd phase shut
    | cached => exact absurd phase unparked
    | disposed => rfl
  case isFalse =>
    rw [if_neg (by simp [unfit])]
    split
    · exact retire_disposed tame timeout inside
    · exact retire_disposed (p := p.unshare h.producer) tame timeout inside
    · rename_i t _
      exact retire_disposed (p := p.unbind t h.producer) tame timeout inside

/-- A producer that is not fit to be kept is closed when it is handed back under its lease. -/
theorem close_disposed (tame : E.Tame) (timeout : Option Duration)
    (inside : h.producer < p.producers.length) (lease : (p.get h.producer).lease = h.lease)
    (unparked : p.alive = true → (p.get h.producer).phase ≠ .cached) (unfit : p.isHealthy h = false) :
    ((p.close E h timeout).get h.producer).phase = .disposed := by
  unfold close
  rw [if_neg (by simp [lease])]
  split
  case isTrue accounted =>
    have taken := takeBack_disposed (p := { p.pin h with running := (p.pin h).running + 1 }) tame
      (timeout.getD (p.pin h).factory.config.closeTimeout) inside
      (unparked (Bool.and_eq_true_iff.mp accounted).2) unfit
    have kept := takeBack_balanced (p := { p.pin h with running := (p.pin h).running + 1 }) tame
      (timeout.getD (p.pin h).factory.config.closeTimeout) List.mem_cons_self
      (alive_of_running (Nat.succ_pos _))
    have known := Nat.lt_of_lt_of_le inside (Later.of_path kept.path).producers.length
    exact ((Later.of_path (takenBack_path tame h _ p)).get known).disposed taken
  case isFalse =>
    unfold shutHandle
    split
    case isTrue disposed => exact disposed
    case isFalse =>
      obtain ⟨outside, events, -, shut⟩ := shut_eq E h.producer (timeout.getD defaultCloseTimeout) p
      have closed := get_closed h.producer h.producer outside events p
      rw [if_pos ⟨rfl, inside⟩] at closed
      rw [shut]
      exact congrArg Producer.phase closed

/-- An operation that holds the handle more than once lets go of one clone. -/
theorem unpin_eq (still : h ∈ p.pinned.erase h) :
    p.unpin E h = { p with pinned := p.pinned.erase h } := by
  have kept : ({ p with pinned := p.pinned.erase h } : Pool σ Snapshot).isLost h.producer = false :=
    isLost_of_pinned (p := { p with pinned := p.pinned.erase h }) still
  unfold unpin settle
  rw [if_neg (by simp [kept])]

/-- Where the caller keeps a clone of the handle, the operation only lets go of its own. -/
theorem operate_released (tame : E.Tame) (there : h ∈ p.pinned) (may : p.refusal? h = none) {reply : Reply}
    (asked : E.call (p.get h.producer).conn call
      ((p.pin h).record (.called (p.get h.producer).conn call.toRaw)) = (m, reply)) :
    ∃ pins, (p.operate E h call).1 = { (m.record (.replied (p.get h.producer).conn call.toRaw.operation
      reply)).spoilBy h call reply with pinned := pins } := by
  have grown := tame _ (.call (p.get h.producer).conn call)
    ((p.pin h).record (.called (p.get h.producer).conn call.toRaw))
  rw [asked] at grown
  rw [operate_eq may asked]
  generalize answers : m.record (.replied (p.get h.producer).conn call.toRaw.operation reply) = n
  have pins : ((n.spoilBy h call reply).pinned : Multiset Handle) = h ::ₘ p.pinned := by
    rw [(spoilBy_balanced h call reply n).pinned, ← answers]
    exact grown.pinned
  have still : h ∈ (n.spoilBy h call reply).pinned.erase h := by
    rw [← Multiset.mem_coe, ← Multiset.coe_erase, pins, Multiset.erase_cons_head]
    exact there
  exact ⟨_, unpin_eq still⟩

/-- A raw begin leaves the producer with the handle if the code that it runs does not close the handle. -/
theorem begin_taken (tame : E.Tame) (regular : p.Regular) (there : h ∈ p.pinned)
    (may : p.refusal? h = none) (spares : p.CallSpares E h .begin) :
    (p.operate E h .begin).1.Taken h := by
  obtain ⟨opened, current⟩ := refusal?_eq_none.mp may
  have inside := regular.ordered.genuine.inside (mem_handles_of_pinned there)
  -- Nothing but a close of the handle parks the producer or renews its lease, and the code abstains.
  have taken : (takenInvariant h).holds [] p := ⟨regular, inside, current, by simp [opened]⟩
  have held := (takenInvariant h).pin taken (mem_handles_of_pinned there)
  have called : (takenInvariant h).holds []
      ((p.pin h).record (.called (p.get h.producer).conn HandleCall.begin.toRaw)) :=
    Invariant.rest held (.call (p.pin h) h _ may (by simp [HandleCall.toRaw, RawCall.operation]))
      (.note (p.pin h) _ rfl) rfl
  have ran := spares.preserves (I := takenInvariant h) (fun _ other => other) (fun _ _ => trivial)
    (Invariant.look called)
  rcases asked : E.call (p.get h.producer).conn .begin
    ((p.pin h).record (.called (p.get h.producer).conn HandleCall.begin.toRaw)) with ⟨m, reply⟩
  rw [asked] at ran
  have noted : (takenInvariant h).holds []
      (m.record (.replied (p.get h.producer).conn HandleCall.begin.toRaw.operation reply)) :=
    Invariant.note ran _ rfl rfl
  have spoiled : (takenInvariant h).holds [] ((m.record (.replied (p.get h.producer).conn
      HandleCall.begin.toRaw.operation reply)).spoilBy h .begin reply) := by
    rcases reply with error | done
    · simp only [spoilBy, HandleCall.spoils, if_true]
      exact Invariant.spoil noted _ _
    · exact noted
  obtain ⟨pins, released⟩ := operate_released tame there may asked
  rw [released]
  exact ⟨spoiled.2.inside, spoiled.2.lease, spoiled.2.unparked⟩

end Work

end Pool

/-! ## Units of work in a run -/

/-- How a unit of work goes for which the handle has been obtained in `m`; `execute` returns the result
in `q`. -/
structure Executed {α : Type} (E : Environment σ Snapshot)
    (work : Handle → Pool σ Snapshot → Pool σ Snapshot × Except PoolError α)
    (m : Pool σ Snapshot) (h : Handle) (q : Pool σ Snapshot) (result : Except PoolError α) : Prop where
  begun : ∀ b, m.operate E h .begin = (b, .ok ()) → Attempts E h .begin m b (.ok ())
  /-- Where nothing begins, nothing is committed or aborted. -/
  refused : ∀ b error, m.operate E h .begin = (b, .error error) →
    Attempts E h .begin m q (.error error) ∧ result = .error (.cannotCreateTransaction error)
  /-- The producer on which the raw begin has failed is closed if it is still with the handle. -/
  closed : ∀ b error, m.operate E h .begin = (b, .error error) → m.refusal? h = none → b.Taken h →
    (q.get h.producer).phase = .disposed
  /-- It is still with the handle unless the code that the raw begin runs closes the handle. -/
  kept : m.refusal? h = none → m.CallSpares E h .begin → (m.operate E h .begin).1.Taken h
  committed : ∀ b w value, m.operate E h .begin = (b, .ok ()) → work h b = (w, .ok value) →
    ∃ answer, Attempts E h .commit w q answer ∧ result = answer.map fun _ => value
  aborted : ∀ b w error, m.operate E h .begin = (b, .ok ()) → work h b = (w, .error error) →
    (∃ answer, Attempts E h .abort w q answer) ∧ result = .error error
  /-- No clone of the handle may operate. -/
  spent : q.refusal? h ≠ none

namespace Pool

section Work

variable {α : Type} {work : Handle → Pool σ Snapshot → Pool σ Snapshot × Except PoolError α}
  {scope : TransactionScope} {outcome : Except PoolError α}

/-- Where the transaction could not begin, all that follows is the close of the handle. -/
theorem refused_attempts (tame : E.Tame) (works : ∀ h p, Balanced p (work h p).1)
    (audited : m.Audited) (ordered : m.Ordered) (there : h ∈ m.pinned) {error : PoolError}
    (yields : obtainFor E scope { p with running := p.running + 1 } = (m, .ok h))
    (begins : m.operate E h .begin = (b, .error error)) :
    Attempts E h .begin m (p.execute E scope work).1 (.error error) ∧
      (p.execute E scope work).2 = .error (.cannotCreateTransaction error) := by
  have handle := mem_handles_of_pinned there
  have inside := ordered.genuine.inside handle
  have transacted : m.transact E work h =
      (b.close E h none, .error (.cannotCreateTransaction error)) := by
    simp only [transact, begins]
  have attempts := operate_attempts tame audited ordered handle .begin
  have first := operate_balanced tame handle .begin
  rw [begins] at attempts first
  have whole := transact_balanced tame works there
  obtain ⟨tail, same⟩ := execute_unused tame (audited.path whole.path) yields
  rw [((Later.of_path whole.path).get inside).conn, transacted] at tail
  have still : h ∈ b.pinned := (first.mem_pinned h).mpr there
  have closes := close_unused tame (audited.path first.path) (mem_handles_of_pinned still)
    (Nat.lt_of_lt_of_le inside (Later.of_path first.path).producers.length) none
  rw [((Later.of_path first.path).get inside).conn] at closes
  exact ⟨attempts.widen (closes.trans tail), by rw [same, transacted]⟩

/-- The producer is closed then, if the raw begin has left it with the handle. -/
theorem refused_closed (tame : E.Tame) (works : ∀ h p, Balanced p (work h p).1) (regular : m.Regular)
    (there : h ∈ m.pinned) {error : PoolError}
    (yields : obtainFor E scope { p with running := p.running + 1 } = (m, .ok h))
    (begins : m.operate E h .begin = (b, .error error)) (may : m.refusal? h = none) (taken : b.Taken h) :
    ((p.execute E scope work).1.get h.producer).phase = .disposed := by
  have handle := mem_handles_of_pinned there
  obtain ⟨reply, -, accepted, spoils⟩ := operate_answered tame regular.ordered handle may .begin
  have first := operate_balanced tame handle .begin
  rw [begins] at accepted spoils first
  have spoiled : (b.get h.producer).isSpoiled = true := by
    rcases reply with fault | done
    · exact spoils fault rfl rfl
    · cases accepted.mpr rfl
  have disposed := close_disposed tame none taken.inside taken.lease (fun _ => taken.unparked)
    (by simp [isHealthy, spoiled])
  have still : h ∈ b.pinned := (first.mem_pinned h).mpr there
  have closes := close_balanced tame (mem_handles_of_pinned still) none
  have leaves := (execute_path tame works yields).2
  rw [show (m.transact E work h).1 = b.close E h none by simp only [transact, begins]] at leaves
  have known := Nat.lt_of_lt_of_le taken.inside (Later.of_path closes.path).producers.length
  exact ((Later.of_path leaves).get known).disposed disposed

/-- Where the work has ended, the call that its outcome asks for is attempted. -/
theorem ended_attempts (tame : E.Tame) (works : ∀ h p, Balanced p (work h p).1)
    (audited : m.Audited) (ordered : m.Ordered) (there : h ∈ m.pinned)
    (yields : obtainFor E scope { p with running := p.running + 1 } = (m, .ok h))
    (begins : m.operate E h .begin = (b, .ok ())) (worked : work h b = (w, outcome)) :
    Attempts E h (.ending outcome) w (p.execute E scope work).1
        (w.operate E h (.ending outcome)).2 ∧
      (p.execute E scope work).2 = (w.conclude E h outcome).2 := by
  have handle := mem_handles_of_pinned there
  have inside := ordered.genuine.inside handle
  have transacted : m.transact E work h =
      ((w.conclude E h outcome).1.close E h none, (w.conclude E h outcome).2) := by
    simp only [transact, begins, worked]
  have first := operate_balanced tame handle .begin
  have second := works h b
  rw [begins] at first
  rw [worked] at second
  have toWork := first.balanced second
  have still : h ∈ w.pinned := (toWork.mem_pinned h).mpr there
  have concluded := toWork.balanced (conclude_balanced tame still outcome)
  have yet : h ∈ (w.conclude E h outcome).1.pinned := (concluded.mem_pinned h).mpr there
  have conn {x : Pool σ Snapshot} (path : Path m x) :
      (x.get h.producer).conn = (m.get h.producer).conn := ((Later.of_path path).get inside).conn
  have attempts := operate_attempts tame (audited.path toWork.path) (ordered.path toWork.path)
    (mem_handles_of_pinned still) (.ending outcome)
  have whole := transact_balanced tame works there
  obtain ⟨tail, same⟩ := execute_unused tame (audited.path whole.path) yields
  rw [conn whole.path, transacted] at tail
  have closes := close_unused tame (audited.path concluded.path) (mem_handles_of_pinned yet)
    (Nat.lt_of_lt_of_le inside (Later.of_path concluded.path).producers.length) none
  rw [conn concluded.path] at closes
  refine ⟨attempts.widen ?_, by rw [same, transacted]⟩
  rw [conn toWork.path]
  exact ((conclude_unused E h outcome w).trans closes).trans tail

end Work

end Pool

theorem execute_attempts {config : Config} {α : Type} {scope : TransactionScope}
    {work : Handle → Pool σ Snapshot → Pool σ Snapshot × Except PoolError α}
    (visited : Visited config p) (lawful : E.Lawful) (owned : 0 < p.owners)
    (works : ∀ h p, Code p.look (work h p).1) :
    (∀ q error, p.createFor E scope = (q, .error error) →
      p.execute E scope work = (q, .error error)) ∧
      ∀ m h, Pool.obtainFor E scope { p with running := p.running + 1 } = (m, .ok h) →
        Executed E work m h (p.execute E scope work).1 (p.execute E scope work).2 ∧
          ((m.operate E h .begin).2 ≠ .ok () →
            ∀ other, p.execute E scope other = p.execute E scope work) := by
  have tame := lawful.tame
  have balanced := Code.works_balanced works
  refine ⟨fun q error refuses => ?_, fun m h yields => ⟨?_, fun failed other => ?_⟩⟩
  · rcases answer : Pool.obtainFor E scope { p with running := p.running + 1 } with ⟨m, fault | h⟩
    · simp only [Pool.createFor, Pool.withFactory, answer, Pool.handOverResult] at refuses
      simp only [Pool.execute, Pool.withFactory, answer]
      rw [← (Prod.mk.inj refuses).1, Except.error.inj (Prod.mk.inj refuses).2]
    · simp only [Pool.createFor, Pool.withFactory, answer, Pool.handOverResult] at refuses
      cases (Prod.mk.inj refuses).2
  · obtain ⟨⟨outside, path⟩, there, -⟩ := visited.obtains tame owned yields
    have audited := (Pool.Audited.new config outside).path path
    have regular := (Pool.Regular.new config outside).path path
    have handle := Pool.mem_handles_of_pinned there
    have inside := regular.ordered.genuine.inside handle
    constructor
    case begun =>
      intro b begins
      have attempts := Pool.operate_attempts tame audited regular.ordered handle .begin
      rwa [begins] at attempts
    case refused =>
      intro b error begins
      exact Pool.refused_attempts tame balanced audited regular.ordered there yields begins
    case closed =>
      intro b error begins may taken
      exact Pool.refused_closed tame balanced regular there yields begins may taken
    case kept =>
      intro may spares
      exact Pool.begin_taken tame regular there may spares
    case committed =>
      intro b w value begins worked
      obtain ⟨attempts, same⟩ := Pool.ended_attempts tame balanced audited regular.ordered there yields
        begins worked
      exact ⟨_, attempts, by rw [same, Pool.conclude_ok]; rfl⟩
    case aborted =>
      intro b w error begins worked
      obtain ⟨attempts, same⟩ := Pool.ended_attempts tame balanced audited regular.ordered there yields
        begins worked
      exact ⟨⟨_, attempts⟩, by rw [same, Pool.conclude_error]⟩
    case spent =>
      obtain ⟨outside', entered⟩ := visited.enters owned
      have placed : ∃ key, (m.get h.producer).placement = .pooled key := by
        obtain ⟨k, -, pools⟩ := Pool.obtainFor_pools tame yields
        exact ⟨k.key, pools.placed ((Pool.Ordered.new config outside').path entered)⟩
      obtain ⟨key, pooled⟩ := placed
      have inert := Pool.execute_spent tame balanced ((Pool.Ordered.new config outside').path entered)
        yields pooled
      -- An open producer has been handed out again, under a later lease than that of the handle.
      intro may
      obtain ⟨opened, current⟩ := Pool.refusal?_eq_none.mp may
      have outdated := inert.ended opened
      omega
  · rcases answer : m.operate E h .begin with ⟨b, error | done⟩
    · simp only [Pool.execute, Pool.withFactory, yields, Pool.transact, answer]
    · exact absurd (by rw [answer]) failed

/-- Every raw begin fails. -/
def Environment.stuck : Environment Unit Snapshot :=
  { Environment.quiet with
    call := fun _ call p => (p.look, if call = .begin then .error (.timeout "stuck") else .ok ()) }

theorem Environment.stuck_lawful : Environment.stuck.Lawful := by
  intro f runs p
  cases runs <;> exact .done p.look

/-- The work fails, and the abort that follows runs out of time; or nothing begins, and the producer is
closed. -/
theorem execute_attempts_slow :
    let config : Config := { idPrefix := some "a" }
    let work : Handle → Pool Unit Snapshot → Pool Unit Snapshot × Except PoolError Unit :=
      fun _ p => (p.look, .error .notTransactional)
    let p := (Pool.new config ()).look
    let m := (Pool.obtainFor .slow .empty { p with running := p.running + 1 }).1
    let b := (m.operate .slow ⟨0, 0⟩ .begin).1
    let q := (p.execute .slow .empty work).1
    let stuck := p.execute .stuck .empty work
    Visited config p ∧ 0 < p.owners ∧ (∃ answer, Attempts .slow ⟨0, 0⟩ .abort b.look q answer) ∧
      (p.execute .slow .empty work).2 = .error .notTransactional ∧ q.refusal? ⟨0, 0⟩ ≠ none ∧
        stuck.2 = .error (.cannotCreateTransaction (.client (.timeout "stuck"))) ∧
          (stuck.1.get 0).phase = .disposed := by
  intro config work p m b q stuck
  have visited : Visited config p := (Reached.start config ()).visited
  have works (h : Handle) (p : Pool Unit Snapshot) : Code p.look (work h p).1 := .done p.look
  have executed : Executed .slow work m ⟨0, 0⟩ q (p.execute .slow .empty work).2 :=
    ((execute_attempts visited Environment.slow_lawful (by decide) works).2 m ⟨0, 0⟩ (by rfl)).1
  obtain ⟨attempts, same⟩ := executed.aborted b b.look .notTransactional (by rfl) rfl
  let n := (Pool.obtainFor .stuck .empty { p with running := p.running + 1 }).1
  have failed : Executed .stuck work n ⟨0, 0⟩ stuck.1 stuck.2 :=
    ((execute_attempts visited Environment.stuck_lawful (by decide) works).2 n ⟨0, 0⟩ (by rfl)).1
  obtain ⟨-, refused⟩ := failed.refused _ (.client (.timeout "stuck")) (by rfl)
  have closed := failed.closed _ (.client (.timeout "stuck")) (by rfl) (by rfl)
    (failed.kept (by rfl) (.done _))
  exact ⟨visited, by decide, attempts, same, executed.spent, refused, closed⟩

/-! ## Handles that are closed meanwhile -/

/-- A raw commit that is called, whatever comes of it. -/
def Event.commits : Event Snapshot → Bool
  | .called _ .commitTransaction => true
  | _ => false

/-- Work that hands its producer back itself. -/
def handingBack (h : Handle) (p : Pool Unit Snapshot) : Pool Unit Snapshot × Except PoolError Unit :=
  (if p.look.Permits .quiet [.close h none] then p.look.perform .quiet [.close h none] else p.look, .ok ())

theorem handingBack_code (h : Handle) (p : Pool Unit Snapshot) : Code p.look (handingBack h p).1 := by
  dsimp only [handingBack]
  split
  case isTrue permits => exact .perform Environment.quiet_lawful _ permits
  case isFalse => exact .done p.look

/-- Whoever hears of a new producer keeps a clone of its handle.  The raw begin has the first one closed, as
the callback of a send that it completes can do, and fails. -/
def Environment.fickle : Environment Unit Snapshot :=
  { Environment.quiet with
    metrics := fun _ _ => [.ofParts "" "" 0 [(Metric.clientIdTag, "c")]]
    listen := fun _ notice p =>
      if p.look.Permits .quiet [.clone notice.handle] then
        (p.look.perform .quiet [.clone notice.handle], none)
      else (p.look, none)
    call := fun _ call p =>
      if call = .begin ∧ p.look.Permits .quiet [.close ⟨0, 0⟩ none] then
        (p.look.perform .quiet [.close ⟨0, 0⟩ none], .error (.other "late"))
      else (p.look, .ok ()) }

theorem Environment.fickle_lawful : Environment.fickle.Lawful := by
  intro f runs p
  cases runs with
  | send => exact .done p.look
  | call conn call =>
    dsimp only [Environment.fickle]
    split
    case isTrue both => exact .perform Environment.quiet_lawful _ both.2
    case isFalse => exact .done p.look
  | listen listener notice =>
    dsimp only [Environment.fickle]
    split
    case isTrue permits => exact .perform Environment.quiet_lawful _ permits
    case isFalse => exact .done p.look

/-- Work that has closed the handle and succeeded is followed by no raw commit; and a producer on which the
raw begin fails stays parked if the raw begin has closed the handle. -/
theorem execute_after_close :
    let config : Config := { idPrefix := some "a" }
    let p := (Pool.new config ()).look.perform .quiet [.addListener "l"]
    let worked := p.execute .quiet .empty handingBack
    let m := (Pool.obtainFor .fickle .empty { p with running := p.running + 1 }).1
    let failed := p.execute .fickle .empty handingBack
    Visited config p ∧ Environment.fickle.Lawful ∧ (∀ h q, Code q.look (handingBack h q).1) ∧
      worked.2 = .error (.returned 1) ∧ worked.1.journal.any Event.begins = true ∧
        worked.1.journal.any Event.commits = false ∧
          m.refusal? ⟨0, 0⟩ = none ∧ (m.operate .fickle ⟨0, 0⟩ .begin).2 = .error (.client (.other "late")) ∧
            (failed.1.get 0).phase = .cached := by
  intro config p worked m failed
  have reached := (Reached.start config ()).perform Environment.quiet_lawful [.addListener "l"]
    (by decide +kernel)
  exact ⟨reached.visited, Environment.fickle_lawful, handingBack_code, by decide +kernel,
    by decide +kernel, by decide +kernel, by decide +kernel, by decide +kernel, by decide +kernel⟩

end ProducerPool
