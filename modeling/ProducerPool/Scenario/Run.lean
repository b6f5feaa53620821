import ProducerPool.Scenario.Stage

/-!
# Running a scenario

`perform` takes one step with a pool, given a way to run the scripts that stand inside steps.
`runScript` ties the knot: a script whose steps run scripts needs one level more than those, and
`Scenario.bound` levels are enough for a whole scenario.
-/

set_option autoImplicit false

namespace ProducerPool.Scenario

abbrev Staged := Pool Stage Mark

/-- Runs a script with the handle at hand, which `$` names.  If asked to stop at a failure it ends with
the first step that fails with an error of the pool, and returns that error. -/
abbrev ScriptRunner := Option Handle → Bool → List Step → Staged → Staged × Option PoolError

def onStage (f : Stage → Stage) (p : Staged) : Staged := { p with outside := f p.outside }

/-! ## The environment of a stage -/

def runCallback (run : ScriptRunner) (callback : Nat) (p : Staged) : Staged :=
  (run none false ((p.outside.callbacks[callback]?).getD []) p).1

def deliverTo (run : ScriptRunner) (d : Delivery) (outcome : Outcome) (p : Staged) : Staged :=
  p.deliver (fun callback _ p => runCallback run callback p) d outcome

def sendNow (run : ScriptRunner) (c : Connection) (record : Record) (d : Delivery) (p : Staged) :
    Staged × Reply :=
  Scripted.submit (fun p => p.outside.producer c) (fun q => onStage (·.setProducer c q)) record
    (deliverTo run d) p

/-- A send waits if its connection defers sends, and is passed on at once otherwise. -/
def acceptSend (run : ScriptRunner) (conn : Nat) (record : Record) (d : Delivery) (p : Staged) :
    Staged × Reply :=
  match p.outside.connection? conn with
  | none => (p, .ok ())
  | some c =>
    if c.deferred then
      (onStage (·.setConnection conn { c with waiting := c.waiting ++ [(record, d)] }) p, .ok ())
    else sendNow run c record d p

/-- A listener counts what it is told, runs its steps and then fails if it is to fail. -/
def hearNotice (run : ScriptRunner) (name : String) (notice : Notice) (p : Staged) :
    Staged × Option String :=
  let spec := p.outside.listenerSpec name
  if spec.mute then (p, none)
  else
    let (stage, script) := p.outside.hear name notice.kind
    let p := (run (some notice.handle) false script { p with outside := stage }).1
    (p, errorText spec.failure)

def environment (run : ScriptRunner) (refills : Nat) : Environment Stage Mark where
  connect := Stage.connect
  initTransactions := fun conn s => s.invoke conn .initTransactions
  metrics := Stage.metrics
  close := fun conn timeout s => s.invoke conn (.close timeout)
  call := fun conn call p =>
    let (s, reply) := p.outside.invoke conn call.toRaw
    ({ p with outside := s }, reply)
  send := acceptSend run
  listen := hearNotice run
  refills := refills

/-! ## Single steps -/

def ScriptedStep.perform (step : ScriptedStep) (q : Scripted) : Scripted × Answer :=
  let replied : Scripted × Reply → Scripted × Answer
    | (q, .ok ()) => (q, .ok)
    | (q, .error error) => (q, .clientFailure error)
  match step with
  | .call c => replied (q.respond c)
  | .send r => (q.send r).map id .sent
  | .failNext operation error => (q.failNext operation error, .ok)
  | .failDeliveries error => (q.failDeliveries error, .ok)
  | .calls => (q, .calls q.calls)
  | .count operation => (q, .count (q.count operation))
  | .records => (q, .records q.records)
  | .metrics => (q, .metrics q.metrics)
  | .clientId => (q, .text q.clientId)
  | .unknown => (q, .fault .badInput)

section

variable (E : Environment Stage Mark)

/-- Puts a handle in the caller's hands into a slot; the one that was there is let go of.  Without a
slot the handle itself is let go of. -/
def put (slot : Option String) (h : Handle) (p : Staged) : Staged :=
  match slot with
  | none => p.drop E h
  | some name =>
    let old := SortedMap.find? name p.outside.slots
    let p := onStage (fun s => { s with slots := SortedMap.insert textBefore name h s.slots }) p
    match old with
    | none => p
    | some old => p.drop E old

/-- The handle that a name stands for: `$` is the one at hand, `given`, if there is one; otherwise the
name is that of a slot. -/
def lookup (given : Option Handle) (name : String) (p : Staged) : Option Handle :=
  (if name = "$" then given else none).or (SortedMap.find? name p.outside.slots)

/-- A step on the handle that a name stands for, which the step holds until it ends. -/
def onHandle (given : Option Handle) (name : String) (f : Handle → Staged → Staged × Answer)
    (p : Staged) : Staged × Answer :=
  match lookup given name p with
  | none => (p, .fault .noHandle)
  | some h =>
    let (p, answer) := f h (p.hold h)
    (p.drop E h, answer)

/-- A step on the factory, which is held only while it works: if the caller gave it up meanwhile, it is
gone before the step goes on with what it got. -/
def onFactory (f : Staged → Staged × Answer) (p : Staged) : Staged × Answer :=
  if p.outside.hasFactory then f p else (p, .fault .noFactory)

/-- A step on a connection that came about. -/
def onConnection (conn : Nat) (f : Connection → Staged → Staged × Answer) (p : Staged) :
    Staged × Answer :=
  match p.outside.connection? conn with
  | none => (p, .fault .noRaw)
  | some c => f c p

/-- The answer of a call that yields nothing of its own. -/
def answered : Staged × Except PoolError Unit → Answer → Staged × Answer
  | (p, .ok ()), answer => (p, answer)
  | (p, .error error), _ => (p, .failed error)

/-- A new handle is described and then goes into its slot. -/
def received (slot : Option String) : Staged × Except PoolError Handle → Staged × Answer
  | (p, .ok h) => (put E slot h p, .info (p.get h.producer))
  | (p, .error error) => (p, .failed error)

/-- The steps of a unit of work stand between two marks. -/
def execute (run : ScriptRunner) (scope : TransactionScope) (work : List Step) (propagate : Bool)
    (failure : Option PoolError) (value : Json) (p : Staged) : Staged × Answer :=
  if p.factory.config.isTransactional then
    let unit := fun (h : Handle) (p : Staged) =>
      let (p, stopped) := run (some h) propagate work (p.mark .workBegan)
      (p.mark .workEnded,
        match stopped.or failure with
        | some error => Except.error error
        | none => Except.ok value)
    match p.execute E scope unit with
    | (p, .ok value) => (p, .executed value scope p.factory.live)
    | (p, .error error) => (p, .failed error)
  else (p, .failed .notTransactional)

/-- Completes the oldest send that waits: with an error, or as its scripted producer decides. -/
def deliverNext (run : ScriptRunner) (conn : Nat) (failure : Option ClientError) (c : Connection)
    (p : Staged) : Staged × Answer :=
  match c.waiting with
  | [] => (p, .text "nothing")
  | (record, d) :: rest =>
    let c := { c with waiting := rest }
    let p := onStage (·.setConnection conn c) p
    match failure with
    | some error => (deliverTo run d (.error error) p, .ok)
    | none =>
      match sendNow run c record d p with
      | (p, .ok ()) => (p, .ok)
      | (p, .error error) => (p, .clientFailure error)

def detach (slot : Option String) (id : Option Nat) (transactionalId clientId : Option String)
    (key : String) (p : Staged) : Staged × Answer :=
  match Pool.callConnect E (.pooled key) [] p with
  | (p, _, .error error) => (p, .failed (.client error))
  | (p, conn, .ok ()) =>
    let (p, r) := p.enlist
      { id := id.getD conn, conn := conn, transactionalId := transactionalId, clientId := clientId,
        placement := .pooled key, epoch := 0, owned := false }
    received E slot (p.hold ⟨r, 0⟩, .ok ⟨r, 0⟩)

def dropAll (hs : List Handle) (p : Staged) : Staged := hs.foldl (fun p h => p.drop E h) p

def ofHandles (p : Staged) (hs : List Handle) : List Nat := hs.map fun h => (p.get h.producer).id

def setStore (store : Cache Handle) (p : Staged) : Staged :=
  onStage (fun s => { s with store := store }) p

/-- One step, whose `$` is `given`. -/
def perform (run : ScriptRunner) (given : Option Handle) (step : Step) (p : Staged) :
    Staged × Answer :=
  match step with
  | .create slot => p |> onFactory fun p => received E slot (p.create E p.outside.current)
  | .createFor slot scope => p |> onFactory fun p => received E slot (p.createFor E scope)
  | .reset => p |> onFactory fun p => (p.reset E, .nothing)
  | .destroy => p |> onFactory fun p => (p.destroy E, .nothing)
  | .closeBound => p |> onFactory fun p => (p.closeBound E p.outside.current, .nothing)
  | .lifecycle event => p |> onFactory fun p => (p.onHostEvent E event, .nothing)
  | .isDestroyed => p |> onFactory fun p => (p, .flag p.factory.destroyed)
  | .closeFor scope => p |> onFactory fun p =>
    match p.closeFor E scope with
    | (p, .ok n) => (p, .count n)
    | (p, .error error) => (p, .failed error)
  | .cachedCount key => p |> onFactory fun p => (p, .count (p.factory.cache.length key))
  | .stats => p |> onFactory fun p => (p, .text p.stats.text)
  | .config => p |> onFactory fun p => (p, .config p.factory.config)
  | .addListener name => p |> onFactory fun p =>
    (onStage (fun s => { s with heard := match SortedMap.find? name s.heard with
      | some _ => s.heard
      | none => SortedMap.insert textBefore name {} s.heard }) (p.addListener name), .ok)
  | .removeListener name =>
    match SortedMap.find? name p.outside.heard with
    | none => (p, .fault .noListener)
    | some _ => p |> onFactory fun p => (p.removeListener name).map id .flag
  | .listeners => p |> onFactory fun p => (p, .texts p.factory.listeners)
  | .dropFactory =>
    if p.outside.hasFactory then
      ((onStage (fun s => { s with hasFactory := false }) p).dropFactory E, .flag true)
    else (p, .flag false)
  | .execute scope work propagate failure value =>
    p |> onFactory (Pool.withFactory E (execute E run scope work propagate failure value))
  | .call name call => p |> onHandle E given name fun h p => answered (p.operate E h call) .nothing
  | .send name record callback => p |> onHandle E given name fun h p =>
    let number := p.outside.callbacks.length
    let p := onStage (fun s => { s with callbacks := s.callbacks ++ [callback] }) p
    answered (p.send E h record number) .ok
  | .metrics name => p |> onHandle E given name fun h p =>
    match p.metrics E h with
    | .ok ms => (p, .metrics ms)
    | .error error => (p, .failed error)
  | .close name timeout => p |> onHandle E given name fun h p => (p.close E h timeout, .ok)
  | .info name => p |> onHandle E given name fun h p => (p, .info (p.get h.producer))
  | .debug name => p |> onHandle E given name fun h p =>
    (p, .text ((p.get h.producer).describe h.lease))
  | .same first second =>
    match lookup given first p, lookup given second p with
    | some a, some b => (p, .flag (a.producer = b.producer))
    | _, _ => (p, .fault .noHandle)
  | .clone name slot =>
    match lookup given name p with
    | none => (p, .fault .noHandle)
    | some h => (put E slot h (p.hold h), .ok)
  | .drop name =>
    match SortedMap.find? name p.outside.slots with
    | none => (p, .flag false)
    | some h =>
      ((onStage (fun s => { s with slots := SortedMap.erase name s.slots }) p).drop E h, .flag true)
  | .dropHandles =>
    let hs := p.outside.slots.map Prod.snd
    (dropAll E hs (onStage (fun s => { s with slots := [] }) p), .ok)
  | .scripted conn step => p |> onConnection conn fun c p =>
    let (q, answer) := step.perform (p.outside.producer c)
    (onStage (·.setProducer c q) p, answer)
  | .deliver conn failure => p |> onConnection conn (deliverNext run conn failure)
  | .detached slot id transactionalId clientId key =>
    detach E slot id transactionalId clientId key p
  | .park name => p |> onHandle E given name fun h p => (p.park h).map id .flag
  | .reopen name slot => p |> onHandle E given name fun h p =>
    match p.reopen? h with
    | none => (p, .flag false)
    | some (p, fresh) => (put E slot fresh (p.hold fresh), .flag true)
  | .shut name timeout => p |> onHandle E given name fun h p =>
    (p.shutHandle E h timeout).map id .flag
  | .storeRelease key name => p |> onHandle E given name fun h p =>
    match p.outside.store.offer? (fun h => (p.get h.producer).isSpoiled) key h with
    | none => (p, .rejected (p.get h.producer).id)
    | some store => (setStore store (p.hold h), .flag true)
  | .storeAcquire key slot =>
    match p.outside.store.pop? key with
    | none => (p, .id none)
    | some (h, store) => (put E slot h (setStore store p), .id (some (p.get h.producer).id))
  | .storeEnsure key => (setStore (p.outside.store.ensure key) p, .nothing)
  | .storeRemove key name => p |> onHandle E given name fun h p =>
    match p.outside.store.extract? (fun parked => parked.producer = h.producer) key with
    | none => (p, .flag false)
    | some (parked, store) => ((setStore store p).drop E parked, .flag true)
  | .storeDrain key =>
    let (hs, store) := p.outside.store.drain key
    (dropAll E hs (setStore store p), .ids (ofHandles p hs))
  | .storeDrainAll =>
    let (hs, store) := p.outside.store.drainAll
    let hs := hs.mergeSort fun a b => (p.get a.producer).id ≤ (p.get b.producer).id
    (dropAll E hs (setStore store p), .ids (ofHandles p hs))
  | .storeCounts key =>
    let store := p.outside.store
    (p, .storeCounts (store.length key) store.total store.keyCount)
  | .unknown => (p, .fault .badInput)

end

/-! ## Scripts and scenarios -/

def takeStep (E : Environment Stage Mark) (run : ScriptRunner) (given : Option Handle) (step : Step)
    (p : Staged) : Staged × Option PoolError :=
  let (p, answer) := perform E run given step (p.mark (.began step.sweeps))
  (p.mark (.ended answer none),
    match answer with
    | .failed error => some error
    | _ => none)

def takeSteps (E : Environment Stage Mark) (run : ScriptRunner) (given : Option Handle)
    (stopAtFailure : Bool) : List Step → Staged → Staged × Option PoolError
  | [], p => (p, none)
  | step :: rest, p =>
    match takeStep E run given step p with
    | (p, some error) =>
      if stopAtFailure then (p, some error) else takeSteps E run given stopAtFailure rest p
    | (p, none) => takeSteps E run given stopAtFailure rest p

/-- Runs scripts that nest at most `levels` deep; deeper ones do nothing. -/
def runScript (refills : Nat) : Nat → ScriptRunner
  | 0 => fun _ _ _ p => (p, none)
  | levels + 1 => fun given stopAtFailure script p =>
    let run := runScript refills levels
    takeSteps (environment run refills) run given stopAtFailure script p

/-- The answer to a turn goes into the journal with the state of the factory after it. -/
def concludeTurn : Staged × Answer → Staged
  | (p, answer) => p.mark (.ended answer (if p.outside.hasFactory then some p.stats else none))

def takeTurn (bound : Nat) (p : Staged) : Turn → Staged
  | .step thread step =>
    let run := runScript bound bound
    let p := (onStage (·.enterThread thread) p).mark (.began step.sweeps)
    concludeTurn (perform (environment run bound) run none step p)
  | .endThread thread =>
    let p := p.mark (.began false)
    let (stage, inUse) := p.outside.endThread thread
    concludeTurn ({ p with outside := stage }, .flag inUse)

/-- The turns with which every scenario ends, all on the main thread. -/
def closingTurns : List Turn := [.step 0 .dropHandles, .step 0 .dropFactory, .step 0 .storeDrainAll]

def initial (s : Scenario) : Except PoolError Staged :=
  let stage := fun hasFactory =>
    { connector := s.connector, listeners := s.listeners, hasFactory := hasFactory : Stage }
  match s.config with
  | none => .ok { Pool.new {} (stage false) with owners := 0 }
  | some config => config.accept?.map fun config => Pool.new config (stage true)

/-- The pool after all turns; a configuration that is not accepted ends the scenario at once. -/
def run (s : Scenario) : Except PoolError Staged :=
  s.initial.map fun p =>
    (s.turns ++ closingTurns).foldl (takeTurn s.bound) p

end ProducerPool.Scenario
