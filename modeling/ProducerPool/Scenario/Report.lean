import ProducerPool.Scenario.Run

/-!
# The report of a scenario

A report is read off the journal: for every step its answer and the events that happened in it, and for
every event in which steps were taken those steps with their events, inside it.

Where a step closed several producers of one class, the order among them is free, so the report sorts
them by connection: the events of the step are cut into blocks that begin with a close, and adjacent
blocks of one class are put in order.
-/

set_option autoImplicit false

namespace ProducerPool.Scenario

/-- An event as it is shown.  `steps` are the steps taken in it, each with its answer and events. -/
inductive Shown where
  | connect (conn : Nat) (properties : Properties)
  | raw (conn : Nat) (call : RawCall)
  | notice (listener : String) (notice : Notice) (shown : Producer)
      (steps : List (Answer × List Shown))
  | callback (outcome : Outcome) (steps : List (Answer × List Shown))
  | work (steps : List (Answer × List Shown))
  | log (line : LogLine)

structure Entry where
  answer : Answer
  events : List Shown
  stats : Option Pool.Stats

/-! ## The order of closes -/

/-- The connections' placements, as the journal tells them. -/
def placements (journal : List (Event Mark)) : List (Nat × Placement) :=
  journal.filterMap fun
    | .connecting conn placement _ => some (conn, placement)
    | _ => none

inductive CloseClass where
  | shared
  | thread
  | cached
deriving DecidableEq

def closeClass (classes : List (Nat × Placement)) (conn : Nat) : CloseClass :=
  match classes.lookup conn with
  | some .shared => .shared
  | some (.thread _) => .thread
  | _ => .cached

structure Block where
  conn : Nat
  events : List Shown

/-- The events before the first close, and the blocks. -/
def cut : List Shown → List Shown × List Block
  | [] => ([], [])
  | event :: rest =>
    let (front, blocks) := cut rest
    match event with
    | .raw conn (.close _) => ([], ⟨conn, event :: front⟩ :: blocks)
    | _ => (event :: front, blocks)

/-- Sorts each run of adjacent blocks of one class. -/
def sortBlocks (classes : List (Nat × Placement)) (blocks : List Block) : List Block :=
  let groups := blocks.splitBy fun a b => closeClass classes a.conn = closeClass classes b.conn
  groups.flatMap fun group => group.mergeSort fun a b => a.conn ≤ b.conn

def sortCloses (classes : List (Nat × Placement)) (events : List Shown) : List Shown :=
  let (front, blocks) := cut events
  front ++ (sortBlocks classes blocks).flatMap Block.events

/-! ## From the journal to the report -/

/-- What is open at a place in the journal; parts are kept last part first. -/
inductive Frame where
  | step (sweeps : Bool) (events : List Shown)
  | notice (listener : String) (notice : Notice) (shown : Producer)
      (steps : List (Answer × List Shown))
  | callback (outcome : Outcome) (steps : List (Answer × List Shown))
  | work (steps : List (Answer × List Shown))

structure Reading where
  frames : List Frame := []
  entries : List Entry := []

namespace Reading

def add (event : Shown) (r : Reading) : Reading :=
  match r.frames with
  | .step sweeps events :: outer => { r with frames := .step sweeps (event :: events) :: outer }
  | _ => r

def begin (frame : Frame) (r : Reading) : Reading := { r with frames := frame :: r.frames }

/-- A step has ended: it goes into the event it was taken in, or into the report. -/
def endStep (classes : List (Nat × Placement)) (answer : Answer) (stats : Option Pool.Stats)
    (r : Reading) : Reading :=
  match r.frames with
  | .step sweeps events :: outer =>
    let events := if sweeps then sortCloses classes events.reverse else events.reverse
    match outer with
    | .notice listener notice shown steps :: outer =>
      { r with frames := .notice listener notice shown ((answer, events) :: steps) :: outer }
    | .callback outcome steps :: outer =>
      { r with frames := .callback outcome ((answer, events) :: steps) :: outer }
    | .work steps :: outer => { r with frames := .work ((answer, events) :: steps) :: outer }
    | outer => { r with frames := outer, entries := ⟨answer, events, stats⟩ :: r.entries }
  | _ => r

/-- The innermost event has ended; that of a mute listener is not shown. -/
def endEvent (isMute : String → Bool) (r : Reading) : Reading :=
  match r.frames with
  | .notice listener notice shown steps :: outer =>
    let r := { r with frames := outer }
    if isMute listener then r else r.add (.notice listener notice shown steps.reverse)
  | .callback outcome steps :: outer =>
    { r with frames := outer }.add (.callback outcome steps.reverse)
  | .work steps :: outer => { r with frames := outer }.add (.work steps.reverse)
  | _ => r

def next (classes : List (Nat × Placement)) (isMute : String → Bool) (r : Reading) :
    Event Mark → Reading
  | .requested _ | .connected .. | .replied .. | .leased _ => r
  | .connecting conn _ properties => r.add (.connect conn properties)
  | .called conn call => r.add (.raw conn call)
  | .notifying listener notice shown => r.begin (.notice listener notice shown [])
  | .notified .. => r.endEvent isMute
  | .delivering _ outcome => r.begin (.callback outcome [])
  | .delivered _ => r.endEvent isMute
  | .logged line => r.add (.log line)
  | .marked (.began sweeps) => r.begin (.step sweeps [])
  | .marked (.ended answer stats) => r.endStep classes answer stats
  | .marked .workBegan => r.begin (.work [])
  | .marked .workEnded => r.endEvent isMute

end Reading

/-- The report of a journal, whose latest event comes first. -/
def reportOf (isMute : String → Bool) (journal : List (Event Mark)) : List Entry :=
  let classes := placements journal
  (journal.reverse.foldl (Reading.next classes isMute) {}).entries.reverse

def report (s : Scenario) : Except PoolError (List Entry) :=
  s.run.map fun p => reportOf (fun name => (p.outside.listenerSpec name).mute) p.journal

end ProducerPool.Scenario
