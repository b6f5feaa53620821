import ProducerPool.Pool.Basic

/-!
# How long producers and the factory live

A producer lives as long as a handle to it is left: in a caller's hands, with an operation in progress,
or among the handles of the factory.  When the last one goes, a producer that is still open or parked
is closed, and the factory, if it still exists, accounts for the loss and tells its listeners.

The factory lives as long as a caller or an operation holds it.  When it goes, the producers that only
it kept are closed, and nobody is told.
-/

set_option autoImplicit false

namespace ProducerPool.Pool

variable {σ μ : Type}

/-! ## Notifications -/

/-- Tells one listener; its error is only logged. -/
def tell (E : Environment σ μ) (notice : Notice) (p : Pool σ μ) (listener : String) : Pool σ μ :=
  let p := p.record (.notifying listener notice (p.get notice.handle.producer))
  let (p, failure) := E.listen listener notice p
  let p := p.record (.notified listener notice)
  match failure with
  | none => p
  | some message => p.log (.listenerFailed notice.kind notice.id message)

/-- Tells every listener that is registered now, in order of registration, about a producer that has a
client id. -/
def tellAll (E : Environment σ μ) (kind : NoticeKind) (h : Handle) (p : Pool σ μ) : Pool σ μ :=
  match (p.get h.producer).clientId with
  | none => p
  | some id => p.factory.listeners.foldl (tell E ⟨kind, id, h⟩) p

/-! ## Closing a connection -/

/-- Marks a producer as closed and closes its connection; a failure to close is only logged. -/
def shut (E : Environment σ μ) (r : Ref) (timeout : Duration) (p : Pool σ μ) : Pool σ μ :=
  let q := p.get r
  let (p, reply) := callClose E q.conn timeout (p.modify r fun q => { q with phase := .disposed })
  match reply with
  | .ok () => p
  | .error error => p.log (.closeFailed q.id error)

/-- Closes a producer of the factory, accounts for it and tells the listeners.  Nothing happens to one
that is closed already. -/
def retire (E : Environment σ μ) (h : Handle) (timeout : Duration) (p : Pool σ μ) : Pool σ μ :=
  if (p.get h.producer).phase = .disposed then p
  else
    ((p.shut E h.producer timeout).onFactory fun f => { f with live := f.live - 1 }).tellAll
      E .removed h

def retireAll (E : Environment σ μ) (timeout : Duration) (hs : List Handle) (p : Pool σ μ) :
    Pool σ μ :=
  hs.foldl (fun p h => p.retire E h timeout) p

/-! ## The factory's own life -/

/-- Whether no handle to a producer is left although it is not closed. -/
def isLost (p : Pool σ μ) (r : Ref) : Bool :=
  !p.referenced r && (p.get r).phase ≠ .disposed

def shutLost (E : Environment σ μ) (r : Ref) (p : Pool σ μ) : Pool σ μ :=
  if p.isLost r then p.shut E r defaultCloseTimeout else p

/-- The end of the factory: its handles go one after the other, and a producer is closed when the last
handle to it goes. -/
def teardown (E : Environment σ μ) (p : Pool σ μ) : Pool σ μ :=
  p.factory.handles.foldl
    (fun p h => shutLost E h.producer { p with pinned := p.pinned.erase h })
    (p.factory.handles.foldl (fun p h => p.pin h) (p.onFactory Factory.emptied))

/-- Nothing happens while anybody holds the factory. -/
def teardownIfUnowned (E : Environment σ μ) (p : Pool σ μ) : Pool σ μ :=
  if p.alive then p else p.teardown E

def shareFactory (p : Pool σ μ) : Pool σ μ := { p with owners := p.owners + 1 }

def dropFactory (E : Environment σ μ) (p : Pool σ μ) : Pool σ μ :=
  if p.owners = 0 then p else teardownIfUnowned E { p with owners := p.owners - 1 }

/-- An operation that keeps the factory alive while it is in progress. -/
def withFactory {α : Type} (E : Environment σ μ) (f : Pool σ μ → Pool σ μ × α) (p : Pool σ μ) :
    Pool σ μ × α :=
  let (p, a) := f { p with running := p.running + 1 }
  (teardownIfUnowned E { p with running := p.running - 1 }, a)

def withinFactory (E : Environment σ μ) (f : Pool σ μ → Pool σ μ) (p : Pool σ μ) : Pool σ μ :=
  (withFactory E (fun p => (f p, ())) p).1

/-! ## Letting go of handles -/

/-- The factory accounts for a producer that was lost; listeners are shown a closed copy of it. -/
def reportLost (E : Environment σ μ) (r : Ref) (p : Pool σ μ) : Pool σ μ :=
  let (p, copy) := (p.onFactory fun f => { f with live := f.live - 1 }).enlist (p.get r).closedCopy
  let p := (p.pin ⟨copy, 0⟩).tellAll E .removed ⟨copy, 0⟩
  { p with pinned := p.pinned.erase ⟨copy, 0⟩ }

/-- What happens to a producer after a handle to it has gone. -/
def settle (E : Environment σ μ) (r : Ref) (p : Pool σ μ) : Pool σ μ :=
  if p.isLost r then
    let p := p.shut E r defaultCloseTimeout
    if (p.get r).owned && p.alive then p.withinFactory E (reportLost E r) else p
  else p

def drop (E : Environment σ μ) (h : Handle) (p : Pool σ μ) : Pool σ μ :=
  settle E h.producer { p with held := p.held.erase h }

def unpin (E : Environment σ μ) (h : Handle) (p : Pool σ μ) : Pool σ μ :=
  settle E h.producer { p with pinned := p.pinned.erase h }

def unpinAll (E : Environment σ μ) (hs : List Handle) (p : Pool σ μ) : Pool σ μ :=
  hs.foldl (fun p h => p.unpin E h) p

/-- An operation on a handle holds it until it is done. -/
def withHandle {α : Type} (E : Environment σ μ) (h : Handle) (f : Pool σ μ → Pool σ μ × α)
    (p : Pool σ μ) : Pool σ μ × α :=
  let (p, a) := f (p.pin h)
  (p.unpin E h, a)

end ProducerPool.Pool
