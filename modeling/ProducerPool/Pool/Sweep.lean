import ProducerPool.Pool.Create

/-!
# Sweeping a factory

A sweep starts a new generation: it disposes of the shared producer, of every parked one and of every
producer of a thread that is not checked out.  Producers that are checked out are closed the next time
their owner touches them.  Destroying a factory sweeps it once, disposes of all producers of threads and
lets no further producer be built.
-/

set_option autoImplicit false

namespace ProducerPool.Pool

variable {σ μ : Type}

/-- Disposes of handles that the factory has given up; each is held until all are closed. -/
def retireTogether (E : Environment σ μ) (hs : List Handle) (p : Pool σ μ) : Pool σ μ :=
  ((hs.foldl (fun p h => p.pin h) p).retireAll E p.factory.config.closeTimeout hs).unpinAll E hs

/-- The handles that a sweep closes: shared, parked, and bound to threads but not checked out. -/
def idle (p : Pool σ μ) : List Handle :=
  p.factory.shared.toList ++ p.factory.cache.items ++
    (p.factory.threads.filter fun entry => !(p.get entry.2.producer).checkedOut).map Prod.snd

/-- Starts a new generation and gives up the idle handles. -/
def giveUpIdle (p : Pool σ μ) : Pool σ μ :=
  p.onFactory fun f =>
    { f with
      epoch := f.epoch + 1
      shared := none
      cache := f.cache.drainAll.2
      threads := f.threads.filter fun entry => (p.get entry.2.producer).checkedOut }

def sweep (E : Environment σ μ) (p : Pool σ μ) : Pool σ μ :=
  (p.giveUpIdle.log (.resetting p.idle.length)).retireTogether E p.idle

/-- Disposes of handles one after the other; each is let go of as soon as it is closed. -/
def retireInTurn (E : Environment σ μ) (timeout : Duration) (hs : List Handle) (p : Pool σ μ) :
    Pool σ μ :=
  hs.foldl (fun p h => (p.retire E h timeout).unpin E h) (hs.foldl (fun p h => p.pin h) p)

def retireBound (E : Environment σ μ) (p : Pool σ μ) : Pool σ μ :=
  (p.onFactory fun f => { f with threads := [] }).retireInTurn E p.factory.config.closeTimeout
    (p.factory.threads.map Prod.snd)

/-! ## Requests -/

/-- Every request to reset sweeps. -/
def reset (E : Environment σ μ) (p : Pool σ μ) : Pool σ μ :=
  (p.record (.requested .reset)).withinFactory E (sweep E)

/-- The factory is marked as destroyed before anything is closed, so code of the caller that runs
meanwhile gets no new producer. -/
def destroyNow (E : Environment σ μ) (p : Pool σ μ) : Pool σ μ :=
  ((p.onFactory fun f => { f with destroyed := true }).log .destroying |>.sweep E).retireBound E

/-- Only the first request to destroy does anything. -/
def destroy (E : Environment σ μ) (p : Pool σ μ) : Pool σ μ :=
  (p.record (.requested .destroy)).withinFactory E fun p =>
    if p.factory.destroyed then p else p.destroyNow E

/-- A stop sweeps once; further stops are ignored until a start is seen. -/
def onHostEvent (E : Environment σ μ) (event : HostEvent) (p : Pool σ μ) : Pool σ μ :=
  (p.record (.requested (.lifecycle event))).withinFactory E fun p =>
    match event with
    | .started => p.onFactory fun f => { f with stopHandled := false }
    | .stopped =>
      if p.factory.stopHandled then p
      else (p.onFactory fun f => { f with stopHandled := true }).sweep E

def closeBound (E : Environment σ μ) (t : ThreadId) (p : Pool σ μ) : Pool σ μ :=
  p.withinFactory E fun p =>
    match p.factory.threads.lookup t with
    | none => p
    | some h =>
      let p := (p.onFactory fun f =>
        { f with threads := f.threads.filter fun entry => entry.1 ≠ t }).pin h
      (p.retire E h p.factory.config.closeTimeout).unpin E h

/-- Closes the producers parked for one partition, which has been taken away, and tells how many. -/
def closeFor (E : Environment σ μ) (scope : TransactionScope) (p : Pool σ μ) :
    Pool σ μ × Except PoolError Nat :=
  p.withFactory E fun p =>
    match p.factory.config.poolKey scope with
    | .error error => (p, .error error)
    | .ok k =>
      if k.perPartition then
        let (handles, cache) := p.factory.cache.drain k.key
        let p := p.onFactory fun f => { f with cache := cache }
        (p.retireTogether E handles, .ok handles.length)
      else (p, .ok 0)

/-! ## Listeners and counts -/

/-- Registers a listener once more. -/
def addListener (listener : String) (p : Pool σ μ) : Pool σ μ :=
  p.onFactory fun f => { f with listeners := f.listeners ++ [listener] }

/-- Removes the first registration of a listener and tells whether there was one. -/
def removeListener (listener : String) (p : Pool σ μ) : Pool σ μ × Bool :=
  (p.onFactory fun f => { f with listeners := f.listeners.erase listener },
    p.factory.listeners.contains listener)

structure Stats where
  live : Nat
  cached : Nat
  cacheKeys : Nat
  threadBound : Nat
  hasShared : Bool
deriving DecidableEq, Repr

def stats (p : Pool σ μ) : Stats where
  live := p.factory.live
  cached := p.factory.cache.total
  cacheKeys := p.factory.cache.keyCount
  threadBound := p.factory.threads.length
  hasShared := p.factory.shared.isSome

def Stats.text (s : Stats) : String :=
  "Factory Stats: " ++ toString s.live ++ " live, " ++ toString s.cached ++ " cached across " ++
    toString s.cacheKeys ++ " key(s), " ++ toString s.threadBound ++
    " thread-bound, shared producer: " ++ toString s.hasShared

end ProducerPool.Pool
