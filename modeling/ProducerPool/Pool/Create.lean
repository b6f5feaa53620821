import ProducerPool.Pool.Use

/-!
# Handing out producers

A factory hands out producers under one of three policies: one producer that every caller shares, one
producer per calling thread, and transactional producers that are pooled per key.  Under each of them a
producer is handed out again only if it is open, has no failure and is of the current generation; one
that is not is disposed of and a new one takes its place.
-/

set_option autoImplicit false

namespace ProducerPool.Pool

variable {σ μ : Type}

/-- The properties of one connection: the client id, where one is configured, is made unique by the id
of the producer, and a transactional producer is told its transactional id. -/
def connectionProperties (config : Config) (id : Nat) (transactionalId : Option String) :
    Properties :=
  let properties := match (config.properties.get? clientIdKey).bind Json.text? with
    | some base => config.properties.set clientIdKey (.text (base ++ "-" ++ toString id))
    | none => config.properties
  match transactionalId with
  | some txid => properties.set transactionalIdKey (.text txid)
  | none => properties

/-- The id under which listeners know a client. -/
def listenerId (config : Config) (clientId : String) : String :=
  match config.name with
  | some name => name ++ "." ++ clientId
  | none => clientId

def drawTransactionalId (idPrefix : String) (p : Pool σ μ) : Pool σ μ × String :=
  (p.onFactory fun f => { f with sequence := f.sequence + 1 },
    idPrefix ++ toString p.factory.sequence)

/-- Connects; a transactional connection is initialised too, and closed again if that fails. -/
def establish (E : Environment σ μ) (placement : Placement) (id : Nat)
    (transactionalId : Option String) (p : Pool σ μ) : Pool σ μ × Except ClientError Nat :=
  match callConnect E placement (connectionProperties p.factory.config id transactionalId) p with
  | (p, _, .error error) => (p, .error error)
  | (p, conn, .ok ()) =>
    if transactionalId.isNone then (p, .ok conn)
    else
      match callInit E conn p with
      | (p, .ok ()) => (p, .ok conn)
      | (p, .error error) =>
        match callClose E conn p.factory.config.closeTimeout p with
        | (p, .ok ()) => (p, .error error)
        | (p, .error closeError) => (p.log (.closeAfterInitFailed closeError), .error error)

/-- Builds a producer of the factory.  The operation in progress holds its handle; listeners have not
been told yet. -/
def build (E : Environment σ μ) (placement : Placement) (transactionalId : Option String)
    (p : Pool σ μ) : Pool σ μ × Except ClientError Handle :=
  let id := p.factory.nextId
  match establish E placement id transactionalId
      (p.onFactory fun f => { f with nextId := f.nextId + 1 }) with
  | (p, .error error) => (p, .error error)
  | (p, .ok conn) =>
    let clientId := (Metric.clientId? (E.metrics conn p.outside)).map (listenerId p.factory.config)
    let (p, r) := (p.onFactory fun f => { f with live := f.live + 1 }).enlist
      { id := id, conn := conn, transactionalId := transactionalId, clientId := clientId,
        placement := placement, epoch := p.factory.epoch, owned := true }
    (p.lend ⟨r, 0⟩, .ok ⟨r, 0⟩)

/-! ## The shared producer -/

/-- A new shared producer takes the place of the one before, which is then disposed of. -/
def renewShared (E : Environment σ μ) (p : Pool σ μ) : Pool σ μ × Except PoolError Handle :=
  match build E .shared none p with
  | (p, .error error) => (p, .error (.client error))
  | (p, .ok h) =>
    let stale := p.factory.shared
    let p := p.onFactory fun f => { f with shared := some h }
    let p := match stale with
      | none => p
      | some s => ((p.pin s).retire E s p.factory.config.closeTimeout).unpin E s
    (p.tellAll E .added h, .ok h)

/-- The shared producer, a new one if there is none that is usable. -/
def obtainShared (E : Environment σ μ) (p : Pool σ μ) : Pool σ μ × Except PoolError Handle :=
  match p.factory.shared with
  | none => renewShared E p
  | some h => if p.isUsable h then (p.pin h, .ok h) else renewShared E p

/-! ## Producers of threads -/

def seat (t : ThreadId) (h : Handle) (p : Pool σ μ) : Pool σ μ :=
  p.onFactory fun f => { f with threads := (f.threads.filter fun entry => entry.1 ≠ t) ++ [(t, h)] }

/-- Binds a handle to a thread; a handle that was bound to it meanwhile is let go of. -/
def bindThread (E : Environment σ μ) (t : ThreadId) (h : Handle) (p : Pool σ μ) : Pool σ μ :=
  match p.factory.threads.lookup t with
  | none => p.seat t h
  | some old => (p.seat t h).settle E old.producer

/-- The transactional id of the next producer for a thread, if it is to have one. -/
def nameBound (p : Pool σ μ) : Pool σ μ × Option String :=
  match p.factory.config.idPrefix with
  | none => (p, none)
  | some idPrefix => (p.drawTransactionalId idPrefix).map id some

def renewBound (E : Environment σ μ) (t : ThreadId) (p : Pool σ μ) :
    Pool σ μ × Except PoolError Handle :=
  let (p, transactionalId) := p.nameBound
  match build E (.thread t) transactionalId p with
  | (p, .error error) => (p, .error (.client error))
  | (p, .ok h) => ((p.bindThread E t h).tellAll E .added h, .ok h)

/-- The producer of a thread, which is then checked out; an unusable one is disposed of before a new one
is built. -/
def obtainBound (E : Environment σ μ) (t : ThreadId) (p : Pool σ μ) :
    Pool σ μ × Except PoolError Handle :=
  match p.factory.threads.lookup t with
  | none => renewBound E t p
  | some h =>
    let p := (p.modify h.producer fun q => { q with checkedOut := true }).pin h
    if p.isUsable h then (p, .ok h)
    else
      let p := (p.unbind t h.producer).retire E h p.factory.config.closeTimeout
      renewBound E t (p.unpin E h)

/-! ## Pooled producers -/

/-- Whether a parked producer may be handed out to a request that began in the generation `epoch`. -/
def isReusable (p : Pool σ μ) (epoch : Nat) (h : Handle) : Bool :=
  let q := p.get h.producer
  q.epoch = epoch && !q.isSpoiled

/-- Takes the oldest usable producer of a queue and disposes of the unusable ones before it; at most
`fuel` producers are looked at. -/
def takeParked (E : Environment σ μ) (key : String) (epoch : Nat) :
    Nat → Pool σ μ → Pool σ μ × Option Handle
  | 0, p => (p, none)
  | fuel + 1, p =>
    match p.factory.cache.pop? key with
    | none => (p, none)
    | some (h, cache) =>
      let p := p.onFactory fun f => { f with cache := cache }
      match if p.isReusable epoch h then p.reopen? h else none with
      | some (p, fresh) => (p.lend fresh, some fresh)
      | none =>
        let p := (p.pin h).retire E h p.factory.config.closeTimeout
        takeParked E key epoch fuel (p.unpin E h)

/-- The most producers that a search of a queue can meet. -/
def parkedBound (E : Environment σ μ) (key : String) (p : Pool σ μ) : Nat :=
  p.factory.cache.length key + E.refills + 1

def namePooled (k : Config.PoolKey) (p : Pool σ μ) : Pool σ μ × String :=
  if k.perPartition then (p, k.key) else p.drawTransactionalId k.idPrefix

def renewPooled (E : Environment σ μ) (k : Config.PoolKey) (p : Pool σ μ) :
    Pool σ μ × Except PoolError Handle :=
  let (p, transactionalId) := p.namePooled k
  match build E (.pooled k.key) (some transactionalId) p with
  | (p, .error error) => (p, .error (.client error))
  | (p, .ok h) =>
    let p := p.onFactory fun f => { f with cache := f.cache.ensure k.key }
    (p.tellAll E .added h, .ok h)

/-- A producer from the queue of the scope, or a new one. -/
def obtainPooled (E : Environment σ μ) (scope : TransactionScope) (p : Pool σ μ) :
    Pool σ μ × Except PoolError Handle :=
  match p.factory.config.poolKey scope with
  | .error error => (p, .error error)
  | .ok k =>
    match takeParked E k.key p.factory.epoch (p.parkedBound E k.key) p with
    | (p, some h) => (p, .ok h)
    | (p, none) => renewPooled E k p

/-! ## Requests -/

/-- A producer for the calling thread under the policy of the configuration.  Binding to threads wins
over transactions. -/
def obtain (E : Environment σ μ) (t : ThreadId) (p : Pool σ μ) : Pool σ μ × Except PoolError Handle :=
  if p.factory.destroyed then (p, .error .factoryDestroyed)
  else if p.factory.config.perThread then obtainBound E t p
  else if p.factory.config.isTransactional then obtainPooled E .empty p
  else obtainShared E p

def obtainFor (E : Environment σ μ) (scope : TransactionScope) (p : Pool σ μ) :
    Pool σ μ × Except PoolError Handle :=
  if p.factory.destroyed then (p, .error .factoryDestroyed) else obtainPooled E scope p

def handOverResult (result : Pool σ μ × Except PoolError Handle) : Pool σ μ × Except PoolError Handle :=
  match result with
  | (p, .ok h) => (p.handOver h, .ok h)
  | (p, .error error) => (p, .error error)

def create (E : Environment σ μ) (t : ThreadId) (p : Pool σ μ) : Pool σ μ × Except PoolError Handle :=
  p.withFactory E fun p => handOverResult (p.obtain E t)

def createFor (E : Environment σ μ) (scope : TransactionScope) (p : Pool σ μ) :
    Pool σ μ × Except PoolError Handle :=
  p.withFactory E fun p => handOverResult (p.obtainFor E scope)

end ProducerPool.Pool
