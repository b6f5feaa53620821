import ProducerPool.Pool.Lifetime

/-!
# Working through a handle

A handle operates only while its producer is open under the lease of the handle; otherwise the call is
refused and nothing is asked of the raw producer.  The error of a raw call is passed on unchanged.  The
first error that makes a producer unusable is kept with it, and a delivery that fails so is recorded
before the callback of the send runs.
-/

set_option autoImplicit false

namespace ProducerPool.Pool

variable {σ μ : Type}

/-- Why a handle may not operate now, if it may not. -/
def refusal? (p : Pool σ μ) (h : Handle) : Option PoolError :=
  (p.get h.producer).refusal? h.lease

/-- Makes a producer unusable; only the first error counts. -/
def spoil (r : Ref) (error : ClientError) (p : Pool σ μ) : Pool σ μ :=
  let q := p.get r
  if q.isSpoiled then p
  else
    (p.log (.unusable q.id q.transactionalId error)).modify r fun q => { q with failure := some error }

def operate (E : Environment σ μ) (h : Handle) (call : HandleCall) (p : Pool σ μ) :
    Pool σ μ × Except PoolError Unit :=
  match p.refusal? h with
  | some refusal => (p, .error refusal)
  | none =>
    p.withHandle E h fun p =>
      match callHandle E (p.get h.producer).conn call p with
      | (p, .ok ()) => (p, .ok ())
      | (p, .error error) =>
        (if call.spoils error then p.spoil h.producer error else p, .error (.client error))

/-- Sends a record; `callback` is the number under which the caller knows what is to run on delivery. -/
def send (E : Environment σ μ) (h : Handle) (record : Record) (callback : Nat) (p : Pool σ μ) :
    Pool σ μ × Except PoolError Unit :=
  match p.refusal? h with
  | some refusal => (p, .error refusal)
  | none =>
    p.withHandle E h fun p =>
      match callSend E (p.get h.producer).conn record ⟨h.producer, callback⟩ p with
      | (p, .ok ()) => (p, .ok ())
      | (p, .error error) =>
        (if error.isFatal then p.spoil h.producer error else p, .error (.client error))

/-- Completes a delivery.  A fatal outcome makes the producer unusable if it still exists; then the
callback runs. -/
def deliver (callback : Nat → Outcome → Pool σ μ → Pool σ μ) (d : Delivery) (outcome : Outcome)
    (p : Pool σ μ) : Pool σ μ :=
  let p := match outcome with
    | .error error =>
      if error.isFatal && p.referenced d.producer then p.spoil d.producer error else p
    | .ok _ => p
  (callback d.callback outcome (p.record (.delivering d outcome))).record (.delivered d)

def metrics (E : Environment σ μ) (h : Handle) (p : Pool σ μ) : Except PoolError (List Metric) :=
  match p.refusal? h with
  | some refusal => .error refusal
  | none => .ok (E.metrics (p.get h.producer).conn p.outside)

/-! ## Parking and reopening -/

/-- Parks an open producer.  Fails if it is closed or parked already. -/
def park (h : Handle) (p : Pool σ μ) : Pool σ μ × Bool :=
  if (p.get h.producer).phase = .opened then
    (p.modify h.producer fun q => { q with phase := .cached }, true)
  else (p, false)

/-- Opens a parked producer under a fresh lease. -/
def reopen? (h : Handle) (p : Pool σ μ) : Option (Pool σ μ × Handle) :=
  let q := p.get h.producer
  if q.phase = .cached then
    some (p.modify h.producer fun q => { q with phase := .opened, lease := q.lease + 1 },
      ⟨h.producer, q.lease + 1⟩)
  else none

/-- Closes a producer without the factory's knowledge; false if it is closed already. -/
def shutHandle (E : Environment σ μ) (h : Handle) (timeout : Duration) (p : Pool σ μ) :
    Pool σ μ × Bool :=
  if (p.get h.producer).phase = .disposed then (p, false)
  else (p.shut E h.producer timeout, true)

/-! ## Closing a handle -/

/-- Whether a producer may be kept for the next caller. -/
def isHealthy (p : Pool σ μ) (h : Handle) : Bool :=
  let q := p.get h.producer
  !q.isSpoiled && q.epoch = p.factory.epoch && !p.factory.destroyed

/-- The factory's handle of a thread, if it is to this producer, is given up. -/
def unbind (t : ThreadId) (r : Ref) (p : Pool σ μ) : Pool σ μ :=
  p.onFactory fun f =>
    { f with threads := f.threads.filter fun entry => !(entry.1 = t && entry.2.producer = r) }

/-- The factory's shared handle, if it is to this producer, is given up. -/
def unshare (r : Ref) (p : Pool σ μ) : Pool σ μ :=
  p.onFactory fun f => { f with shared := f.shared.filter fun h => h.producer ≠ r }

/-- Whether a producer has been left behind by a new generation or by the end of the factory. -/
def isStale (p : Pool σ μ) (h : Handle) : Bool :=
  (p.get h.producer).epoch ≠ p.factory.epoch || p.factory.destroyed

/-- Disposes of a producer that has become outdated while it was parked, unless somebody else has taken
it out of its queue. -/
def pullBack (E : Environment σ μ) (h : Handle) (key : String) (timeout : Duration) (p : Pool σ μ) :
    Pool σ μ :=
  if p.isStale h then
    match p.factory.cache.extract? (fun parked => parked.producer = h.producer) key with
    | none => p
    | some (_, cache) => (p.onFactory fun f => { f with cache := cache }).retire E h timeout
  else p

/-- Parks a producer that has been found healthy at the back of the queue of its key.  One that the
queue refuses is disposed of, and so is one that has become outdated since. -/
def shelve (E : Environment σ μ) (h : Handle) (key : String) (timeout : Duration) (p : Pool σ μ) :
    Pool σ μ :=
  match p.park h with
  | (p, false) => p
  | (p, true) =>
    match p.factory.cache.offer? (fun parked => (p.get parked.producer).isSpoiled) key h with
    | none => p.retire E h timeout
    | some cache => (p.onFactory fun f => { f with cache := cache }).pullBack E h key timeout

/-- Takes a closed handle back: a healthy producer is kept where it belongs, any other is disposed of
and gives up its place. -/
def takeBack (E : Environment σ μ) (h : Handle) (timeout : Duration) (p : Pool σ μ) : Pool σ μ :=
  let q := p.get h.producer
  if q.phase ≠ .opened then p
  else if p.isHealthy h then
    match q.placement with
    | .pooled key => p.shelve E h key timeout
    | .shared => p
    | .thread _ => p.modify h.producer fun q => { q with checkedOut := false }
  else
    match q.placement with
    | .pooled _ => p.retire E h timeout
    | .shared => (p.unshare h.producer).retire E h timeout
    | .thread t => (p.unbind t h.producer).retire E h timeout

/-- Hands a producer back.  Only a handle with the current lease does anything; where no factory is left
the producer is closed. -/
def close (E : Environment σ μ) (h : Handle) (timeout : Option Duration) (p : Pool σ μ) : Pool σ μ :=
  if (p.get h.producer).lease ≠ h.lease then p
  else if (p.get h.producer).owned && p.alive then
    (p.withHandle E h fun p =>
      (p.withinFactory E (takeBack E h (timeout.getD p.factory.config.closeTimeout)), ())).1
  else (p.shutHandle E h (timeout.getD defaultCloseTimeout)).1

/-! ## Parking a healthy producer -/

section Shelving

variable {E : Environment σ μ} {h : Handle} {p : Pool σ μ}

theorem isHealthy_iff : p.isHealthy h = true ↔
    ((p.get h.producer).isSpoiled = false ∧ (p.get h.producer).epoch = p.factory.epoch) ∧
      p.factory.destroyed = false := by
  simp [isHealthy]

theorem pullBack_current (key : String) (timeout : Duration) (current : p.isStale h = false) :
    p.pullBack E h key timeout = p := by
  simp [pullBack, current]

/-- Nothing comes between the check and the queue here, so a healthy producer is neither refused nor
pulled back. -/
theorem shelve_healthy (key : String) (timeout : Duration) (opened : (p.get h.producer).phase = .opened)
    (healthy : p.isHealthy h = true) :
    p.shelve E h key timeout = (p.modify h.producer fun q => { q with phase := .cached }).onFactory
      fun f => { f with cache := f.cache.push key h } := by
  obtain ⟨⟨sound, current⟩, standing⟩ := isHealthy_iff.mp healthy
  generalize parked : (p.modify h.producer fun q => { q with phase := .cached }) = q
  have inside : h.producer < p.producers.length := lt_of_phase (by simp [opened])
  have get : q.get h.producer = { p.get h.producer with phase := .cached } := by
    rw [← parked]
    exact (getD_modify _ p.producers h.producer h.producer).trans (if_pos ⟨rfl, inside⟩)
  have factory : q.factory = p.factory := by rw [← parked]; rfl
  have accepted : q.factory.cache.offer? (fun parked => (q.get parked.producer).isSpoiled) key h =
      some (q.factory.cache.push key h) := by
    have unspoiled : (q.get h.producer).isSpoiled = false := by rw [get]; exact sound
    simp [Cache.offer?, unspoiled]
  have fresh : (q.onFactory fun f => { f with cache := q.factory.cache.push key h }).isStale h =
      false := by
    have kept : (q.onFactory fun f => { f with cache := q.factory.cache.push key h }).get h.producer =
        q.get h.producer := rfl
    rw [isStale, kept, get]
    simp [onFactory, factory, current, standing]
  simp only [shelve, park, opened, if_true, parked, accepted]
  exact pullBack_current key timeout fresh

end Shelving

end ProducerPool.Pool
