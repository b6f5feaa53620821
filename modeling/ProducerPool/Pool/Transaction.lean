import ProducerPool.Pool.Sweep

/-!
# Units of work

`execute` runs a unit of work inside a transaction: it obtains a producer, begins, runs the work, then
commits, or aborts if the work failed, and hands the producer back.  The error of the work wins over
that of the abort; a producer on which no transaction could begin is handed back at once.
-/

set_option autoImplicit false

namespace ProducerPool.Pool

variable {σ μ α : Type}

/-- What becomes of the transaction once the work has ended. -/
def conclude (E : Environment σ μ) (h : Handle) (outcome : Except PoolError α) (p : Pool σ μ) :
    Pool σ μ × Except PoolError α :=
  match outcome with
  | .ok value =>
    match p.operate E h .commit with
    | (p, .ok ()) => (p, .ok value)
    | (p, .error error) => (p, .error error)
  | .error error =>
    match p.operate E h .abort with
    | (p, .ok ()) => (p, .error error)
    | (p, .error abortError) =>
      (p.log (.abortFailed (p.get h.producer).id abortError), .error error)

/-- The transaction on a producer that has been obtained for it. -/
def transact (E : Environment σ μ) (work : Handle → Pool σ μ → Pool σ μ × Except PoolError α)
    (h : Handle) (p : Pool σ μ) : Pool σ μ × Except PoolError α :=
  match p.operate E h .begin with
  | (p, .error error) => (p.close E h none, .error (.cannotCreateTransaction error))
  | (p, .ok ()) =>
    let (p, outcome) := work h p
    let (p, result) := p.conclude E h outcome
    (p.close E h none, result)

def execute (E : Environment σ μ) (scope : TransactionScope)
    (work : Handle → Pool σ μ → Pool σ μ × Except PoolError α) (p : Pool σ μ) :
    Pool σ μ × Except PoolError α :=
  p.withFactory E fun p =>
    match p.obtainFor E scope with
    | (p, .error error) => (p, .error error)
    | (p, .ok h) =>
      let (p, result) := p.transact E work h
      (p.unpin E h, result)

end ProducerPool.Pool
