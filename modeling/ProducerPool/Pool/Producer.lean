import ProducerPool.Raw
import ProducerPool.Text.Quoted

/-!
# Producers and handles

A `Producer` is one physical producer: a connection with the state that all handles to it share.
Producers are kept in a list that only grows, and a `Ref` is a place in it, so two handles mean the
same producer exactly when their references agree.

A `Handle` is what callers hold: a reference and a lease.  The lease of a producer moves on every
time the producer leaves the pool again, so handles from before can be told from the current ones.
-/

set_option autoImplicit false

namespace ProducerPool

/-- A place in the list of producers. -/
abbrev Ref := Nat

abbrev ThreadId := Nat

/-- Where a producer lives between uses. -/
inductive Placement where
  | shared
  | thread (id : ThreadId)
  | pooled (key : String)
deriving DecidableEq

inductive Phase where
  /-- Usable under the current lease. -/
  | opened
  /-- Parked, waiting for the next caller. -/
  | cached
  /-- The connection is closed, for good. -/
  | disposed
deriving DecidableEq, Repr

/-- A clone of a handle is an equal handle. -/
structure Handle where
  producer : Ref
  lease : Nat
deriving DecidableEq, Repr

structure Producer where
  id : Nat
  conn : Nat
  transactionalId : Option String
  /-- The id that listeners are told. -/
  clientId : Option String
  placement : Placement
  /-- The generation in which the producer was built. -/
  epoch : Nat
  /-- Whether it was built by the factory and is accounted for there. -/
  owned : Bool
  phase : Phase := .opened
  lease : Nat := 0
  /-- The first error that made the producer unusable. -/
  failure : Option ClientError := none
  /-- Handed to a caller and not closed since; meaningful for producers of threads only. -/
  checkedOut : Bool := true
deriving DecidableEq

namespace Producer

/-- What stands where there is no producer: one that is closed and that nobody accounts for. -/
def absent : Producer :=
  { id := 0, conn := 0, transactionalId := none, clientId := none, placement := .shared, epoch := 0,
    owned := false, phase := .disposed, checkedOut := false }

instance : Inhabited Producer := ⟨absent⟩

def isSpoiled (q : Producer) : Bool := q.failure.isSome

def isTransactional (q : Producer) : Bool := q.transactionalId.isSome

/-- The closed copy of a lost producer that listeners are shown; nobody accounts for it. -/
def closedCopy (q : Producer) : Producer :=
  { q with owned := false, phase := .disposed, lease := 0, checkedOut := false }

/-- Why a handle under `lease` may not operate, if it may not. -/
def refusal? (q : Producer) (lease : Nat) : Option PoolError :=
  match q.phase with
  | .opened => if q.lease = lease then none else some (.returned q.id)
  | .cached => some (.returned q.id)
  | .disposed => some (.closed q.id)

end Producer

def Phase.text : Phase → String
  | .opened => "Open"
  | .cached => "Cached"
  | .disposed => "Disposed"

/-- The one-line description of a handle under `lease`. -/
def Producer.describe (q : Producer) (lease : Nat) : String :=
  "ProducerHandle \x7b id: " ++ toString q.id ++
    ", transactional_id: " ++ Text.quotedOption q.transactionalId ++
    ", client_id: " ++ Text.quotedOption q.clientId ++
    ", state: " ++ q.phase.text ++
    ", lease: " ++ toString lease ++ " \x7d"

end ProducerPool
