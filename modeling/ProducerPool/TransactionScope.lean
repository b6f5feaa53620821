/-!
# Transaction scopes

A scope says under which transactional id a unit of work runs: a prefix that overrides the configured
one, and a suffix, typically drawn from the consumed partition.
-/

set_option autoImplicit false

namespace ProducerPool

structure TransactionScope where
  idPrefix : Option String := none
  idSuffix : Option String := none
deriving DecidableEq, Repr

namespace TransactionScope

def empty : TransactionScope := {}

def withPrefix (s : String) (c : TransactionScope) : TransactionScope :=
  { c with idPrefix := some s }

def withSuffix (s : String) (c : TransactionScope) : TransactionScope :=
  { c with idSuffix := some s }

def withoutSuffix (c : TransactionScope) : TransactionScope := { c with idSuffix := none }

end TransactionScope

end ProducerPool
