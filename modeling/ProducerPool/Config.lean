import ProducerPool.TransactionScope
import ProducerPool.Duration
import ProducerPool.Error

/-!
# Pool configuration

A configuration is fixed once a pool is built from it.  `Config.accept?` is the gate: it normalises a
configuration and checks it.  A fixed transactional id among the properties would be shared by every
producer, so it is only ever used as the prefix that ids are made from.
-/

set_option autoImplicit false

namespace ProducerPool

/-- The bound on a close that no configuration limits. -/
def defaultCloseTimeout : Duration := .seconds 30

structure Config where
  properties : Properties := []
  /-- Makes the pool transactional; ids start with it. -/
  idPrefix : Option String := none
  perThread : Bool := false
  /-- Pool transactional producers per prefix and suffix rather than per prefix. -/
  perPartition : Bool := true
  closeTimeout : Duration := defaultCloseTimeout
  /-- Stands before the client ids that listeners are told. -/
  name : Option String := none

instance : Inhabited Config := ⟨{}⟩

/-- Property names that the pool itself reads or sets. -/
def transactionalIdKey : String := "transactional.id"

def clientIdKey : String := "client.id"

inductive ConfigFault where
  | emptyPrefix
  | zeroCloseTimeout
  | emptyName
deriving DecidableEq, Repr

def ConfigFault.message : ConfigFault → String
  | .emptyPrefix => "transaction_id_prefix cannot be empty"
  | .zeroCloseTimeout => "close_timeout must be > 0"
  | .emptyName => "factory_name cannot be empty"

namespace Config

/-- A transactional id among the properties becomes the prefix if it is a text, is not empty and no
prefix is set; it never stays among them. -/
def normalized (c : Config) : Config :=
  match c.properties.get? transactionalIdKey with
  | none => c
  | some value =>
    { c with
      properties := c.properties.remove transactionalIdKey
      idPrefix := c.idPrefix.or (value.text?.filter fun id => id ≠ "") }

def fault? (c : Config) : Option ConfigFault :=
  if c.idPrefix = some "" then some .emptyPrefix
  else if c.closeTimeout.isZero then some .zeroCloseTimeout
  else if c.name = some "" then some .emptyName
  else none

def accept? (c : Config) : Except PoolError Config :=
  match c.normalized.fault? with
  | some fault => .error (.configuration fault.message)
  | none => .ok c.normalized

theorem get?_normalized (c : Config) (key : String) :
    c.normalized.properties.get? key =
      if key = transactionalIdKey then none else c.properties.get? key := by
  unfold normalized
  split
  · rename_i absent
    split
    · rename_i same
      rw [same, absent]
    · rfl
  · exact Properties.get?_remove transactionalIdKey key c.properties

theorem idPrefix_normalized (c : Config) :
    c.normalized.idPrefix = c.idPrefix.or
      (((c.properties.get? transactionalIdKey).bind Json.text?).filter fun id => id ≠ "") := by
  unfold normalized
  split
  · rename_i absent
    simp [absent]
  · rename_i value present
    simp [present]

theorem eq_normalized {c d : Config} (accepted : c.accept? = .ok d) : d = c.normalized := by
  unfold accept? at accepted
  split at accepted
  · cases accepted
  · exact (Except.ok.inj accepted).symm

def isTransactional (c : Config) : Bool := c.idPrefix.isSome

/-- Where a transactional request is served: the queue it takes producers from, the prefix that new
ids start with, and whether the queue belongs to one partition. -/
structure PoolKey where
  key : String
  idPrefix : String
  perPartition : Bool

/-- The prefix of the scope overrides the configured one. -/
def poolKey (c : Config) (scope : TransactionScope) : Except PoolError PoolKey :=
  match scope.idPrefix.or c.idPrefix with
  | none => .error .notTransactional
  | some p =>
    match scope.idSuffix, c.perPartition with
    | some suffix, true => .ok ⟨p ++ suffix, p, true⟩
    | _, _ => .ok ⟨p, p, false⟩

/-- The queue is that of a partition, or that of a prefix. -/
theorem poolKey_cases {c : Config} {scope : TransactionScope} {k : PoolKey}
    (known : c.poolKey scope = .ok k) :
    scope.idPrefix.or c.idPrefix = some k.idPrefix ∧
      ((∃ suffix, scope.idSuffix = some suffix ∧ c.perPartition = true ∧ k.perPartition = true ∧
          k.key = k.idPrefix ++ suffix) ∨
        (scope.idSuffix = none ∨ c.perPartition = false) ∧ k.perPartition = false ∧
          k.key = k.idPrefix) := by
  unfold poolKey at known
  split at known
  · cases known
  · rename_i a starts
    split at known
    · rename_i suffix partition on
      obtain rfl := Except.ok.inj known
      exact ⟨starts, Or.inl ⟨suffix, partition, on, rfl, rfl⟩⟩
    · rename_i other
      obtain rfl := Except.ok.inj known
      refine ⟨starts, Or.inr ⟨?_, rfl, rfl⟩⟩
      cases partition : scope.idSuffix with
      | none => exact Or.inl rfl
      | some suffix => exact Or.inr (Bool.eq_false_iff.mpr (other suffix partition))

end Config

end ProducerPool
