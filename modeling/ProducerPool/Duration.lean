import ProducerPool.Json.Value

/-!
# Durations

A duration is a number of seconds that fits 64 bits and a number of nanoseconds below one second.
-/

set_option autoImplicit false

namespace ProducerPool

structure Duration where
  secs : Nat
  nanos : Nat
  secs_lt : secs < 0x10000000000000000 := by decide
  nanos_lt : nanos < 1000000000 := by decide
deriving DecidableEq

namespace Duration

/-- Nanoseconds from a second on carry into the seconds, which must still fit. -/
def ofParts? (secs nanos : Nat) : Option Duration :=
  if h : secs + nanos / 1000000000 < 0x10000000000000000 then
    some ⟨secs + nanos / 1000000000, nanos % 1000000000, h, Nat.mod_lt _ (by decide)⟩
  else none

def zero : Duration := ⟨0, 0, by decide, by decide⟩

def seconds (n : Fin 60) : Duration := ⟨n, 0, by omega, by decide⟩

def isZero (d : Duration) : Bool := d.secs = 0 && d.nanos = 0

def toPair (d : Duration) : Json := .array [.ofNat d.secs, .ofNat d.nanos]

end Duration

end ProducerPool
