import ProducerPool.Json.Lexer
import ProducerPool.Json.Value

/-!
# Numbers and their digits

Reading: a numeral without point and exponent is a whole number if 64 bits hold it.  Every other
numeral is a double: the leading digits that fit an unsigned word of 64 bits are its significand,
the rest only moves the exponent, and the significand is scaled by a power of ten.

Writing: of all decimals that read back as the double, the one with the fewest digits is taken, and
of those the nearest.  It is written positionally from `1e-5` up to below `1e16`, and with an
exponent beyond.
-/

set_option autoImplicit false

namespace ProducerPool.Json

/-! ## Reading -/

/-- A significand gathered digit by digit as long as it fits 64 bits. -/
structure Significand where
  value : Nat
  /-- The power of ten that the digits read so far leave to apply. -/
  exponent : Int
  full : Bool

namespace Significand

def fits (value digit : Nat) : Bool := value * 10 + digit < 0x10000000000000000

/-- Digits before the point: each one that comes after a digit that did not fit raises the
exponent. -/
def ofWholeDigits (digits : List Nat) : Significand :=
  digits.foldl (fun s d =>
    if s.full || !fits s.value d then ⟨s.value, s.exponent + 1, true⟩
    else ⟨s.value * 10 + d, s.exponent, false⟩) ⟨0, 0, false⟩

/-- Digits after the point: the first that does not fit ends the significand. -/
def addFraction (s : Significand) (digits : List Nat) : Significand :=
  digits.foldl (fun s d =>
    if s.full || !fits s.value d then { s with full := true }
    else ⟨s.value * 10 + d, s.exponent - 1, false⟩) { s with full := false }

end Significand

def ofDigits (digits : List Nat) : Nat := digits.foldl (fun n d => n * 10 + d) 0

/-- Multiplies by a power of ten, 308 decimal places at a time where the exponent is lower. -/
def scaled? (x : Float) (exponent : Int) : Nat → Option Float
  | 0 => some x
  | fuel + 1 =>
    if exponent.natAbs ≤ 308 then
      if 0 ≤ exponent then
        let y := x * Float.ofScientific 1 false exponent.natAbs
        if y.isInf then none else some y
      else some (x / Float.ofScientific 1 false exponent.natAbs)
    else if x == 0.0 then some x
    else if 0 ≤ exponent then none
    else scaled? (x / Float.ofScientific 1 false 308) (exponent + 308) fuel

def exponentLimit : Int := 0x7FFFFFFF

def clampExponent (e : Int) : Int := max (-0x80000000) (min exponentLimit e)

namespace Numeral

/-- The double nearest to what the scaling of the significand yields; none beyond all doubles. -/
def magnitude? (n : Numeral) : Option Float :=
  let s := (Significand.ofWholeDigits n.digits).addFraction n.fraction
  let x := s.value.toUInt64.toFloat
  match n.exponent with
  | none => scaled? x s.exponent (s.exponent.natAbs / 308 + 2)
  | some (negative, digits) =>
    if (ofDigits digits : Int) > exponentLimit then
      if s.value = 0 ∨ negative then some 0.0 else none
    else
      let written : Int := ofDigits digits
      let e := clampExponent (if negative then s.exponent - written else s.exponent + written)
      scaled? x e (e.natAbs / 308 + 2)

def real? (n : Numeral) : Option Json :=
  (magnitude? n).map fun x => .real (if n.negative then -x else x).toBits

/-- The value of a numeral: whole if it is written as one that 64 bits hold, and minus zero is not. -/
def value? (n : Numeral) : Option Json :=
  match n.fraction, n.exponent with
  | [], none =>
    let m := ofDigits n.digits
    if n.negative ∧ m = 0 then real? n
    else
      match Whole.ofInt? (if n.negative then -(m : Int) else m) with
      | some w => some (.whole w)
      | none => real? n
  | _, _ => real? n

end Numeral

/-! ## Writing -/

/-- Decimal digits of a number, first digit first; zero has the one digit 0. -/
def digitsOf (n : Nat) : List Char := Nat.toDigits 10 n

/-- A finite positive double as `mantissa * 2 ^ exponent`. -/
structure Binary where
  mantissa : Nat
  exponent : Int
  /-- Whether the gap to the next lower double is half the gap to the next higher one. -/
  narrowBelow : Bool

def Binary.ofBits (bits : UInt64) : Binary :=
  let fraction := (bits &&& 0xFFFFFFFFFFFFF).toNat
  let biased := ((bits >>> 52) &&& 0x7FF).toNat
  if biased = 0 then ⟨fraction, -1074, false⟩
  else ⟨fraction + 0x10000000000000, (biased : Int) - 1075, fraction = 0 && 1 < biased⟩

/-- Whether `digits * 10 ^ power` lies in the interval of reals that round to the double; the ends
belong to it when the mantissa is even.  All sides are scaled to quarters of a unit. -/
def Binary.readsBack (b : Binary) (digits : Nat) (power : Int) : Bool :=
  let shift := (b.exponent - 2).natAbs
  let tens := Nat.pow 10 power.natAbs
  let unit := if 0 ≤ b.exponent - 2 then Nat.pow 2 shift else 1
  let low := 4 * b.mantissa - (if b.narrowBelow then 1 else 2)
  let high := 4 * b.mantissa + 2
  let value :=
    digits * (if 0 ≤ power then tens else 1) * (if 0 ≤ b.exponent - 2 then 1 else Nat.pow 2 shift)
  let scale := unit * (if 0 ≤ power then 1 else tens)
  if b.mantissa % 2 = 0 then low * scale ≤ value && value ≤ high * scale
  else low * scale < value && value < high * scale

/-- The double as a fraction in units of `10 ^ power`. -/
def Binary.inUnits (b : Binary) (power : Int) : Nat × Nat :=
  let tens := Nat.pow 10 power.natAbs
  let twos := Nat.pow 2 b.exponent.natAbs
  let numerator := b.mantissa * (if 0 ≤ b.exponent then twos else 1) * (if 0 ≤ power then 1 else tens)
  let denominator := (if 0 ≤ b.exponent then 1 else twos) * (if 0 ≤ power then tens else 1)
  (numerator, denominator)

/-- The nearer neighbour of the double on the grid of `10 ^ power` that reads back as it; a tie goes
to the even one. -/
def Binary.onGrid? (b : Binary) (power : Int) : Option Nat :=
  let (numerator, denominator) := b.inUnits power
  let below := numerator / denominator
  let above := below + 1
  let remainder := numerator % denominator
  let belowOk := 0 < below && b.readsBack below power
  let aboveOk := b.readsBack above power
  let preferBelow := 2 * remainder < denominator || (2 * remainder = denominator && below % 2 = 0)
  if belowOk && aboveOk then some (if preferBelow then below else above)
  else if belowOk then some below
  else if aboveOk then some above
  else none

/-- The shortest digits of a double: the coarsest grid first, and the finest that can be needed
last. -/
def Binary.shortest (b : Binary) : Int → Nat → Nat × Int
  | power, 0 => ((b.onGrid? power).getD 0, power)
  | power, fuel + 1 =>
    match b.onGrid? power with
    | some digits => (digits, power)
    | none => b.shortest (power - 1) fuel

/-- The layout of a decimal: positional while the point stands at most 16 places to the right and at
most four zeros follow it, with an exponent otherwise; a whole number ends in `.0`. -/
def layout (digits : List Char) (power : Int) : List Char :=
  let point := digits.length + power
  if 0 ≤ power ∧ point ≤ 16 then
    digits ++ List.replicate power.toNat '0' ++ ['.', '0']
  else if 0 < point ∧ point ≤ 16 then
    digits.take point.toNat ++ '.' :: digits.drop point.toNat
  else if -5 < point ∧ point ≤ 0 then
    '0' :: '.' :: List.replicate (-point).toNat '0' ++ digits
  else
    let exponent := 'e' :: (toString (point - 1)).toList
    match digits with
    | [d] => d :: exponent
    | d :: rest => d :: '.' :: rest ++ exponent
    | [] => exponent

/-- The text of a double.  One that is not finite has no number to stand for it and is null. -/
def realChars (bits : UInt64) : List Char :=
  let sign := if bits >>> 63 = 1 then ['-'] else []
  let magnitude := bits &&& 0x7FFFFFFFFFFFFFFF
  if magnitude = 0 then sign ++ ['0', '.', '0']
  else if (magnitude >>> 52) = 0x7FF then ['n', 'u', 'l', 'l']
  else
    let (digits, power) := (Binary.ofBits magnitude).shortest 309 640
    sign ++ layout (digitsOf digits) power

end ProducerPool.Json
