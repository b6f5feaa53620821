import ProducerPool.Json.Decimal
import ProducerPool.Json.Tree

/-!
# What a document means

A tree has a value if its strings pair their surrogates, its numbers are in range and its containers
nest no deeper than the room given.  Of members with one key the last stands.
-/

set_option autoImplicit false

namespace ProducerPool.Json

/-- The most containers that may stand inside one another. -/
def maxNesting : Nat := 127

def isHighSurrogate (unit : Nat) : Bool := 0xD800 ≤ unit && unit < 0xDC00

def isLowSurrogate (unit : Nat) : Bool := 0xDC00 ≤ unit && unit < 0xE000

/-- The characters that code units spell.  A high surrogate must be followed by a low one, and a low
one must follow a high one. -/
def chars? : List Nat → Option (List Char)
  | [] => some []
  | [unit] =>
    if isHighSurrogate unit || isLowSurrogate unit then none else some [Char.ofNat unit]
  | unit :: next :: rest =>
    if isHighSurrogate unit then
      if isLowSurrogate next then
        (chars? rest).map fun cs =>
          Char.ofNat (0x10000 + (unit - 0xD800) * 0x400 + (next - 0xDC00)) :: cs
      else none
    else if isLowSurrogate unit then none
    else (chars? (next :: rest)).map fun cs => Char.ofNat unit :: cs

def textOf? (units : List Nat) : Option String := (chars? units).map String.ofList

namespace Tree

mutual

/-- The value of a tree whose containers nest at most `room` deep. -/
def value? (room : Nat) : Tree → Option Json
  | .null => some .null
  | .bool b => some (.bool b)
  | .number n => n.value?
  | .text units => (textOf? units).map .text
  | .array items => if room = 0 then none else (values? (room - 1) items).map .array
  | .object members =>
    if room = 0 then none
    else (members? (room - 1) members).map fun ms => .object (SortedMap.ofList textBefore ms)

def values? (room : Nat) : List Tree → Option (List Json)
  | [] => some []
  | t :: rest => do return (← value? room t) :: (← values? room rest)

def members? (room : Nat) : List (List Nat × Tree) → Option (List (String × Json))
  | [] => some []
  | (key, t) :: rest => do return (← textOf? key, ← value? room t) :: (← members? room rest)

end

end Tree

def parse? (text : String) : Option Json := (Tree.parse? text).bind (Tree.value? maxNesting)

end ProducerPool.Json
