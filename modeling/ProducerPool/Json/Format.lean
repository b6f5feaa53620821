import ProducerPool.Format
import ProducerPool.Json.Reader
import ProducerPool.Json.Writer

/-!
# Documents as a format

`Json.format` writes with `Json.render` and reads the trees of `Json.Tree.parse?`.  A record is read from
an object whose fields may be left out, may stand in any order and may be mixed with unknown ones, but no
known field may stand twice; or from an array of the fields in their order, of which the last ones may be
left out.  No value is converted to fit: null stands only for a text that may be absent.
-/

set_option autoImplicit false

namespace ProducerPool

open Json (Tree)

/-! ## Values -/

/-- A whole number below the limit. -/
def Json.word? (limit : Nat) (t : Tree) : Option Nat :=
  match t.value? 0 with
  | some (.whole n) => if 0 ≤ n.value ∧ n.value < limit then some n.value.toNat else none
  | _ => none

namespace Duration

def toJson (d : Duration) : Json :=
  .object [("secs", .ofNat d.secs), ("nanos", .ofNat d.nanos)]

/-- Both parts, each once and nothing else, or the pair of them in order. -/
def ofTree? : Tree → Option Duration
  | .object [(k, a), (l, b)] =>
    if Json.textOf? k = some "secs" ∧ Json.textOf? l = some "nanos" then parts? a b
    else if Json.textOf? k = some "nanos" ∧ Json.textOf? l = some "secs" then parts? b a
    else none
  | .array [a, b] => parts? a b
  | _ => none
where
  parts? (secs nanos : Tree) : Option Duration := do
    ofParts? (← Json.word? UInt64.size secs) (← Json.word? UInt32.size nanos)

end Duration

namespace Kind

def toJson : (k : Kind) → k.Carrier → Json
  | .flag, b => .bool b
  | .word32, n => .ofNat n.toNat
  | .word64, n => .ofNat n.toNat
  | .text, s => .text s
  | .optionalText, s => .ofOption .text s
  | .value, j => j
  | .properties, p => .object p
  | .duration, d => d.toJson

def ofTree? (room : Nat) : (k : Kind) → Tree → Option k.Carrier
  | .flag, .bool b => some b
  | .word32, t => (Json.word? UInt32.size t).map UInt32.ofNat
  | .word64, t => (Json.word? UInt64.size t).map UInt64.ofNat
  | .text, .text units => Json.textOf? units
  | .optionalText, .null => some none
  | .optionalText, .text units => (Json.textOf? units).map some
  | .value, t => t.value? room
  | .properties, t =>
    match t.value? room with
    | some (.object p) => some p
    | _ => none
  | .duration, t => Duration.ofTree? t
  | _, _ => none

end Kind

/-! ## Records -/

namespace Layout

variable {κ : Type}

def toJson (l : Layout κ) (r : l.Record) : Json :=
  .object (l.all.map fun f => (l.key f, (l.kind f).toJson (r f)))

variable [DecidableEq κ]

def ofKey? (l : Layout κ) (key : String) : Option κ := l.all.find? fun f => l.key f = key

def setField? (l : Layout κ) (room : Nat) (r : l.Record) (f : κ) (t : Tree) : Option l.Record :=
  ((l.kind f).ofTree? room t).map (l.set r f)

/-- Reads the members of an object; `seen` are the known fields that stood before.  The value of an
unknown member is not looked at. -/
def ofMembers? (l : Layout κ) (room : Nat) (r : l.Record) (seen : List κ) :
    List (List Nat × Tree) → Option l.Record
  | [] => some r
  | (units, t) :: rest => do
    match l.ofKey? (← Json.textOf? units) with
    | none => l.ofMembers? room r seen rest
    | some f => if f ∈ seen then none else l.ofMembers? room (← l.setField? room r f t) (f :: seen) rest

def ofItems? (l : Layout κ) (room : Nat) (r : l.Record) : List κ → List Tree → Option l.Record
  | _, [] => some r
  | [], _ :: _ => none
  | f :: fs, t :: rest => do l.ofItems? room (← l.setField? room r f t) fs rest

def ofTree? (l : Layout κ) (room : Nat) (defaults : l.Record) : Tree → Option l.Record
  | .object members => if room = 0 then none else l.ofMembers? (room - 1) defaults [] members
  | .array items => if room = 0 then none else l.ofItems? (room - 1) defaults l.all items
  | _ => none

end Layout

namespace Json

def format : Format where
  write k v := (k.toJson v).render
  read? room k text := (Tree.parse? text).bind (k.ofTree? room)
  accepts text := (Tree.parse? text).isSome
  writeRecord l r := (l.toJson r).render
  readRecord? room l defaults text := (Tree.parse? text).bind (l.ofTree? room defaults)

end Json

end ProducerPool
