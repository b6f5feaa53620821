import ProducerPool.SortedMap

/-!
# Values of a document

`Json` is what a document means once its text is read: whole numbers are signed or unsigned words
of 64 bits, every other number is a double, and the members of an object are in key order, each
key once.  The text itself, with its repeated members and its spellings of numbers and strings, is
a `Json.Tree`.
-/

set_option autoImplicit false

namespace ProducerPool

/-- A whole number that fits a word of 64 bits, signed or unsigned. -/
structure Whole where
  value : Int
  lower : -0x8000000000000000 ≤ value
  upper : value < 0x10000000000000000
deriving DecidableEq

namespace Whole

def ofInt? (n : Int) : Option Whole :=
  if h : -0x8000000000000000 ≤ n ∧ n < 0x10000000000000000 then some ⟨n, h.1, h.2⟩ else none

def ofNat? (n : Nat) : Option Whole := ofInt? n

end Whole

inductive Json where
  | null
  | bool (b : Bool)
  | whole (n : Whole)
  /-- A double, by the bits that represent it. -/
  | real (bits : UInt64)
  | text (s : String)
  | array (items : List Json)
  | object (members : List (String × Json))

instance : Inhabited Json := ⟨.null⟩

namespace Json

/-- A count; one beyond 64 bits, which no count reaches, is written as null. -/
def ofNat (n : Nat) : Json := (Whole.ofNat? n).elim .null .whole

def ofInt (n : Int) : Json := (Whole.ofInt? n).elim .null .whole

def ofOption {α : Type} (f : α → Json) : Option α → Json
  | none => .null
  | some a => f a

def text? : Json → Option String
  | .text s => some s
  | _ => none

end Json

/-- Client properties: the settings that are handed to the connector. -/
abbrev Properties := SortedMap String Json

namespace Properties

def get? (key : String) (p : Properties) : Option Json := SortedMap.find? key p

def set (key : String) (value : Json) (p : Properties) : Properties :=
  SortedMap.insert textBefore key value p

def remove (key : String) (p : Properties) : Properties := SortedMap.erase key p

@[simp] theorem get?_set (key k : String) (value : Json) (p : Properties) :
    (p.set key value).get? k = if k = key then some value else p.get? k :=
  SortedMap.find?_insert textBefore key k value p

@[simp] theorem get?_remove (key k : String) (p : Properties) :
    (p.remove key).get? k = if k = key then none else p.get? k :=
  SortedMap.find?_erase key k p

end Properties

end ProducerPool
