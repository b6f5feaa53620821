import ProducerPool.Duration

/-!
# Formats of documents

Values are written as texts and read again by a library that is no part of the pool, and so are records
once their fields are declared.  Here the library is a parameter: a `Format` writes and reads every `Kind` of
value and every `Layout` of fields.  What it is relied upon for is stated where documents are reasoned about.
-/

set_option autoImplicit false

namespace ProducerPool

/-! ## Texts of containers -/

namespace Text

def member (key value : String) : String := key ++ ":" ++ value

def array (items : List String) : String := "[" ++ ",".intercalate items ++ "]"

/-- An object with these members, each given by the texts of its key and of its value. -/
def object (members : List (String × String)) : String :=
  "\x7b" ++ ",".intercalate (members.map fun m => member m.1 m.2) ++ "\x7d"

end Text

/-! ## Kinds and layouts -/

/-- The types that a field may be declared with. -/
inductive Kind where
  | flag
  | word32
  | word64
  | text
  | optionalText
  | value
  | properties
  | duration
deriving DecidableEq, Repr

@[reducible]
def Kind.Carrier : Kind → Type
  | .flag => Bool
  | .word32 => UInt32
  | .word64 => UInt64
  | .text => String
  | .optionalText => Option String
  | .value => Json
  | .properties => Properties
  | .duration => Duration

/-- The fields of a record in the order in which they are declared. -/
structure Layout (κ : Type) where
  all : List κ
  key : κ → String
  kind : κ → Kind
  complete : ∀ f, f ∈ all
  once : all.Nodup
  distinct : ∀ f g, key f = key g → f = g

namespace Layout

variable {κ : Type}

def Record (l : Layout κ) : Type := (f : κ) → (l.kind f).Carrier

variable [DecidableEq κ] {l : Layout κ} {f g : κ}

/-- The record with one field set. -/
def set (l : Layout κ) (r : l.Record) (f : κ) (value : (l.kind f).Carrier) : l.Record :=
  fun g => if same : f = g then same ▸ value else r g

@[simp] theorem set_self (r : l.Record) (value : (l.kind f).Carrier) : l.set r f value f = value := by
  simp [set]

theorem set_other (r : l.Record) (value : (l.kind f).Carrier) (other : g ≠ f) :
    l.set r f value g = r g :=
  dif_neg (Ne.symm other)

end Layout

/-- A library that writes values and reads them.  The room of a reader is the number of containers that may
still stand inside one another. -/
structure Format where
  write : (k : Kind) → k.Carrier → String
  read? : (room : Nat) → (k : Kind) → String → Option k.Carrier
  /-- Whether the text is that of some value, which is not looked at. -/
  accepts : String → Bool
  writeRecord : {κ : Type} → (l : Layout κ) → l.Record → String
  /-- Reads a record; a field that is not there is taken from the record given. -/
  readRecord? : {κ : Type} → [DecidableEq κ] → (room : Nat) → (l : Layout κ) → (defaults : l.Record) →
    String → Option l.Record

end ProducerPool
