/-!
# Finite maps in key order

A map is the list of its entries, each key once, in increasing order of the keys.  `insert` puts
an entry where it belongs and overwrites the one with the same key, so folding it over a list of
entries keeps the last entry of every key.
-/

set_option autoImplicit false

namespace ProducerPool

abbrev SortedMap (κ α : Type) := List (κ × α)

namespace SortedMap

variable {κ α : Type} [DecidableEq κ]

def find? (key : κ) : SortedMap κ α → Option α
  | [] => none
  | (k, a) :: rest => if k = key then some a else find? key rest

/-- The entry goes before the first larger key. -/
def insert (less : κ → κ → Bool) (key : κ) (value : α) : SortedMap κ α → SortedMap κ α
  | [] => [(key, value)]
  | (k, a) :: rest =>
    if k = key then (key, value) :: rest
    else if less key k then (key, value) :: (k, a) :: rest
    else (k, a) :: insert less key value rest

def erase (key : κ) (m : SortedMap κ α) : SortedMap κ α :=
  m.filter fun entry => entry.1 ≠ key

/-- The map of a list of entries; of two entries with one key the later stands. -/
def ofList (less : κ → κ → Bool) (entries : List (κ × α)) : SortedMap κ α :=
  entries.foldl (fun m entry => insert less entry.1 entry.2 m) []

/-! ## Looking up after a change -/

theorem find?_insert (less : κ → κ → Bool) (key k : κ) (value : α) (m : SortedMap κ α) :
    find? k (insert less key value m) = if k = key then some value else find? k m := by
  induction m with
  | nil => simp [insert, find?, eq_comm]
  | cons entry rest ih =>
    obtain ⟨name, old⟩ := entry
    by_cases overwritten : name = key
    · subst overwritten
      by_cases asked : k = name
      · simp [insert, find?, asked]
      · simp [insert, find?, asked, Ne.symm asked]
    · by_cases before : less key name = true
      · by_cases asked : k = key
        · simp [insert, find?, overwritten, before, asked]
        · simp [insert, find?, overwritten, before, asked, Ne.symm asked]
      · by_cases asked : k = name
        · subst asked
          simp [insert, find?, overwritten, before]
        · simp [insert, find?, overwritten, before, Ne.symm asked, ih]

theorem find?_erase (key k : κ) (m : SortedMap κ α) :
    find? k (erase key m) = if k = key then none else find? k m := by
  induction m with
  | nil => simp [erase, find?]
  | cons entry rest ih =>
    obtain ⟨name, old⟩ := entry
    simp only [erase] at ih ⊢
    by_cases erased : name = key
    · subst erased
      rw [List.filter_cons_of_neg (by simp), ih]
      by_cases asked : k = name
      · simp [asked]
      · simp [find?, asked, Ne.symm asked]
    · rw [List.filter_cons_of_pos (by simpa using erased)]
      by_cases asked : name = k
      · subst asked
        simp [find?, erased]
      · rw [find?, if_neg asked, ih, find?, if_neg asked]

end SortedMap

/-- Texts are ordered by code points, which is the order of their UTF-8 bytes. -/
def textBefore (a b : String) : Bool := decide (a < b)

end ProducerPool
