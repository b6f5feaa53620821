/-!
# Queues of parked items

A `Cache` keeps a first-in-first-out queue per key.  A key comes into being with its first item or by
`ensure`, stays when its queue runs empty, and goes away only when it is drained.
-/

set_option autoImplicit false

namespace ProducerPool

structure Cache (α : Type) where
  /-- The queues by key, each key once; the oldest item of a queue comes first. -/
  queues : List (String × List α) := []

namespace Cache

variable {α : Type}

def empty : Cache α := {}

/-- The queue under a key; an absent key has no items. -/
def queue (key : String) (c : Cache α) : List α := (c.queues.lookup key).getD []

def hasKey (key : String) (c : Cache α) : Bool := c.queues.any fun entry => entry.1 = key

/-- Replaces the queue of a key that is there. -/
def setQueue (key : String) (items : List α) (c : Cache α) : Cache α :=
  ⟨c.queues.map fun entry => if entry.1 = key then (key, items) else entry⟩

def ensure (key : String) (c : Cache α) : Cache α :=
  if c.hasKey key then c else ⟨c.queues ++ [(key, [])]⟩

/-- Takes the oldest item of a key; the key stays. -/
def pop? (key : String) (c : Cache α) : Option (α × Cache α) :=
  match c.queue key with
  | [] => none
  | item :: rest => some (item, c.setQueue key rest)

/-- Puts an item at the back of the queue of its key. -/
def push (key : String) (item : α) (c : Cache α) : Cache α :=
  (c.ensure key).setQueue key (c.queue key ++ [item])

/-- Parks an item; a spoiled one is refused and nothing changes. -/
def offer? (spoiled : α → Bool) (key : String) (item : α) (c : Cache α) : Option (Cache α) :=
  if spoiled item then none else some (c.push key item)

/-- Takes a key away with everything parked under it. -/
def drain (key : String) (c : Cache α) : List α × Cache α :=
  (c.queue key, ⟨c.queues.filter fun entry => entry.1 ≠ key⟩)

def items (c : Cache α) : List α := c.queues.flatMap fun entry => entry.2

def drainAll (c : Cache α) : List α × Cache α := (c.items, empty)

/-- Takes the first item that `same` holds of out of the queue of a key. -/
def extract? (same : α → Bool) (key : String) (c : Cache α) : Option (α × Cache α) :=
  match (c.queue key).find? same with
  | none => none
  | some item => some (item, c.setQueue key ((c.queue key).eraseP same))

def length (key : String) (c : Cache α) : Nat := (c.queue key).length

def total (c : Cache α) : Nat := c.items.length

def keyCount (c : Cache α) : Nat := c.queues.length

/-! ## The queues after each operation -/

theorem queue_setQueue (key k : String) (items : List α) (c : Cache α) (present : c.hasKey key) :
    (c.setQueue key items).queue k = if k = key then items else c.queue k := by
  obtain ⟨queues⟩ := c
  simp only [queue, setQueue, hasKey] at present ⊢
  induction queues with
  | nil => simp at present
  | cons entry rest ih =>
    obtain ⟨name, old⟩ := entry
    by_cases first : name = key
    · subst first
      by_cases asked : k = name
      · simp [asked]
      · have differs : (k == name) = false := by simpa using asked
        simp only [List.map_cons, if_true, List.lookup_cons, differs, if_neg asked]
        by_cases later : (rest.any fun e => decide (e.1 = name)) = true
        · simpa [asked] using ih later
        · have absent : ∀ e ∈ rest, ¬e.1 = name := by
            intro e member equal
            exact later (List.any_eq_true.mpr ⟨e, member, by simpa using equal⟩)
          rw [List.map_congr_left (g := id) (fun e member => by simp [absent e member])]
          simp
    · have later : (rest.any fun e => decide (e.1 = key)) = true := by simpa [first] using present
      by_cases asked : k = name
      · subst asked
        simp [first]
      · have differs : (k == name) = false := by simpa using asked
        simp only [List.map_cons, if_neg first, List.lookup_cons, differs]
        exact ih later

theorem hasKey_ensure (key : String) (c : Cache α) : (c.ensure key).hasKey key := by
  unfold ensure
  split
  · assumption
  · simp [hasKey]

theorem queue_ensure (key k : String) (c : Cache α) : (c.ensure key).queue k = c.queue k := by
  unfold ensure
  split
  · rfl
  · simp only [queue, List.lookup_append]
    cases found : c.queues.lookup k with
    | some items => simp
    | none =>
      by_cases asked : k = key
      · simp [asked]
      · have differs : (k == key) = false := by simpa using asked
        simp [List.lookup_cons, differs]

/-- An item goes to the back of its own queue and touches no other. -/
theorem queue_push (key k : String) (item : α) (c : Cache α) :
    (c.push key item).queue k = if k = key then c.queue key ++ [item] else c.queue k := by
  rw [push, queue_setQueue _ _ _ _ (hasKey_ensure key c), queue_ensure]

theorem lookup_filter_ne (key k : String) (queues : List (String × List α)) :
    (queues.filter fun entry => entry.1 ≠ key).lookup k =
      if k = key then none else queues.lookup k := by
  induction queues with
  | nil => simp
  | cons entry rest ih =>
    obtain ⟨name, old⟩ := entry
    by_cases first : name = key
    · subst first
      rw [List.filter_cons_of_neg (by simp), ih]
      by_cases asked : k = name
      · simp [asked]
      · have differs : (k == name) = false := by simpa using asked
        simp [asked, List.lookup_cons, differs]
    · rw [List.filter_cons_of_pos (by simpa using first), List.lookup_cons, List.lookup_cons, ih]
      by_cases asked : k = name
      · subst asked
        simp [first]
      · have differs : (k == name) = false := by simpa using asked
        simp [differs]

/-- Draining a key takes its queue away and touches no other. -/
theorem queue_drain (key k : String) (c : Cache α) :
    (c.drain key).2.queue k = if k = key then [] else c.queue k := by
  simp only [drain, queue, lookup_filter_ne]
  split <;> simp

end Cache

end ProducerPool
