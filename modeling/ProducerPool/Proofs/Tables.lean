import ProducerPool.Cache
import Mathlib.Data.List.Nodup

/-!
# What tables and queues hold

A table with distinct keys gives every entry back.  `Parked key x c` says that the item `x` waits in
a queue of `key`; each operation on queues adds or takes exactly the items that it names, as long as
every key has one queue.
-/

set_option autoImplicit false

namespace ProducerPool

/-! ## Tables -/

section Tables

variable {κ β : Type} [BEq κ] [LawfulBEq κ] {k : κ} {v : β} {entries : List (κ × β)}

theorem lookup_of_mem (distinct : (entries.map Prod.fst).Nodup) (member : (k, v) ∈ entries) :
    entries.lookup k = some v := by
  obtain ⟨before, after, rfl⟩ := List.append_of_mem member
  refine List.lookup_eq_some_iff.mpr ⟨before, after, rfl, fun entry earlier => ?_⟩
  rw [List.map_append, List.map_cons, List.nodup_append] at distinct
  have apart := distinct.2.2 entry.1 (List.mem_map_of_mem earlier) k List.mem_cons_self
  exact bne_iff_ne.mpr apart.symm

theorem mem_of_lookup (found : entries.lookup k = some v) : (k, v) ∈ entries := by
  obtain ⟨before, after, split, -⟩ := List.lookup_eq_some_iff.mp found
  rw [split]
  exact List.mem_append_right _ List.mem_cons_self

theorem not_mem_of_lookup (absent : entries.lookup k = none) : (k, v) ∉ entries := by
  intro member
  have different := List.lookup_eq_none_iff.mp absent (k, v) member
  simp at different

end Tables

/-! ## Queues -/

namespace Cache

variable {α : Type} {key k : String} {x h : α} {items : List α} {c d : Cache α}

/-- Every key has one queue. -/
def Unique (c : Cache α) : Prop := (c.queues.map Prod.fst).Nodup

/-- An item waits in a queue of a key. -/
def Parked (key : String) (x : α) (c : Cache α) : Prop := ∃ items, (key, items) ∈ c.queues ∧ x ∈ items

theorem mem_items : x ∈ c.items ↔ ∃ key, c.Parked key x := by
  simp only [items, Parked, List.mem_flatMap]
  constructor
  · rintro ⟨⟨key, items⟩, entry, member⟩
    exact ⟨key, items, entry, member⟩
  · rintro ⟨key, items, entry, member⟩
    exact ⟨(key, items), entry, member⟩

theorem parked_of_queue (member : x ∈ c.queue key) : c.Parked key x := by
  unfold queue at member
  cases found : c.queues.lookup key with
  | none =>
    rw [found] at member
    cases member
  | some items =>
    rw [found] at member
    exact ⟨items, mem_of_lookup found, member⟩

theorem mem_queue (unique : c.Unique) (parked : c.Parked key x) : x ∈ c.queue key := by
  obtain ⟨items, entry, member⟩ := parked
  rw [queue, lookup_of_mem unique entry]
  exact member

theorem hasKey_of_mem (entry : (key, items) ∈ c.queues) : c.hasKey key = true :=
  List.any_eq_true.mpr ⟨(key, items), entry, by simp⟩

theorem hasKey_of_queue (member : x ∈ c.queue key) : c.hasKey key = true := by
  obtain ⟨items, entry, -⟩ := parked_of_queue member
  exact hasKey_of_mem entry

theorem setQueue_setQueue (key : String) (early late : List α) (c : Cache α) :
    (c.setQueue key early).setQueue key late = c.setQueue key late := by
  simp only [setQueue, List.map_map, mk.injEq]
  refine List.map_congr_left fun entry _ => ?_
  by_cases same : entry.1 = key <;> simp [same]

theorem setQueue_of_absent (absent : c.hasKey key = false) : c.setQueue key items = c := by
  have kept : ∀ entry ∈ c.queues, (if entry.1 = key then (key, items) else entry) = entry := by
    rintro ⟨name, old⟩ entry
    refine if_neg fun same => ?_
    obtain rfl : name = key := same
    cases absent.symm.trans (hasKey_of_mem entry)
  rw [setQueue, List.map_congr_left kept, List.map_id']

theorem queue_setQueue_of_ne (other : k ≠ key) : (c.setQueue key items).queue k = c.queue k := by
  cases present : c.hasKey key with
  | false => rw [setQueue_of_absent present]
  | true => rw [queue_setQueue key k items c present, if_neg other]

theorem queue_setQueue_nil (key : String) (c : Cache α) : (c.setQueue key []).queue key = [] := by
  cases present : c.hasKey key with
  | true => rw [queue_setQueue key key [] c present, if_pos rfl]
  | false =>
    rw [setQueue_of_absent present]
    refine List.eq_nil_iff_forall_not_mem.mpr fun x member => ?_
    cases present.symm.trans (hasKey_of_queue member)

theorem keys_setQueue (key : String) (items : List α) (c : Cache α) :
    (c.setQueue key items).queues.map Prod.fst = c.queues.map Prod.fst := by
  rw [setQueue, List.map_map]
  refine List.map_congr_left fun entry _ => ?_
  by_cases same : entry.1 = key <;> simp [same]

theorem parked_setQueue : (c.setQueue key items).Parked k x ↔
    if k = key then c.hasKey key = true ∧ x ∈ items else c.Parked k x := by
  simp only [Parked, setQueue, List.mem_map]
  by_cases same : k = key
  · subst same
    rw [if_pos rfl]
    constructor
    · rintro ⟨new, ⟨⟨name, old⟩, entry, changed⟩, member⟩
      by_cases here : name = k
      · rw [if_pos here] at changed
        cases changed
        rw [here] at entry
        exact ⟨hasKey_of_mem entry, member⟩
      · rw [if_neg here] at changed
        cases changed
        exact absurd rfl here
    · rintro ⟨present, member⟩
      obtain ⟨⟨name, old⟩, entry, here⟩ := List.any_eq_true.mp present
      exact ⟨items, ⟨(name, old), entry, if_pos (of_decide_eq_true here)⟩, member⟩
  · rw [if_neg same]
    constructor
    · rintro ⟨new, ⟨⟨name, old⟩, entry, changed⟩, member⟩
      by_cases here : name = key
      · rw [if_pos here] at changed
        cases changed
        exact absurd rfl same
      · rw [if_neg here] at changed
        cases changed
        exact ⟨new, entry, member⟩
    · rintro ⟨old, entry, member⟩
      exact ⟨old, ⟨(k, old), entry, if_neg same⟩, member⟩

theorem parked_ensure : (c.ensure key).Parked k x ↔ c.Parked k x := by
  unfold ensure
  split
  · rfl
  · simp only [Parked, List.mem_append, List.mem_singleton, Prod.mk.injEq]
    constructor
    · rintro ⟨items, entry | ⟨-, rfl⟩, member⟩
      · exact ⟨items, entry, member⟩
      · cases member
    · rintro ⟨items, entry, member⟩
      exact ⟨items, Or.inl entry, member⟩

/-! ### Which keys there are -/

theorem Unique.setQueue (unique : c.Unique) : (c.setQueue key items).Unique := by
  rw [Unique, keys_setQueue]
  exact unique

theorem Unique.ensure (unique : c.Unique) : (c.ensure key).Unique := by
  unfold Cache.ensure
  split
  · exact unique
  · rename_i absent
    have fresh : key ∉ c.queues.map Prod.fst := by
      intro present
      obtain ⟨⟨name, items⟩, entry, rfl⟩ := List.mem_map.mp present
      exact absent (hasKey_of_mem entry)
    rw [Unique, List.map_append, List.nodup_append]
    refine ⟨unique, List.nodup_singleton key, ?_⟩
    rintro name member other last rfl
    obtain rfl : name = key := by simpa using last
    exact fresh member

theorem Unique.push (unique : c.Unique) : (c.push key x).Unique := unique.ensure.setQueue

theorem Unique.pop (unique : c.Unique) (popped : c.pop? key = some (x, d)) : d.Unique := by
  unfold pop? at popped
  split at popped
  · cases popped
  · cases popped
    exact unique.setQueue

theorem Unique.drain (unique : c.Unique) : (c.drain key).2.Unique :=
  unique.sublist (List.Sublist.map _ List.filter_sublist)

/-! ### What each operation adds and takes -/

theorem parked_of_push (parked : (c.push key h).Parked k x) :
    c.Parked k x ∨ k = key ∧ x = h := by
  rw [push, parked_setQueue] at parked
  split at parked
  · rename_i same
    rcases List.mem_append.mp parked.2 with old | new
    · rw [same]
      exact Or.inl (parked_of_queue old)
    · exact Or.inr ⟨same, List.mem_singleton.mp new⟩
  · exact Or.inl (parked_ensure.mp parked)

theorem parked_push (unique : c.Unique) (parked : c.Parked k x ∨ k = key ∧ x = h) :
    (c.push key h).Parked k x := by
  rw [push, parked_setQueue]
  split
  · rename_i same
    refine ⟨hasKey_ensure key c, List.mem_append.mpr ?_⟩
    rcases parked with old | ⟨-, rfl⟩
    · rw [same] at old
      exact Or.inl (mem_queue unique old)
    · exact Or.inr (List.mem_singleton.mpr rfl)
  · rename_i differs
    rcases parked with old | ⟨same, -⟩
    · exact parked_ensure.mpr old
    · exact absurd same differs

theorem parked_pop (popped : c.pop? key = some (h, d)) : c.Parked key h := by
  unfold pop? at popped
  split at popped
  · cases popped
  · rename_i queue
    cases popped
    refine parked_of_queue ?_
    rw [queue]
    exact List.mem_cons_self

theorem parked_of_pop (popped : c.pop? key = some (h, d)) (parked : d.Parked k x) : c.Parked k x := by
  unfold pop? at popped
  split at popped
  · cases popped
  · rename_i queue
    cases popped
    rw [parked_setQueue] at parked
    split at parked
    · rename_i same
      rw [same]
      refine parked_of_queue ?_
      rw [queue]
      exact List.mem_cons_of_mem _ parked.2
    · exact parked

theorem parked_of_not_pop (unique : c.Unique) (popped : c.pop? key = some (h, d))
    (parked : c.Parked k x) : x = h ∨ d.Parked k x := by
  unfold pop? at popped
  split at popped
  · cases popped
  · rename_i item rest queue
    cases popped
    by_cases same : k = key
    · rw [same] at parked ⊢
      have member := mem_queue unique parked
      rw [queue] at member
      rcases List.mem_cons.mp member with first | later
      · exact Or.inl first
      · obtain ⟨items, entry, -⟩ := parked
        refine Or.inr (parked_setQueue.mpr ?_)
        rw [if_pos rfl]
        exact ⟨hasKey_of_mem entry, later⟩
    · refine Or.inr (parked_setQueue.mpr ?_)
      rw [if_neg same]
      exact parked

theorem parked_of_drain (parked : (c.drain key).2.Parked k x) : c.Parked k x := by
  obtain ⟨items, entry, member⟩ := parked
  exact ⟨items, (List.mem_filter.mp entry).1, member⟩

theorem parked_of_not_drain (unique : c.Unique) (parked : c.Parked k x) :
    x ∈ (c.drain key).1 ∨ (c.drain key).2.Parked k x := by
  by_cases same : k = key
  · rw [same] at parked
    exact Or.inl (mem_queue unique parked)
  · obtain ⟨items, entry, member⟩ := parked
    exact Or.inr ⟨items, List.mem_filter.mpr ⟨entry, by simpa using same⟩, member⟩

/-! ### The items, whatever their order -/

theorem queue_of_mem (unique : c.Unique) (entry : (key, items) ∈ c.queues) : c.queue key = items := by
  rw [queue, lookup_of_mem unique entry]
  rfl

/-- A queue that is replaced by itself. -/
theorem setQueue_queue (unique : c.Unique) (key : String) : c.setQueue key (c.queue key) = c := by
  have kept : ∀ entry ∈ c.queues,
      (if entry.1 = key then (key, c.queue key) else entry) = entry := by
    rintro ⟨name, items⟩ entry
    by_cases same : name = key
    · subst same
      rw [if_pos rfl, queue_of_mem unique entry]
    · exact if_neg same
  rw [setQueue, List.map_congr_left kept, List.map_id']

theorem items_ensure : (c.ensure key).items = c.items := by
  unfold ensure
  split
  · rfl
  · simp [Cache.items]

/-- The queue of a key lies among queues of other keys. -/
theorem Unique.split (unique : c.Unique) (entry : (key, items) ∈ c.queues) :
    ∃ before after, c.queues = before ++ (key, items) :: after ∧
      ∀ e ∈ before ++ after, e.1 ≠ key := by
  obtain ⟨before, after, split⟩ := List.append_of_mem entry
  refine ⟨before, after, split, fun e member same => ?_⟩
  rw [Unique, split, List.map_append, List.map_cons, List.nodup_middle, List.nodup_cons,
    ← List.map_append] at unique
  exact unique.1 (List.mem_map.mpr ⟨e, member, same⟩)

theorem items_of_split {before after : List (String × List α)}
    (split : c.queues = before ++ (key, items) :: after) :
    c.items.Perm (items ++ (before ++ after).flatMap fun e => e.2) := by
  rw [Cache.items, split, List.flatMap_append, List.flatMap_cons, List.flatMap_append,
    ← List.append_assoc, ← List.append_assoc]
  exact List.perm_append_comm.append_right _

/-- Of all items only those of one queue are replaced. -/
theorem items_setQueue (items : List α) (unique : c.Unique) (present : c.hasKey key = true) :
    ∃ rest, c.items.Perm (c.queue key ++ rest) ∧ (c.setQueue key items).items.Perm (items ++ rest) := by
  obtain ⟨⟨name, old⟩, entry, here⟩ := List.any_eq_true.mp present
  obtain rfl : name = key := of_decide_eq_true here
  obtain ⟨before, after, split, others⟩ := unique.split entry
  rw [queue_of_mem unique entry]
  refine ⟨_, items_of_split split, ?_⟩
  have same (es : List (String × List α)) (apart : ∀ e ∈ es, e.1 ≠ name) :
      es.map (fun e => if e.1 = name then (name, items) else e) = es :=
    (List.map_congr_left fun e member => if_neg (apart e member)).trans (List.map_id' es)
  have replaced : (c.setQueue name items).queues = before ++ (name, items) :: after := by
    rw [setQueue, split, List.map_append, List.map_cons, if_pos rfl,
      same before fun e member => others e (List.mem_append_left _ member),
      same after fun e member => others e (List.mem_append_right _ member)]
  exact items_of_split replaced

theorem items_push (key : String) (x : α) (unique : c.Unique) :
    (c.push key x).items.Perm (x :: c.items) := by
  obtain ⟨rest, before, after⟩ :=
    items_setQueue (c.queue key ++ [x]) unique.ensure (hasKey_ensure key c)
  rw [items_ensure, queue_ensure] at before
  refine after.trans ?_
  rw [List.append_assoc]
  exact List.perm_middle.trans (before.symm.cons x)

theorem items_pop (unique : c.Unique) (popped : c.pop? key = some (x, d)) :
    c.items.Perm (x :: d.items) := by
  unfold pop? at popped
  split at popped
  · cases popped
  · rename_i item rest queue
    cases popped
    have member : x ∈ c.queue key := by rw [queue]; exact List.mem_cons_self
    obtain ⟨items, entry, -⟩ := parked_of_queue member
    obtain ⟨others, before, after⟩ := items_setQueue rest unique (hasKey_of_mem entry)
    rw [queue] at before
    exact before.trans (after.symm.cons x)

theorem items_drain (key : String) (unique : c.Unique) :
    c.items.Perm ((c.drain key).1 ++ (c.drain key).2.items) := by
  have keep (es : List (String × List α)) (apart : ∀ e ∈ es, e.1 ≠ key) :
      es.filter (fun e => e.1 ≠ key) = es :=
    List.filter_eq_self.mpr fun e member => by simpa using apart e member
  by_cases present : c.hasKey key = true
  · obtain ⟨⟨name, items⟩, entry, here⟩ := List.any_eq_true.mp present
    obtain rfl : name = key := of_decide_eq_true here
    obtain ⟨before, after, split, others⟩ := unique.split entry
    have left : (c.drain name).2.queues = before ++ after := by
      rw [drain, split, List.filter_append, List.filter_cons_of_neg (by simp), ← List.filter_append,
        keep _ others]
    have taken : (c.drain name).1 = items := queue_of_mem unique entry
    have rest : (c.drain name).2.items = (before ++ after).flatMap fun e => e.2 :=
      congrArg (List.flatMap Prod.snd) left
    rw [taken, rest]
    exact items_of_split split
  · have absent : ∀ e ∈ c.queues, e.1 ≠ key := fun e member same =>
      present (List.any_eq_true.mpr ⟨e, member, by simpa using same⟩)
    have none : c.queue key = [] := by
      rw [queue, List.lookup_eq_none_iff.mpr fun e member => by simpa using (absent e member).symm]
      rfl
    rw [drain, none, keep _ absent]
    exact .refl _

end Cache

end ProducerPool
