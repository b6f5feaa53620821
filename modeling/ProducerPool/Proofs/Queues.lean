import ProducerPool.Pool.Producer
import ProducerPool.Proofs.Tables
import Mathlib.Algebra.BigOperators.Group.Finset.Basic
import Mathlib.Data.Finmap

/-!
# Queues as a finite map of lists

What is parked is a finite map from keys to lists, and every operation on a `Cache` does to that map what
its name says: one queue is served in the order in which it was filled, and no other queue is touched.
Whole histories of operations agree with the map, answer by answer, so nothing that was parked is lost or
handed out twice.
-/

set_option autoImplicit false

namespace ProducerPool

/-! ## Operations and answers -/

/-- What can be asked of queues of handles.  Whether a handle is spoiled is judged when it is released. -/
inductive QueueCall where
  | acquire (key : String)
  | release (spoiled : Handle → Bool) (key : String) (h : Handle)
  | ensure (key : String)
  | drain (key : String)
  | drainAll
  | remove (key : String) (h : Handle)
  | length (key : String)
  | total
  | keyCount

/-- The one key that a call is about, if it is about one. -/
def QueueCall.key? : QueueCall → Option String
  | .acquire key | .release _ key _ | .ensure key | .drain key | .remove key _ | .length key => some key
  | .drainAll | .total | .keyCount => none

inductive QueueAnswer where
  | done
  | taken (handle : Option Handle)
  | accepted
  /-- The handle is given back. -/
  | refused (h : Handle)
  | drained (hs : List Handle)
  | count (n : Nat)
deriving DecidableEq

/-- The handles that go into the queues by a call that got this answer. -/
def QueueAnswer.puts : QueueCall → QueueAnswer → List Handle
  | .release _ _ h, .accepted => [h]
  | _, _ => []

/-- The handles that come out of the queues with an answer. -/
def QueueAnswer.takes : QueueAnswer → List Handle
  | .taken handle => handle.toList
  | .drained hs => hs
  | _ => []

namespace Cache

/-- Serves one call. -/
def serve (call : QueueCall) (c : Cache Handle) : Cache Handle × QueueAnswer :=
  match call with
  | .acquire key =>
    match c.pop? key with
    | none => (c, .taken none)
    | some (h, left) => (left, .taken (some h))
  | .release spoiled key h =>
    match c.offer? spoiled key h with
    | none => (c, .refused h)
    | some filled => (filled, .accepted)
  | .ensure key => (c.ensure key, .done)
  | .drain key => ((c.drain key).2, .drained (c.drain key).1)
  | .drainAll => (c.drainAll.2, .drained c.drainAll.1)
  | .remove key h =>
    match c.extract? (fun parked => parked.producer = h.producer) key with
    | none => (c, .taken none)
    | some (parked, left) => (left, .taken (some parked))
  | .length key => (c, .count (c.length key))
  | .total => (c, .count c.total)
  | .keyCount => (c, .count c.keyCount)

/-- Serves calls one after the other, and tells which call got which answer. -/
def serveAll : List QueueCall → Cache Handle → Cache Handle × List (QueueCall × QueueAnswer)
  | [], c => (c, [])
  | call :: calls, c =>
    let (left, history) := serveAll calls (c.serve call).1
    (left, (call, (c.serve call).2) :: history)

end Cache

/-! ## The finite map -/

/-- The queues as a finite map; a key may be there with nothing parked under it. -/
abbrev QueueMap := Finmap fun _ : String => List Handle

namespace QueueMap

def queue (key : String) (m : QueueMap) : List Handle := (m.lookup key).getD []

/-- How a call changes the map, and what it answers. -/
inductive Serves (m : QueueMap) : QueueCall → QueueAnswer → QueueMap → Prop
  | idle (key : String) (nothing : m.queue key = []) : m.Serves (.acquire key) (.taken none) m
  | acquire (key : String) (h : Handle) (rest : List Handle) (waiting : m.queue key = h :: rest) :
      m.Serves (.acquire key) (.taken (some h)) (m.insert key rest)
  | refuse (spoiled : Handle → Bool) (key : String) (h : Handle) (unfit : spoiled h = true) :
      m.Serves (.release spoiled key h) (.refused h) m
  | release (spoiled : Handle → Bool) (key : String) (h : Handle) (sound : spoiled h = false) :
      m.Serves (.release spoiled key h) .accepted (m.insert key (m.queue key ++ [h]))
  | known (key : String) (there : key ∈ m) : m.Serves (.ensure key) .done m
  | ensure (key : String) (absent : key ∉ m) : m.Serves (.ensure key) .done (m.insert key [])
  | drain (key : String) : m.Serves (.drain key) (.drained (m.queue key)) (m.erase key)
  /-- The keys are drained in some order. -/
  | drainAll (keys : List String) (once : keys.Nodup) (all : keys.toFinset = m.keys) :
      m.Serves .drainAll (.drained (keys.flatMap fun key => m.queue key)) ∅
  | missing (key : String) (h : Handle)
      (nowhere : ∀ parked ∈ m.queue key, parked.producer ≠ h.producer) :
      m.Serves (.remove key h) (.taken none) m
  | remove (key : String) (h parked : Handle) (before after : List Handle)
      (waiting : m.queue key = before ++ parked :: after) (same : parked.producer = h.producer)
      (first : ∀ other ∈ before, other.producer ≠ h.producer) :
      m.Serves (.remove key h) (.taken (some parked)) (m.insert key (before ++ after))
  | length (key : String) : m.Serves (.length key) (.count (m.queue key).length) m
  | total : m.Serves .total (.count (∑ key ∈ m.keys, (m.queue key).length)) m
  | keyCount : m.Serves .keyCount (.count m.keys.card) m

/-- A history of calls with their answers. -/
inductive Runs : QueueMap → List (QueueCall × QueueAnswer) → QueueMap → Prop
  | nil (m : QueueMap) : Runs m [] m
  | cons {first next last : QueueMap} {call : QueueCall} {answer : QueueAnswer}
      {history : List (QueueCall × QueueAnswer)} (serves : first.Serves call answer next)
      (rest : Runs next history last) : Runs first ((call, answer) :: history) last

end QueueMap

/-! ## The map of a cache -/

namespace Cache

variable {key k : String} {hs : List Handle} {c d : Cache Handle} {m : QueueMap}

/-- A key is there exactly when it has a queue. -/
theorem hasKey_eq_isSome (key : String) (c : Cache Handle) :
    c.hasKey key = (c.queues.lookup key).isSome := by
  cases found : c.queues.lookup key with
  | some items => exact hasKey_of_mem (mem_of_lookup found)
  | none =>
    refine Bool.eq_false_iff.mpr fun there => ?_
    obtain ⟨⟨name, items⟩, entry, same⟩ := List.any_eq_true.mp there
    obtain rfl : name = key := of_decide_eq_true same
    exact not_mem_of_lookup found entry

theorem lookup_cons_ite (k name : String) (hs : List Handle) (rest : List (String × List Handle)) :
    ((name, hs) :: rest).lookup k = if k = name then some hs else rest.lookup k := by
  by_cases asked : k = name
  · simp [asked]
  · simp [asked, List.lookup_cons, beq_eq_false_iff_ne.mpr asked]

theorem lookup_setQueue (key k : String) (items : List Handle) (c : Cache Handle) :
    (c.setQueue key items).queues.lookup k =
      if k = key then (c.queues.lookup key).map fun _ => items else c.queues.lookup k := by
  obtain ⟨queues⟩ := c
  simp only [setQueue]
  induction queues with
  | nil => simp
  | cons entry rest ih =>
    obtain ⟨name, old⟩ := entry
    by_cases here : name = key
    · subst here
      simp only [List.map_cons, if_true, lookup_cons_ite, ih]
      by_cases asked : k = name <;> simp [asked]
    · simp only [List.map_cons, if_neg here, lookup_cons_ite, ih, if_neg (Ne.symm here)]
      by_cases asked : k = name
      · simp [asked, here]
      · simp [asked]

theorem lookup_ensure (key k : String) (c : Cache Handle) :
    (c.ensure key).queues.lookup k =
      if k = key then some (c.queue key) else c.queues.lookup k := by
  unfold ensure queue
  rw [hasKey_eq_isSome]
  cases found : c.queues.lookup key with
  | some items =>
    by_cases asked : k = key
    · simp [asked, found]
    · simp [asked]
  | none =>
    by_cases asked : k = key
    · simp [asked, List.lookup_append, found]
    · simp [asked, List.lookup_append, List.lookup_cons, beq_eq_false_iff_ne.mpr asked]

theorem lookup_push (key k : String) (h : Handle) (c : Cache Handle) :
    (c.push key h).queues.lookup k =
      if k = key then some (c.queue key ++ [h]) else c.queues.lookup k := by
  rw [push, lookup_setQueue, lookup_ensure, lookup_ensure, if_pos rfl]
  by_cases asked : k = key <;> simp [asked]

/-- What is taken out is the first item that fits, and the order of the others stays. -/
theorem extract?_cases (same : Handle → Bool) (key : String) (c : Cache Handle) :
    (c.extract? same key = none ∧ ∀ x ∈ c.queue key, same x = false) ∨
      ∃ before x after, c.queue key = before ++ x :: after ∧ same x = true ∧
        (∀ y ∈ before, same y = false) ∧
          c.extract? same key = some (x, c.setQueue key (before ++ after)) := by
  unfold extract?
  cases found : (c.queue key).find? same with
  | none =>
    exact Or.inl ⟨rfl, fun x there => Bool.eq_false_iff.mpr (List.find?_eq_none.mp found x there)⟩
  | some x =>
    obtain ⟨fits, before, after, split, others⟩ := List.find?_eq_some_iff_append.mp found
    have apart : ∀ y ∈ before, same y = false := fun y early => by simpa using others y early
    have left : (c.queue key).eraseP same = before ++ after := by
      rw [split, List.eraseP_append_right _ fun y early => Bool.eq_false_iff.mp (apart y early),
        List.eraseP_cons_of_pos fits]
    exact Or.inr ⟨before, x, after, split, fits, apart, by rw [left]⟩

/-- `m` is the map of the queues, each of which there is once. -/
structure Maps (c : Cache Handle) (m : QueueMap) : Prop where
  unique : c.Unique
  lookup : ∀ key, m.lookup key = c.queues.lookup key

namespace Maps

theorem queue (maps : c.Maps m) (key : String) : m.queue key = c.queue key := by
  rw [QueueMap.queue, maps.lookup, Cache.queue]

theorem mem (maps : c.Maps m) (key : String) : key ∈ m ↔ c.hasKey key = true := by
  rw [← Finmap.lookup_isSome, maps.lookup, hasKey_eq_isSome]

theorem empty : (Cache.empty : Cache Handle).Maps ∅ := ⟨List.nodup_nil, fun _ => rfl⟩

/-- One queue is replaced, and the others stay. -/
theorem insert (maps : c.Maps m) (unique : d.Unique)
    (lookup : ∀ k, d.queues.lookup k = if k = key then some hs else c.queues.lookup k) :
    d.Maps (m.insert key hs) := by
  refine ⟨unique, fun k => ?_⟩
  rw [lookup]
  by_cases same : k = key
  · rw [if_pos same, same, Finmap.lookup_insert]
  · rw [if_neg same, Finmap.lookup_insert_of_ne _ same, maps.lookup]

/-- A key that is there gets another queue. -/
theorem setQueue (maps : c.Maps m) (there : c.hasKey key = true) (hs : List Handle) :
    (c.setQueue key hs).Maps (m.insert key hs) := by
  refine maps.insert maps.unique.setQueue fun k => ?_
  rw [hasKey_eq_isSome] at there
  obtain ⟨old, found⟩ := Option.isSome_iff_exists.mp there
  rw [lookup_setQueue, found]
  rfl

theorem ensure (maps : c.Maps m) (absent : c.hasKey key = false) :
    (c.ensure key).Maps (m.insert key []) := by
  refine maps.insert maps.unique.ensure fun k => ?_
  rw [hasKey_eq_isSome] at absent
  rw [lookup_ensure, Cache.queue, Option.isSome_eq_false_iff.mp absent |> Option.isNone_iff_eq_none.mp]
  rfl

theorem push (maps : c.Maps m) (key : String) (h : Handle) :
    (c.push key h).Maps (m.insert key (m.queue key ++ [h])) := by
  refine maps.insert maps.unique.push fun k => ?_
  rw [lookup_push, maps.queue]

theorem drain (maps : c.Maps m) (key : String) : (c.drain key).2.Maps (m.erase key) := by
  refine ⟨maps.unique.drain, fun k => ?_⟩
  rw [Cache.drain, lookup_filter_ne]
  by_cases same : k = key
  · rw [if_pos same, same, Finmap.lookup_erase]
  · rw [if_neg same, Finmap.lookup_erase_ne same, maps.lookup]

/-! ### What is counted -/

theorem keys (maps : c.Maps m) : (c.queues.map Prod.fst).toFinset = m.keys := by
  refine Finset.ext fun key => ?_
  rw [Finmap.mem_keys, maps.mem, List.mem_toFinset, List.mem_map]
  constructor
  · rintro ⟨⟨name, items⟩, entry, rfl⟩
    exact hasKey_of_mem entry
  · intro there
    obtain ⟨entry, member, same⟩ := List.any_eq_true.mp there
    exact ⟨entry, member, of_decide_eq_true same⟩

/-- All that is parked, queue by queue. -/
theorem items (maps : c.Maps m) :
    c.items = (c.queues.map Prod.fst).flatMap fun key => m.queue key := by
  rw [Cache.items, List.flatMap_map]
  refine List.flatMap_congr fun entry member => ?_
  rw [maps.queue]
  exact (queue_of_mem maps.unique (show (entry.1, entry.2) ∈ c.queues from member)).symm

theorem total (maps : c.Maps m) : c.total = ∑ key ∈ m.keys, (m.queue key).length := by
  rw [Cache.total, maps.items, List.length_flatMap, ← maps.keys, List.sum_toFinset _ maps.unique]

theorem keyCount (maps : c.Maps m) : c.keyCount = m.keys.card := by
  rw [← maps.keys, List.toFinset_card_of_nodup maps.unique, List.length_map, Cache.keyCount]

end Maps

/-! ## Every call -/

/-- Serving a call is serving it on the map. -/
theorem Maps.serve (maps : c.Maps m) (call : QueueCall) :
    ∃ next, m.Serves call (c.serve call).2 next ∧ (c.serve call).1.Maps next := by
  cases call with
  | acquire key =>
    cases waiting : c.queue key with
    | nil =>
      have same : c.serve (.acquire key) = (c, .taken none) := by simp [Cache.serve, pop?, waiting]
      rw [same]
      exact ⟨m, .idle key (by rw [maps.queue, waiting]), maps⟩
    | cons h rest =>
      have same : c.serve (.acquire key) = (c.setQueue key rest, .taken (some h)) := by
        simp [Cache.serve, pop?, waiting]
      have there : c.hasKey key = true := hasKey_of_queue (x := h) (by simp [waiting])
      rw [same]
      exact ⟨_, .acquire key h rest (by rw [maps.queue, waiting]), maps.setQueue there rest⟩
  | release spoiled key h =>
    cases judged : spoiled h with
    | true =>
      have same : c.serve (.release spoiled key h) = (c, .refused h) := by
        simp [Cache.serve, offer?, judged]
      rw [same]
      exact ⟨m, .refuse spoiled key h judged, maps⟩
    | false =>
      have same : c.serve (.release spoiled key h) = (c.push key h, .accepted) := by
        simp [Cache.serve, offer?, judged]
      rw [same]
      exact ⟨_, .release spoiled key h judged, maps.push key h⟩
  | ensure key =>
    cases there : c.hasKey key with
    | true =>
      have same : c.serve (.ensure key) = (c, .done) := by simp [Cache.serve, Cache.ensure, there]
      rw [same]
      exact ⟨m, .known key ((maps.mem key).mpr there), maps⟩
    | false =>
      have absent : key ∉ m := by rw [maps.mem, there]; exact Bool.false_ne_true
      exact ⟨_, .ensure key absent, maps.ensure there⟩
  | drain key =>
    have drained : (c.serve (.drain key)).2 = .drained (m.queue key) := by rw [maps.queue]; rfl
    rw [drained]
    exact ⟨_, .drain key, maps.drain key⟩
  | drainAll =>
    have drained : (c.serve .drainAll).2 =
        .drained ((c.queues.map Prod.fst).flatMap fun key => m.queue key) := by
      rw [← maps.items]
      rfl
    rw [drained]
    exact ⟨∅, .drainAll _ maps.unique maps.keys, .empty⟩
  | remove key h =>
    rcases extract?_cases (fun parked => parked.producer = h.producer) key c with
      ⟨nothing, others⟩ | ⟨before, parked, after, waiting, fits, others, found⟩
    · have same : c.serve (.remove key h) = (c, .taken none) := by simp [Cache.serve, nothing]
      rw [same]
      refine ⟨m, .missing key h fun parked there => ?_, maps⟩
      rw [maps.queue] at there
      exact of_decide_eq_false (others parked there)
    · have same : c.serve (.remove key h) =
          (c.setQueue key (before ++ after), .taken (some parked)) := by
        simp [Cache.serve, found]
      have there : c.hasKey key = true := hasKey_of_queue (x := parked) (by simp [waiting])
      rw [same]
      exact ⟨_, .remove key h parked before after (by rw [maps.queue, waiting])
        (of_decide_eq_true fits) (fun other early => of_decide_eq_false (others other early)),
        maps.setQueue there _⟩
  | length key =>
    have counted : (c.serve (.length key)).2 = .count (m.queue key).length := by rw [maps.queue]; rfl
    rw [counted]
    exact ⟨m, .length key, maps⟩
  | total =>
    have counted : (c.serve .total).2 = .count (∑ key ∈ m.keys, (m.queue key).length) := by
      rw [← maps.total]
      rfl
    rw [counted]
    exact ⟨m, .total, maps⟩
  | keyCount =>
    have counted : (c.serve .keyCount).2 = .count m.keys.card := by rw [← maps.keyCount]; rfl
    rw [counted]
    exact ⟨m, .keyCount, maps⟩

theorem Maps.serveAll (maps : c.Maps m) (calls : List QueueCall) :
    ∃ last, QueueMap.Runs m (c.serveAll calls).2 last ∧ (c.serveAll calls).1.Maps last := by
  induction calls generalizing c m with
  | nil => exact ⟨m, .nil m, maps⟩
  | cons call calls ih =>
    obtain ⟨next, serves, mapped⟩ := maps.serve call
    obtain ⟨last, runs, ends⟩ := ih mapped
    exact ⟨last, .cons serves runs, ends⟩

theorem serveAll_calls (calls : List QueueCall) (c : Cache Handle) :
    (c.serveAll calls).2.map Prod.fst = calls := by
  induction calls generalizing c with
  | nil => rfl
  | cons call calls ih => exact congrArg (call :: ·) (ih _)

end Cache

/-! ## What the map keeps -/

namespace QueueMap

variable {m next last : QueueMap} {call : QueueCall} {answer : QueueAnswer}
  {history : List (QueueCall × QueueAnswer)} {key other : String} {items : List Handle}

/-- A call about one key leaves the other queues alone. -/
theorem Serves.elsewhere (serves : m.Serves call answer next) (about : call.key? = some key)
    (apart : other ≠ key) : next.lookup other = m.lookup other := by
  cases serves <;> cases about
  case drain => exact Finmap.lookup_erase_ne apart
  case acquire | release | ensure | remove => exact Finmap.lookup_insert_of_ne m apart
  all_goals rfl

end QueueMap

/-! ## What comes out is what went in -/

namespace Cache

variable {c : Cache Handle}

theorem items_serve (unique : c.Unique) (call : QueueCall) :
    ((c.serve call).2.takes ++ (c.serve call).1.items).Perm
      ((c.serve call).2.puts call ++ c.items) := by
  cases call with
  | acquire key =>
    cases popped : c.pop? key with
    | none => simp [serve, popped, QueueAnswer.takes, QueueAnswer.puts]
    | some taken =>
      obtain ⟨h, left⟩ := taken
      simpa [serve, popped, QueueAnswer.takes, QueueAnswer.puts] using (items_pop unique popped).symm
  | release spoiled key h =>
    cases judged : spoiled h with
    | true => simp [serve, offer?, judged, QueueAnswer.takes, QueueAnswer.puts]
    | false =>
      simpa [serve, offer?, judged, QueueAnswer.takes, QueueAnswer.puts] using
        items_push key h unique
  | ensure key => simp [serve, items_ensure, QueueAnswer.takes, QueueAnswer.puts]
  | drain key => simpa [serve, QueueAnswer.takes, QueueAnswer.puts] using (items_drain key unique).symm
  | drainAll => simp [serve, drainAll, items, empty, QueueAnswer.takes, QueueAnswer.puts]
  | remove key h =>
    rcases extract?_cases (fun parked => parked.producer = h.producer) key c with
      ⟨nothing, -⟩ | ⟨before, parked, after, waiting, -, -, found⟩
    · simp [serve, nothing, QueueAnswer.takes, QueueAnswer.puts]
    · have there : c.hasKey key = true := hasKey_of_queue (x := parked) (by simp [waiting])
      obtain ⟨rest, all, left⟩ := items_setQueue (before ++ after) unique there
      have taken : (parked :: (c.setQueue key (before ++ after)).items).Perm c.items := by
        refine (left.cons parked).trans (.trans ?_ all.symm)
        rw [waiting, List.append_assoc, List.append_assoc, List.cons_append]
        exact List.perm_middle.symm
      simpa [serve, found, QueueAnswer.takes, QueueAnswer.puts] using taken
  | length | total | keyCount => simp [serve, QueueAnswer.takes, QueueAnswer.puts]

/-- Whatever has come in has come out, or is parked. -/
theorem Maps.conserves {m : QueueMap} (maps : c.Maps m) (calls : List QueueCall) :
    ((c.serveAll calls).2.flatMap (fun served => served.2.takes) ++ (c.serveAll calls).1.items).Perm
      ((c.serveAll calls).2.flatMap (fun served => served.2.puts served.1) ++ c.items) := by
  induction calls generalizing c m with
  | nil => exact .refl _
  | cons call calls ih =>
    obtain ⟨next, -, mapped⟩ := maps.serve call
    have first := items_serve maps.unique call
    have later := ih mapped
    have unfolded : c.serveAll (call :: calls) =
        (((c.serve call).1.serveAll calls).1,
          (call, (c.serve call).2) :: ((c.serve call).1.serveAll calls).2) := rfl
    rw [unfolded, List.flatMap_cons, List.flatMap_cons]
    refine List.perm_iff_count.mpr fun h => ?_
    have early := List.perm_iff_count.mp first h
    have late := List.perm_iff_count.mp later h
    simp only [List.count_append] at early late ⊢
    omega

/-- How often a handle is parked, queue by queue. -/
theorem Maps.count_items {m : QueueMap} (maps : c.Maps m) (h : Handle) :
    c.items.count h = ∑ key ∈ m.keys, (m.queue key).count h := by
  rw [maps.items, List.count_flatMap, ← maps.keys, List.sum_toFinset _ maps.unique]
  rfl

end Cache

/-! ## Histories -/

/-- Queues that start empty serve every history of calls as the finite map does, answer by answer.  A call
about one key leaves all others alone, also whether they are there; whatever was accepted has been handed
out exactly as often as it is not parked any more; and the counts are those of the map. -/
theorem queues_follow_map (calls : List QueueCall) :
    let (c, history) := Cache.empty.serveAll calls
    history.map Prod.fst = calls ∧
      ∃ m : QueueMap, QueueMap.Runs ∅ history m ∧
        (∀ key, m.lookup key = c.queues.lookup key) ∧
        (∀ (call : QueueCall) (key other : String), call.key? = some key → other ≠ key →
          (c.serve call).1.queues.lookup other = c.queues.lookup other) ∧
        (∀ h, (history.flatMap fun served => served.2.puts served.1).count h =
          (history.flatMap fun served => served.2.takes).count h +
            ∑ key ∈ m.keys, (m.queue key).count h) ∧
        c.total = ∑ key ∈ m.keys, (m.queue key).length ∧ c.keyCount = m.keys.card := by
  have served := Cache.Maps.empty.serveAll calls
  have conserved := Cache.Maps.empty.conserves calls
  have asked := Cache.serveAll_calls calls .empty
  generalize Cache.empty.serveAll calls = run at *
  obtain ⟨c, history⟩ := run
  obtain ⟨m, runs, maps⟩ := served
  refine ⟨asked, m, runs, maps.lookup, fun call key other about apart => ?_, fun h => ?_, maps.total,
    maps.keyCount⟩
  · obtain ⟨next, serves, mapped⟩ := maps.serve call
    rw [← mapped.lookup, serves.elsewhere about apart, maps.lookup]
  · rw [← maps.count_items, ← List.count_append, conserved.count_eq]
    simp [Cache.items, Cache.empty]

end ProducerPool
