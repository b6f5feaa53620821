import ProducerPool.Format
import Mathlib.Data.List.Forall2
import Mathlib.Data.List.Induction

/-!
# What a format is relied upon for

`Format.Documented` is what the library says about itself.  It speaks of single steps only: a value without
parts is read as it is written, a container is written as its parts and is read part by part, of two members
with one key the last stands, and one more member of a record sets its field or is skipped.  That values of
every shape are read as they are written, and records in whatever order their members stand, follows by
induction.
-/

set_option autoImplicit false

namespace ProducerPool

variable {F : Format} {room : Nat}

/-! ## Maps in the order of their keys -/

namespace Properties

theorem insert_last {key : String} (value : Json) {entries : Properties}
    (last : ∀ entry ∈ entries, entry.1 < key) :
    SortedMap.insert textBefore key value entries = entries ++ [(key, value)] := by
  induction entries with
  | nil => rfl
  | cons entry entries ih =>
    have before := last entry List.mem_cons_self
    have rest := ih fun other later => last other (List.mem_cons_of_mem _ later)
    have other : entry.1 ≠ key := fun same => String.lt_irrefl key (same ▸ before)
    have after : textBefore key entry.1 = false := by
      rw [textBefore, decide_eq_false_iff_not]
      exact String.lt_asymm before
    simp [SortedMap.insert, other, after, rest]

/-- A map is made of its own entries again. -/
theorem ofList_of_sorted {entries : Properties} (sorted : entries.Pairwise fun a b => a.1 < b.1) :
    SortedMap.ofList textBefore entries = entries := by
  suffices general : ∀ before : Properties, (∀ a ∈ before, ∀ b ∈ entries, a.1 < b.1) →
      entries.foldl (fun m entry => SortedMap.insert textBefore entry.1 entry.2 m) before =
        before ++ entries from general [] (List.forall_mem_nil _)
  induction entries with
  | nil => exact fun before _ => (List.append_nil before).symm
  | cons entry entries ih =>
    intro before below
    obtain ⟨first, rest⟩ := List.pairwise_cons.mp sorted
    have placed := insert_last entry.2 fun a there => below a there entry List.mem_cons_self
    rw [List.foldl_cons, placed, ih rest]
    · simp
    · intro a there b later
      rcases List.mem_append.mp there with earlier | same
      · exact below a earlier b (List.mem_cons_of_mem _ later)
      · obtain rfl := List.mem_singleton.mp same
        exact first b later

end Properties

/-! ## Parts of a duration -/

namespace Duration

def secsWord (d : Duration) : UInt64 := .ofNatLT d.secs d.secs_lt

def nanosWord (d : Duration) : UInt32 := .ofNatLT d.nanos (Nat.lt_trans d.nanos_lt (by decide))

theorem ofParts?_words (d : Duration) : ofParts? d.secsWord.toNat d.nanosWord.toNat = some d := by
  have whole : d.nanos / 1000000000 = 0 := Nat.div_eq_of_lt d.nanos_lt
  have rest : d.nanos % 1000000000 = d.nanos := Nat.mod_eq_of_lt d.nanos_lt
  simp [ofParts?, secsWord, nanosWord, whole, rest, d.secs_lt]

end Duration

/-! ## The documentation -/

namespace Format

/-- Values that are written in one piece; doubles are not among them. -/
inductive Scalar : (k : Kind) → k.Carrier → Prop
  | flag (b : Bool) : Scalar .flag b
  | word32 (n : UInt32) : Scalar .word32 n
  | word64 (n : UInt64) : Scalar .word64 n
  | text (s : String) : Scalar .text s
  | optionalText (s : Option String) : Scalar .optionalText s
  | null : Scalar .value .null
  | bool (b : Bool) : Scalar .value (.bool b)
  | whole (n : Whole) : Scalar .value (.whole n)
  | string (s : String) : Scalar .value (.text s)

/-- The texts of an entry of a map. -/
structure Entry (F : Format) (room : Nat) (texts : String × String) (entry : String × Json) : Prop where
  named : F.read? room .text texts.1 = some entry.1
  reads : F.read? room .value texts.2 = some entry.2

/-- The texts of any member at all. -/
structure Whole (F : Format) (room : Nat) (texts : String × String) : Prop where
  named : (F.read? room .text texts.1).isSome = true
  accepted : F.accepts texts.2 = true

/-- What the documentation of the library says. -/
structure Documented (F : Format) : Prop where
  /-- Flags, whole numbers of 64 bits and texts are written without loss; null is a text that is absent. -/
  scalar {k : Kind} {v : k.Carrier} (room : Nat) (plain : Scalar k v) :
    F.read? room k (F.write k v) = some v
  accepts_read {room : Nat} {k : Kind} {text : String} {v : k.Carrier} (reads : F.read? room k text = some v) :
    F.accepts text = true
  array_written (items : List Json) : F.write .value (.array items) = Text.array (items.map (F.write .value))
  array_read {room : Nat} {texts : List String} {items : List Json}
    (each : List.Forall₂ (fun text item => F.read? room .value text = some item) texts items) :
    F.read? (room + 1) .value (Text.array texts) = some (.array items)
  object_written (members : List (String × Json)) : F.write .value (.object members) =
    Text.object (members.map fun member => (F.write .text member.1, F.write .value member.2))
  /-- Of the members with one key the last stands. -/
  object_read {room : Nat} {texts : List (String × String)} {members : List (String × Json)}
    (each : List.Forall₂ (F.Entry room) texts members) :
    F.read? (room + 1) .value (Text.object texts) = some (.object (SortedMap.ofList textBefore members))
  /-- Properties are an object of their own. -/
  properties_written (p : Properties) : F.write .properties p = F.write .value (.object p)
  properties_read {room : Nat} {text : String} {p : Properties}
    (reads : F.read? room .value text = some (.object p)) : F.read? room .properties text = some p
  duration_written (d : Duration) : F.write .duration d =
    Text.object [(F.write .text "secs", F.write .word64 d.secsWord),
      (F.write .text "nanos", F.write .word32 d.nanosWord)]
  /-- Nanoseconds from a second on carry into the seconds. -/
  duration_read {room : Nat} {a b : String} {secs : UInt64} {nanos : UInt32} {d : Duration}
    (seconds : F.read? room .word64 a = some secs) (rest : F.read? room .word32 b = some nanos)
    (made : Duration.ofParts? secs.toNat nanos.toNat = some d) :
    F.read? (room + 1) .duration (Text.object [(F.write .text "secs", a), (F.write .text "nanos", b)]) =
      some d
  record_written {κ : Type} (l : Layout κ) (r : l.Record) : F.writeRecord l r =
    Text.object (l.all.map fun f => (F.write .text (l.key f), F.write (l.kind f) (r f)))
  /-- Where no field is given, each has its default. -/
  record_empty {κ : Type} [DecidableEq κ] (room : Nat) (l : Layout κ) (defaults : l.Record) :
    F.readRecord? (room + 1) l defaults (Text.object []) = some defaults
  /-- A field that has not been given before is set. -/
  record_field {κ : Type} [DecidableEq κ] {room : Nat} {l : Layout κ} {defaults r : l.Record}
    {members : List (String × String)} {key text : String} {f : κ} {v : (l.kind f).Carrier}
    (before : F.readRecord? (room + 1) l defaults (Text.object members) = some r)
    (whole : ∀ member ∈ members, F.Whole room member)
    (fresh : ∀ member ∈ members, F.read? room .text member.1 ≠ some (l.key f))
    (named : F.read? room .text key = some (l.key f)) (reads : F.read? room (l.kind f) text = some v) :
    F.readRecord? (room + 1) l defaults (Text.object (members ++ [(key, text)])) = some (l.set r f v)
  /-- A member that is no field is skipped. -/
  record_other {κ : Type} [DecidableEq κ] {room : Nat} {l : Layout κ} {defaults r : l.Record}
    {members : List (String × String)} {key text name : String}
    (before : F.readRecord? (room + 1) l defaults (Text.object members) = some r)
    (whole : ∀ member ∈ members, F.Whole room member)
    (named : F.read? room .text key = some name) (unknown : ∀ f, l.key f ≠ name)
    (accepted : F.accepts text = true) :
    F.readRecord? (room + 1) l defaults (Text.object (members ++ [(key, text)])) = some r

end Format

/-! ## Values of every shape -/

/-- A value without doubles whose containers nest at most `room` deep, and whose objects have their members
in the order of the keys. -/
inductive Json.Fits : Nat → Json → Prop
  | null (room : Nat) : Fits room .null
  | bool (room : Nat) (b : Bool) : Fits room (.bool b)
  | whole (room : Nat) (n : Whole) : Fits room (.whole n)
  | text (room : Nat) (s : String) : Fits room (.text s)
  | array {room : Nat} {items : List Json} (fits : ∀ item ∈ items, Fits room item) :
      Fits (room + 1) (.array items)
  | object {room : Nat} {members : List (String × Json)}
      (sorted : members.Pairwise fun a b => a.1 < b.1) (fits : ∀ member ∈ members, Fits room member.2) :
      Fits (room + 1) (.object members)

namespace Format.Documented

variable (documented : F.Documented)

include documented

theorem value_returns {j : Json} (fits : j.Fits room) : F.read? room .value (F.write .value j) = some j := by
  induction fits with
  | null room => exact documented.scalar room .null
  | bool room b => exact documented.scalar room (.bool b)
  | whole room n => exact documented.scalar room (.whole n)
  | text room s => exact documented.scalar room (.string s)
  | array _ ih =>
    rw [documented.array_written]
    exact documented.array_read (List.forall₂_map_left_iff.mpr (List.forall₂_same.mpr ih))
  | @object room members sorted _ ih =>
    have each : List.Forall₂ (F.Entry room)
        (members.map fun member => (F.write .text member.1, F.write .value member.2)) members :=
      List.forall₂_map_left_iff.mpr (List.forall₂_same.mpr fun member there =>
        ⟨documented.scalar room (.text member.1), ih member there⟩)
    rw [documented.object_written, documented.object_read each, Properties.ofList_of_sorted sorted]

theorem duration_returns (room : Nat) (d : Duration) :
    F.read? (room + 1) .duration (F.write .duration d) = some d := by
  rw [documented.duration_written]
  exact documented.duration_read (documented.scalar room (.word64 d.secsWord))
    (documented.scalar room (.word32 d.nanosWord)) d.ofParts?_words

end Format.Documented

/-! ## Records of every order -/

section Record

variable {κ : Type} {l : Layout κ} {r : l.Record}

/-- The texts of a member of a document of the record: it has a field of the record, or its key is that of no
field. -/
inductive Format.Member (F : Format) (room : Nat) (l : Layout κ) (r : l.Record) :
    Option κ → String × String → Prop
  | field {key text : String} (f : κ) (named : F.read? room .text key = some (l.key f))
      (reads : F.read? room (l.kind f) text = some (r f)) : F.Member room l r (some f) (key, text)
  | other {key text name : String} (named : F.read? room .text key = some name)
      (unknown : ∀ f, l.key f ≠ name) (accepted : F.accepts text = true) :
      F.Member room l r none (key, text)

theorem Format.Member.whole (documented : F.Documented) {field : Option κ} {texts : String × String}
    (member : F.Member room l r field texts) : F.Whole room texts := by
  cases member with
  | field f named reads => exact ⟨by rw [named]; rfl, documented.accepts_read reads⟩
  | other named unknown accepted => exact ⟨by rw [named]; rfl, accepted⟩

/-- Only the member of a field has its key. -/
theorem Format.Member.field_of_key {field : Option κ} {texts : String × String} {f : κ}
    (member : F.Member room l r field texts) (named : F.read? room .text texts.1 = some (l.key f)) :
    field = some f := by
  cases member with
  | field g key => rw [l.distinct g f (Option.some.inj (key.symm.trans named))]
  | other key unknown => exact absurd (Option.some.inj (named.symm.trans key)) (unknown f)

variable [DecidableEq κ]

/-- The members may stand in any order: the fields that are given have been set by then, and the others have
their defaults. -/
theorem Format.Documented.members_read (documented : F.Documented) (defaults : l.Record)
    {members : List (Option κ × String × String)}
    (each : ∀ member ∈ members, F.Member room l r member.1 member.2)
    (once : (members.filterMap Prod.fst).Nodup) :
    ∃ d, F.readRecord? (room + 1) l defaults (Text.object (members.map Prod.snd)) = some d ∧
      (∀ f ∈ members.filterMap Prod.fst, d f = r f) ∧
        ∀ f ∉ members.filterMap Prod.fst, d f = defaults f := by
  induction members using List.reverseRecOn with
  | nil => exact ⟨defaults, documented.record_empty room l defaults, List.forall_mem_nil _, fun _ _ => rfl⟩
  | append_singleton members member ih =>
    have former : ∀ other ∈ members, F.Member room l r other.1 other.2 :=
      fun other there => each other (List.mem_append_left _ there)
    rw [List.filterMap_append] at once
    obtain ⟨d, before, given, rest⟩ := ih former (List.nodup_append.mp once).1
    have whole : ∀ texts ∈ members.map Prod.snd, F.Whole room texts :=
      List.forall_mem_map.mpr fun other there => (former other there).whole documented
    obtain ⟨field, key, text⟩ := member
    have last := each (field, key, text) (List.mem_append_right _ List.mem_cons_self)
    rw [List.map_append, List.filterMap_append]
    cases last with
    | other named unknown accepted =>
      have read := documented.record_other before whole named unknown accepted
      exact ⟨d, read, by simpa using given, by simpa using rest⟩
    | field f named reads =>
      obtain ⟨-, -, apart⟩ := List.nodup_append.mp once
      have fresh : ∀ texts ∈ members.map Prod.snd, F.read? room .text texts.1 ≠ some (l.key f) := by
        refine List.forall_mem_map.mpr fun other there same => ?_
        have again := (former other there).field_of_key same
        exact apart f (List.mem_filterMap.mpr ⟨other, there, again⟩) f List.mem_cons_self rfl
      have read := documented.record_field before whole fresh named reads
      refine ⟨_, read, fun g there => ?_, fun g absent => ?_⟩
      · by_cases same : g = f
        · subst same
          exact Layout.set_self d (r g)
        · rw [Layout.set_other d (r f) same]
          exact given g (by simpa [same] using there)
      · have other : g ≠ f := fun same => absent (by simp [same])
        rw [Layout.set_other d (r f) other]
        exact rest g fun there => absent (List.mem_append_left _ there)

theorem Format.Documented.record_returns (documented : F.Documented) {defaults : l.Record}
    {members : List (Option κ × String × String)}
    (each : ∀ member ∈ members, F.Member room l r member.1 member.2)
    (once : (members.filterMap Prod.fst).Nodup)
    (rest : ∀ f ∉ members.filterMap Prod.fst, r f = defaults f) :
    F.readRecord? (room + 1) l defaults (Text.object (members.map Prod.snd)) = some r := by
  obtain ⟨d, read, given, left⟩ := documented.members_read defaults each once
  have same : d = r := by
    funext f
    by_cases there : f ∈ members.filterMap Prod.fst
    · exact given f there
    · rw [left f there, rest f there]
  rw [read, same]

end Record

end ProducerPool
