import ProducerPool.Json.Format
import ProducerPool.Proofs.Format
import ProducerPool.Proofs.Json.Values

/-!
# The project's own format

`Json.format` keeps to the documentation of formats: what it writes is read as a tree by `Json.Tree.parse?`,
and the tree has the value again.
-/

set_option autoImplicit false

namespace ProducerPool

open Json (Reads ReadsMember Tree)

variable {room : Nat}

/-! ## Texts and their characters -/

namespace Text

theorem toList_separated (part : String) (parts : List String) :
    (",".intercalate (part :: parts)).toList =
      part.toList ++ (parts.map String.toList).flatMap (',' :: ·) := by
  induction parts generalizing part with
  | nil => simp
  | cons next rest ih =>
    rw [String.intercalate_cons_cons, String.toList_append, ih]
    simp

theorem toList_array (items : List String) :
    (array items).toList = Json.joined '[' ',' ']' (items.map String.toList) := by
  cases items with
  | nil => rfl
  | cons item items =>
    rw [array, String.toList_append, String.toList_append, toList_separated]
    simp [Json.joined]

theorem toList_object (members : List (String × String)) : (object members).toList =
    Json.joined '\x7b' ',' '\x7d' (members.map fun m => (member m.1 m.2).toList) := by
  cases members with
  | nil => rfl
  | cons first members =>
    rw [object, String.toList_append, String.toList_append, List.map_cons, toList_separated]
    simp [Json.joined, Function.comp_def]

theorem toList_member (key value : String) :
    (member key value).toList = key.toList ++ ':' :: value.toList := by
  simp [member]

end Text

namespace Json

theorem toList_render (j : Json) : j.render.toList = j.chars := String.toList_ofList

theorem parse?_iff {text : String} {t : Tree} : Tree.parse? text = some t ↔ Reads text.toList t :=
  ⟨Reads.of_tree, Reads.tree⟩

theorem render_array (items : List Json) : (Json.array items).render = Text.array (items.map render) := by
  apply String.toList_inj.mp
  rw [toList_render, chars_array, Text.toList_array, List.map_map]
  exact congrArg _ (List.map_congr_left fun item _ => (toList_render item).symm)

theorem render_object (members : List (String × Json)) : (Json.object members).render =
    Text.object (members.map fun member => (render (.text member.1), member.2.render)) := by
  apply String.toList_inj.mp
  rw [toList_render, chars_object, Text.toList_object, List.map_map]
  refine congrArg _ (List.map_congr_left fun member _ => ?_)
  simp [memberText, Text.toList_member, toList_render, chars]

/-! ## Scalars -/

theorem ofNat_of_lt {n : Nat} (small : n < UInt64.size) :
    ∃ w : Whole, w.value = n ∧ ofNat n = .whole w := by
  have fits : -0x8000000000000000 ≤ (n : Int) ∧ (n : Int) < 0x10000000000000000 := by
    have limit : n < 0x10000000000000000 := small
    omega
  refine ⟨⟨n, fits.1, fits.2⟩, rfl, ?_⟩
  simp [ofNat, Whole.ofNat?, Whole.ofInt?, fits]

/-- A word is written as a number that is read as the word. -/
theorem word_reads {n limit : Nat} (small : n < limit) (bounded : limit ≤ UInt64.size) :
    ∃ t, Reads (ofNat n).chars t ∧ word? limit t = some n := by
  obtain ⟨w, value, written⟩ := ofNat_of_lt (Nat.lt_of_lt_of_le small bounded)
  refine ⟨.number (numeralOf w.value), ?_, ?_⟩
  · rw [written]
    exact whole_reads w
  · have fits : 0 ≤ w.value ∧ w.value < (limit : Int) := by omega
    rw [word?, Tree.value?, value?_numeralOf]
    dsimp only
    rw [if_pos fits, value, Int.toNat_natCast]

theorem word?_lt {n limit : Nat} {t : Tree} (reads : word? limit t = some n) : n < limit := by
  unfold word? at reads
  split at reads
  · split at reads
    case isTrue fits =>
      obtain rfl := Option.some.inj reads
      omega
    case isFalse => cases reads
  · cases reads

theorem word?_of_map {α : Type} {limit : Nat} {f : Nat → α} {g : α → Nat}
    (back : ∀ n < limit, g (f n) = n) {t : Tree} {a : α} (value : (word? limit t).map f = some a) : word? limit t = some (g a) := by
  obtain ⟨n, word, rfl⟩ := Option.map_eq_some_iff.mp value
  rw [back n (word?_lt word), word]

/-- What is written in one piece is read as a tree that has the value. -/
theorem scalar_reads {k : Kind} {v : k.Carrier} (room : Nat) (plain : Format.Scalar k v) :
    ∃ t, Reads (k.toJson v).chars t ∧ k.ofTree? room t = some v := by
  cases plain with
  | flag b => exact ⟨.bool b, bool_reads b, rfl⟩
  | word32 n =>
    obtain ⟨t, reads, value⟩ := word_reads n.toNat_lt_size (by decide)
    exact ⟨t, reads, by simp [Kind.ofTree?, value]⟩
  | word64 n =>
    obtain ⟨t, reads, value⟩ := word_reads n.toNat_lt_size (Nat.le_refl _)
    exact ⟨t, reads, by simp [Kind.ofTree?, value]⟩
  | text s => exact ⟨_, text_reads s, textOf?_units s⟩
  | optionalText s =>
    cases s with
    | none => exact ⟨.null, null_reads, rfl⟩
    | some s => exact ⟨_, text_reads s, by simp [Kind.ofTree?, textOf?_units]⟩
  | null => exact ⟨.null, null_reads, rfl⟩
  | bool b => exact ⟨.bool b, bool_reads b, rfl⟩
  | whole n => exact ⟨_, whole_reads n, value?_numeralOf n⟩
  | string s => exact ⟨_, text_reads s, by simp [Kind.ofTree?, Tree.value?, textOf?_units]⟩

theorem scalar_returns {k : Kind} {v : k.Carrier} (room : Nat) (plain : Format.Scalar k v) :
    format.read? room k (format.write k v) = some v := by
  obtain ⟨t, reads, value⟩ := scalar_reads room plain
  rw [← toList_render] at reads
  exact Option.bind_eq_some_iff.mpr ⟨t, parse?_iff.mpr reads, value⟩

/-! ## Containers -/

/-- A text that is read as a key is a single text, whose units spell the key. -/
theorem key_scans {key name : String} (named : format.read? room .text key = some name) :
    ∃ units, Lexer.Scans key.toList [.text units] ∧ textOf? units = some name := by
  obtain ⟨t, read, value⟩ := Option.bind_eq_some_iff.mp named
  cases t with
  | text units =>
    obtain ⟨ts, scans, builds⟩ := parse?_iff.mp read
    exact ⟨units, builds.text_inv ▸ scans, value⟩
  | _ => cases value

theorem items_read {texts : List String} {items : List Json}
    (each : List.Forall₂ (fun text item => format.read? room .value text = some item) texts items) :
    ∃ ts, List.Forall₂ Reads (texts.map String.toList) ts ∧ Tree.values? room ts = some items := by
  induction each with
  | nil => exact ⟨[], .nil, rfl⟩
  | cons head _ ih =>
    obtain ⟨t, read, value⟩ := Option.bind_eq_some_iff.mp head
    obtain ⟨ts, all, values⟩ := ih
    replace value : t.value? room = some _ := value
    refine ⟨t :: ts, .cons (parse?_iff.mp read) all, ?_⟩
    simp [Tree.values?, value, values]

/-- The texts of a member are read as this member of a tree. -/
structure TreeMember (room : Nat) (texts : String × String) (m : List Nat × Tree) : Prop where
  reads : ReadsMember (Text.member texts.1 texts.2).toList m
  spelt : format.read? room .text texts.1 = textOf? m.1

theorem member_read {key text name : String} {t : Tree} (named : format.read? room .text key = some name)
    (read : Tree.parse? text = some t) :
    ∃ units, TreeMember room (key, text) (units, t) ∧ textOf? units = some name := by
  obtain ⟨units, scans, spelt⟩ := key_scans named
  refine ⟨units, ⟨?_, named.trans spelt.symm⟩, spelt⟩
  rw [Text.toList_member]
  exact .mk scans (parse?_iff.mp read)

theorem object_read {members : List (String × String)} {ms : List (List Nat × Tree)}
    (each : List.Forall₂ (TreeMember room) members ms) :
    Tree.parse? (Text.object members) = some (.object ms) := by
  have reads : List.Forall₂ ReadsMember (members.map fun m => (Text.member m.1 m.2).toList) ms :=
    List.forall₂_map_left_iff.mpr (each.imp fun _ _ => TreeMember.reads)
  have read := Reads.object reads
  rw [← Text.toList_object] at read
  exact parse?_iff.mpr read

theorem entries_read {texts : List (String × String)} {members : List (String × Json)}
    (each : List.Forall₂ (format.Entry room) texts members) :
    ∃ ms, List.Forall₂ (TreeMember room) texts ms ∧ Tree.members? room ms = some members := by
  induction each with
  | nil => exact ⟨[], .nil, rfl⟩
  | cons head _ ih =>
    obtain ⟨t, read, value⟩ := Option.bind_eq_some_iff.mp head.reads
    obtain ⟨units, first, spelt⟩ := member_read head.named read
    obtain ⟨ms, all, values⟩ := ih
    replace value : t.value? room = some _ := value
    exact ⟨(units, t) :: ms, .cons first all, by simp [Tree.members?, spelt, value, values]⟩

theorem whole_read {members : List (String × String)}
    (whole : ∀ member ∈ members, format.Whole room member) :
    ∃ ms, List.Forall₂ (TreeMember room) members ms := by
  induction members with
  | nil => exact ⟨[], .nil⟩
  | cons member members ih =>
    obtain ⟨named, accepted⟩ := whole member List.mem_cons_self
    obtain ⟨name, named⟩ := Option.isSome_iff_exists.mp named
    obtain ⟨t, read⟩ := Option.isSome_iff_exists.mp accepted
    obtain ⟨units, first, -⟩ := member_read named read
    obtain ⟨ms, all⟩ := ih fun other later => whole other (List.mem_cons_of_mem _ later)
    exact ⟨(units, t) :: ms, .cons first all⟩

/-! ## Records -/

section Record

variable {κ : Type} {l : Layout κ} {r d defaults : l.Record}

theorem key_of_ofKey? {name : String} {f : κ} (known : l.ofKey? name = some f) : l.key f = name := by
  simpa using List.find?_some known

theorem ofKey?_key (l : Layout κ) (f : κ) : l.ofKey? (l.key f) = some f := by
  cases found : l.ofKey? (l.key f) with
  | none => simpa using List.find?_eq_none.mp found f (l.complete f)
  | some g => rw [l.distinct g f (key_of_ofKey? found)]

theorem ofKey?_unknown {name : String} (unknown : ∀ f, l.key f ≠ name) : l.ofKey? name = none :=
  List.find?_eq_none.mpr fun f _ => by simpa using unknown f

/-- The fields that the members have. -/
def fieldsOf (l : Layout κ) (ms : List (List Nat × Tree)) : List κ :=
  ms.filterMap fun m => (textOf? m.1).bind l.ofKey?

theorem not_mem_fieldsOf {members : List (String × String)} {ms : List (List Nat × Tree)} {f : κ}
    (each : List.Forall₂ (TreeMember room) members ms)
    (fresh : ∀ member ∈ members, format.read? room .text member.1 ≠ some (l.key f)) :
    f ∉ fieldsOf l ms := by
  induction each with
  | nil => exact List.not_mem_nil
  | @cons member m members ms head _ ih =>
    have rest := ih fun other later => fresh other (List.mem_cons_of_mem _ later)
    have first := fresh member List.mem_cons_self
    rw [head.spelt] at first
    rw [fieldsOf, List.filterMap_cons]
    split
    case h_1 => exact rest
    case h_2 g known =>
      obtain ⟨name, named, known⟩ := Option.bind_eq_some_iff.mp known
      rw [List.mem_cons, not_or]
      refine ⟨?_, rest⟩
      rintro rfl
      exact first (named.trans (congrArg some (key_of_ofKey? known).symm))

variable [DecidableEq κ]

/-- What comes after the members that have been read is read into the record that they have made. -/
theorem ofMembers?_append {ms : List (List Nat × Tree)} {seen : List κ}
    (before : l.ofMembers? room d seen ms = some r) (last : List (List Nat × Tree)) :
    l.ofMembers? room d seen (ms ++ last) =
      l.ofMembers? room r ((fieldsOf l ms).reverse ++ seen) last := by
  induction ms generalizing d seen with
  | nil =>
    obtain rfl := Option.some.inj before
    rfl
  | cons m ms ih =>
    obtain ⟨units, t⟩ := m
    simp only [List.cons_append, Layout.ofMembers?, fieldsOf, List.filterMap_cons] at before ⊢
    cases spelt : textOf? units with
    | none => simp [spelt] at before
    | some name =>
      cases known : l.ofKey? name with
      | none =>
        simp only [spelt, known, Option.bind_eq_bind, Option.bind_some] at before ⊢
        exact ih before
      | some f =>
        simp only [spelt, known, Option.bind_eq_bind, Option.bind_some] at before ⊢
        split at before
        case isTrue => cases before
        case isFalse unseen =>
          obtain ⟨next, sets, before⟩ := Option.bind_eq_some_iff.mp before
          rw [if_neg unseen, sets, Option.bind_some, ih before, List.reverse_cons, List.append_assoc]
          rfl

theorem readRecord?_object {members : List (String × String)} {ms : List (List Nat × Tree)}
    (each : List.Forall₂ (TreeMember room) members ms) :
    format.readRecord? (room + 1) l defaults (Text.object members) = l.ofMembers? room defaults [] ms := by
  have read : format.readRecord? (room + 1) l defaults (Text.object members) =
      (Tree.parse? (Text.object members)).bind (l.ofTree? (room + 1) defaults) := rfl
  rw [read, object_read each]
  rfl

/-- One more member is read after the others. -/
theorem readRecord?_append {members : List (String × String)} {texts : String × String}
    {m : List Nat × Tree} (before : format.readRecord? (room + 1) l defaults (Text.object members) = some r)
    (whole : ∀ member ∈ members, format.Whole room member) (last : TreeMember room texts m) :
    ∃ ms, List.Forall₂ (TreeMember room) members ms ∧
      format.readRecord? (room + 1) l defaults (Text.object (members ++ [texts])) =
        l.ofMembers? room r (fieldsOf l ms).reverse [m] := by
  obtain ⟨ms, each⟩ := whole_read whole
  rw [readRecord?_object each] at before
  refine ⟨ms, each, ?_⟩
  rw [readRecord?_object (List.rel_append each (.cons last .nil)), ofMembers?_append before, List.append_nil]

end Record

/-! ## The documentation -/

theorem format_documented : format.Documented where
  scalar room plain := scalar_returns room plain
  accepts_read reads := by
    obtain ⟨t, read, -⟩ := Option.bind_eq_some_iff.mp reads
    exact Option.isSome_iff_exists.mpr ⟨t, read⟩
  array_written items := render_array items
  array_read each := by
    obtain ⟨ts, reads, values⟩ := items_read each
    have read := Reads.array reads
    rw [← Text.toList_array] at read
    exact Option.bind_eq_some_iff.mpr ⟨_, parse?_iff.mpr read, by simp [Kind.ofTree?, Tree.value?, values]⟩
  object_written members := render_object members
  object_read each := by
    obtain ⟨ms, all, values⟩ := entries_read each
    exact Option.bind_eq_some_iff.mpr ⟨_, object_read all, by simp [Kind.ofTree?, Tree.value?, values]⟩
  properties_written _ := rfl
  properties_read reads := by
    obtain ⟨t, read, value⟩ := Option.bind_eq_some_iff.mp reads
    replace value : t.value? _ = some _ := value
    exact Option.bind_eq_some_iff.mpr ⟨t, read, by simp [Kind.ofTree?, value]⟩
  duration_written d := by
    have secs : d.secsWord.toNat = d.secs := UInt64.toNat_ofNatLT
    have nanos : d.nanosWord.toNat = d.nanos := UInt32.toNat_ofNatLT
    simp only [format, Kind.toJson, Duration.toJson, render_object, List.map, secs, nanos]
  duration_read := by
    intro room a b secs nanos d seconds rest made
    obtain ⟨s, readSecs, valueSecs⟩ := Option.bind_eq_some_iff.mp seconds
    obtain ⟨n, readNanos, valueNanos⟩ := Option.bind_eq_some_iff.mp rest
    have wordSecs := word?_of_map (fun _ small => UInt64.toNat_ofNat_of_lt' small) valueSecs
    have wordNanos := word?_of_map (fun _ small => UInt32.toNat_ofNat_of_lt' small) valueNanos
    obtain ⟨k, first, spelt⟩ := member_read (scalar_returns room (.text "secs")) readSecs
    obtain ⟨m, second, speltNanos⟩ := member_read (scalar_returns room (.text "nanos")) readNanos
    refine Option.bind_eq_some_iff.mpr ⟨_, object_read (.cons first (.cons second .nil)), ?_⟩
    rw [Kind.ofTree?, Duration.ofTree?, if_pos ⟨spelt, speltNanos⟩, Duration.ofTree?.parts?, wordSecs,
      wordNanos]
    exact made
  record_written l r := by
    simp only [format, Layout.toJson, render_object, List.map_map]
    rfl
  record_empty _ _ _ := readRecord?_object .nil
  record_field := by
    intro κ _ room l defaults r members key text f v before whole fresh named reads
    obtain ⟨t, read, value⟩ := Option.bind_eq_some_iff.mp reads
    obtain ⟨units, last, spelt⟩ := member_read named read
    obtain ⟨ms, each, appended⟩ := readRecord?_append before whole last
    have unseen := not_mem_fieldsOf each fresh
    rw [appended]
    simp [Layout.ofMembers?, spelt, ofKey?_key, Layout.setField?, value, unseen]
  record_other := by
    intro κ _ room l defaults r members key text name before whole named unknown accepted
    obtain ⟨t, read⟩ := Option.isSome_iff_exists.mp accepted
    obtain ⟨units, last, spelt⟩ := member_read named read
    obtain ⟨ms, -, appended⟩ := readRecord?_append before whole last
    rw [appended]
    simp [Layout.ofMembers?, spelt, ofKey?_unknown unknown]

end Json

end ProducerPool
