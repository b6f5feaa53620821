import ProducerPool.Config.Document
import ProducerPool.Proofs.Json.Format

/-!
# Configurations are read as they are written

For every format that keeps to its documentation, what a configuration is written as is read as the same
configuration.  The order of the members does not matter, members of other names may stand among them, and a
field that has its default may be left out.
-/

set_option autoImplicit false

namespace ProducerPool.Config

variable {F : Format} {c : Config}

/-- The containers that the value of a field may still nest: it stands in the configuration. -/
def fieldRoom : Nat := Json.maxNesting - 1

/-- A configuration that can be written without loss: its properties are in the order of their keys, and
their values are without doubles and nest no deeper than the reader has room for in the properties. -/
structure Plain (c : Config) : Prop where
  sorted : c.properties.Pairwise fun a b => a.1 < b.1
  fits : ∀ entry ∈ c.properties, entry.2.Fits (fieldRoom - 1)

/-- What a field is written as is read as the same again. -/
theorem Plain.field_returns (documented : F.Documented) (plain : c.Plain) (f : Field) :
    F.read? fieldRoom f.kind (F.write f.kind (c.record f)) = some (c.record f) := by
  cases f with
  | properties =>
    have whole : (Json.object c.properties).Fits fieldRoom := .object plain.sorted plain.fits
    have returns := documented.value_returns whole
    rw [← documented.properties_written] at returns
    exact documented.properties_read returns
  | idPrefix => exact documented.scalar fieldRoom (.optionalText c.idPrefix)
  | perThread => exact documented.scalar fieldRoom (.flag c.perThread)
  | perPartition => exact documented.scalar fieldRoom (.flag c.perPartition)
  | closeTimeout => exact documented.duration_returns (fieldRoom - 1) c.closeTimeout
  | name => exact documented.scalar fieldRoom (.optionalText c.name)

/-- The texts of a member of a document: a field as it is written, or a member that is no field, however its
key is spelt and whatever its value is. -/
inductive Member (F : Format) (c : Config) : Option Field → String × String → Prop
  | field (f : Field) : Member F c (some f) (F.write .text f.key, F.write f.kind (c.record f))
  | other {key value name : String} (named : F.read? fieldRoom .text key = some name)
      (unknown : ∀ f : Field, f.key ≠ name) (accepted : F.accepts value = true) :
      Member F c none (key, value)

/-- A document of the configuration has each field at most once, in any order, and others among them; what
is left out has its default. -/
inductive Document (F : Format) (c : Config) : String → Prop
  | mk (members : List (Option Field × String × String))
      (each : ∀ member ∈ members, Member F c member.1 member.2)
      (once : (members.filterMap Prod.fst).Nodup)
      (rest : ∀ f ∉ members.filterMap Prod.fst, c.record f = record {} f) :
      Document F c (Text.object (members.map Prod.snd))

theorem Member.returns (documented : F.Documented) (plain : c.Plain) {field : Option Field}
    {texts : String × String} (member : Member F c field texts) :
    F.Member fieldRoom layout c.record field texts := by
  cases member with
  | field f => exact .field f (documented.scalar fieldRoom (.text f.key)) (plain.field_returns documented f)
  | other named unknown accepted => exact .other named unknown accepted

theorem Document.ofText? (documented : F.Documented) (plain : c.Plain) {text : String}
    (document : Document F c text) : Config.ofText? F text = some c := by
  obtain ⟨members, each, once, rest⟩ := document
  have read : F.readRecord? Json.maxNesting layout (record {}) (Text.object (members.map Prod.snd)) =
      some c.record :=
    documented.record_returns (fun member there => (each member there).returns documented plain) once rest
  rw [Config.ofText?, read, Option.map_some, ofRecord_record]

theorem toText_document (documented : F.Documented) (c : Config) : Document F c (c.toText F) := by
  let members : List (Option Field × String × String) := Field.all.map fun f =>
    (some f, F.write .text f.key, F.write f.kind (c.record f))
  have written : c.toText F = Text.object (members.map Prod.snd) := by
    rw [toText, documented.record_written, List.map_map]
    rfl
  have listed : members.filterMap Prod.fst = Field.all := by
    rw [List.filterMap_map]
    exact List.filterMap_some
  rw [written]
  exact .mk members (List.forall_mem_map.mpr fun f _ => .field f) (listed ▸ layout.once)
    fun f absent => absurd (listed ▸ layout.complete f) absent

/-- Of the project's own format nothing has to be assumed. -/
theorem parse?_document (plain : c.Plain) {text : String} (document : Document Json.format c text) :
    parse? text = some c :=
  document.ofText? Json.format_documented plain

/-- The text of a configuration is one of its documents, and each of those is read as it. -/
theorem documents_parse (documented : F.Documented) (plain : c.Plain) :
    ofText? F (c.toText F) = some c ∧ ∀ text, Document F c text → ofText? F text = some c :=
  ⟨(toText_document documented c).ofText? documented plain,
    fun _ document => document.ofText? documented plain⟩

/-- A configuration with a nested value and a text that has to be escaped. -/
def sample : Config :=
  { properties := [("acks", .text "all"), ("retries", .array [.whole ⟨-5, by decide, by decide⟩])]
    idPrefix := some "tx\n" }

theorem sample_plain : sample.Plain where
  sorted := by decide
  fits := by
    refine List.forall_mem_cons.mpr ⟨.text _ "all", List.forall_mem_cons.mpr ⟨?_, List.forall_mem_nil _⟩⟩
    exact .array (List.forall_mem_cons.mpr ⟨.whole _ _, List.forall_mem_nil _⟩)

/-- A document in which the fields stand in another order, those with defaults are left out, and one member
is unknown. -/
theorem documents_parse_of_sample :
    let text := "\x7b\"zone\":[1.5e3,\x7b\x7d],\"transaction_id_prefix\":\"tx\\n\"," ++
      "\"properties\":\x7b\"acks\":\"all\",\"retries\":[-5]\x7d\x7d"
    Json.format.Documented ∧ sample.Plain ∧ Document Json.format sample text ∧
      parse? sample.render = some sample ∧ parse? text = some sample := by
  intro text
  let zone := ("\"zone\"", "[1.5e3,\x7b\x7d]")
  let member (f : Field) := (Json.format.write .text f.key, Json.format.write f.kind (sample.record f))
  have named : Json.format.read? fieldRoom .text zone.1 = some "zone" := by decide +kernel
  have other : Member Json.format sample none zone :=
    .other named (fun f => by cases f <;> decide) (by decide +kernel)
  have document : Document Json.format sample (Text.object [zone, member .idPrefix, member .properties]) := by
    refine .mk [(none, zone), (some .idPrefix, member .idPrefix), (some .properties, member .properties)] ?_
      (by decide) fun f absent => ?_
    · simpa using ⟨other, .field .idPrefix, .field .properties⟩
    · cases f with
      | idPrefix | properties => exact absurd (by decide) absent
      | _ => rfl
  have same : text = Text.object [zone, member .idPrefix, member .properties] := by decide +kernel
  rw [← same] at document
  have parses := documents_parse Json.format_documented sample_plain
  exact ⟨Json.format_documented, sample_plain, document, parses.1, parses.2 text document⟩

end ProducerPool.Config
