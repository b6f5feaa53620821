import ProducerPool.Config
import ProducerPool.Json.Format

/-!
# Configurations as documents

A configuration is declared to the format as a record of six fields, each of which may be left out and has
its default then.  `Config.parse?` and `Config.render` read and write it in the project's own format.
-/

set_option autoImplicit false

namespace ProducerPool.Config

inductive Field where
  | properties
  | idPrefix
  | perThread
  | perPartition
  | closeTimeout
  | name
deriving DecidableEq, Repr

namespace Field

def all : List Field := [.properties, .idPrefix, .perThread, .perPartition, .closeTimeout, .name]

def key : Field → String
  | .properties => "properties"
  | .idPrefix => "transaction_id_prefix"
  | .perThread => "producer_per_thread"
  | .perPartition => "producer_per_consumer_partition"
  | .closeTimeout => "close_timeout"
  | .name => "factory_name"

def kind : Field → Kind
  | .properties => .properties
  | .idPrefix => .optionalText
  | .perThread => .flag
  | .perPartition => .flag
  | .closeTimeout => .duration
  | .name => .optionalText

end Field

def layout : Layout Field where
  all := Field.all
  key := Field.key
  kind := Field.kind
  complete f := by cases f <;> decide
  once := by decide
  distinct f g same := by cases f <;> cases g <;> first | rfl | exact absurd same (by decide)

def record (c : Config) : layout.Record
  | .properties => c.properties
  | .idPrefix => c.idPrefix
  | .perThread => c.perThread
  | .perPartition => c.perPartition
  | .closeTimeout => c.closeTimeout
  | .name => c.name

def ofRecord (r : layout.Record) : Config where
  properties := r .properties
  idPrefix := r .idPrefix
  perThread := r .perThread
  perPartition := r .perPartition
  closeTimeout := r .closeTimeout
  name := r .name

@[simp] theorem ofRecord_record (c : Config) : ofRecord c.record = c := rfl

def ofText? (F : Format) (text : String) : Option Config :=
  (F.readRecord? Json.maxNesting layout (record {}) text).map ofRecord

def toText (F : Format) (c : Config) : String := F.writeRecord layout c.record

def parse? (text : String) : Option Config := ofText? Json.format text

def render (c : Config) : String := c.toText Json.format

def ofTree? (t : Json.Tree) : Option Config :=
  (layout.ofTree? Json.maxNesting (record {}) t).map ofRecord

def toJson (c : Config) : Json := layout.toJson c.record

end ProducerPool.Config
