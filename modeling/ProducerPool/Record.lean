import ProducerPool.Error
import ProducerPool.SortedMap

/-!
# Records, offsets and metrics

The data that passes through a producer: the record it is asked to send, the place where the record
was stored, the consumed offsets it commits with a transaction, and the metrics it reports.
-/

set_option autoImplicit false

namespace ProducerPool

abbrev Bytes := List UInt8

/-- A record to publish; key and value are bytes already. -/
structure Record where
  topic : String
  partition : Option Int32 := none
  key : Option Bytes := none
  value : Option Bytes := none
  headers : List (String × Bytes) := []
deriving DecidableEq

structure Receipt where
  topic : String
  partition : Int32
  offset : Int
deriving DecidableEq

/-- What became of a record that was accepted for sending. -/
abbrev Outcome := Except ClientError Receipt

structure TopicPartition where
  topic : String
  partition : Int32
deriving DecidableEq

namespace TopicPartition

def before (a b : TopicPartition) : Bool :=
  textBefore a.topic b.topic || (a.topic == b.topic && decide (a.partition < b.partition))

def sort (items : List TopicPartition) : List TopicPartition :=
  items.mergeSort fun a b => !before b a

end TopicPartition

abbrev Offsets := SortedMap TopicPartition Int

def Offsets.ofList (entries : List (TopicPartition × Int)) : Offsets :=
  SortedMap.ofList TopicPartition.before entries

/-- One measurement of a client.  The value is a double that holds a whole number. -/
structure Metric where
  name : String
  group : String
  tags : SortedMap String String
  value : Int
deriving DecidableEq

/-- The whole number nearest to `n` that a double holds; a tie goes to the even mantissa. -/
def nearestDouble (n : Int) : Int :=
  let magnitude := n.natAbs
  let unit := Nat.pow 2 (magnitude.log2 - 52)
  let quotient := magnitude / unit
  let remainder := magnitude % unit
  let up := unit < 2 * remainder || (unit = 2 * remainder && quotient % 2 = 1)
  let rounded : Nat := (if up then quotient + 1 else quotient) * unit
  if n < 0 then -(rounded : Int) else rounded

namespace Metric

def clientIdTag : String := "client-id"

def ofParts (name group : String) (value : Int) (tags : List (String × String)) : Metric where
  name := name
  group := group
  value := nearestDouble value
  tags := SortedMap.ofList textBefore tags

/-- The value as it is reported, a signed 64-bit number: a double beyond the range is reported as the
nearest end of it. -/
def reported (m : Metric) : Int := max (-0x8000000000000000) (min m.value 0x7FFFFFFFFFFFFFFF)

/-- The client id of the first metric that carries one. -/
def clientId? (metrics : List Metric) : Option String :=
  metrics.findSome? fun m => SortedMap.find? clientIdTag m.tags

end Metric

end ProducerPool
