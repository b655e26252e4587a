import Lakehouse.Source.Rows

/-!
# Change events

The change events Debezium publishes for the captured tables
(`pipelines/streaming/kafka-connect/debezium-postgres.yaml`): one envelope for each row change, and
a tombstone after the envelope of a delete. Every table has replica identity `FULL`, so updates and
deletes carry the whole row before them (`ChangeEvent.before`).
-/

namespace Lakehouse.Source

open Lib

/-- A change of one row. -/
inductive Change (α : Type) where
  | create (after : α)
  | read (after : α)
  | update (before after : α)
  | delete (before : α)
deriving DecidableEq

namespace Change

variable {α : Type}

/-- The `op` of the envelope. -/
def op : Change α → String
  | .create _ => "c"
  | .read _ => "r"
  | .update _ _ => "u"
  | .delete _ => "d"

/-- The `before` image: snapshots and inserts have none. -/
def before : Change α → Option α
  | .create _ => none
  | .read _ => none
  | .update b _ => some b
  | .delete b => some b

/-- The `after` image: deletes have none. -/
def after : Change α → Option α
  | .create a => some a
  | .read a => some a
  | .update _ a => some a
  | .delete _ => none

/-- The row the change is about, in the image it leaves or, for a delete, the last one. -/
def row : Change α → α
  | .create a => a
  | .read a => a
  | .update _ a => a
  | .delete b => b

/-- The change leaves no image. -/
def isDelete (c : Change α) : Bool := c.after.isNone

end Change

/-- A change with the time and the transaction it was published with. -/
structure ChangeEvent (α : Type) where
  change : Change α
  tsMs : Int64
  txId : Option Int64 := none
deriving DecidableEq

section Envelope

variable {α : Type}

/-- An image as JSON. -/
def jsonImage (fields : α → List (String × Json)) (row : Option α) : Json :=
  row.elim .null fun r => .obj (fields r)

/-- The envelope of a change of a table. -/
def ChangeEvent.envelope (table : String) (fields : α → List (String × Json))
    (e : ChangeEvent α) : Json :=
  .obj [("before", jsonImage fields e.change.before), ("after", jsonImage fields e.change.after),
    ("source", .obj [("db", .str "lakehouse"), ("table", .str table),
      ("txId", e.txId.elim .null fun n => .ofInt n.toInt)]),
    ("op", .str e.change.op), ("ts_ms", .ofInt e.tsMs.toInt)]

/-- The values a change puts on its topic. -/
def ChangeEvent.values (table : String) (fields : α → List (String × Json))
    (e : ChangeEvent α) : List (Option String) :=
  some (String.ofList (e.envelope table fields).render) ::
    if e.change.isDelete then [none] else []

/-- An image as `get_json_object` gives it: a null image is null. -/
def imageText (fields : α → List (String × Json)) (row : Option α) : Option String :=
  (jsonImage fields row).text

theorem getJsonObject_image (fields : α → List (String × Json)) (r : α) (path : List String) :
    (imageText fields (some r)).bind (getJsonObject · path) = (Json.obj (fields r)).lookup path :=
  getJsonObject_obj (fields r) path

end Envelope

/-- A record of a Kafka topic. -/
structure KafkaRecord where
  topic : String
  partition : Nat
  offset : Nat
  /-- Microseconds since the epoch. -/
  timestamp : Int
  key : Option String
  value : Option String
deriving DecidableEq

/-- The records of a topic with one partition. -/
def recordsOf (topic : String) (values : List (Option String)) : List KafkaRecord :=
  values.mapIdx fun i value =>
    { topic := topic, partition := 0, offset := i, timestamp := 0, key := none, value := value }

@[simp] theorem values_recordsOf (topic : String) (values : List (Option String)) :
    (recordsOf topic values).map (·.value) = values := by
  apply List.ext_getElem?
  intro i
  simp only [recordsOf, List.getElem?_map, List.getElem?_mapIdx, Option.map_map]
  exact Option.map_id' ..

end Lakehouse.Source
