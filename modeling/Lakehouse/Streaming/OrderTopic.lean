import Lakehouse.Lib.KeyedLog
import Lakehouse.Streaming.OrderRevenue

/-!
# The order topic

What the job can find on `debezium.public.orders` besides the changes themselves. The connector is
configured with `snapshot.mode: always`
(`pipelines/streaming/kafka-connect/debezium-postgres.yaml`), so every restart publishes a read of
each row. The topic is compacted (`pipelines/streaming/kafka-topics/cdc-orders.yaml`), so a job that
starts from the earliest offset may find only some of the records, the last one of each key among
them.
-/

namespace Lakehouse.Streaming

open Lib Source

/-- The watermark of the job after some events. -/
def watermarkAfter (events : List StreamEvent) : Option Int :=
  events.foldl (fun watermark e => match e with
    | .change _ => watermark
    | .watermark m => raise watermark m) none

/-- The window is open, and the watermark closes it. -/
def Fires (watermark : Option Int) (m w : Int) : Prop :=
  closed minute watermark w = false ∧ closed minute (raise watermark m) w = true

instance (watermark : Option Int) (m w : Int) : Decidable (Fires watermark m w) :=
  inferInstanceAs (Decidable (_ ∧ _))

/-! ## Snapshots -/

/-- What the connector publishes, and the watermarks of the job in between. -/
inductive ConnectorEvent where
  | stream (e : StreamEvent)
  /-- One row of the snapshot that a restart takes. -/
  | snapshotRead (r : OrderRow)
deriving DecidableEq

/-- The events as the job sees them: a snapshot read is a change with op `r`. -/
def published (events : List ConnectorEvent) : List StreamEvent :=
  events.map fun
    | .stream e => e
    | .snapshotRead r => .change (.read r)

/-- The events without the snapshots of restarts. -/
def captured (events : List ConnectorEvent) : List StreamEvent :=
  events.filterMap fun
    | .stream e => some e
    | .snapshotRead _ => none

/-! ## Compaction -/

/-- A record of the topic: the envelope of a change, or the tombstone after a delete. -/
inductive TopicRecord where
  | change (c : Change OrderRow)
  | tombstone (orderId : Int64)
deriving DecidableEq

namespace TopicRecord

/-- The order a record is keyed by. -/
def orderId : TopicRecord → Int64
  | .change c => c.row.orderId
  | .tombstone id => id

/-- The image a record replaces; a tombstone has none. -/
def before : TopicRecord → Option OrderRow
  | .change c => c.before
  | .tombstone _ => none

/-- The image a record leaves; a tombstone has none. -/
def after : TopicRecord → Option OrderRow
  | .change c => c.after
  | .tombstone _ => none

end TopicRecord

/-- The topic before it is compacted. -/
def topicOf (log : List (Change OrderRow)) : List TopicRecord :=
  log.flatMap fun c => .change c :: if c.isDelete then [.tombstone c.row.orderId] else []

/-- What compaction may leave of a topic: some of its records, in their order, and the last record
of every key. -/
structure Compacted (topic kept : List TopicRecord) : Prop where
  sublist : kept.Sublist topic
  last : ∀ r ∈ topic, (changesOf TopicRecord.orderId kept r.orderId).getLast? =
    (changesOf TopicRecord.orderId topic r.orderId).getLast?

/-- What a job reads from the topic, and its watermarks in between. -/
inductive TopicEvent where
  | record (r : TopicRecord)
  | watermark (m : Int)
deriving DecidableEq

/-- The records among some events. -/
def records (events : List TopicEvent) : List TopicRecord :=
  events.filterMap fun
    | .record r => some r
    | .watermark _ => none

/-- The events as the job sees them: `debezium-json` skips tombstones. -/
def processed (events : List TopicEvent) : List StreamEvent :=
  events.filterMap fun
    | .record (.change c) => some (.change c)
    | .record (.tombstone _) => none
    | .watermark m => some (.watermark m)

end Lakehouse.Streaming
