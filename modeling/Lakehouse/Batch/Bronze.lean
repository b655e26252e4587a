import Lakehouse.Batch.Common
import Mathlib.Data.Multiset.AddSub

/-!
# Bronze ingest

`pipelines/batch/spark-jobs/01_bronze_ingest.py`: every run reads each topic from its earliest
record to its latest and appends what it read to the table of the topic. A topic is the list of its
records; the run supplies the uuids and the timestamps its rows get.
-/

namespace Lakehouse.Batch

open Lib Source

/-- The records of each topic. -/
abbrev Topics := String → List KafkaRecord

/-- The Bronze tables of the CDC topics. -/
inductive CdcTable where
  | cdcOrders
  | cdcCustomers
  | cdcOrderItems
deriving DecidableEq

/-- `TOPICS`, in the order in which the job reads them. -/
def cdcTopics : List (String × CdcTable) :=
  [("debezium.public.orders", .cdcOrders), ("debezium.public.customers", .cdcCustomers),
    ("debezium.public.order_items", .cdcOrderItems)]

/-- The topic of the loader. -/
def rawEventsTopic : String := "raw.events"

/-- A row of `raw.kafka_events`. -/
structure EventRow where
  eventId : String
  topic : String
  partition : Nat
  offset : Nat
  eventTs : Int
  ingestedAt : Int
  msgKey : Option String
  payload : Option String
deriving DecidableEq

/-- The Bronze tables, which are only appended to. -/
structure Bronze where
  cdc : CdcTable → Multiset CdcRow
  kafkaEvents : Multiset EventRow

/-- The tables before the first run. -/
def Bronze.empty : Bronze := ⟨fun _ => 0, 0⟩

/-- What the ingest of a topic draws: UUIDs and its clock. -/
structure IngestEnv where
  uuid : Nat → String
  now : Int

/-- `read_topic`: the values of the records. -/
def readTopic (records : List KafkaRecord) : List (Option String) := records.map (·.value)

/-- `ingest_topic`: append the parsed envelopes of a topic, and the number of rows written. -/
def ingestTopic (env : IngestEnv) (records : List KafkaRecord) (table : Multiset CdcRow) :
    Multiset CdcRow × Nat :=
  let parsed := parseDebeziumEnvelope env.uuid env.now (readTopic records)
  let count := parsed.length
  if count = 0 then (table, 0) else (table + parsed, count)

/-- The row of a record of `raw.events`. -/
def eventRow (eventId : String) (now : Int) (r : KafkaRecord) : EventRow where
  eventId := eventId
  topic := r.topic
  partition := r.partition
  offset := r.offset
  eventTs := r.timestamp
  ingestedAt := now
  msgKey := r.key
  payload := r.value

/-- `ingest_raw_events`: append the whole records of the generic-events topic. -/
def ingestRawEvents (env : IngestEnv) (records : List KafkaRecord) (table : Multiset EventRow) :
    Multiset EventRow × Nat :=
  let events := records.mapIdx fun i r => eventRow (env.uuid i) env.now r
  let count := events.length
  if count = 0 then (table, 0) else (table + events, count)

/-! ## The job -/

/-- A step of the job: one topic and its table. -/
inductive Lane where
  | cdc (topic : String) (table : CdcTable)
  | events
deriving DecidableEq

/-- The topic a lane reads. -/
def Lane.topic : Lane → String
  | .cdc topic _ => topic
  | .events => rawEventsTopic

/-- The lanes of a run, in the order of `main`. -/
def lanes : List Lane := cdcTopics.map (fun (topic, table) => .cdc topic table) ++ [.events]

/-- One step of the job, with the running total of rows. -/
def ingestLane (env : String → IngestEnv) (topics : Topics) (s : Bronze × Nat) (lane : Lane) :
    Bronze × Nat :=
  match lane with
  | .cdc topic table =>
    let (rows, n) := ingestTopic (env topic) (topics topic) (s.1.cdc table)
    ({ s.1 with cdc := Function.update s.1.cdc table rows }, s.2 + n)
  | .events =>
    let (rows, n) := ingestRawEvents (env rawEventsTopic) (topics rawEventsTopic) s.1.kafkaEvents
    ({ s.1 with kafkaEvents := rows }, s.2 + n)

/-- The tables after the first `n` steps of a run, and the rows it wrote: a run that fails leaves
what it appended before. -/
def bronzeIngestUpTo (n : Nat) (env : String → IngestEnv) (topics : Topics) (b : Bronze) :
    Bronze × Nat :=
  (lanes.take n).foldl (ingestLane env topics) (b, 0)

/-- `main`: all four topics. -/
def bronzeIngest (env : String → IngestEnv) (topics : Topics) (b : Bronze) : Bronze × Nat :=
  bronzeIngestUpTo lanes.length env topics b

/-! ## What a step appends -/

theorem ingestTopic_fst (env : IngestEnv) (records : List KafkaRecord) (table : Multiset CdcRow) :
    (ingestTopic env records table).1 =
      table + parseDebeziumEnvelope env.uuid env.now (readTopic records) := by
  simp only [ingestTopic, List.length_eq_zero_iff]
  split
  · next h => simp [h]
  · rfl

theorem ingestRawEvents_fst (env : IngestEnv) (records : List KafkaRecord)
    (table : Multiset EventRow) :
    (ingestRawEvents env records table).1 =
      table + records.mapIdx fun i r => eventRow (env.uuid i) env.now r := by
  simp only [ingestRawEvents, List.length_eq_zero_iff]
  split
  · next h => simp [h]
  · rfl

/-- **A full run** appends the parsed content of each CDC topic to the table of the topic. -/
theorem bronzeIngest_cdc (env : String → IngestEnv) (topics : Topics) (b : Bronze) :
    ∀ p ∈ cdcTopics, (bronzeIngest env topics b).1.cdc p.2 =
      b.cdc p.2 + parseDebeziumEnvelope (env p.1).uuid (env p.1).now (readTopic (topics p.1)) := by
  have hrun : (bronzeIngest env topics b).1.cdc = fun table => match table with
      | .cdcOrders => (ingestTopic (env "debezium.public.orders")
          (topics "debezium.public.orders") (b.cdc .cdcOrders)).1
      | .cdcCustomers => (ingestTopic (env "debezium.public.customers")
          (topics "debezium.public.customers") (b.cdc .cdcCustomers)).1
      | .cdcOrderItems => (ingestTopic (env "debezium.public.order_items")
          (topics "debezium.public.order_items") (b.cdc .cdcOrderItems)).1 := by
    funext table
    cases table <;> rfl
  intro p hp
  rw [hrun, ← ingestTopic_fst]
  simp only [cdcTopics, List.mem_cons, List.not_mem_nil, or_false] at hp
  rcases hp with rfl | rfl | rfl <;> rfl

end Lakehouse.Batch
