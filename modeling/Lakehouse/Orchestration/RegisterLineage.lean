import Mathlib.Data.List.Basic

/-!
# Declarative lineage

`scripts/register_lineage.py`: for each stage without an emitter of its own a START and a COMPLETE
event of one run, posted to Marquez one after the other. The first post that fails ends the script
with exit code 1.
-/

namespace Lakehouse.Orchestration

/-! ## Events -/

/-- A dataset reference; without fields it has no schema facet. -/
structure Dataset where
  ns : String
  name : String
  fields : List (String × String)
deriving DecidableEq

/-- A job as OpenLineage names it. -/
structure LineageJob where
  ns : String
  name : String
  description : String
deriving DecidableEq

/-- The event types that are sent. -/
inductive EventType where
  | start
  | complete
deriving DecidableEq

/-- An event of a run. -/
structure RunEvent where
  eventType : EventType
  eventTime : String
  runId : String
  job : LineageJob
  inputs : List Dataset
  outputs : List Dataset
deriving DecidableEq

/-- `POSTGRES_NS`. -/
def postgresNs : String := "postgres://postgres.streaming.svc.cluster.local:5432"

/-- `KAFKA_NS`. -/
def kafkaNs : String := "kafka://kafka-dev-kafka-bootstrap.streaming.svc.cluster.local:9092"

/-- `EXCHANGE_API_NS`. -/
def exchangeApiNs : String := "https://api.frankfurter.dev"

/-- `PG_TABLES`. -/
def pgTables : List (String × List (String × String)) :=
  [("lakehouse.public.orders",
      [("order_id", "bigint"), ("customer_id", "bigint"), ("status", "varchar"),
        ("total_amount", "numeric"), ("created_at", "timestamptz"),
        ("updated_at", "timestamptz")]),
    ("lakehouse.public.customers",
      [("customer_id", "bigint"), ("name", "varchar"), ("email", "varchar"),
        ("created_at", "timestamptz"), ("updated_at", "timestamptz")]),
    ("lakehouse.public.order_items",
      [("item_id", "bigint"), ("order_id", "bigint"), ("product_id", "bigint"),
        ("quantity", "int"), ("unit_price", "numeric"), ("created_at", "timestamptz")])]

/-- `CDC_TOPICS`. -/
def cdcTopicNames : List String :=
  ["debezium.public.orders", "debezium.public.customers", "debezium.public.order_items"]

/-- `FLINK_SINK_FIELDS`. -/
def flinkSinkFields : List (String × String) :=
  [("window_start", "timestamp"), ("window_end", "timestamp"), ("order_count", "bigint"),
    ("total_revenue", "decimal(14,2)"), ("avg_order_value", "decimal(12,2)")]

/-- `RATE_EVENT_FIELDS`. -/
def rateEventFields : List (String × String) :=
  [("event_type", "varchar"), ("base", "varchar"), ("currency", "varchar"), ("rate", "double"),
    ("rate_date", "date"), ("fetched_at", "timestamp")]

/-- `run_events`: both events have the one run id and the one time. -/
def runEvents (runId now : String) (job : LineageJob) (inputs outputs : List Dataset) :
    List RunEvent :=
  [.start, .complete].map fun eventType =>
    { eventType := eventType
      eventTime := now
      runId := runId
      job := job
      inputs := inputs
      outputs := outputs }

/-- `build_events`, with the run id and the time of each of the three jobs. -/
def buildEvents (uuid now : Nat → String) (ns : String) : List RunEvent :=
  runEvents (uuid 0) (now 0)
      { ns := ns
        name := "debezium-postgres-cdc"
        description := "Debezium PostgreSQL connector (KafkaConnector debezium-postgres): " ++
          "WAL logical replication → debezium.public.* topics. " ++
          "Declarative edge — Debezium has no OpenLineage emitter." }
      (pgTables.map fun (name, fields) => ⟨postgresNs, name, fields⟩)
      (cdcTopicNames.map fun topic => ⟨kafkaNs, topic, []⟩) ++
    runEvents (uuid 1) (now 1)
      { ns := ns
        name := "flink-order-revenue"
        description := "Flink order-revenue job: 1-minute tumbling event-time windows, " ++
          "exactly-once. Declarative edge — PyFlink Table API OpenLineage " ++
          "support is still limited upstream." }
      [⟨kafkaNs, "debezium.public.orders", []⟩]
      [⟨kafkaNs, "gold.order-revenue-1m", flinkSinkFields⟩] ++
    runEvents (uuid 2) (now 2)
      { ns := ns
        name := "exchange-rates-loader"
        description := "Exchange-rates loader (pipelines/ingestion/): Frankfurter API " ++
          "-> Polars -> raw.events, one event per quoted currency. " ++
          "Declarative edge — plain Python script without an emitter." }
      [⟨exchangeApiNs, "v1/latest", []⟩]
      [⟨kafkaNs, "raw.events", rateEventFields⟩]

/-! ## The script -/

/-- `post_event`: the status of the response, or an exception of the request. -/
def accepted : Except String Nat → Bool
  | .error _ => false
  | .ok status => status / 100 = 2

/-- The posts of `main` from the `i`-th on: the exit code, and the events that were accepted. -/
def postEvents (respond : Nat → Except String Nat) (i : Nat) : List RunEvent → Nat × List RunEvent
  | [] => (0, [])
  | event :: events =>
    if accepted (respond i) then
      let (exitCode, posted) := postEvents respond (i + 1) events
      (exitCode, event :: posted)
    else (1, [])

/-- `main`. -/
def registerLineage (uuid now : Nat → String) (ns : String) (respond : Nat → Except String Nat) :
    Nat × List RunEvent :=
  postEvents respond 0 (buildEvents uuid now ns)

/-! ## What is posted -/

variable {respond : Nat → Except String Nat}

theorem postEvents_isPrefixOf (i : Nat) (events : List RunEvent) :
    (postEvents respond i events).2 <+: events := by
  induction events generalizing i with
  | nil => exact List.prefix_refl _
  | cons event events ih =>
    unfold postEvents
    split
    · exact (List.prefix_cons_inj event).2 (ih (i + 1))
    · exact List.nil_prefix

/-- The script succeeds when every post is accepted. -/
theorem postEvents_exitCode {i : Nat} {events : List RunEvent} :
    (postEvents respond i events).1 = 0 ↔
      ∀ j < events.length, accepted (respond (i + j)) = true := by
  induction events generalizing i with
  | nil => simp [postEvents]
  | cons event events ih =>
    rw [List.length_cons, Nat.forall_lt_succ_left, Nat.add_zero]
    cases hfirst : accepted (respond i) with
    | true =>
      simp only [postEvents, hfirst, if_true, true_and, ih]
      simp only [Nat.add_assoc, Nat.add_comm 1]
    | false => simp [postEvents, hfirst]

theorem postEvents_of_exitCode {i : Nat} {events : List RunEvent}
    (h : (postEvents respond i events).1 = 0) : (postEvents respond i events).2 = events := by
  induction events generalizing i with
  | nil => rfl
  | cons event events ih =>
    unfold postEvents at h ⊢
    split at h
    · next hfirst =>
      rw [if_pos hfirst]
      exact congrArg (event :: ·) (ih h)
    · cases h

end Lakehouse.Orchestration
