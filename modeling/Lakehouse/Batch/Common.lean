import Lakehouse.Lib.Window
import Lakehouse.Source.Debezium

/-!
# Shared helpers of the batch jobs

`pipelines/batch/spark-jobs/lakehouse_common.py`: the parsing of Debezium envelopes, the
last-write-wins deduplication and the column computations that several jobs share. A DataFrame is
the list of its rows in the order in which Spark presents them, and a column expression is a
function of the columns it reads, with SQL nulls as `none`.
-/

namespace Lakehouse.Batch

open Lib Source

/-- `REVENUE_STATUSES`. -/
def revenueStatuses : List String := ["confirmed", "shipped", "delivered", "completed"]

/-- `CHURN_THRESHOLD_DAYS`. -/
def churnThresholdDays : Int := 90

/-- `UPSERT_OPS`. -/
def upsertOps : List String := ["c", "u", "r"]

/-- `isin` as a filter: a null is in no list. -/
def isIn (x : Option String) (l : List String) : Bool := x.any (l.contains ·)

theorem isIn_op {α : Type} (c : Change α) : isIn (some c.op) upsertOps = !c.isDelete := by
  cases c <;> rfl

/-! ## Envelopes -/

/-- A row of the Bronze CDC tables. -/
structure CdcRow where
  cdcId : String
  op : Option String
  tsMs : Option Int
  sourceDb : Option String
  sourceTable : Option String
  txnId : Option Int
  before : Option String
  after : Option String
  ingestedAt : Int
deriving DecidableEq

/-- One row of `parse_debezium_envelope`. -/
def parseEnvelope (cdcId : String) (now : Int) (rawJson : String) : CdcRow where
  cdcId := cdcId
  op := getJsonObject rawJson ["op"]
  tsMs := (getJsonObject rawJson ["ts_ms"]).bind (castInt 64)
  sourceDb := getJsonObject rawJson ["source", "db"]
  sourceTable := getJsonObject rawJson ["source", "table"]
  txnId := (getJsonObject rawJson ["source", "txId"]).bind (castInt 64)
  before := getJsonObject rawJson ["before"]
  after := getJsonObject rawJson ["after"]
  ingestedAt := now

/-- The filter on `raw_json`: neither null nor the empty text. -/
def nonEmpty (rawJson : Option String) : Option String := rawJson.filter (· ≠ "")

/-- Tombstones and empty values are dropped; `uuid` numbers the rows that are left. -/
def parseDebeziumEnvelope (uuid : Nat → String) (now : Int) (raw : List (Option String)) :
    List CdcRow :=
  (raw.filterMap nonEmpty).mapIdx fun i rawJson => parseEnvelope (uuid i) now rawJson

section Envelope

variable {α : Type} (table : String) (fields : α → List (String × Json)) (uuid : Nat → String)
  (now : Int)

/-- The Bronze row of a well-formed event. -/
def cdcRow (cdcId : String) (e : ChangeEvent α) : CdcRow where
  cdcId := cdcId
  op := some e.change.op
  tsMs := some e.tsMs.toInt
  sourceDb := some "lakehouse"
  sourceTable := some table
  txnId := e.txId.map Int64.toInt
  before := imageText fields e.change.before
  after := imageText fields e.change.after
  ingestedAt := now

theorem parseEnvelope_envelope (cdcId : String) (e : ChangeEvent α) :
    parseEnvelope cdcId now (String.ofList (e.envelope table fields).render) =
      cdcRow table fields now cdcId e := by
  have htx : (e.txId.elim Json.null fun n => Json.ofInt n.toInt).text.bind (castInt 64) =
      e.txId.map Int64.toInt := by
    cases e.txId with
    | none => rfl
    | some n => simp
  simp only [parseEnvelope, getJsonObject_render, ChangeEvent.envelope, cdcRow]
  simp [htx, imageText]

theorem render_envelope_ne_empty (e : ChangeEvent α) :
    String.ofList (e.envelope table fields).render ≠ "" := by
  intro h
  have hnil := congrArg String.toList h
  rw [String.toList_ofList] at hnil
  simp [ChangeEvent.envelope, Json.render] at hnil

/-- The values of a topic are the envelopes of a history, in its order, and tombstones or empty
values between them. -/
def Carries (values : List (Option String)) (history : List (ChangeEvent α)) : Prop :=
  values.filterMap nonEmpty = history.map fun e => String.ofList (e.envelope table fields).render

theorem carries_publish (history : List (ChangeEvent α)) :
    Carries table fields (history.flatMap fun e => e.values table fields) history := by
  have hkeep : ∀ e : ChangeEvent α, (e.values table fields).filterMap nonEmpty =
      [String.ofList (e.envelope table fields).render] := by
    intro e
    have hne : nonEmpty (some (String.ofList (e.envelope table fields).render)) =
        some (String.ofList (e.envelope table fields).render) :=
      Option.filter_some_pos (decide_eq_true (render_envelope_ne_empty table fields e))
    rw [ChangeEvent.values, List.filterMap_cons_some hne]
    cases e.change.isDelete <;> rfl
  unfold Carries
  induction history with
  | nil => rfl
  | cons e history ih => rw [List.flatMap_cons, List.filterMap_append, hkeep, ih]; rfl

/-- The Bronze rows of a history that is read from its start. -/
def cdcRows (history : List (ChangeEvent α)) : List CdcRow :=
  history.mapIdx fun i e => cdcRow table fields now (uuid i) e

/-- **One Bronze row for each change**: the tombstones leave no row. -/
theorem parseDebeziumEnvelope_carries {values : List (Option String)}
    {history : List (ChangeEvent α)} (h : Carries table fields values history) :
    parseDebeziumEnvelope uuid now values = cdcRows table fields uuid now history := by
  unfold parseDebeziumEnvelope cdcRows
  rw [h]
  apply List.mapIdx_eq_iff.2
  intro i
  simp only [List.getElem?_mapIdx, List.getElem?_map, Option.map_map, Function.comp_def,
    parseEnvelope_envelope]

theorem mem_cdcRows {history : List (ChangeEvent α)} {r : CdcRow} :
    r ∈ cdcRows table fields uuid now history ↔
      ∃ i e, history[i]? = some e ∧ r = cdcRow table fields now (uuid i) e := by
  unfold cdcRows
  rw [List.mem_iff_getElem?]
  simp only [List.getElem?_mapIdx, Option.map_eq_some_iff]
  constructor
  · rintro ⟨i, e, he, rfl⟩
    exact ⟨i, e, he, rfl⟩
  · rintro ⟨i, e, he, rfl⟩
    exact ⟨i, e, he, rfl⟩

end Envelope

/-! ## Transformations -/

/-- One row per key, the one with the highest `ts_ms`; a null `ts_ms` is below every other. -/
def latestPerKey {ρ κ : Type} [DecidableEq κ] (keyCol : ρ → κ) (orderCol : ρ → Option Int)
    (df : List ρ) : List ρ :=
  @firstPerKey _ _ (WithBot Int) _ _ keyCol orderCol df

/-- `line_total`: the product of an `INT` and a `DECIMAL(18,2)` is exact, the cast may not fit. -/
def withLineTotal (quantity : Option Int) (unitPrice : Option (Dec 18)) : Option (Dec 18) :=
  quantity.bind fun q => unitPrice.bind fun p => castPrecision 18 (q * p.val)

/-- `days_since_last_order` and `is_churned`. -/
def withRecencyMetrics (asOfDate : Int) (lastOrderDate : Option Int) : Option Int × Option Bool :=
  let daysSinceLastOrder := lastOrderDate.map (asOfDate - ·)
  (daysSinceLastOrder, daysSinceLastOrder.map (decide <| churnThresholdDays < ·))

end Lakehouse.Batch
