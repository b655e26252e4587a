import Lakehouse.Lib.Attempts
import Lakehouse.Lib.TaskChain
import Lakehouse.Orchestration.RegisterLineage
import Lakehouse.Quality.Suites

/-!
# The DAG of the batch

`pipelines/orchestration/dags/lakehouse_batch.py`: Bronze and Silver by Spark, Gold by `dbt`, the
quality gate, and the declarative lineage, each in a pod of its own and each after the one before it
has succeeded. No task is retried. A run finds the topics, the package index, Trino and Marquez as
its environment has them.
-/

namespace Lakehouse.Orchestration

open Lib Source Batch

section Dag

variable {bucketHash : String → Nat}

/-- The tables, and the events in Marquez. -/
structure Platform (bucketHash : String → Nat) where
  tables : Quality.Tables bucketHash
  marquez : List RunEvent

/-- The tasks of the DAG. -/
inductive TaskId where
  | batchBronzeSilver
  | dbtBuildGold
  | qualityGate
  | registerLineage
deriving DecidableEq

/-- What one run of the DAG finds. -/
structure DagEnv (bucketHash : String → Nat) where
  /-- The pod of a task starts in time. -/
  podStarts : TaskId → Bool
  /-- The pod lives until its script has ended. How far the script of a pod that dies gets is told
  by the writes, the nodes and the posts below. -/
  podLasts : TaskId → Bool
  /-- The topics when a lane is read. -/
  topics : Lane → Topics
  ingest : String → IngestEnv
  /-- The order in which Spark presents the rows of a table. -/
  present : CdcTable → Multiset CdcRow → List CdcRow
  /-- The batch ends before its `i`-th write, or fails after the last one. -/
  breaks : Nat → Bool
  /-- `pip install` succeeds at an attempt. -/
  pipDbt : Nat → Bool
  pipGate : Nat → Bool
  /-- What becomes of the queries of `dbt`. -/
  replies : String → Dbt.Reply
  clock : Dbt.Clock
  gate : Quality.Tables bucketHash → Quality.Env
  uuid : Nat → String
  now : Nat → String
  /-- The answers of Marquez. -/
  respond : Nat → Except String Nat

/-! ## Scripts -/

/-- `for attempt in 1 2 3 4 5`: the loop ends at the first attempt that succeeds, and the script
with the last one that does not. -/
def pipInstall (pip : Nat → Bool) : Bool :=
  let body (attempt : Nat) (s : Unit) : Option (Option Bool × Unit) :=
    some (if pip attempt then some true else if attempt = 5 then some false else none, s)
  match attempts body [1, 2, 3, 4, 5] () with
  | some (some installed, _) => installed
  | some (none, _) => true
  | none => false

/-! ## Tasks -/

namespace DagEnv

variable (e : DagEnv bucketHash)

/-- `01_bronze_ingest.py`. -/
def ingestWrite (lane : Lane) (t : Quality.Tables bucketHash) :
    Option (Quality.Tables bucketHash) :=
  some { t with bronze := (ingestLane e.ingest (e.topics lane) (t.bronze, 0) lane).1 }

/-- `silver_orders` of `02_silver_transform.py`. -/
def ordersWrite (t : Quality.Tables bucketHash) : Option (Quality.Tables bucketHash) :=
  (silverOrders (e.present .cdcOrders (t.bronze.cdc .cdcOrders)) t.silver.orders).map
    fun orders => { t with silver := { t.silver with orders := orders } }

/-- `silver_customers`. -/
def customersWrite (t : Quality.Tables bucketHash) : Option (Quality.Tables bucketHash) :=
  (silverCustomers (e.present .cdcCustomers (t.bronze.cdc .cdcCustomers)) t.silver.customers).map
    fun customers => { t with silver := { t.silver with customers := customers } }

/-- `silver_order_items`, which reads the orders that were just written. -/
def orderItemsWrite (t : Quality.Tables bucketHash) : Option (Quality.Tables bucketHash) :=
  (silverOrderItems (e.present .cdcOrderItems (t.bronze.cdc .cdcOrderItems)) t.silver.orders
      t.silver.orderItems).map
    fun orderItems => { t with silver := { t.silver with orderItems := orderItems } }

/-- The tables of `01_bronze_ingest.py` and of `02_silver_transform.py`. -/
def batchWrites : List (Quality.Tables bucketHash → Option (Quality.Tables bucketHash)) :=
  lanes.map e.ingestWrite ++ [e.ordersWrite, e.customersWrite, e.orderItemsWrite]

/-- `BATCH_SCRIPT`. -/
def batchScript (p : Platform bucketHash) : Bool × Platform bucketHash :=
  let (succeeded, tables) := runWrites e.breaks 0 e.batchWrites p.tables
  (succeeded, { p with tables := tables })

/-- `DBT_SCRIPT`. -/
def dbtScript (p : Platform bucketHash) : Bool × Platform bucketHash :=
  if pipInstall e.pipDbt then
    let build := Dbt.dbtBuildWith e.replies e.clock p.tables.silver p.tables.gold
    (build.exitCode = 0, { p with tables := { p.tables with gold := build.gold } })
  else (false, p)

/-- `GATE_SCRIPT`. -/
def gateScript (p : Platform bucketHash) : Bool × Platform bucketHash :=
  (pipInstall e.pipGate && decide (Quality.main ⟨none, .trino⟩ (e.gate p.tables) = 0), p)

/-- `register_lineage.py`. -/
def lineageScript (p : Platform bucketHash) : Bool × Platform bucketHash :=
  let (exitCode, posted) := registerLineage e.uuid e.now "lakehouse" e.respond
  (exitCode = 0, { p with marquez := p.marquez ++ posted })

/-- A task whose pod does not start fails, and so does one whose pod dies, with what its script has
done. -/
def inPod (task : TaskId) (script : Platform bucketHash → Bool × Platform bucketHash)
    (p : Platform bucketHash) : Bool × Platform bucketHash :=
  if e.podStarts task then
    let (succeeded, p) := script p
    (succeeded && e.podLasts task, p)
  else (false, p)

/-- `batch_bronze_silver >> dbt_build_gold >> quality_gate >> register_lineage`. -/
def lakehouseBatch (p : Platform bucketHash) : List TaskState × Platform bucketHash :=
  runTasks
    [e.inPod .batchBronzeSilver e.batchScript, e.inPod .dbtBuildGold e.dbtScript,
      e.inPod .qualityGate e.gateScript, e.inPod .registerLineage e.lineageScript] p

end DagEnv

end Dag

/-! ## Rules -/

/-- One attempt of the five is enough. -/
theorem pipInstall_iff {pip : Nat → Bool} :
    pipInstall pip = true ↔ ∃ attempt ∈ [1, 2, 3, 4, 5], pip attempt = true := by
  unfold pipInstall
  cases h₁ : pip 1
  case true => simp [attempts, h₁]
  cases h₂ : pip 2
  case true => simp [attempts, h₁, h₂]
  cases h₃ : pip 3
  case true => simp [attempts, h₁, h₂, h₃]
  cases h₄ : pip 4
  case true => simp [attempts, h₁, h₂, h₃, h₄]
  cases h₅ : pip 5
  case true => simp [attempts, h₁, h₂, h₃, h₄, h₅]
  -- the last attempt ends the script
  simp [attempts, h₁, h₂, h₃, h₄, h₅]

end Lakehouse.Orchestration
