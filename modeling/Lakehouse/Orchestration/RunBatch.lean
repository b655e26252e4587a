import Lakehouse.Orchestration.LakehouseBatch

/-!
# The path without Airflow

`scripts/run-batch.sh` submits a Job that runs the three Spark jobs in turn and waits for it; then
it launches the quality gate by `scripts/run-quality-gate.sh`, which does the same with the Job of
the gate. A Job has one pod, which is not tried again; the Job of the gate fails when it is not done
within its deadline. A script that stops waiting leaves its Job running.
-/

namespace Lakehouse.Orchestration

open Lib Source Batch

/-! ## Jobs -/

/-- `.status.succeeded` and `.status.failed` of a Job as a poll finds them, 0 where there is none.
-/
structure JobStatus where
  succeeded : Nat
  failed : Nat

section Batch

variable {bucketHash : String → Nat}

/-- The Iceberg tables. -/
structure SparkTables (bucketHash : String → Nat) where
  bronze : Bronze
  silver : Silver bucketHash
  dailyRevenue : Table dailyRevenueSpec
  customerMetrics : Table (customerMetricsSpec bucketHash)

/-- What Trino reads of them. -/
def SparkTables.read (t : SparkTables bucketHash) : Quality.Tables bucketHash :=
  ⟨t.bronze, t.silver, ⟨t.dailyRevenue.rows, t.customerMetrics.rows⟩⟩

/-- A write of Bronze or Silver. -/
def SparkTables.write (write : Quality.Tables bucketHash → Option (Quality.Tables bucketHash))
    (t : SparkTables bucketHash) : Option (SparkTables bucketHash) :=
  (write t.read).map fun t' => { t with bronze := t'.bronze, silver := t'.silver }

/-- What the two scripts find; pods, topics and the package index as in a run of the DAG. -/
structure RunEnv (bucketHash : String → Nat) extends DagEnv bucketHash where
  /-- The commands up to the submission of a Job succeed. -/
  submitBatch : Bool
  submitGate : Bool
  /-- What the polls find of a Job that ends as it does. -/
  batchStatus : Bool → Nat → JobStatus
  gateStatus : Bool → Nat → JobStatus
  batchTimeout : Nat
  gateTimeout : Nat
  /-- How many seconds after the start of the Job of the gate its pod has ended. -/
  gateSeconds : Nat
  skipQualityGate : Bool
  /-- The clock of `03_gold_aggregate.py`. -/
  today : Int
  computedAt : Int

namespace RunEnv

variable (e : RunEnv bucketHash)

/-- `03_gold_aggregate.py`. -/
def dailyRevenueWrite (t : SparkTables bucketHash) : Option (SparkTables bucketHash) :=
  (goldDailyRevenue t.silver.orders.rows t.silver.orderItems.rows e.computedAt t.dailyRevenue).map
    fun dailyRevenue => { t with dailyRevenue := dailyRevenue }

/-- `gold_customer_metrics`. -/
def customerMetricsWrite (t : SparkTables bucketHash) : Option (SparkTables bucketHash) :=
  (goldCustomerMetrics t.silver.orders.rows t.silver.customers.rows e.today e.computedAt
      t.customerMetrics).map
    fun customerMetrics => { t with customerMetrics := customerMetrics }

end RunEnv

end Batch

/-! ## Rules -/

section Wait

variable {timeout interval : Nat} {status : Bool → Nat → JobStatus} {finished : Bool}

end Wait

end Lakehouse.Orchestration
