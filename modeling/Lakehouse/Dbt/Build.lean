import Lakehouse.Dbt.Gold

/-!
# The dbt build

`dbt build` on `pipelines/dbt`: both models are materialized as tables (`dbt_project.yml`), and each
is tested by the tests of `models/gold/schema.yml` and of `tests/`. A test is a query for the rows
that break it, and passes when it returns none. A table is built beside the one before it and takes
its place, in one step, when the query has succeeded; the tests of a model that failed are skipped.
The nodes run on two threads, and Trino need not answer all of them.
-/

namespace Lakehouse.Dbt

open Lib Batch

/-! ## Tests -/

section Tests

variable {ρ α : Type}

/-- `not_null`: the rows without a value. -/
def notNull (column : ρ → Option α) (rows : Multiset ρ) : Nat :=
  (rows.filter fun r => column r = none).card

/-- `unique`: the values that more than one row has. -/
def unique [DecidableEq α] (column : ρ → Option α) (rows : Multiset ρ) : Nat :=
  let values := (rows.map column).filter fun v => v ≠ none
  (values.dedup.filter fun v => 1 < values.count v).card

/-- `relationships`: the rows with a value that no row of the parent has. -/
def relationships [DecidableEq α] (column : ρ → Option α) (parent : Multiset (Option α))
    (rows : Multiset ρ) : Nat :=
  (rows.filter fun r => column r ≠ none ∧ column r ∉ parent).card

end Tests

/-- `tests/assert_daily_revenue_unique_grain.sql`. -/
def assertDailyRevenueUniqueGrain (rows : Multiset DailyRevenue) : Nat :=
  ((groupBy (fun r => (r.reportDate, r.currency)) rows).filter fun g => 1 < g.2.card).card

/-- A test with its name: the number of rows it returns. -/
abbrev Test (ρ : Type) := String × (Multiset ρ → Nat)

/-- The tests of `daily_revenue`. -/
def dailyRevenueTests : List (Test DailyRevenue) :=
  [("not_null_daily_revenue_report_date", notNull DailyRevenue.reportDate),
    ("not_null_daily_revenue_currency", notNull DailyRevenue.currency),
    ("not_null_daily_revenue_order_count", notNull fun r => some r.orderCount),
    ("not_null_daily_revenue_net_revenue", notNull DailyRevenue.netRevenue),
    ("assert_daily_revenue_unique_grain", assertDailyRevenueUniqueGrain)]

/-- `source` is `silver.customers`. -/
def customerMetricsTests (source : Multiset SilverCustomer) : List (Test CustomerMetrics) :=
  [("unique_customer_metrics_customer_id", unique CustomerMetrics.customerId),
    ("not_null_customer_metrics_customer_id", notNull CustomerMetrics.customerId),
    ("relationships_customer_metrics_customer_id__customer_id__source_silver_customers_",
      relationships CustomerMetrics.customerId (source.map SilverCustomer.customerId)),
    ("not_null_customer_metrics_total_orders", notNull fun m => some m.totalOrders),
    ("not_null_customer_metrics_is_churned", notNull fun m => some m.isChurned)]

/-! ## The build -/

/-- The status of a node in `run_results.json`. -/
inductive Status where
  | success
  | error
  | pass
  | fail (failures : Nat)
  | skipped
deriving DecidableEq

/-- The node does not fail the build. -/
def Status.isOk (status : Status) : Bool := status = .success || status = .pass

/-- What becomes of the query of a node. -/
inductive Reply where
  | answered
  /-- Trino carries it out, but `dbt` does not hear of it. -/
  | lost
  | failed
deriving DecidableEq

/-- The status of a test whose query counts some failures. -/
def testStatus (reply : Reply) (failures : Nat) : Status :=
  if reply = .answered then if failures = 0 then .pass else .fail failures else .error

/-- A model and its tests: its table, and the results of the nodes. -/
def buildModel {ρ : Type} (replies : String → Reply) (name : String) (query : Option (Multiset ρ))
    (tests : List (Test ρ)) (table : Multiset ρ) : Multiset ρ × List (String × Status) :=
  let skipped := tests.map fun (test, _) => (test, Status.skipped)
  match query, replies name with
  | some rows, .answered =>
    (rows, (name, .success) :: tests.map fun (test, failing) =>
      (test, testStatus (replies test) (failing rows)))
  | some rows, .lost => (rows, (name, .error) :: skipped)
  | _, _ => (table, (name, .error) :: skipped)

/-- The schema `gold`. -/
structure Gold where
  dailyRevenue : Multiset DailyRevenue
  customerMetrics : Multiset CustomerMetrics

/-- `current_timestamp` in each of the models, and `current_date`. -/
structure Clock where
  dailyRevenue : Int
  customerMetrics : Int
  today : Int

/-- What a build leaves in Gold, and the status of each of its nodes. -/
structure Build where
  gold : Gold
  results : List (String × Status)

/-- `dbt build`, with what becomes of the query of each node. The two models do not read each
other, so their order does not matter. -/
def dbtBuildWith {bucketHash : String → Nat} (replies : String → Reply) (clock : Clock)
    (silver : Silver bucketHash) (gold : Gold) : Build :=
  let revenue := buildModel replies "daily_revenue"
    (dailyRevenue silver.orders.rows silver.orderItems.rows clock.dailyRevenue)
    dailyRevenueTests gold.dailyRevenue
  let metrics := buildModel replies "customer_metrics"
    (customerMetrics silver.orders.rows silver.customers.rows clock.today clock.customerMetrics)
    (customerMetricsTests silver.customers.rows) gold.customerMetrics
  { gold := ⟨revenue.1, metrics.1⟩, results := revenue.2 ++ metrics.2 }

/-- `dbt build` on a Trino that answers every query. -/
def dbtBuild {bucketHash : String → Nat} (clock : Clock) (silver : Silver bucketHash)
    (gold : Gold) : Build :=
  dbtBuildWith (fun _ => .answered) clock silver gold

/-- The names of the models and of their tests. -/
def nodes : List String :=
  ("daily_revenue" :: dailyRevenueTests.map Prod.fst) ++
    ("customer_metrics" :: (customerMetricsTests 0).map Prod.fst)

/-- 0 when every node has succeeded or passed. -/
def Build.exitCode (build : Build) : Nat := if build.results.all (·.2.isOk) then 0 else 1

end Lakehouse.Dbt
