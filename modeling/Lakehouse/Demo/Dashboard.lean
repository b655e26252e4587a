import Lakehouse.Batch.Gold
import Lakehouse.Lib.KeepLast
import Lakehouse.Streaming.OrderRevenue

/-!
# Dashboard

`demo/dashboard.py`. The hot path reads the sink topic, which has one partition, to its end and
draws the frame that is left of its records. The cold path queries the tables of Gold. Numbers are
as they are before they are formatted; what is computed in double precision is left to a parameter.
-/

namespace Lakehouse.Demo

open Lib Streaming

/-! ## Hot path -/

/-- The double-precision arithmetic of pandas and of Trino, which the dashboard does not look into.
-/
structure Floats (F : Type) where
  /-- `astype(float).sum()` of a column of decimals. -/
  sum : List (Option (Dec 18)) → F
  /-- `AVG` of doubles, `n` of them one and the rest of `count` zero. -/
  average : Nat → Nat → F

/-- `ORDER BY report_date`: nulls come last. -/
def dateLe : Option Int → Option Int → Bool
  | some d, some d' => decide (d ≤ d')
  | _, none => true
  | none, some _ => false

/-- `AVG(CASE WHEN is_churned THEN 1e0 ELSE 0e0 END)`: null without rows. -/
def churnRate {F : Type} (floats : Floats F) (customers : List Batch.CustomerMetrics) : Option F :=
  if customers = [] then none
  else some (floats.average (customers.countP Batch.CustomerMetrics.isChurned) customers.length)

/-- `ORDER BY total_revenue DESC LIMIT 10`. -/
def topCustomers (customers : List Batch.CustomerMetrics) : List Batch.CustomerMetrics :=
  (customers.mergeSort fun m m' => decide (m'.totalRevenue.val ≤ m.totalRevenue.val)).take 10

/-- What `cold_path` shows: the three numbers, the bars and the table. -/
structure ColdMetrics (F : Type) where
  totalRevenue : F
  totalOrders : Nat
  churnRate : F
  daily : List Batch.DailyRevenue
  customers : List Batch.CustomerMetrics

/-- What the page shows of Gold. -/
inductive ColdView (F : Type) where
  /-- Gold tables are empty. -/
  | empty
  | shown (metrics : ColdMetrics F)
  /-- The churn rate is null, which `float` does not take. -/
  | typeError

/-- The rows of `daily` are those of its query, in the order of their days. -/
def coldMetrics {F : Type} (floats : Floats F) (rate : F) (daily : List Batch.DailyRevenue)
    (customers : List Batch.CustomerMetrics) : ColdMetrics F :=
  let daily := daily.mergeSort fun r r' => dateLe r.reportDate r'.reportDate
  { totalRevenue := floats.sum (daily.map Batch.DailyRevenue.netRevenue)
    totalOrders := (daily.map Batch.DailyRevenue.orderCount).sum
    churnRate := rate
    daily := daily
    customers := topCustomers customers }

/-- `cold_path` over the rows of `gold.daily_revenue` and `gold.customer_metrics`. -/
def coldPath {F : Type} (floats : Floats F) (daily : List Batch.DailyRevenue)
    (customers : List Batch.CustomerMetrics) : ColdView F :=
  if daily = [] then .empty
  else match churnRate floats customers with
    | none => .typeError
    | some rate => .shown (coldMetrics floats rate daily customers)

end Lakehouse.Demo
