import Lakehouse.Lib.GroupWindow
import Lakehouse.Source.Debezium

/-!
# Order revenue per minute

`pipelines/streaming/flink-jobs/order-revenue/job.py`: the order changes are unwrapped into inserts
and retractions, counted and summed in one-minute tumbling windows on `updated_at`, and one record
is emitted for a window when the watermark reaches its end. Times are milliseconds since the epoch,
and amounts are cents.
-/

namespace Lakehouse.Streaming

open Lib Source

/-- The size of the windows, in milliseconds. -/
def minute : Int := 60000

/-- `updated_at` as `TIMESTAMP_LTZ(3)`. -/
def rowtime (r : OrderRow) : Int := r.updatedAt / 1000

/-- What a row adds to `COUNT(*)` and to `SUM(total_amount)`. -/
def contribution (r : OrderRow) : Int × Int := (1, r.totalAmount.val)

/-- A row that enters its window. -/
def insertRow (r : OrderRow) : WindowEvent (Int × Int) := .row (rowtime r) (contribution r)

/-- A row that is taken out of its window again. -/
def retractRow (r : OrderRow) : WindowEvent (Int × Int) := .row (rowtime r) (-contribution r)

/-- The rows that `debezium-json` makes of a change. -/
def decode : Change OrderRow → List (WindowEvent (Int × Int))
  | .create a => [insertRow a]
  | .read a => [insertRow a]
  | .update b a => [retractRow b, insertRow a]
  | .delete b => [retractRow b]

/-- What the job processes: the changes of the topic, and watermarks between them. -/
inductive StreamEvent where
  | change (c : Change OrderRow)
  | watermark (m : Int)
deriving DecidableEq

/-- What the window operator sees of an event. -/
def StreamEvent.windowEvents : StreamEvent → List (WindowEvent (Int × Int))
  | .change c => decode c
  | .watermark m => [.watermark m]

/-- The changes among some events. -/
def changes (events : List StreamEvent) : List (Change OrderRow) :=
  events.filterMap fun
    | .change c => some c
    | .watermark _ => none

/-! ## Results -/

/-- The quotient of two integers, rounded to the nearest. -/
def quotient (n d : Int) : Int := roundDiv (n * d.sign) d.natAbs

/-- A row of the query of the job. -/
structure RevenueRow where
  windowStart : Int
  windowEnd : Int
  orderCount : Int
  /-- `SUM` of `DECIMAL(12,2)`, a `DECIMAL(38,2)`. -/
  totalRevenue : Int
  /-- `AVG` of `DECIMAL(12,2)`, in units of `10 ^ -6`. -/
  avgOrderValue : Int
deriving DecidableEq

/-- The row of a window with some totals. -/
def revenueRow (w : Int) (totals : Int × Int) : RevenueRow where
  windowStart := windowStart minute w
  windowEnd := windowEnd minute w
  orderCount := totals.1
  totalRevenue := totals.2
  avgOrderValue := quotient (totals.2 * 10 ^ 4) totals.1

/-- A window without rows emits nothing. -/
def emit (e : Int × (Int × Int)) : Option RevenueRow :=
  if e.2.1 = 0 then none else some (revenueRow e.1 e.2)

/-- A record of the sink `order_revenue_1m`. -/
structure RevenueRecord where
  windowStart : Int
  windowEnd : Int
  orderCount : Int
  totalRevenue : Option (Dec 14)
  avgOrderValue : Option (Dec 12)
deriving DecidableEq

/-- The casts to the types of the sink. -/
def RevenueRow.record (r : RevenueRow) : RevenueRecord where
  windowStart := r.windowStart
  windowEnd := r.windowEnd
  orderCount := r.orderCount
  totalRevenue := castPrecision 14 r.totalRevenue
  avgOrderValue := castPrecision 12 (quotient r.avgOrderValue (10 ^ 4))

/-! ## The job -/

/-- The windows after some events, and those that have fired. -/
def runJob (events : List StreamEvent) : WindowState (Int × Int) × List (Int × (Int × Int)) :=
  WindowState.init.run minute (events.flatMap StreamEvent.windowEvents)

/-- The rows that the job has emitted after some events. -/
def orderRevenue (events : List StreamEvent) : List RevenueRow := (runJob events).2.filterMap emit

/-- The records on the sink topic. -/
def sinkRecords (events : List StreamEvent) : List RevenueRecord :=
  (orderRevenue events).map RevenueRow.record

end Lakehouse.Streaming
