import Lakehouse.Batch.Silver

/-!
# Gold aggregates

`pipelines/batch/spark-jobs/03_gold_aggregate.py` with the table definitions of
`data/models/iceberg/gold`. Spark sums `DECIMAL(18,2)` into `DECIMAL(28,2)`, divides that by a count
into `DECIMAL(38,12)`, and gives null where a result does not fit. Sessions are in UTC.
-/

namespace Lakehouse.Batch

open Lib

/-! ## Tables -/

/-- A row of `gold.daily_revenue`. -/
structure DailyRevenue where
  reportDate : Option Int
  currency : Option String
  orderCount : Nat
  itemCount : Int
  grossRevenue : Option (Dec 18)
  netRevenue : Option (Dec 18)
  avgOrderValue : Option (Dec 18)
  newCustomers : Nat
  computedAt : Int
deriving DecidableEq

/-- A row of `gold.customer_metrics`. -/
structure CustomerMetrics where
  customerId : Option String
  countryCode : Option String
  segment : Option String
  firstOrderDate : Option Int
  lastOrderDate : Option Int
  totalOrders : Nat
  totalRevenue : Dec 18
  avgOrderValue : Dec 18
  daysSinceLastOrder : Option Int
  isChurned : Bool
  computedAt : Int
deriving DecidableEq

/-- The columns of a row but `computed_at`. -/
def DailyRevenue.figures (r : DailyRevenue) : DailyRevenue := { r with computedAt := 0 }

/-- A row without the time it was computed at. -/
def CustomerMetrics.figures (r : CustomerMetrics) : CustomerMetrics := { r with computedAt := 0 }

/-- The partition transform `month`, on a column that may be null. -/
def months (d : Option Int) : Option Int := d.map monthOfDays

/-- `gold.daily_revenue`, by month of `report_date`. -/
def dailyRevenueSpec : TableSpec DailyRevenue (Option Int) where
  required r := r.reportDate.isSome && r.currency.isSome
  partition r := months r.reportDate

/-- `gold.customer_metrics`, by a bucket of `customer_id`. -/
def customerMetricsSpec (bucketHash : String → Nat) :
    TableSpec CustomerMetrics (Option Nat) where
  required r := r.customerId.isSome
  partition r := bucket bucketHash 32 r.customerId

/-! ## Decimal columns -/

/-- A column of decimals as whole numbers of its unit. -/
def decimals {p : Nat} (s : Multiset (Option (Dec p))) : Multiset (Option Int) :=
  s.map fun x => x.map fun d => d.val

/-- `sum` of a `DECIMAL(18,2)` column. -/
def sparkSum (s : Multiset (Option (Dec 18))) : Option (Dec 28) :=
  (sqlSum (decimals s)).bind (castPrecision 28)

/-- The cast of a decimal with the same scale. -/
def castTo {p : Nat} (q : Nat) (x : Option (Dec p)) : Option (Dec q) :=
  x.bind fun d => castPrecision q d.val

/-- `sum / count`, cast to `DECIMAL(18,2)`: rounded to twelve decimals and then to two. -/
def sparkAvg (sum : Option (Dec 28)) (count : Nat) : Option (Dec 18) :=
  sum.bind fun s =>
    if count = 0 then none
    else (castPrecision 38 (roundDiv (s.val * 10 ^ 10) count)).bind fun q =>
      castPrecision 18 (roundDiv q.val (10 ^ 10))

/-! ## Daily revenue -/

/-- The filter of `revenue_orders`. -/
def isRevenueOrder (o : SilverOrder) : Bool :=
  isIn o.sourceOp upsertOps && isIn o.status revenueStatuses

/-- `revenue_orders`. -/
def revenueOrders (orders : Multiset SilverOrder) : Multiset SilverOrder :=
  orders.filter fun o => isRevenueOrder o = true

theorem forall_revenueOrders {orders : Multiset SilverOrder} {p : SilverOrder → Prop}
    (h : ∀ o ∈ orders, p o) : ∀ o ∈ revenueOrders orders, p o :=
  fun o ho => h o (Multiset.mem_filter.1 ho).1

/-- The items of an order, summed. -/
structure OrderItems where
  orderId : Option String
  itemCount : Nat
  grossRevenue : Option (Dec 18)
deriving DecidableEq

/-- `order_items`: the items grouped by order. -/
def orderItemsOf (items : Multiset SilverOrderItem) : Multiset OrderItems :=
  (groupBy (fun i => i.orderId) items).map fun (orderId, g) =>
    { orderId := orderId
      itemCount := g.card
      grossRevenue := castTo 18 (sparkSum (g.map fun i => i.lineTotal)) }

/-- The number of customers whose first revenue order is on a date. -/
structure FirstOrders where
  reportDate : Option Int
  newCustomers : Nat
deriving DecidableEq

/-- `first_orders`: customers by the date of their first revenue order. -/
def firstOrdersOf (orders : Multiset SilverOrder) : Multiset FirstOrders :=
  let firstOrderDates := (groupBy SilverOrder.customerId orders).map fun (customerId, g) =>
    (customerId, sqlMin (g.map fun o => days o.createdAt))
  (groupBy Prod.snd firstOrderDates).map fun (firstOrderDate, g) =>
    { reportDate := firstOrderDate, newCustomers := sqlCount (g.map Prod.fst) }

/-- A revenue order with the columns of its day. -/
structure OrderRevenue where
  orderId : Option String
  reportDate : Option Int
  currency : Option String
  itemCount : Option Int
  lineRevenue : Option (Dec 18)
deriving DecidableEq

/-- An order with the revenue of its items, or its total when it has none. -/
def orderRevenue (r : SilverOrder × Option OrderItems) : OrderRevenue where
  orderId := r.1.orderId
  reportDate := days r.1.createdAt
  currency := some (r.1.currency.getD "USD")
  itemCount := r.2.map fun oi => oi.itemCount
  lineRevenue := (r.2.bind OrderItems.grossRevenue).or (castTo 18 r.1.totalAmount)

/-- The revenue orders, each joined with its items. -/
def orderRevenues (orders : Multiset SilverOrder) (items : Multiset SilverOrderItem) :
    Multiset OrderRevenue :=
  (leftJoin SilverOrder.orderId OrderItems.orderId orders (orderItemsOf items)).map orderRevenue

/-- One row of the day, before the new customers are joined. -/
def dailyRow (computedAt : Int) (k : Option Int × Option String) (g : Multiset OrderRevenue) :
    DailyRevenue :=
  let sum := sparkSum (g.map OrderRevenue.lineRevenue)
  let orderCount := sqlCount (g.map OrderRevenue.orderId)
  { reportDate := k.1
    currency := k.2
    orderCount := orderCount
    itemCount := (sqlSum (g.map OrderRevenue.itemCount)).getD 0
    grossRevenue := castTo 18 sum
    netRevenue := castTo 18 sum
    avgOrderValue := sparkAvg sum orderCount
    newCustomers := 0
    computedAt := computedAt }

/-- The rows of the days and currencies. -/
def dailyRows (orders : Multiset SilverOrder) (items : Multiset SilverOrderItem)
    (computedAt : Int) : Multiset DailyRevenue :=
  (groupBy (fun r => (r.reportDate, r.currency)) (orderRevenues orders items)).map
    fun (k, g) => dailyRow computedAt k g

/-- The rows `gold_daily_revenue` computes. -/
def dailyRevenueRows (orders : Multiset SilverOrder) (items : Multiset SilverOrderItem)
    (computedAt : Int) : Multiset DailyRevenue :=
  let orders := revenueOrders orders
  (leftJoin DailyRevenue.reportDate FirstOrders.reportDate (dailyRows orders items computedAt)
    (firstOrdersOf orders)).map
      fun (d, f) => { d with newCustomers := (f.map FirstOrders.newCustomers).getD 0 }

/-- `gold_daily_revenue`. -/
def goldDailyRevenue (orders : Multiset SilverOrder) (items : Multiset SilverOrderItem)
    (computedAt : Int) (target : Table dailyRevenueSpec) : Option (Table dailyRevenueSpec) :=
  target.overwritePartitions (dailyRevenueRows orders items computedAt)

/-! ## Customer metrics -/

/-- What the revenue orders of a customer come to. -/
structure OrderStats where
  customerId : Option String
  totalOrders : Nat
  totalRevenue : Option (Dec 18)
  avgOrderValue : Option (Dec 18)
  firstOrderDate : Option Int
  lastOrderDate : Option Int
  daysSinceLastOrder : Option Int
  isChurned : Option Bool
deriving DecidableEq

/-- The statistics of the orders of one customer. -/
def orderStatsRow (today : Int) (customerId : Option String) (g : Multiset SilverOrder) :
    OrderStats :=
  let totalOrders := sqlCount (g.map SilverOrder.orderId)
  let sum := sparkSum (g.map SilverOrder.totalAmount)
  let lastOrderDate := sqlMax (g.map fun o => days o.createdAt)
  let recency := withRecencyMetrics today lastOrderDate
  { customerId := customerId
    totalOrders := totalOrders
    totalRevenue := castTo 18 sum
    avgOrderValue := sparkAvg sum totalOrders
    firstOrderDate := sqlMin (g.map fun o => days o.createdAt)
    lastOrderDate := lastOrderDate
    daysSinceLastOrder := recency.1
    isChurned := recency.2 }

/-- `order_stats`: the revenue orders grouped by customer. -/
def orderStats (orders : Multiset SilverOrder) (today : Int) : Multiset OrderStats :=
  (groupBy SilverOrder.customerId orders).map fun (customerId, g) =>
    orderStatsRow today customerId g

/-- The row of a customer, with its defaults where no statistics are joined. -/
def customerMetricsRow (computedAt : Int) (c : SilverCustomer) (s : Option OrderStats) :
    CustomerMetrics where
  customerId := c.customerId
  countryCode := none
  segment := none
  firstOrderDate := s.bind OrderStats.firstOrderDate
  lastOrderDate := s.bind OrderStats.lastOrderDate
  totalOrders := (s.map OrderStats.totalOrders).getD 0
  totalRevenue := (s.bind OrderStats.totalRevenue).getD 0
  avgOrderValue := (s.bind OrderStats.avgOrderValue).getD 0
  daysSinceLastOrder := s.bind OrderStats.daysSinceLastOrder
  isChurned := (s.bind OrderStats.isChurned).getD false
  computedAt := computedAt

/-- The rows `gold_customer_metrics` computes. -/
def customerMetricsRows (orders : Multiset SilverOrder) (customers : Multiset SilverCustomer)
    (today computedAt : Int) : Multiset CustomerMetrics :=
  let orders := revenueOrders orders
  let customers := customers.filter fun c => isIn c.sourceOp upsertOps = true
  (leftJoin SilverCustomer.customerId OrderStats.customerId customers
    (orderStats orders today)).map fun (c, s) => customerMetricsRow computedAt c s

/-- `gold_customer_metrics`. -/
def goldCustomerMetrics {bucketHash : String → Nat} (orders : Multiset SilverOrder)
    (customers : Multiset SilverCustomer) (today computedAt : Int)
    (target : Table (customerMetricsSpec bucketHash)) :
    Option (Table (customerMetricsSpec bucketHash)) :=
  target.overwritePartitions (customerMetricsRows orders customers today computedAt)

end Lakehouse.Batch
