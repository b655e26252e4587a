import Lakehouse.Batch.Gold

/-!
# Gold models of dbt

`pipelines/dbt/models/gold/daily_revenue.sql` and `customer_metrics.sql`, one definition for each
common table expression. Trino sums decimals into `DECIMAL(38,2)`, divides that by a count into
`DECIMAL(38,2)`, and fails the query where a value does not fit or a divisor is zero. `now` and
`today` are `current_timestamp` and `current_date`, in UTC.
-/

namespace Lakehouse.Dbt

open Lib Batch

/-! ## Decimal columns -/

/-- A nullable column, or the failure of the query. -/
abbrev Column (α : Type) := Option (Option α)

/-- `sum` of a decimal column. -/
def trinoSum {p : Nat} (s : Multiset (Option (Dec p))) : Column (Dec 38) :=
  match sqlSum (decimals s) with
  | none => some none
  | some n => (castPrecision 38 n).map some

/-- `cast(x as decimal(q, 2))`. -/
def trinoCast {p : Nat} (q : Nat) : Option (Dec p) → Column (Dec q)
  | none => some none
  | some d => (castPrecision q d.val).map some

/-- The quotient of a decimal and a count. -/
def trinoDiv (x : Option (Dec 38)) (count : Nat) : Column (Dec 38) :=
  match x with
  | none => some none
  | some d => if count = 0 then none else (castPrecision 38 (roundDiv d.val count)).map some

/-! ## The sources of both models -/

/-- The CTE `orders`. -/
def orders (source : Multiset SilverOrder) : Multiset SilverOrder :=
  source.filter fun o => isIn o.sourceOp ["c", "u", "r"] = true ∧
    isIn o.status ["confirmed", "shipped", "delivered", "completed"] = true

/-- The CTE `customers`. -/
def customers (source : Multiset SilverCustomer) : Multiset (Option String) :=
  (source.filter fun c => isIn c.sourceOp ["c", "u", "r"] = true).map SilverCustomer.customerId

/-! ## Daily revenue -/

/-- The CTE `order_items`. -/
def orderItems (source : Multiset SilverOrderItem) : Option (Multiset OrderItems) :=
  collect <| (groupBy (fun i => i.orderId) source).map fun (orderId, g) =>
    (trinoSum (g.map fun i => i.lineTotal)).bind fun sum =>
    (trinoCast 18 sum).map fun grossRevenue =>
      { orderId := orderId, itemCount := g.card, grossRevenue := grossRevenue }

/-- The CTE `first_orders`. -/
def firstOrders (orders : Multiset SilverOrder) : Multiset FirstOrders :=
  let inner := (groupBy SilverOrder.customerId orders).map fun (customerId, g) =>
    (customerId, sqlMin (g.map fun o => days o.createdAt))
  (groupBy Prod.snd inner).map fun (firstOrderDate, g) =>
    { reportDate := firstOrderDate, newCustomers := sqlCount (g.map Prod.fst) }

/-- A row of the CTE `daily`. -/
structure Daily where
  reportDate : Option Int
  currency : Option String
  orderCount : Nat
  itemCount : Int
  grossRevenue : Option (Dec 18)
  netRevenue : Option (Dec 18)
  avgOrderValue : Option (Dec 18)
deriving DecidableEq

/-- `coalesce(oi.gross_revenue, o.total_amount)`. -/
def lineRevenue (r : SilverOrder × Option OrderItems) : Option (Dec 18) :=
  (r.2.bind OrderItems.grossRevenue).or r.1.totalAmount

/-- The row of a day and a currency, unless a sum or a cast fails. -/
def dailyGroup (k : Option Int × Option String)
    (g : Multiset (SilverOrder × Option OrderItems)) : Option Daily :=
  let orderCount := sqlCount (g.map fun r => r.1.orderId)
  (trinoSum (g.map lineRevenue)).bind fun sum =>
  (trinoCast 18 sum).bind fun revenue =>
  (trinoDiv sum orderCount).bind fun quotient =>
  (trinoCast 18 quotient).map fun avgOrderValue =>
    { reportDate := k.1
      currency := k.2
      orderCount := orderCount
      itemCount := (sqlSum (g.map fun r => r.2.map fun oi => (oi.itemCount : Int))).getD 0
      grossRevenue := revenue
      netRevenue := revenue
      avgOrderValue := avgOrderValue }

/-- The CTE `daily`. -/
def daily (orders : Multiset SilverOrder) (orderItems : Multiset OrderItems) :
    Option (Multiset Daily) :=
  let joined := leftJoin SilverOrder.orderId OrderItems.orderId orders orderItems
  collect <| (groupBy (fun r => (days r.1.createdAt, some (r.1.currency.getD "USD"))) joined).map
    fun (k, g) => dailyGroup k g

/-- The rows of the model `daily_revenue`. -/
def dailyRevenue (silverOrders : Multiset SilverOrder) (silverItems : Multiset SilverOrderItem)
    (now : Int) : Option (Multiset DailyRevenue) :=
  let orders := orders silverOrders
  (orderItems silverItems).bind fun orderItems =>
  (daily orders orderItems).map fun daily =>
    (leftJoin Daily.reportDate FirstOrders.reportDate daily (firstOrders orders)).map fun (d, f) =>
      { reportDate := d.reportDate
        currency := d.currency
        orderCount := d.orderCount
        itemCount := d.itemCount
        grossRevenue := d.grossRevenue
        netRevenue := d.netRevenue
        avgOrderValue := d.avgOrderValue
        newCustomers := (f.map FirstOrders.newCustomers).getD 0
        computedAt := now }

/-! ## Customer metrics -/

/-- A row of the CTE `order_stats`. -/
structure OrderStats where
  customerId : Option String
  totalOrders : Nat
  totalRevenue : Option (Dec 18)
  avgOrderValue : Option (Dec 18)
  firstOrderDate : Option Int
  lastOrderDate : Option Int
deriving DecidableEq

/-- The row of a customer, unless a sum or a cast fails. -/
def orderStatsGroup (customerId : Option String) (g : Multiset SilverOrder) : Option OrderStats :=
  let totalOrders := sqlCount (g.map SilverOrder.orderId)
  (trinoSum (g.map SilverOrder.totalAmount)).bind fun sum =>
  (trinoCast 18 sum).bind fun totalRevenue =>
  (trinoDiv sum totalOrders).bind fun quotient =>
  (trinoCast 18 quotient).map fun avgOrderValue =>
    { customerId := customerId
      totalOrders := totalOrders
      totalRevenue := totalRevenue
      avgOrderValue := avgOrderValue
      firstOrderDate := sqlMin (g.map fun o => days o.createdAt)
      lastOrderDate := sqlMax (g.map fun o => days o.createdAt) }

/-- The CTE `order_stats`. -/
def orderStats (orders : Multiset SilverOrder) : Option (Multiset OrderStats) :=
  collect <| (groupBy SilverOrder.customerId orders).map fun (customerId, g) =>
    orderStatsGroup customerId g

/-- `date_diff('day', last_order_date, current_date)`. -/
def daysSince (today : Int) (s : Option OrderStats) : Option Int :=
  (s.bind OrderStats.lastOrderDate).map (today - ·)

/-- The rows of the model `customer_metrics`. -/
def customerMetrics (silverOrders : Multiset SilverOrder)
    (silverCustomers : Multiset SilverCustomer) (today now : Int) :
    Option (Multiset CustomerMetrics) :=
  (orderStats (orders silverOrders)).map fun orderStats =>
    (leftJoin id OrderStats.customerId (customers silverCustomers) orderStats).map
      fun (customerId, s) =>
        { customerId := customerId
          countryCode := none
          segment := none
          firstOrderDate := s.bind OrderStats.firstOrderDate
          lastOrderDate := s.bind OrderStats.lastOrderDate
          totalOrders := (s.map OrderStats.totalOrders).getD 0
          totalRevenue := (s.bind OrderStats.totalRevenue).getD 0
          avgOrderValue := (s.bind OrderStats.avgOrderValue).getD 0
          daysSinceLastOrder := daysSince today s
          isChurned := ((daysSince today s).map fun days => decide (90 < days)).getD false
          computedAt := now }

end Lakehouse.Dbt
