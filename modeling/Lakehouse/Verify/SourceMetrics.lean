import Lakehouse.Verify.CustomerRows
import Lakehouse.Verify.SourceRows

/-!
# Customer metrics of the source

The figures of a customer are those of its revenue orders in the source, once Silver shows the
orders and the customers of some states of it (`showsMetrics_rows`): the row of a customer without
orders has the defaults, and the amounts are exact as long as they fit their columns.
-/

namespace Lakehouse.Verify

open Lib Source Batch Demo

/-- The revenue orders of the source. -/
def revenueRows (db : Database) : Multiset OrderRow :=
  (db.orders.filter fun o => o.status ∈ revenueStatuses : List OrderRow)

/-- The revenue orders of a customer. -/
def placed (db : Database) (customerId : Int64) : Multiset OrderRow :=
  (revenueRows db).filter fun o => o.customerId = customerId

theorem mem_revenueRows {db : Database} {o : OrderRow} :
    o ∈ revenueRows db ↔ o ∈ db.orders ∧ o.status ∈ revenueStatuses := by
  rw [revenueRows, Multiset.mem_coe, List.mem_filter, decide_eq_true_eq]

theorem revenueRows_le (db : Database) : revenueRows db ≤ (db.orders : Multiset OrderRow) := by
  rw [revenueRows, ← Multiset.filter_coe]
  exact Multiset.filter_le _ _

theorem placed_le (db : Database) (customerId : Int64) :
    placed db customerId ≤ (db.orders : Multiset OrderRow) :=
  (Multiset.filter_le _ _).trans (revenueRows_le db)

/-- The total amount of some orders. -/
def cents (os : Multiset OrderRow) : Int := (os.map fun o => o.totalAmount.val).sum

/-- The figures of some orders, the amounts as long as they fit their columns. -/
structure MetricsOf (os : Multiset OrderRow) (today : Int) (m : CustomerMetrics) : Prop where
  totalOrders : m.totalOrders = os.card
  firstOrderDate : m.firstOrderDate = sqlMin (os.map fun o => some (dateOf o.createdAt))
  lastOrderDate : m.lastOrderDate = sqlMax (os.map fun o => some (dateOf o.createdAt))
  daysSinceLastOrder : m.daysSinceLastOrder = m.lastOrderDate.map (today - ·)
  isChurned : m.isChurned = true ↔ ∃ last ∈ m.lastOrderDate, 90 < today - last
  amounts : (cents os).natAbs < 10 ^ 18 → os.card < 10 ^ 10 →
    m.totalRevenue.val = cents os ∧ m.avgOrderValue.val = roundDiv (cents os) os.card

/-- One row for each customer, with the figures of its orders. -/
structure ShowsMetrics (rows : Multiset CustomerMetrics) (ordersDb customersDb : Database)
    (today : Int) : Prop where
  customers : rows.map CustomerMetrics.customerId =
    (customersDb.customers : Multiset CustomerRow).map fun c => some c.customerId.toInt.repr
  figures : ∀ m ∈ rows, ∃ c ∈ customersDb.customers, m.customerId = some c.customerId.toInt.repr ∧
    MetricsOf (placed ordersDb c.customerId) today m

/-- A sum that fits its column, and the average of it. -/
theorem sparkSum_amounts {s : Multiset (Option (Dec 18))} {x : Option (Dec 18)} (hx : x ∈ s)
    (hsome : x.isSome = true) (hfits : (s.map units).sum.natAbs < 10 ^ 18) {count : Nat}
    (hpos : 0 < count) (hfew : count < 10 ^ 10) :
    ∃ revenue avg, castTo 18 (sparkSum s) = some revenue ∧ sparkAvg (sparkSum s) count = some avg ∧
      revenue.val = (s.map units).sum ∧ avg.val = roundDiv (s.map units).sum count := by
  have hsums : SumFits s := by
    intro n hn
    rw [sqlSum_decimals hx hsome] at hn
    obtain rfl := Option.some.inj hn
    exact hfits
  obtain ⟨sum, hsum, hval, hlt⟩ := exists_sparkSum hsums hx hsome
  obtain ⟨revenue, hrevenue, hrevenueVal⟩ := castPrecision_of_fits hlt (le_refl 18)
  obtain ⟨avg, havg, havgVal⟩ :=
    castPrecision_of_fits ((natAbs_roundDiv_le sum.val hpos).trans_lt hlt) (le_refl 18)
  rw [hsum, ← hval]
  exact ⟨revenue, avg, hrevenue, (sparkAvg_some hlt hpos hfew).trans havg, hrevenueVal, havgVal⟩

section Metrics

variable {silverOrders : Multiset SilverOrder} {silverCustomers : Multiset SilverCustomer}
  {ordersDb customersDb : Database}

/-- The revenue orders in Silver are those of the source. -/
theorem Captured.Shows.revenueOrders (h : orders.Shows silverOrders ordersDb.orders) :
    ∃ tag : OrderRow → String × Int, Batch.revenueOrders silverOrders =
      (revenueRows ordersDb).map fun o => orders.silverRow (tag o).1 (tag o).2 o := by
  obtain ⟨tag, htag, rfl⟩ := h
  refine ⟨tag, ?_⟩
  rw [Batch.revenueOrders, Multiset.filter_map, revenueRows, ← Multiset.filter_coe]
  refine congrArg _ (Multiset.filter_congr fun o ho => ?_)
  have hop := htag o (Multiset.mem_coe.1 ho)
  simp [isRevenueOrder, orders, isIn, hop]

/-- The revenue orders of a customer in Silver are its revenue orders in the source. -/
theorem Captured.Shows.revenueOrdersOf (h : orders.Shows silverOrders ordersDb.orders) :
    ∃ tag : OrderRow → String × Int, ∀ customerId : Int64,
      Lakehouse.Verify.revenueOrdersOf silverOrders (some customerId.toInt.repr) =
        (placed ordersDb customerId).map fun o => orders.silverRow (tag o).1 (tag o).2 o := by
  obtain ⟨tag, htag⟩ := h.revenueOrders
  refine ⟨tag, fun customerId => ?_⟩
  rw [Lakehouse.Verify.revenueOrdersOf, htag, Multiset.filter_map, placed]
  refine congrArg _ (Multiset.filter_congr fun o _ => ?_)
  simp [orders, Int64.toInt_inj]

/-- The statistics of some orders of the source. -/
theorem orderStatsRow_placed (os : Multiset OrderRow) (tag : OrderRow → String × Int)
    (customerId : Option String) (today : Int) :
    let stats := orderStatsRow today customerId
      (os.map fun o => orders.silverRow (tag o).1 (tag o).2 o)
    stats.totalOrders = os.card ∧
      stats.firstOrderDate = sqlMin (os.map fun o => some (dateOf o.createdAt)) ∧
      stats.lastOrderDate = sqlMax (os.map fun o => some (dateOf o.createdAt)) := by
  refine ⟨?_, ?_, ?_⟩
  · have hids : ∀ r ∈ os.map fun o => orders.silverRow (tag o).1 (tag o).2 o,
        r.orderId.isSome = true := by
      rw [Multiset.forall_mem_map_iff]
      exact fun _ _ => rfl
    exact (sqlCount_orderId hids).trans (Multiset.card_map _ _)
  · simp only [orderStatsRow, Multiset.map_map]
    rfl
  · simp only [orderStatsRow, Multiset.map_map]
    rfl

/-- The amounts of some orders of the source, when they fit. -/
theorem orderStatsRow_cents {os : Multiset OrderRow} (tag : OrderRow → String × Int)
    (hsome : os.card ≠ 0) (hfits : (cents os).natAbs < 10 ^ 18) (hfew : os.card < 10 ^ 10)
    (customerId : Option String) (today : Int) :
    ∃ revenue avg, (orderStatsRow today customerId
        (os.map fun o => orders.silverRow (tag o).1 (tag o).2 o)).totalRevenue = some revenue ∧
      (orderStatsRow today customerId
        (os.map fun o => orders.silverRow (tag o).1 (tag o).2 o)).avgOrderValue = some avg ∧
      revenue.val = cents os ∧ avg.val = roundDiv (cents os) os.card := by
  obtain ⟨htotal, -⟩ := orderStatsRow_placed os tag customerId today
  generalize hrows : (os.map fun o => orders.silverRow (tag o).1 (tag o).2 o) = rows at htotal
  have hcents : ((rows.map SilverOrder.totalAmount).map units).sum = cents os := by
    rw [← hrows, Multiset.map_map, Multiset.map_map]
    rfl
  obtain ⟨o, ho⟩ := Multiset.card_pos_iff_exists_mem.1 (Nat.pos_of_ne_zero hsome)
  have hrow : orders.silverRow (tag o).1 (tag o).2 o ∈ rows := by
    rw [← hrows]
    exact Multiset.mem_map_of_mem (fun o => orders.silverRow (tag o).1 (tag o).2 o) ho
  rw [← hcents] at hfits ⊢
  obtain ⟨revenue, avg, hrevenue, havg, hvals⟩ := sparkSum_amounts
    (Multiset.mem_map_of_mem SilverOrder.totalAmount hrow) rfl hfits (Nat.pos_of_ne_zero hsome) hfew
  refine ⟨revenue, avg, hrevenue, ?_, hvals⟩
  rw [← htotal] at havg
  exact havg

/-- **The row of a customer has the figures of its orders.** -/
theorem metricsOf_row (h : orders.Shows silverOrders ordersDb.orders) {c : SilverCustomer}
    {customerId : Int64} (hid : c.customerId = some customerId.toInt.repr) (today computedAt : Int) :
    MetricsOf (placed ordersDb customerId) today
      (customerMetricsRow computedAt c (statsOf silverOrders today c)) := by
  obtain ⟨tag, htag⟩ := h.revenueOrdersOf
  replace htag := htag customerId
  generalize placed ordersDb customerId = os at htag
  rw [statsOf, hid, htag, Multiset.card_map]
  by_cases hnone : os.card = 0
  · obtain rfl := Multiset.card_eq_zero.1 hnone
    rw [if_pos hnone]
    have hnever : ¬ ∃ last ∈ (none : Option Int), 90 < today - last := by
      rintro ⟨last, hlast, -⟩
      cases hlast
    refine ⟨rfl, rfl, rfl, rfl, iff_of_false Bool.false_ne_true hnever, fun _ _ => ⟨rfl, ?_⟩⟩
    change (0 : Int) = roundDiv 0 0
    decide
  · obtain ⟨htotal, hfirst, hlast⟩ := orderStatsRow_placed os tag
      (some customerId.toInt.repr) today
    obtain ⟨o, ho⟩ := Multiset.card_pos_iff_exists_mem.1 (Nat.pos_of_ne_zero hnone)
    obtain ⟨first, last, -, hlast', hdays, hchurned, -⟩ := orderStatsRow_dates
      (Multiset.mem_map_of_mem (fun o => orders.silverRow (tag o).1 (tag o).2 o) ho) rfl today
      (some customerId.toInt.repr)
    rw [if_neg hnone]
    refine ⟨htotal, hfirst, hlast, ?_, ?_, fun hfits hfew => ?_⟩
    · simp only [customerMetricsRow, Option.bind_some, hdays, hlast', Option.map_some]
    · simp [customerMetricsRow, hchurned, hlast']
    · obtain ⟨revenue, avg, hrevenue, havg, hrevenueVal, havgVal⟩ :=
        orderStatsRow_cents tag hnone hfits hfew (some customerId.toInt.repr) today
      simp only [customerMetricsRow, Option.bind_some, hrevenue, havg, Option.getD_some]
      exact ⟨hrevenueVal, havgVal⟩

/-- What the job computes of Silver shows what Silver shows. -/
theorem showsMetrics_rows (horders : orders.Shows silverOrders ordersDb.orders)
    (hcustomers : customers.Shows silverCustomers customersDb.customers) (today computedAt : Int) :
    ShowsMetrics (customerMetricsRows silverOrders silverCustomers today computedAt) ordersDb
      customersDb today := by
  have hkeys := hcustomers.keys
  obtain ⟨tag, htag, rfl⟩ := hcustomers
  have hops : ∀ c ∈ (customersDb.customers : Multiset CustomerRow).map
      (fun c => customers.silverRow (tag c).1 (tag c).2 c), isIn c.sourceOp upsertOps = true := by
    rw [Multiset.forall_mem_map_iff]
    intro c hc
    simpa [isIn, customers] using htag c (Multiset.mem_coe.1 hc)
  constructor
  · rw [customerMetricsRows_keys, Multiset.filter_eq_self.2 hops]
    exact hkeys
  · intro m hm
    rw [customerMetricsRows_eq hops (Multiset.forall_mem_map_iff.2 fun _ _ => rfl),
      Multiset.map_map] at hm
    obtain ⟨c, hc, rfl⟩ := Multiset.mem_map.1 hm
    exact ⟨c, Multiset.mem_coe.1 hc, rfl, metricsOf_row horders rfl today computedAt⟩

end Metrics

end Lakehouse.Verify
