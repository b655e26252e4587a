import Lakehouse.Dbt.Gold

/-!
# The two Gold paths

The Spark job and the dbt models compute the same rows (`gold_twins`) when the sums fit their
columns and no group has `10 ^ 10` orders. Null keys, unknown statuses and items without orders are
treated alike by both; a failed evaluation in Trino is a null in Spark, so the limits keep the two
apart from their only differences: overflows, and averages that are rounded twice on one side
(`trinoAvg_eq_sparkAvg`).
-/

namespace Lakehouse.Verify

open Lib Batch

/-! ## Limits -/

/-- The sum of a column is a `DECIMAL(18,2)`. -/
def SumFits (s : Multiset (Option (Dec 18))) : Prop :=
  ∀ n ∈ sqlSum (decimals s), n.natAbs < 10 ^ 18

instance (s : Multiset (Option (Dec 18))) : Decidable (SumFits s) :=
  inferInstanceAs (Decidable (∀ n ∈ sqlSum (decimals s), n.natAbs < 10 ^ 18))

/-- No sum exceeds `DECIMAL(18,2)` and no group has `10 ^ 10` orders. -/
structure WithinLimits (orders : Multiset SilverOrder) (items : Multiset SilverOrderItem) :
    Prop where
  perOrder : ∀ g ∈ groupBy (fun i => i.orderId) items, SumFits (g.2.map fun i => i.lineTotal)
  perDay : ∀ g ∈ groupBy (fun r => (r.reportDate, r.currency))
    (orderRevenues (revenueOrders orders) items),
      SumFits (g.2.map OrderRevenue.lineRevenue) ∧ g.2.card < 10 ^ 10
  perCustomer : ∀ g ∈ groupBy SilverOrder.customerId (revenueOrders orders),
    SumFits (g.2.map SilverOrder.totalAmount) ∧ g.2.card < 10 ^ 10

/-! ## Sums and averages -/

theorem castPrecision_of_fits {n : Int} (h : n.natAbs < 10 ^ 18) {p : Nat} (hp : 18 ≤ p) :
    ∃ d : Dec p, castPrecision p n = some d ∧ d.val = n :=
  ⟨⟨n, h.trans_le (Nat.pow_le_pow_right (by decide) hp)⟩, castPrecision_of_lt _, rfl⟩

/-- A sum that fits is the same column in both engines. -/
theorem trinoSum_eq_sparkSum {s : Multiset (Option (Dec 18))} (h : SumFits s) :
    ∃ sum, Dbt.trinoSum s = some sum ∧
      sum.map (fun d => d.val) = (sparkSum s).map (fun d => d.val) ∧
      ∀ d ∈ sum, d.val.natAbs < 10 ^ 18 := by
  unfold Dbt.trinoSum sparkSum
  cases hsum : sqlSum (decimals s) with
  | none => exact ⟨none, rfl, rfl, nofun⟩
  | some n =>
    have hn := h n hsum
    obtain ⟨d, hd, hval⟩ := castPrecision_of_fits hn (p := 38) (by decide)
    obtain ⟨d', hd', hval'⟩ := castPrecision_of_fits hn (p := 28) (by decide)
    refine ⟨some d, by simp [hd], ?_, ?_⟩
    · simp [hd', hval, hval']
    · rintro _ ⟨⟩
      rwa [hval]

/-- A cast that fits is the same in Trino and in Spark. -/
theorem trinoCast_eq_castTo {p q : Nat} {x : Option (Dec p)} {y : Option (Dec q)}
    (h : x.map (fun d => d.val) = y.map (fun d => d.val)) (hfits : ∀ d ∈ x, d.val.natAbs < 10 ^ 18) :
    Dbt.trinoCast 18 x = some (castTo 18 y) := by
  cases x with
  | none =>
    obtain rfl : y = none := by simpa using h.symm
    rfl
  | some d =>
    obtain ⟨d', rfl, hval⟩ := Option.map_eq_some_iff.1 h.symm
    obtain ⟨e, he, -⟩ := castPrecision_of_fits (hfits d rfl) (le_refl 18)
    simp [Dbt.trinoCast, castTo, hval, he]

/-- Rounding to ten decimals first changes nothing while the divisor is below `10 ^ 10`. -/
theorem roundDiv_tenDecimals (n : Int) {count : Nat} (hpos : 0 < count) (hlt : count < 10 ^ 10) :
    roundDiv (roundDiv (n * 10 ^ 10) count) (10 ^ 10) = roundDiv n count := by
  have hhalf : 2 * (5 * 10 ^ 9) = 10 ^ 10 := by norm_num
  have htwice := roundDiv_roundDiv (n := n) (m := 5 * 10 ^ 9) hpos (hhalf ▸ hlt)
  rw [hhalf] at htwice
  exact_mod_cast htwice

/-- Spark's quotient has ten more decimals, and they do not change the rounded average. -/
theorem sparkAvg_some {d : Dec 28} (hfits : d.val.natAbs < 10 ^ 18) {count : Nat} (hpos : 0 < count)
    (hlt : count < 10 ^ 10) :
    sparkAvg (some d) count = castPrecision 18 (roundDiv d.val count) := by
  have hfine : (roundDiv (d.val * 10 ^ 10) count).natAbs < 10 ^ 38 := by
    have hle := natAbs_roundDiv_le (d.val * 10 ^ 10) hpos
    have hten : (10 ^ 10 : Int).natAbs = 10 ^ 10 := Int.natAbs_pow 10 10
    rw [Int.natAbs_mul, hten] at hle
    omega
  obtain ⟨fine, hfcast, hfval⟩ : ∃ fine : Dec 38,
      castPrecision 38 (roundDiv (d.val * 10 ^ 10) count) = some fine ∧
        fine.val = roundDiv (d.val * 10 ^ 10) count := ⟨_, castPrecision_of_lt hfine, rfl⟩
  simp only [sparkAvg, Option.bind_some, hpos.ne', if_false, hfcast, hfval,
    roundDiv_tenDecimals d.val hpos hlt]

/-- **Averages agree**: rounding to twelve decimals first does not change the second. -/
theorem trinoAvg_eq_sparkAvg {x : Option (Dec 38)} {y : Option (Dec 28)}
    (h : x.map (fun d => d.val) = y.map (fun d => d.val)) (hfits : ∀ d ∈ x, d.val.natAbs < 10 ^ 18)
    {count : Nat} (hpos : 0 < count) (hlt : count < 10 ^ 10) :
    (Dbt.trinoDiv x count).bind (Dbt.trinoCast 18) = some (sparkAvg y count) := by
  cases x with
  | none =>
    obtain rfl : y = none := by simpa using h.symm
    rfl
  | some d =>
    obtain ⟨d', rfl, hval⟩ := Option.map_eq_some_iff.1 h.symm
    have hd : d.val.natAbs < 10 ^ 18 := hfits d rfl
    have hq : (roundDiv d.val count).natAbs < 10 ^ 18 := (natAbs_roundDiv_le _ hpos).trans_lt hd
    obtain ⟨q, hqcast, hqval⟩ := castPrecision_of_fits hq (p := 38) (by decide)
    obtain ⟨q', hqcast', -⟩ := castPrecision_of_fits hq (le_refl 18)
    rw [sparkAvg_some (hval ▸ hd) hpos hlt]
    simp only [Dbt.trinoDiv, Dbt.trinoCast, Option.bind_some, hval, hpos.ne', if_false,
      hqcast, Option.map_some, hqval, hqcast']

/-- `sum / count` as the dbt models write it. -/
def trinoMean (s : Multiset (Option (Dec 18))) (count : Nat) : Dbt.Column (Dec 18) :=
  (Dbt.trinoSum s).bind fun sum => (Dbt.trinoDiv sum count).bind (Dbt.trinoCast 18)

/-- The averages are the same within the limits. -/
theorem trinoMean_eq_sparkAvg {s : Multiset (Option (Dec 18))} (h : SumFits s) {count : Nat}
    (hpos : 0 < count) (hlt : count < 10 ^ 10) :
    trinoMean s count = some (sparkAvg (sparkSum s) count) := by
  obtain ⟨sum, htrino, hval, hfits⟩ := trinoSum_eq_sparkSum h
  rw [trinoMean, htrino, Option.bind_some, trinoAvg_eq_sparkAvg hval hfits hpos hlt]

/-- A sum that fits has a mean, however many values it is the sum of. -/
theorem exists_trinoMean {s : Multiset (Option (Dec 18))} (h : SumFits s) {count : Nat}
    (hpos : 0 < count) : ∃ avg, trinoMean s count = some avg := by
  obtain ⟨sum, htrino, -, hfits⟩ := trinoSum_eq_sparkSum h
  rw [trinoMean, htrino, Option.bind_some]
  cases sum with
  | none => exact ⟨none, rfl⟩
  | some d =>
    have hq : (roundDiv d.val count).natAbs < 10 ^ 18 :=
      (natAbs_roundDiv_le _ hpos).trans_lt (hfits d rfl)
    obtain ⟨q, hqcast, hqval⟩ := castPrecision_of_fits hq (p := 38) (by decide)
    obtain ⟨avg, havg, -⟩ := castPrecision_of_fits hq (le_refl 18)
    refine ⟨some avg, ?_⟩
    simp only [Dbt.trinoDiv, Dbt.trinoCast, hpos.ne', if_false, hqcast, Option.map_some,
      Option.bind_some, hqval, havg]

/-! ## Daily revenue -/

/-- Both paths take the same orders. -/
theorem orders_eq (orders : Multiset SilverOrder) : Dbt.orders orders = revenueOrders orders := by
  apply Multiset.filter_congr
  intro o _
  rw [isRevenueOrder, Bool.and_eq_true]
  rfl

theorem castTo_self {p : Nat} (x : Option (Dec p)) : castTo p x = x := by
  cases x with
  | none => rfl
  | some d => exact castPrecision_val d

/-- Both paths take the same amount for an order. -/
theorem lineRevenue_eq (r : SilverOrder × Option OrderItems) :
    Dbt.lineRevenue r = (orderRevenue r).lineRevenue := by
  rw [orderRevenue, castTo_self]
  rfl

/-- Both paths sum the items of an order alike. -/
theorem orderItems_eq {items : Multiset SilverOrderItem}
    (h : ∀ g ∈ groupBy (fun i => i.orderId) items, SumFits (g.2.map fun i => i.lineTotal)) :
    Dbt.orderItems items = some (orderItemsOf items) := by
  unfold Dbt.orderItems orderItemsOf
  apply collect_map
  intro g hg
  obtain ⟨sum, hsum, hval, hfits⟩ := trinoSum_eq_sparkSum (h g hg)
  simp only [hsum, Option.bind_some, trinoCast_eq_castTo hval hfits, Option.map_some]

/-- The row of `daily` in a row of the table. -/
def asDaily (r : DailyRevenue) : Dbt.Daily where
  reportDate := r.reportDate
  currency := r.currency
  orderCount := r.orderCount
  itemCount := r.itemCount
  grossRevenue := r.grossRevenue
  netRevenue := r.netRevenue
  avgOrderValue := r.avgOrderValue

theorem sqlCount_orderId {α : Type} {f : α → Option String} {s : Multiset α}
    (h : ∀ x ∈ s, (f x).isSome = true) : sqlCount (s.map f) = s.card := by
  rw [sqlCount_eq_card (Multiset.forall_mem_map_iff.2 h), Multiset.card_map]

theorem lineRevenues_eq (g : Multiset (SilverOrder × Option OrderItems)) :
    (g.map orderRevenue).map OrderRevenue.lineRevenue = g.map Dbt.lineRevenue := by
  rw [Multiset.map_map]
  exact Multiset.map_congr rfl fun r _ => (lineRevenue_eq r).symm

theorem dailyGroup_of_mean {k : Option Int × Option String}
    {g : Multiset (SilverOrder × Option OrderItems)} (computedAt : Int)
    (hid : ∀ r ∈ g, r.1.orderId.isSome = true)
    (hsum : SumFits ((g.map orderRevenue).map OrderRevenue.lineRevenue)) {avg : Option (Dec 18)}
    (havg : trinoMean (g.map Dbt.lineRevenue) g.card = some avg) :
    Dbt.dailyGroup k g =
      some { asDaily (dailyRow computedAt k (g.map orderRevenue)) with avgOrderValue := avg } := by
  have hcount : sqlCount (g.map fun r => r.1.orderId) = g.card := sqlCount_orderId hid
  rw [lineRevenues_eq] at hsum
  obtain ⟨sum, htrino, hval, hfits⟩ := trinoSum_eq_sparkSum hsum
  rw [trinoMean, htrino, Option.bind_some] at havg
  obtain ⟨q, hq, hqcast⟩ := Option.bind_eq_some_iff.1 havg
  simp only [Dbt.dailyGroup, htrino, Option.bind_some, trinoCast_eq_castTo hval hfits, hcount, hq,
    hqcast, Option.map_some]
  have hcount' : sqlCount ((g.map orderRevenue).map OrderRevenue.orderId) = g.card := by
    rw [Multiset.map_map]
    exact hcount
  have hitems : (g.map orderRevenue).map OrderRevenue.itemCount =
      g.map fun r => r.2.map fun oi => (oi.itemCount : Int) := Multiset.map_map _ _ _
  simp only [asDaily, dailyRow, lineRevenues_eq, hcount', hitems]

/-- The row of a day is the same in both paths. -/
theorem dailyGroup_eq {k : Option Int × Option String}
    {g : Multiset (SilverOrder × Option OrderItems)} (computedAt : Int) (hne : g ≠ 0)
    (hid : ∀ r ∈ g, r.1.orderId.isSome = true)
    (hsum : SumFits ((g.map orderRevenue).map OrderRevenue.lineRevenue))
    (hcard : (g.map orderRevenue).card < 10 ^ 10) :
    Dbt.dailyGroup k g = some (asDaily (dailyRow computedAt k (g.map orderRevenue))) := by
  rw [Multiset.card_map] at hcard
  have hmean := trinoMean_eq_sparkAvg (lineRevenues_eq g ▸ hsum) (Multiset.card_pos.2 hne) hcard
  rw [dailyGroup_of_mean computedAt hid hsum hmean]
  have hcount : sqlCount ((g.map orderRevenue).map OrderRevenue.orderId) = g.card := by
    rw [Multiset.map_map]
    exact sqlCount_orderId hid
  simp only [asDaily, dailyRow, lineRevenues_eq, hcount]

/-- The rows of the Spark job, by the groups of the rows that are joined first. -/
theorem dailyRows_joined (orders : Multiset SilverOrder) (items : Multiset SilverOrderItem)
    (computedAt : Int) :
    dailyRows orders items computedAt =
      (groupBy (fun r => (days r.1.createdAt, some (r.1.currency.getD "USD")))
        (leftJoin SilverOrder.orderId OrderItems.orderId orders (orderItemsOf items))).map
          fun (k, g) => dailyRow computedAt k (g.map orderRevenue) := by
  unfold dailyRows orderRevenues
  rw [groupBy_map, Multiset.map_map]
  rfl

theorem mem_joinedGroups {orders : Multiset SilverOrder} {items : Multiset SilverOrderItem}
    (hid : ∀ o ∈ orders, o.orderId.isSome = true) {k : Option Int × Option String}
    {g : Multiset (SilverOrder × Option OrderItems)}
    (hg : (k, g) ∈ groupBy (fun r => (days r.1.createdAt, some (r.1.currency.getD "USD")))
      (leftJoin SilverOrder.orderId OrderItems.orderId orders (orderItemsOf items))) :
    (k, g.map orderRevenue) ∈
        groupBy (fun r => (r.reportDate, r.currency)) (orderRevenues orders items) ∧
      g ≠ 0 ∧ ∀ r ∈ g, r.1.orderId.isSome = true := by
  refine ⟨?_, group_ne_zero _ hg, fun r hr => ?_⟩
  · unfold orderRevenues
    rw [groupBy_map]
    exact Multiset.mem_map_of_mem _ hg
  · exact hid r.1 ((mem_leftJoin _ _).1 (mem_of_mem_group _ hg hr).1).1

/-- So are the rows of all days. -/
theorem daily_eq {orders : Multiset SilverOrder} {items : Multiset SilverOrderItem}
    (computedAt : Int) (hid : ∀ o ∈ orders, o.orderId.isSome = true)
    (hdays : ∀ g ∈ groupBy (fun r => (r.reportDate, r.currency)) (orderRevenues orders items),
      SumFits (g.2.map OrderRevenue.lineRevenue) ∧ g.2.card < 10 ^ 10) :
    Dbt.daily orders (orderItemsOf items) =
      some ((dailyRows orders items computedAt).map asDaily) := by
  rw [dailyRows_joined, Multiset.map_map]
  apply collect_map
  rintro ⟨k, g⟩ hg
  obtain ⟨hgroup, hne, hids⟩ := mem_joinedGroups hid hg
  obtain ⟨hsum, hcard⟩ := hdays _ hgroup
  exact dailyGroup_eq computedAt hne hids hsum hcard

/-- The model `daily_revenue` builds the rows of the Spark job. -/
theorem dailyRevenue_eq {orders : Multiset SilverOrder} {items : Multiset SilverOrderItem}
    (h : WithinLimits orders items) (hid : ∀ o ∈ orders, o.orderId.isSome = true)
    (computedAt now : Int) :
    ∃ rows, Dbt.dailyRevenue orders items now = some rows ∧
      rows.map DailyRevenue.figures =
        (dailyRevenueRows orders items computedAt).map DailyRevenue.figures := by
  have hid' := forall_revenueOrders hid
  have hdaily := daily_eq computedAt hid' h.perDay
  unfold Dbt.dailyRevenue
  rw [orders_eq, orderItems_eq h.perOrder, Option.bind_some, hdaily, Option.map_some]
  refine ⟨_, rfl, ?_⟩
  unfold dailyRevenueRows
  rw [leftJoin_map_left, Multiset.map_map, Multiset.map_map, Multiset.map_map]
  rfl

/-! ## Customer metrics -/

/-- The row of `order_stats` in the statistics of the job. -/
def asStats (s : OrderStats) : Dbt.OrderStats where
  customerId := s.customerId
  totalOrders := s.totalOrders
  totalRevenue := s.totalRevenue
  avgOrderValue := s.avgOrderValue
  firstOrderDate := s.firstOrderDate
  lastOrderDate := s.lastOrderDate

theorem orderStatsGroup_of_mean {k : Option String} {g : Multiset SilverOrder} (today : Int)
    (hid : ∀ o ∈ g, o.orderId.isSome = true) (hsum : SumFits (g.map SilverOrder.totalAmount))
    {avg : Option (Dec 18)} (havg : trinoMean (g.map SilverOrder.totalAmount) g.card = some avg) :
    Dbt.orderStatsGroup k g =
      some { asStats (orderStatsRow today k g) with avgOrderValue := avg } := by
  have hcount : sqlCount (g.map SilverOrder.orderId) = g.card := sqlCount_orderId hid
  obtain ⟨sum, htrino, hval, hfits⟩ := trinoSum_eq_sparkSum hsum
  rw [trinoMean, htrino, Option.bind_some] at havg
  obtain ⟨q, hq, hqcast⟩ := Option.bind_eq_some_iff.1 havg
  simp only [Dbt.orderStatsGroup, htrino, Option.bind_some, trinoCast_eq_castTo hval hfits, hcount,
    hq, hqcast, Option.map_some, asStats, orderStatsRow]

/-- The statistics of a customer are the same in both paths. -/
theorem orderStatsGroup_eq {k : Option String} {g : Multiset SilverOrder} (today : Int)
    (hne : g ≠ 0) (hid : ∀ o ∈ g, o.orderId.isSome = true)
    (hsum : SumFits (g.map SilverOrder.totalAmount)) (hcard : g.card < 10 ^ 10) :
    Dbt.orderStatsGroup k g = some (asStats (orderStatsRow today k g)) := by
  have hmean := trinoMean_eq_sparkAvg hsum (Multiset.card_pos.2 hne) hcard
  rw [orderStatsGroup_of_mean today hid hsum hmean]
  simp only [asStats, orderStatsRow, sqlCount_orderId hid]

/-- So are those of all customers. -/
theorem orderStats_eq {orders : Multiset SilverOrder} (today : Int)
    (hid : ∀ o ∈ orders, o.orderId.isSome = true)
    (hcustomers : ∀ g ∈ groupBy SilverOrder.customerId orders,
      SumFits (g.2.map SilverOrder.totalAmount) ∧ g.2.card < 10 ^ 10) :
    Dbt.orderStats orders = some ((orderStats orders today).map asStats) := by
  unfold orderStats
  rw [Multiset.map_map]
  apply collect_map
  rintro ⟨k, g⟩ hg
  obtain ⟨hsum, hcard⟩ := hcustomers _ hg
  refine orderStatsGroup_eq today (group_ne_zero _ hg) (fun o ho => ?_) hsum hcard
  exact hid o (mem_of_mem_group _ hg ho).1

/-- The recency of a row of the statistics. -/
theorem recency_of_mem {orders : Multiset SilverOrder} {today : Int} {s : OrderStats}
    (h : s ∈ orderStats orders today) :
    s.daysSinceLastOrder = s.lastOrderDate.map (today - ·) ∧
      s.isChurned = s.daysSinceLastOrder.map fun days => decide (90 < days) := by
  obtain ⟨⟨k, g⟩, -, rfl⟩ := Multiset.mem_map.1 h
  exact ⟨rfl, rfl⟩

/-- The model `customer_metrics` builds the rows of the Spark job. -/
theorem customerMetrics_eq {orders : Multiset SilverOrder} {items : Multiset SilverOrderItem}
    (h : WithinLimits orders items) (hid : ∀ o ∈ orders, o.orderId.isSome = true)
    (customers : Multiset SilverCustomer) (today computedAt now : Int) :
    ∃ rows, Dbt.customerMetrics orders customers today now = some rows ∧
      rows.map CustomerMetrics.figures =
        (customerMetricsRows orders customers today computedAt).map CustomerMetrics.figures := by
  have hid' := forall_revenueOrders hid
  have hstats := orderStats_eq today hid' h.perCustomer
  unfold Dbt.customerMetrics
  rw [orders_eq, hstats, Option.map_some]
  refine ⟨_, rfl, ?_⟩
  unfold Dbt.customers customerMetricsRows
  rw [leftJoin_map_left, leftJoin_map_right, Multiset.map_map, Multiset.map_map, Multiset.map_map,
    Multiset.map_map]
  refine Multiset.map_congr rfl fun ⟨c, s⟩ hcs => ?_
  have hjoin := ((mem_leftJoin _ _).1 hcs).2
  cases s with
  | none => rfl
  | some s =>
    have hs : s ∈ orderStats (revenueOrders orders) today := by
      rcases hjoin with ⟨hnone, -⟩ | ⟨s', hs', -, heq⟩
      · cases hnone
      · rwa [Option.some.inj heq]
    obtain ⟨hdays, hchurned⟩ := recency_of_mem hs
    simp only [Function.comp_apply, CustomerMetrics.figures, customerMetricsRow, Dbt.daysSince,
      Option.map_some, Option.bind_some, hchurned, hdays, asStats]

/-! ## Both tables -/

/-- **Spark and dbt build the same Gold.** For every state of Silver that its table definitions
admit, the dbt queries succeed, and their rows are those of the Spark job, `computed_at` apart, as
long as no sum exceeds `DECIMAL(18,2)` and no group has `10 ^ 10` orders. -/
theorem gold_twins {bucketHash : String → Nat} (orders : Table ordersSpec)
    (customers : Table customersSpec) (items : Table (orderItemsSpec bucketHash))
    (h : WithinLimits orders.rows items.rows) (today computedAt now : Int) :
    ∃ daily metrics, Dbt.dailyRevenue orders.rows items.rows now = some daily ∧
      Dbt.customerMetrics orders.rows customers.rows today now = some metrics ∧
      daily.map DailyRevenue.figures =
        (dailyRevenueRows orders.rows items.rows computedAt).map DailyRevenue.figures ∧
      metrics.map CustomerMetrics.figures =
        (customerMetricsRows orders.rows customers.rows today computedAt).map
          CustomerMetrics.figures := by
  have hid := (ordersSpec_keys orders).1
  obtain ⟨daily, hdaily, hdailyRows⟩ := dailyRevenue_eq h hid computedAt now
  obtain ⟨metrics, hmetrics, hmetricsRows⟩ := customerMetrics_eq h hid customers.rows today
    computedAt now
  exact ⟨daily, metrics, hdaily, hmetrics, hdailyRows, hmetricsRows⟩

/-- Three orders of two days: one has an item, one has none, one is cancelled. -/
def threeOrders : Table ordersSpec where
  rows :=
    let order (id status : String) (createdAt : Int) : SilverOrder :=
      { orderId := some id, customerId := some "7", status := some status
        totalAmount := some ⟨4950, by decide⟩, currency := none, createdAt := some createdAt
        updatedAt := some createdAt, sourceOp := some "u", ingestedAt := 0 }
    {order "1" "confirmed" 0, order "2" "shipped" 86400000000, order "3" "cancelled" 0}
  valid := by decide

/-- The customer of the orders, and one without. -/
def twoCustomers : Table customersSpec where
  rows :=
    let customer (id : String) : SilverCustomer :=
      { customerId := some id, name := none, email := none, createdAt := some 0, updatedAt := none
        sourceOp := some "c", ingestedAt := 0 }
    {customer "7", customer "8"}
  valid := by decide

/-- An item of the first order. -/
def oneItem : Table (orderItemsSpec murmurText) where
  rows :=
    let item : SilverOrderItem :=
      { itemId := some "1", orderId := some "1", productId := some "101", quantity := some 2
        unitPrice := some ⟨4999, by decide⟩, lineTotal := some ⟨9998, by decide⟩
        ingestedAt := 0, orderCreatedAt := some 0 }
    {item}
  valid := by decide

theorem gold_twins_threeOrders : ∃ daily metrics,
    Dbt.dailyRevenue threeOrders.rows oneItem.rows 1 = some daily ∧
      Dbt.customerMetrics threeOrders.rows twoCustomers.rows 100 1 = some metrics ∧
      daily.map DailyRevenue.figures =
        (dailyRevenueRows threeOrders.rows oneItem.rows 0).map DailyRevenue.figures ∧
      metrics.map CustomerMetrics.figures =
        (customerMetricsRows threeOrders.rows twoCustomers.rows 100 0).map
          CustomerMetrics.figures :=
  gold_twins threeOrders twoCustomers oneItem
    ⟨by decide +kernel, by decide +kernel, by decide +kernel⟩ 100 0 1

end Lakehouse.Verify
