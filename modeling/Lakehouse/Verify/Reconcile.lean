import Lakehouse.Verify.GoldRefresh
import Lakehouse.Verify.GoldTwins
import Lakehouse.Verify.StableTables

/-!
# The two Gold tables reconcile

`daily_revenue` sums the revenue orders by day and currency, each by its items or by its total when
it has none; `customer_metrics` sums their totals by customer. A row of either table counts as a
pair of an amount and a number of orders, its measure. The measures of both tables add up to those
of the revenue orders: a grouping loses no row (`sum_groupBy`), the orders are joined to unique sums
of items (`map_fst_leftJoin`), and every group of orders is joined to exactly one customer
(`sum_leftJoin`). The models of dbt compute the same measures (`dbt_daily_measures`,
`dbt_stats_measures`).
-/

namespace Lakehouse.Verify

open Lib Batch

/-! ## What reconciles -/

/-- The units of a nullable amount, null as zero. -/
def units {p : Nat} (x : Option (Dec p)) : Int := (x.map fun d => d.val).getD 0

/-- Both tables have the same revenue and the same number of orders. -/
def Reconciles (daily : Multiset DailyRevenue) (metrics : Multiset CustomerMetrics) : Prop :=
  (daily.map fun r => units r.netRevenue).sum = (metrics.map fun r => r.totalRevenue.val).sum ∧
    (daily.map DailyRevenue.orderCount).sum = (metrics.map CustomerMetrics.totalOrders).sum

/-- No sum of a column exceeds `DECIMAL(18,2)`. -/
structure NoOverflow (orders : Multiset SilverOrder) (items : Multiset SilverOrderItem) :
    Prop where
  perOrder : ∀ g ∈ groupBy (fun i => i.orderId) items, SumFits (g.2.map fun i => i.lineTotal)
  perDay : ∀ g ∈ groupBy (fun r => (r.reportDate, r.currency))
    (orderRevenues (revenueOrders orders) items), SumFits (g.2.map OrderRevenue.lineRevenue)
  perCustomer : ∀ g ∈ groupBy SilverOrder.customerId (revenueOrders orders),
    SumFits (g.2.map SilverOrder.totalAmount)

/-- What the source application keeps of its tables. -/
structure SourceKept (orders : Multiset SilverOrder) (customers : Multiset SilverCustomer)
    (items : Multiset SilverOrderItem) : Prop where
  customerIds : (customers.map SilverCustomer.customerId).Nodup
  customerOps : ∀ c ∈ customers, isIn c.sourceOp upsertOps = true
  knownCustomer : ∀ o ∈ revenueOrders orders,
    o.customerId ∈ customers.map SilverCustomer.customerId
  totals : ∀ o ∈ revenueOrders orders, o.orderId ∈ (items.map fun i => i.orderId) →
    ((items.filter fun i => i.orderId = o.orderId).map fun i => units i.lineTotal).sum =
      units o.totalAmount

/-! ## Measures -/

/-- The revenue and the orders of a day. -/
def dailyMeasure (r : DailyRevenue) : Int × Nat := (units r.netRevenue, r.orderCount)

/-- The revenue and the orders of a customer. -/
def metricsMeasure (r : CustomerMetrics) : Int × Nat :=
  (r.totalRevenue.val, r.totalOrders)

/-- The orders of one customer. -/
def orderStatsMeasure (s : OrderStats) : Int × Nat := (units s.totalRevenue, s.totalOrders)

/-- One order with its revenue. -/
def orderMeasure (revenue : Option (Dec 18)) : Int × Nat := (units revenue, 1)

theorem fst_sum_map {α : Type*} (f : α → Int × Nat) (s : Multiset α) :
    (s.map f).sum.1 = (s.map fun x => (f x).1).sum := by
  have hsum := map_multiset_sum (AddMonoidHom.fst Int Nat) (s.map f)
  rwa [Multiset.map_map] at hsum

theorem snd_sum_map {α : Type*} (f : α → Int × Nat) (s : Multiset α) :
    (s.map f).sum.2 = (s.map fun x => (f x).2).sum := by
  have hsum := map_multiset_sum (AddMonoidHom.snd Int Nat) (s.map f)
  rwa [Multiset.map_map] at hsum

theorem reconciles_of_measures {daily : Multiset DailyRevenue} {metrics : Multiset CustomerMetrics}
    (h : (daily.map dailyMeasure).sum = (metrics.map metricsMeasure).sum) :
    Reconciles daily metrics := by
  constructor
  · have hfst := congrArg Prod.fst h
    rwa [fst_sum_map, fst_sum_map] at hfst
  · have hsnd := congrArg Prod.snd h
    rwa [snd_sum_map, snd_sum_map] at hsnd

theorem val_getD (x : Option (Dec 18)) : (x.getD 0).val = units x := by
  cases x <;> rfl

/-- A sum that fits keeps its value through the casts. -/
theorem val_castTo_sparkSum {s : Multiset (Option (Dec 18))} (h : SumFits s) :
    (castTo 18 (sparkSum s)).map (fun d => d.val) = sqlSum (decimals s) := by
  unfold sparkSum
  cases hsum : sqlSum (decimals s) with
  | none => rfl
  | some n =>
    obtain ⟨d, hd, hval⟩ := castPrecision_of_fits (h n hsum) (p := 28) (by decide)
    obtain ⟨e, he, heval⟩ := castPrecision_of_fits (h n hsum) (le_refl 18)
    simp [castTo, hd, hval, he, heval]

theorem units_castTo_sparkSum {s : Multiset (Option (Dec 18))} (h : SumFits s) :
    units (castTo 18 (sparkSum s)) = (s.map units).sum := by
  rw [units, val_castTo_sparkSum h, getD_sqlSum, decimals, Multiset.map_map]
  rfl

/-- The sum of a column with a value. -/
theorem sqlSum_decimals {s : Multiset (Option (Dec 18))} {x : Option (Dec 18)} (hx : x ∈ s)
    (hsome : x.isSome = true) : sqlSum (decimals s) = some (s.map units).sum := by
  have hvalue : (sqlSum (decimals s)).isSome = true := by
    refine (aggregate_isSome _ _).2 ⟨_, Multiset.mem_map_of_mem _ hx, ?_⟩
    rwa [Option.isSome_map]
  obtain ⟨n, hn⟩ := Option.isSome_iff_exists.1 hvalue
  have hunits : n = (s.map units).sum := by
    rw [← Option.getD_some (a := n) (b := 0), ← hn, getD_sqlSum, decimals, Multiset.map_map]
    rfl
  rw [hn, hunits]

theorem exists_sparkSum {s : Multiset (Option (Dec 18))} (hfits : SumFits s) {x : Option (Dec 18)}
    (hx : x ∈ s) (hsome : x.isSome = true) :
    ∃ d, sparkSum s = some d ∧ d.val = (s.map units).sum ∧ d.val.natAbs < 10 ^ 18 := by
  have hn := sqlSum_decimals hx hsome
  obtain ⟨d, hd, hval⟩ := castPrecision_of_fits (hfits _ hn) (p := 28) (by omega)
  refine ⟨d, ?_, hval, hval ▸ hfits _ hn⟩
  rw [sparkSum, hn, Option.bind_some, hd]

/-- The measure of a sum and a count is the sum of the measures. -/
theorem measure_group {α : Type} {orderId : α → Option String} {revenue : α → Option (Dec 18)}
    {g : Multiset α} (hid : ∀ x ∈ g, (orderId x).isSome = true) (hsum : SumFits (g.map revenue)) :
    (units (castTo 18 (sparkSum (g.map revenue))), sqlCount (g.map orderId)) =
      (g.map fun x => orderMeasure (revenue x)).sum := by
  apply Prod.ext
  · rw [units_castTo_sparkSum hsum, fst_sum_map, Multiset.map_map]
    rfl
  · rw [sqlCount_orderId hid, snd_sum_map]
    simp [orderMeasure]

/-! ## Daily revenue -/

section

variable {orders : Multiset SilverOrder} {customers : Multiset SilverCustomer}
  {items : Multiset SilverOrderItem}

/-- **The line revenue of an order** is its total. -/
theorem units_lineRevenue (hkept : SourceKept orders customers items)
    (hfits : ∀ g ∈ groupBy (fun i => i.orderId) items, SumFits (g.2.map fun i => i.lineTotal))
    {r : SilverOrder × Option OrderItems}
    (hr : r ∈ leftJoin SilverOrder.orderId OrderItems.orderId (revenueOrders orders)
      (orderItemsOf items)) :
    units (orderRevenue r).lineRevenue = units r.1.totalAmount := by
  obtain ⟨o, joined⟩ := r
  obtain ⟨ho, hjoined⟩ := (mem_leftJoin _ _).1 hr
  rw [← lineRevenue_eq, Dbt.lineRevenue]
  rcases hjoined with ⟨rfl, -⟩ | ⟨oi, hoi, hmatch, rfl⟩
  · rfl
  -- the order has items, so its joined row is the group of them
  obtain ⟨⟨k, g⟩, hg, rfl⟩ := Multiset.mem_map.1 hoi
  obtain rfl : o.orderId = k := hmatch.1
  have hsum := units_castTo_sparkSum (hfits _ hg)
  obtain ⟨hitem, rfl⟩ := (mem_groupBy _).1 hg
  have htotal := hkept.totals o ho (Multiset.mem_map.2 hitem)
  rw [Multiset.map_map] at hsum
  simp only [Option.bind_some]
  generalize castTo 18 (sparkSum _) = gross at hsum
  cases gross with
  | none => rfl
  | some d => exact hsum.trans htotal

/-- A measure of the rows of a day that adds up over the orders of a group adds up over all. -/
theorem sum_dailyRows {M : Type*} [AddCommMonoid M] {computedAt : Int} {m : DailyRevenue → M}
    {w : OrderRevenue → M} (h : ∀ g ∈ groupBy (fun r : OrderRevenue => (r.reportDate, r.currency))
      (orderRevenues orders items), m (dailyRow computedAt g.1 g.2) = (g.2.map w).sum) :
    ((dailyRows orders items computedAt).map m).sum =
      ((orderRevenues orders items).map w).sum := by
  unfold dailyRows
  rw [Multiset.map_map, ← sum_groupBy (fun r : OrderRevenue => (r.reportDate, r.currency))]
  exact congrArg Multiset.sum (Multiset.map_congr rfl h)

theorem orderId_of_mem_orderRevenues (hid : ∀ o ∈ orders, o.orderId.isSome = true)
    {x : OrderRevenue} (hx : x ∈ orderRevenues orders items) : x.orderId.isSome = true := by
  obtain ⟨r, hr, rfl⟩ := Multiset.mem_map.1 hx
  exact hid r.1 ((mem_leftJoin _ _).1 hr).1

theorem dailyRows_measures_revenue (hid : ∀ o ∈ orders, o.orderId.isSome = true)
    (hdays : ∀ g ∈ groupBy (fun r => (r.reportDate, r.currency)) (orderRevenues orders items),
      SumFits (g.2.map OrderRevenue.lineRevenue)) (computedAt : Int) :
    ((dailyRows orders items computedAt).map dailyMeasure).sum =
      ((orderRevenues orders items).map fun x => orderMeasure x.lineRevenue).sum := by
  apply sum_dailyRows
  intro g hg
  have hmem : ∀ x ∈ g.2, x ∈ orderRevenues orders items := fun x hx =>
    (mem_of_mem_group _ hg hx).1
  exact measure_group (fun x hx => orderId_of_mem_orderRevenues hid (hmem x hx)) (hdays g hg)

theorem dailyRows_measures (hkept : SourceKept orders customers items)
    (hfits : NoOverflow orders items) (hid : ∀ o ∈ orders, o.orderId.isSome = true)
    (computedAt : Int) :
    ((dailyRows (revenueOrders orders) items computedAt).map dailyMeasure).sum =
      ((revenueOrders orders).map fun o => orderMeasure o.totalAmount).sum := by
  have hid' := forall_revenueOrders hid
  rw [dailyRows_measures_revenue hid' hfits.perDay]
  calc ((orderRevenues (revenueOrders orders) items).map
          fun x => orderMeasure x.lineRevenue).sum
      = ((leftJoin SilverOrder.orderId OrderItems.orderId (revenueOrders orders)
          (orderItemsOf items)).map fun r => orderMeasure r.1.totalAmount).sum := by
        unfold orderRevenues
        rw [Multiset.map_map]
        refine congrArg Multiset.sum (Multiset.map_congr rfl fun r hr => ?_)
        rw [Function.comp_apply, orderMeasure, units_lineRevenue hkept hfits.perOrder hr]
        rfl
    _ = ((revenueOrders orders).map fun o => orderMeasure o.totalAmount).sum := by
        conv_rhs => rw [← map_fst_leftJoin SilverOrder.orderId OrderItems.orderId
          (orderItemsOf_keys_nodup items) (revenueOrders orders)]
        rw [Multiset.map_map]
        rfl

/-! ## Customer metrics -/

theorem orderStats_measures (hfits : NoOverflow orders items)
    (hid : ∀ o ∈ orders, o.orderId.isSome = true) (today : Int) :
    ((orderStats (revenueOrders orders) today).map orderStatsMeasure).sum =
      ((revenueOrders orders).map fun o => orderMeasure o.totalAmount).sum := by
  unfold orderStats
  rw [Multiset.map_map, ← sum_groupBy SilverOrder.customerId]
  refine congrArg Multiset.sum (Multiset.map_congr rfl fun g hg => ?_)
  have hid' := forall_revenueOrders hid
  exact measure_group (fun o ho => hid' o (mem_of_mem_group _ hg ho).1) (hfits.perCustomer g hg)

/-- Every customer with a revenue order has a row. -/
theorem customer_of_revenueOrder (hkept : SourceKept orders customers items)
    (hcustomer : ∀ o ∈ orders, o.customerId.isSome = true) {today : Int} {k : Option String}
    (hk : k ∈ (orderStats (revenueOrders orders) today).map OrderStats.customerId) :
    ∃ c ∈ customers, c.customerId = k ∧ c.customerId.isSome := by
  obtain ⟨s, hs, rfl⟩ := Multiset.mem_map.1 hk
  obtain ⟨⟨k, g⟩, hg, rfl⟩ := Multiset.mem_map.1 hs
  obtain ⟨⟨o, ho, rfl⟩, -⟩ := (mem_groupBy _).1 hg
  obtain ⟨c, hc, he⟩ := Multiset.mem_map.1 (hkept.knownCustomer o ho)
  exact ⟨c, hc, he, he ▸ forall_revenueOrders hcustomer o ho⟩

theorem customerMetricsRows_measures (hkept : SourceKept orders customers items)
    (hcustomer : ∀ o ∈ orders, o.customerId.isSome = true) (today computedAt : Int) :
    ((customerMetricsRows orders customers today computedAt).map metricsMeasure).sum =
      ((orderStats (revenueOrders orders) today).map orderStatsMeasure).sum := by
  unfold customerMetricsRows
  rw [Multiset.filter_eq_self.2 hkept.customerOps, Multiset.map_map]
  rw [← sum_leftJoin orderStatsMeasure hkept.customerIds fun s hs => ?_]
  · refine congrArg Multiset.sum (Multiset.map_congr rfl fun ⟨c, s⟩ _ => ?_)
    cases s with
    | none => rfl
    | some s => exact Prod.ext (val_getD s.totalRevenue) rfl
  · obtain ⟨c, hc, he, hsome⟩ :=
      customer_of_revenueOrder hkept hcustomer (Multiset.mem_map_of_mem OrderStats.customerId hs)
    exact ⟨c, hc, he, hsome⟩

/-! ## The models of dbt -/

theorem dbt_daily_measures (hid : ∀ o ∈ orders, o.orderId.isSome = true)
    (hdays : ∀ g ∈ groupBy (fun r => (r.reportDate, r.currency)) (orderRevenues orders items),
      SumFits (g.2.map OrderRevenue.lineRevenue)) (computedAt : Int) :
    ∃ daily, Dbt.daily orders (orderItemsOf items) = some daily ∧
      daily.map (fun d => ((units d.netRevenue, d.orderCount) : Int × Nat)) =
        (dailyRows orders items computedAt).map dailyMeasure := by
  rw [dailyRows_joined, Multiset.map_map]
  apply collect_view
  rintro ⟨k, g⟩ hg
  obtain ⟨hgroup, hne, hids⟩ := mem_joinedGroups hid hg
  have hsum := hdays _ hgroup
  obtain ⟨avg, havg⟩ := exists_trinoMean (lineRevenues_eq g ▸ hsum) (Multiset.card_pos.2 hne)
  exact ⟨_, dailyGroup_of_mean computedAt hids hsum havg, rfl⟩

theorem dbt_dailyRevenue_measures (hfits : NoOverflow orders items)
    (hid : ∀ o ∈ orders, o.orderId.isSome = true) (computedAt now : Int) :
    ∃ rows, Dbt.dailyRevenue orders items now = some rows ∧
      rows.map dailyMeasure =
        (dailyRows (revenueOrders orders) items computedAt).map dailyMeasure := by
  have hid' := forall_revenueOrders hid
  obtain ⟨daily, hdaily, hmeasures⟩ := dbt_daily_measures hid' hfits.perDay computedAt
  unfold Dbt.dailyRevenue
  rw [orders_eq, orderItems_eq hfits.perOrder, Option.bind_some, hdaily, Option.map_some]
  refine ⟨_, rfl, ?_⟩
  rw [← hmeasures, Multiset.map_map]
  conv_rhs => rw [← map_fst_leftJoin Dbt.Daily.reportDate FirstOrders.reportDate
    (firstOrdersOf_keys_nodup (revenueOrders orders)) daily]
  rw [Multiset.map_map]
  rfl

/-- A row of `order_stats` with its customer and its measure. -/
def statsMeasure (s : Dbt.OrderStats) : Option String × Int × Nat :=
  (s.customerId, units s.totalRevenue, s.totalOrders)

theorem dbt_stats_measures (hid : ∀ o ∈ orders, o.orderId.isSome = true)
    (hcustomers : ∀ g ∈ groupBy SilverOrder.customerId orders,
      SumFits (g.2.map SilverOrder.totalAmount)) (today : Int) :
    ∃ stats, Dbt.orderStats orders = some stats ∧
      stats.map statsMeasure = (orderStats orders today).map fun s => statsMeasure (asStats s) := by
  unfold orderStats
  rw [Multiset.map_map]
  apply collect_view
  rintro ⟨k, g⟩ hg
  have hsum := hcustomers _ hg
  obtain ⟨avg, havg⟩ := exists_trinoMean hsum (Multiset.card_pos.2 (group_ne_zero _ hg))
  refine ⟨_, orderStatsGroup_of_mean today (fun o ho => ?_) hsum havg, rfl⟩
  exact hid o (mem_of_mem_group _ hg ho).1

theorem dbt_customerMetrics_measures (hkept : SourceKept orders customers items)
    (hfits : NoOverflow orders items) (hid : ∀ o ∈ orders, o.orderId.isSome = true)
    (hcustomer : ∀ o ∈ orders, o.customerId.isSome = true) (today now : Int) :
    ∃ rows, Dbt.customerMetrics orders customers today now = some rows ∧
      (rows.map metricsMeasure).sum =
        ((orderStats (revenueOrders orders) today).map orderStatsMeasure).sum := by
  have hid' := forall_revenueOrders hid
  obtain ⟨stats, hstats, hmeasures⟩ := dbt_stats_measures hid' hfits.perCustomer today
  have hkeys : stats.map Dbt.OrderStats.customerId =
      (orderStats (revenueOrders orders) today).map OrderStats.customerId := by
    have hfst := congrArg (Multiset.map Prod.fst) hmeasures
    rwa [Multiset.map_map, Multiset.map_map] at hfst
  have hsums : stats.map (fun s => (statsMeasure s).2) =
      (orderStats (revenueOrders orders) today).map orderStatsMeasure := by
    have hsnd := congrArg (Multiset.map Prod.snd) hmeasures
    rwa [Multiset.map_map, Multiset.map_map] at hsnd
  unfold Dbt.customerMetrics
  rw [orders_eq, hstats, Option.map_some]
  refine ⟨_, rfl, ?_⟩
  have hall : Dbt.customers customers = customers.map SilverCustomer.customerId := by
    unfold Dbt.customers
    rw [Multiset.filter_eq_self.2]
    exact hkept.customerOps
  rw [← hsums, hall, Multiset.map_map]
  have hids : ((customers.map SilverCustomer.customerId).map id).Nodup := by
    rw [Multiset.map_id]
    exact hkept.customerIds
  rw [← sum_leftJoin (fun s => (statsMeasure s).2) hids fun s hs => ?_]
  · refine congrArg Multiset.sum (Multiset.map_congr rfl fun ⟨c, s⟩ _ => ?_)
    cases s with
    | none => rfl
    | some s => exact Prod.ext (val_getD s.totalRevenue) rfl
  · have hk := Multiset.mem_map_of_mem Dbt.OrderStats.customerId hs
    rw [hkeys] at hk
    obtain ⟨c, hc, he, hsome⟩ := customer_of_revenueOrder hkept hcustomer hk
    exact ⟨_, Multiset.mem_map_of_mem _ hc, he, hsome⟩

end

/-! ## Both tables -/

/-- **The two Gold tables reconcile.** For every state of Silver that its table definitions admit
and in which the invariants of the source application hold, as long as no sum overflows, the rows
that the Spark job computes for `daily_revenue` and `customer_metrics` have the same revenue and the
same number of orders, and so have the rows that the dbt models compute. -/
theorem gold_reconciles {bucketHash : String → Nat} (orders : Table ordersSpec)
    (customers : Table customersSpec) (items : Table (orderItemsSpec bucketHash))
    (hkept : SourceKept orders.rows customers.rows items.rows)
    (hfits : NoOverflow orders.rows items.rows) (today computedAt now : Int) :
    Reconciles (dailyRevenueRows orders.rows items.rows computedAt)
        (customerMetricsRows orders.rows customers.rows today computedAt) ∧
      ∃ daily metrics, Dbt.dailyRevenue orders.rows items.rows now = some daily ∧
        Dbt.customerMetrics orders.rows customers.rows today now = some metrics ∧
        Reconciles daily metrics := by
  obtain ⟨hid, hcustomer⟩ := ordersSpec_keys orders
  have hdaily := dailyRows_measures hkept hfits hid computedAt
  have hstats := orderStats_measures hfits hid today
  constructor
  · apply reconciles_of_measures
    rw [dailyRevenueRows_view fun _ _ => rfl, hdaily, customerMetricsRows_measures hkept hcustomer, hstats]
  · obtain ⟨daily, hdbtDaily, hdailyMeasures⟩ := dbt_dailyRevenue_measures hfits hid computedAt now
    obtain ⟨metrics, hdbtMetrics, hmetricsMeasures⟩ :=
      dbt_customerMetrics_measures hkept hfits hid hcustomer today now
    refine ⟨daily, metrics, hdbtDaily, hdbtMetrics, reconciles_of_measures ?_⟩
    rw [hdailyMeasures, hdaily, hmetricsMeasures, hstats]

/-- Three items of the first order, one of them without a price. -/
def threeItems : Table (orderItemsSpec murmurText) where
  rows :=
    let item (id : String) (lineTotal : Option (Dec 18)) : SilverOrderItem :=
      { itemId := some id, orderId := some "1", productId := some "101", quantity := some 1
        unitPrice := lineTotal, lineTotal := lineTotal, ingestedAt := 0, orderCreatedAt := some 0 }
    {item "1" (some ⟨2000, by decide⟩), item "2" (some ⟨2950, by decide⟩), item "3" none}
  valid := by decide

theorem gold_reconciles_threeOrders :
    Reconciles (dailyRevenueRows threeOrders.rows threeItems.rows 0)
        (customerMetricsRows threeOrders.rows twoCustomers.rows 100 0) ∧
      ∃ daily metrics, Dbt.dailyRevenue threeOrders.rows threeItems.rows 1 = some daily ∧
        Dbt.customerMetrics threeOrders.rows twoCustomers.rows 100 1 = some metrics ∧
        Reconciles daily metrics :=
  gold_reconciles threeOrders twoCustomers threeItems
    ⟨by decide +kernel, by decide +kernel, by decide +kernel, by decide +kernel⟩
    ⟨by decide +kernel, by decide +kernel, by decide +kernel⟩ 100 0 1

end Lakehouse.Verify
