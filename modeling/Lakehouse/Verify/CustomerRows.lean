import Lakehouse.Verify.GateSound
import Lakehouse.Verify.Reconcile

/-!
# Customer metrics are complete and consistent

Each customer is looked up once among the revenue orders (`customerMetricsRows_eq`). A row without
orders has the defaults of the job, and in a row with orders the dates and the recency go together,
and so do the total and the average while they fit their columns (`customerMetricsRow_consistent`).
What a row promises is what the gate and the suite check, so every table the job writes passes both
(`customerMetrics_consistent`).
-/

namespace Lakehouse.Verify

open Lib Batch Quality

/-! ## Checks of the table -/

/-- What the churn query reads of a row. -/
def asMetricsRow (r : CustomerMetrics) : MetricsRow := ⟨r.daysSinceLastOrder, some r.isChurned⟩

/-- `expect_column_pair_values_a_to_be_greater_than_b` on `last_order_date` and `first_order_date`:
a pair of nulls is skipped, and a comparison with one null is unexpected. -/
def datesUnordered (r : CustomerMetrics) : Bool :=
  match r.lastOrderDate, r.firstOrderDate with
  | none, none => false
  | some last, some first => decide (last < first)
  | _, _ => true

/-- The churn query counts no violation, and the suite no unexpected pair of dates. -/
structure PassesChecks (rows : Multiset CustomerMetrics) : Prop where
  churn : ∀ connStr ≠ "",
    checkChurnConsistency (some connStr) (fun _ => .ok (rows.map asMetricsRow)) = .pass
  dates : rows.countP (fun r => datesUnordered r = true) = 0

theorem passesChecks_of_rows {rows : Multiset CustomerMetrics}
    (h : ∀ r ∈ rows, isViolation (asMetricsRow r) = false ∧ datesUnordered r = false) :
    PassesChecks rows := by
  constructor
  · intro connStr hconn
    have hset : Quality.nonEmpty (some connStr) = some connStr :=
      Option.filter_some_pos (decide_eq_true hconn)
    have hcount : (rows.map asMetricsRow).countP (fun r => isViolation r = true) = 0 := by
      rw [Multiset.countP_eq_zero, Multiset.forall_mem_map_iff]
      intro r hr
      rw [(h r hr).1]
      exact Bool.false_ne_true
    simp [checkChurnConsistency, hset, hcount]
  · rw [Multiset.countP_eq_zero]
    intro r hr
    rw [(h r hr).2]
    exact Bool.false_ne_true

/-! ## Runs -/

/-- A run of `gold_customer_metrics`: what it reads, and its clock. -/
structure MetricsRun where
  orders : Multiset SilverOrder
  customers : Table customersSpec
  today : Int
  computedAt : Int

/-- The rows the run writes. -/
def MetricsRun.rows (run : MetricsRun) : Multiset CustomerMetrics :=
  customerMetricsRows run.orders run.customers.rows run.today run.computedAt

/-- The revenue orders of a customer. -/
def revenueOrdersOf (orders : Multiset SilverOrder) (customerId : Option String) :
    Multiset SilverOrder :=
  (revenueOrders orders).filter fun o => o.customerId = customerId

/-- One row for each customer, and orders with their columns and none after the reference date. -/
structure Admissible (run : MetricsRun) : Prop where
  customerIds : (run.customers.rows.map SilverCustomer.customerId).Nodup
  customerOps : ∀ c ∈ run.customers.rows, isIn c.sourceOp upsertOps = true
  orderIds : ∀ o ∈ run.orders, o.orderId.isSome = true
  dated : ∀ o ∈ run.orders, o.createdAt.isSome = true
  totals : ∀ o ∈ run.orders, o.totalAmount.isSome = true
  notAfter : ∀ o ∈ revenueOrders run.orders, ∀ d ∈ days o.createdAt, d ≤ run.today

/-- The columns of a row with revenue orders between two dates. -/
structure RowOfOrders (today : Int) (r : CustomerMetrics) (first last : Int) : Prop where
  firstOrderDate : r.firstOrderDate = some first
  lastOrderDate : r.lastOrderDate = some last
  ordered : first ≤ last
  daysSinceLastOrder : r.daysSinceLastOrder = some (today - last)
  notNegative : 0 ≤ today - last
  isChurned : r.isChurned = true ↔ 90 < today - last

/-- The totals of a customer's orders add up within the column. -/
def TotalsFit (orders : Multiset SilverOrder) (customerId : Option String) : Prop :=
  SumFits ((revenueOrdersOf orders customerId).map SilverOrder.totalAmount)

/-- A row of `customer_metrics` whose columns go together. -/
structure ConsistentRow (orders : Multiset SilverOrder) (today : Int) (r : CustomerMetrics) :
    Prop where
  totalOrders : r.totalOrders = (revenueOrdersOf orders r.customerId).card
  totalRevenue : TotalsFit orders r.customerId → r.totalRevenue.val =
    ((revenueOrdersOf orders r.customerId).map fun o => units o.totalAmount).sum
  noOrders : r.totalOrders = 0 ↔
    r.firstOrderDate = none ∧ r.lastOrderDate = none ∧ r.daysSinceLastOrder = none
  defaults : r.totalOrders = 0 →
    r.totalRevenue = 0 ∧ r.avgOrderValue = 0 ∧ r.isChurned = false
  otherwise : r.totalOrders ≠ 0 →
    ∃ first last, RowOfOrders today r first last
  avgOrderValue : r.totalOrders ≠ 0 → TotalsFit orders r.customerId → r.totalOrders < 10 ^ 10 →
    r.avgOrderValue.val = roundDiv r.totalRevenue.val r.totalOrders

/-- `gold.customer_metrics` after each of a sequence of runs. -/
def metricsRuns {bucketHash : String → Nat} (t : Table (customerMetricsSpec bucketHash)) :
    List MetricsRun → Option (List (Table (customerMetricsSpec bucketHash)))
  | [] => some []
  | run :: runs =>
    (goldCustomerMetrics run.orders run.customers.rows run.today run.computedAt t).bind fun t' =>
      (metricsRuns t' runs).map (t' :: ·)

theorem metricsRuns_eq {bucketHash : String → Nat} (t : Table (customerMetricsSpec bucketHash))
    (runs : List MetricsRun) : metricsRuns t runs = t.overwrites (runs.map MetricsRun.rows) := by
  induction runs generalizing t with
  | nil => rfl
  | cons run runs ih =>
    simp only [metricsRuns, List.map_cons, Table.overwrites, ih]
    rfl

/-! ## Aggregates of a group -/

/-- The least and the greatest of some dates. -/
theorem exists_min_max {s : Multiset (Option Int)} {x : Option Int} (hx : x ∈ s)
    (hsome : x.isSome = true) :
    ∃ m M, sqlMin s = some m ∧ sqlMax s = some M ∧ m ≤ M ∧ some M ∈ s := by
  rcases sqlMin_spec s with ⟨-, hnone⟩ | ⟨m, hm, -, hmin⟩
  · rw [hnone x hx] at hsome
    cases hsome
  rcases sqlMax_spec s with ⟨-, hnone⟩ | ⟨M, hM, hmem, -⟩
  · rw [hnone x hx] at hsome
    cases hsome
  exact ⟨m, M, hm, hM, hmin M hmem, hmem⟩

/-! ## Rows -/

section Rows

variable {orders : Multiset SilverOrder} {customers : Multiset SilverCustomer} {today : Int}

/-- The statistics that are joined to a customer. -/
def statsOf (orders : Multiset SilverOrder) (today : Int) (c : SilverCustomer) :
    Option OrderStats :=
  if (revenueOrdersOf orders c.customerId).card = 0 then none
  else some (orderStatsRow today c.customerId (revenueOrdersOf orders c.customerId))

/-- **Each customer once**, with the statistics of its orders. -/
theorem customerMetricsRows_eq (hops : ∀ c ∈ customers, isIn c.sourceOp upsertOps = true)
    (hid : ∀ c ∈ customers, c.customerId.isSome = true) (today computedAt : Int) :
    customerMetricsRows orders customers today computedAt =
      customers.map fun c => customerMetricsRow computedAt c (statsOf orders today c) := by
  have hjoin : leftJoin SilverCustomer.customerId OrderStats.customerId customers
      (orderStats (revenueOrders orders) today) =
        customers.map fun c => (c, statsOf orders today c) := by
    unfold orderStats
    refine leftJoin_groups SilverCustomer.customerId SilverOrder.customerId ?_ hid _
    rfl
  have hkept : customers.filter (fun c => isIn c.sourceOp upsertOps = true) = customers :=
    Multiset.filter_eq_self.2 hops
  simp only [customerMetricsRows, hkept, hjoin, Multiset.map_map]
  rfl

variable {c : SilverCustomer}

/-- A customer without revenue orders has the defaults. -/
theorem consistentRow_noOrders (hnone : (revenueOrdersOf orders c.customerId).card = 0)
    (computedAt : Int) :
    ConsistentRow orders today (customerMetricsRow computedAt c (statsOf orders today c)) := by
  rw [statsOf, if_pos hnone]
  constructor
  · exact hnone.symm
  · intro _
    change (0 : Int) = ((revenueOrdersOf orders c.customerId).map fun o => units o.totalAmount).sum
    rw [Multiset.card_eq_zero.1 hnone]
    rfl
  · exact iff_of_true rfl ⟨rfl, rfl, rfl⟩
  · exact fun _ => ⟨rfl, rfl, rfl⟩
  · exact fun hne => absurd rfl hne
  · exact fun hne => absurd rfl hne

/-- The sum of the totals of some orders, and their average when the orders are few enough. -/
theorem orderStatsRow_amounts {g : Multiset SilverOrder} (hsome : g.card ≠ 0)
    (hid : ∀ o ∈ g, o.orderId.isSome = true) (htotal : ∀ o ∈ g, o.totalAmount.isSome = true)
    (hfits : SumFits (g.map SilverOrder.totalAmount)) (today : Int) (customerId : Option String) :
    ∃ revenue, (orderStatsRow today customerId g).totalRevenue = some revenue ∧
      revenue.val = (g.map fun o => units o.totalAmount).sum ∧
      (g.card < 10 ^ 10 → ∃ avg, (orderStatsRow today customerId g).avgOrderValue = some avg ∧
        avg.val = roundDiv revenue.val g.card) := by
  obtain ⟨o, ho⟩ := Multiset.card_pos_iff_exists_mem.1 (Nat.pos_of_ne_zero hsome)
  obtain ⟨sum, hsum, hval, hlt⟩ := exists_sparkSum hfits
    (Multiset.mem_map_of_mem SilverOrder.totalAmount ho) (htotal o ho)
  rw [Multiset.map_map] at hval
  obtain ⟨revenue, hrevenue, hrevenueVal⟩ := castPrecision_of_fits hlt (le_refl 18)
  refine ⟨revenue, ?_, hrevenueVal.trans hval, fun hfew => ?_⟩
  · rw [orderStatsRow, hsum]
    exact hrevenue
  · have havgLt : (roundDiv sum.val g.card).natAbs < 10 ^ 18 :=
      (natAbs_roundDiv_le _ (Nat.pos_of_ne_zero hsome)).trans_lt hlt
    obtain ⟨avg, havg, havgVal⟩ := castPrecision_of_fits havgLt (le_refl 18)
    refine ⟨avg, ?_, havgVal.trans (by rw [hrevenueVal])⟩
    rw [orderStatsRow, hsum, sqlCount_orderId hid]
    exact (sparkAvg_some hlt (Nat.pos_of_ne_zero hsome) hfew).trans havg

/-- The first and the last date of some orders, and the recency of the last. -/
theorem orderStatsRow_dates {g : Multiset SilverOrder} {o : SilverOrder} (ho : o ∈ g)
    (hdated : o.createdAt.isSome = true) (today : Int) (customerId : Option String) :
    ∃ first last, (orderStatsRow today customerId g).firstOrderDate = some first ∧
      (orderStatsRow today customerId g).lastOrderDate = some last ∧
      (orderStatsRow today customerId g).daysSinceLastOrder = some (today - last) ∧
      (orderStatsRow today customerId g).isChurned = some (decide (90 < today - last)) ∧
      first ≤ last ∧ ∃ o' ∈ g, days o'.createdAt = some last := by
  have hday : (days o.createdAt).isSome = true := by rwa [days, Option.isSome_map]
  obtain ⟨first, last, hfirst, hlast, hle, hmem⟩ :=
    exists_min_max (Multiset.mem_map_of_mem (fun o => days o.createdAt) ho) hday
  refine ⟨first, last, hfirst, hlast, ?_, ?_, hle, Multiset.mem_map.1 hmem⟩
  · rw [orderStatsRow, hlast]
    rfl
  · rw [orderStatsRow, hlast]
    rfl

/-- The columns of a customer with revenue orders go together. -/
theorem consistentRow_orders (hsome : (revenueOrdersOf orders c.customerId).card ≠ 0)
    (hid : ∀ o ∈ orders, o.orderId.isSome = true) (hdated : ∀ o ∈ orders, o.createdAt.isSome = true)
    (htotal : ∀ o ∈ orders, o.totalAmount.isSome = true)
    (hpast : ∀ o ∈ revenueOrders orders, ∀ d ∈ days o.createdAt, d ≤ today) (computedAt : Int) :
    ConsistentRow orders today (customerMetricsRow computedAt c (statsOf orders today c)) := by
  rw [statsOf, if_neg hsome]
  have hmem : ∀ o ∈ revenueOrdersOf orders c.customerId, o ∈ revenueOrders orders := fun o ho =>
    (Multiset.mem_filter.1 ho).1
  have hid' := fun o ho => forall_revenueOrders hid o (hmem o ho)
  have htotal' := fun o ho => forall_revenueOrders htotal o (hmem o ho)
  obtain ⟨o, ho⟩ := Multiset.card_pos_iff_exists_mem.1 (Nat.pos_of_ne_zero hsome)
  obtain ⟨first, last, hfirst, hlast, hdays, hchurned, hle, o', ho', hlastDay⟩ :=
    orderStatsRow_dates ho (forall_revenueOrders hdated o (hmem o ho)) today c.customerId
  have hcount : (orderStatsRow today c.customerId
      (revenueOrdersOf orders c.customerId)).totalOrders =
        (revenueOrdersOf orders c.customerId).card := sqlCount_orderId hid'
  have hnotAfter : last ≤ today := hpast o' (hmem o' ho') last hlastDay
  constructor
  · exact hcount
  · intro hfits
    obtain ⟨revenue, hrevenue, hval, -⟩ :=
      orderStatsRow_amounts hsome hid' htotal' hfits today c.customerId
    simp only [customerMetricsRow, Option.bind_some, hrevenue, Option.getD_some]
    exact hval
  · simp only [customerMetricsRow, Option.map_some, Option.getD_some, Option.bind_some, hcount,
      hfirst]
    exact iff_of_false hsome fun h => Option.some_ne_none first h.1
  · intro hzero
    exact absurd (hcount.symm.trans hzero) hsome
  · intro _
    refine ⟨first, last, hfirst, hlast, hle, hdays, by omega, ?_⟩
    simp only [customerMetricsRow, Option.bind_some, hchurned, Option.getD_some,
      decide_eq_true_iff]
  · intro _ hfits hfew
    obtain ⟨revenue, hrevenue, -, havg⟩ :=
      orderStatsRow_amounts hsome hid' htotal' hfits today c.customerId
    obtain ⟨avg, havg, hval⟩ := havg (hcount.symm.trans_lt hfew)
    simp only [customerMetricsRow, Option.bind_some, Option.map_some, Option.getD_some, hrevenue,
      havg, hcount]
    exact hval

/-- **Every row is consistent.** -/
theorem customerMetricsRow_consistent {run : MetricsRun} (h : Admissible run)
    (c : SilverCustomer) : ConsistentRow run.orders run.today
      (customerMetricsRow run.computedAt c (statsOf run.orders run.today c)) := by
  by_cases hnone : (revenueOrdersOf run.orders c.customerId).card = 0
  · exact consistentRow_noOrders hnone _
  · exact consistentRow_orders hnone h.orderIds h.dated h.totals h.notAfter _

/-- A consistent row passes the checks of the table. -/
theorem ConsistentRow.passes {r : CustomerMetrics} (h : ConsistentRow orders today r) :
    isViolation (asMetricsRow r) = false ∧ datesUnordered r = false := by
  by_cases hzero : r.totalOrders = 0
  · obtain ⟨hfirst, hlast, hdays⟩ := h.noOrders.1 hzero
    simp [isViolation, asMetricsRow, datesUnordered, hfirst, hlast, hdays]
  · obtain ⟨first, last, hrow⟩ := h.otherwise hzero
    constructor
    · rw [isViolation, asMetricsRow, hrow.daysSinceLastOrder]
      by_cases hlate : 90 < today - last
      · rw [hrow.isChurned.2 hlate]
        simp
      · simp [hlate]
    · simp [datesUnordered, hrow.firstOrderDate, hrow.lastOrderDate, hrow.ordered]

end Rows

/-- **Customer metrics are complete and consistent.** For every state of Silver with one row for
each customer and every reference date that no revenue order is after, the job computes one row for
each customer, and the columns of every row go together, the total and the average while the totals
of the customer fit the column; so no table the job writes fails the churn query or the date
check. -/
theorem customerMetrics_consistent (bucketHash : String → Nat) {runs : List MetricsRun}
    (h : ∀ run ∈ runs, Admissible run) :
    (∀ run ∈ runs, run.rows.map CustomerMetrics.customerId =
        run.customers.rows.map SilverCustomer.customerId ∧
      (run.rows.map CustomerMetrics.customerId).Nodup ∧
      ∀ r ∈ run.rows, ConsistentRow run.orders run.today r) ∧
    ∃ ts, metricsRuns (.empty : Table (customerMetricsSpec bucketHash)) runs = some ts ∧
      ts.length = runs.length ∧ ∀ t ∈ ts, PassesChecks t.rows := by
  have hids : ∀ run : MetricsRun, ∀ c ∈ run.customers.rows, c.customerId.isSome = true := fun run =>
    run.customers.valid
  have hrows : ∀ run ∈ runs, ∀ r ∈ run.rows, ConsistentRow run.orders run.today r := by
    intro run hrun r hr
    rw [MetricsRun.rows, customerMetricsRows_eq (h run hrun).customerOps (hids run)] at hr
    obtain ⟨c, hc, rfl⟩ := Multiset.mem_map.1 hr
    exact customerMetricsRow_consistent (h run hrun) c
  have hkeys : ∀ run ∈ runs, run.rows.map CustomerMetrics.customerId =
      run.customers.rows.map SilverCustomer.customerId := by
    intro run hrun
    rw [MetricsRun.rows, customerMetricsRows_keys,
      Multiset.filter_eq_self.2 (h run hrun).customerOps]
  refine ⟨fun run hrun => ⟨hkeys run hrun, ?_, hrows run hrun⟩, ?_⟩
  · rw [hkeys run hrun]
    exact (h run hrun).customerIds
  · have hnews : ∀ new ∈ runs.map MetricsRun.rows, ∀ r ∈ new,
        (customerMetricsSpec bucketHash).required r = true ∧
          isViolation (asMetricsRow r) = false ∧ datesUnordered r = false := by
      rw [List.forall_mem_map]
      intro run hrun r hr
      refine ⟨?_, (hrows run hrun r hr).passes⟩
      have hid := Multiset.mem_map_of_mem CustomerMetrics.customerId hr
      rw [hkeys run hrun] at hid
      obtain ⟨c, hc, heq⟩ := Multiset.mem_map.1 hid
      change r.customerId.isSome = true
      rw [← heq]
      exact hids run c hc
    have hnone : ∀ r ∈ (Table.empty : Table (customerMetricsSpec bucketHash)).rows,
        isViolation (asMetricsRow r) = false ∧ datesUnordered r = false := fun r hr =>
      absurd hr (Multiset.notMem_zero r)
    obtain ⟨ts, hts, hlen, hall⟩ := Table.exists_overwrites hnone hnews
    rw [List.length_map] at hlen
    exact ⟨ts, (metricsRuns_eq _ _).trans hts, hlen, fun t ht => passesChecks_of_rows (hall t ht)⟩

/-- The orders of two days, read on the second of them and 91 days later. -/
def twoMetricsRuns : List MetricsRun :=
  [⟨threeOrders.rows, twoCustomers, 1, 0⟩, ⟨threeOrders.rows, twoCustomers, 92, 0⟩]

theorem customerMetrics_consistent_twoRuns :
    (∀ run ∈ twoMetricsRuns, run.rows.map CustomerMetrics.customerId =
        run.customers.rows.map SilverCustomer.customerId ∧
      (run.rows.map CustomerMetrics.customerId).Nodup ∧
      ∀ r ∈ run.rows, ConsistentRow run.orders run.today r) ∧
    ∃ ts, metricsRuns (.empty : Table (customerMetricsSpec murmurText)) twoMetricsRuns = some ts ∧
      ts.length = twoMetricsRuns.length ∧ ∀ t ∈ ts, PassesChecks t.rows := by
  apply customerMetrics_consistent
  have hsecond : Admissible ⟨threeOrders.rows, twoCustomers, 1, 0⟩ :=
    ⟨by decide, by decide, by decide, by decide, by decide, by decide⟩
  have hlater : Admissible ⟨threeOrders.rows, twoCustomers, 92, 0⟩ :=
    { hsecond with
      notAfter := fun o ho d hd =>
        (hsecond.notAfter o ho d hd).trans (show (1 : Int) ≤ 92 by omega) }
  exact List.forall_mem_cons.2 ⟨hsecond, List.forall_mem_singleton.2 hlater⟩

end Lakehouse.Verify
