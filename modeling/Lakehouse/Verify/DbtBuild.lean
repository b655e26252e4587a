import Lakehouse.Dbt.Build
import Lakehouse.Verify.NewCustomers

/-!
# When the dbt build is green

A model succeeds exactly when none of its sums overflows (`dailyRevenue_succeeds_iff`,
`customerMetrics_succeeds_iff`). Of the tests, the grain of `daily_revenue`, its currency and the
reference to `silver.customers` hold of the rows of every query that succeeds; the others say
something about Silver (`dbtBuild_green_iff`).
-/

namespace Lakehouse.Verify

open Lib Batch

/-! ## Sums that succeed -/

/-- A sum and its cast succeed exactly when the sum fits. -/
theorem sum_succeeds_iff (s : Multiset (Option (Dec 18))) :
    (∃ sum revenue, Dbt.trinoSum s = some sum ∧ Dbt.trinoCast 18 sum = some revenue) ↔
      SumFits s := by
  constructor
  · rintro ⟨sum, revenue, hsum, hcast⟩ n hn
    rw [Dbt.trinoSum, hn] at hsum
    obtain ⟨d, hd, rfl⟩ := Option.map_eq_some_iff.1 hsum
    obtain ⟨e, he, -⟩ := Option.map_eq_some_iff.1 hcast
    rw [castPrecision_eq_some hd] at he
    exact castPrecision_eq_some he ▸ e.property
  · intro h
    obtain ⟨sum, hsum, hval, hfits⟩ := trinoSum_eq_sparkSum h
    exact ⟨sum, _, hsum, trinoCast_eq_castTo hval hfits⟩

theorem sqlCount_pos {α : Type} {s : Multiset (Option α)} :
    0 < sqlCount s ↔ ∃ x ∈ s, x.isSome = true := Multiset.countP_pos

/-- A sum is null where it has nothing to add. -/
theorem trinoSum_isSome {s : Multiset (Option (Dec 18))} {sum : Option (Dec 38)}
    (h : Dbt.trinoSum s = some sum) : sum.isSome = true ↔ 0 < sqlCount s := by
  have hvalues : (∃ x ∈ decimals s, x.isSome = true) ↔ ∃ x ∈ s, x.isSome = true := by
    simp [decimals]
  have hsome : (sqlSum (decimals s)).isSome = true ↔ _ := aggregate_isSome _ (decimals s)
  rw [sqlCount_pos, ← hvalues, ← hsome]
  unfold Dbt.trinoSum at h
  cases hsql : sqlSum (decimals s) with
  | none =>
    rw [hsql] at h
    obtain rfl := Option.some.inj h
    exact Iff.rfl
  | some n =>
    rw [hsql] at h
    obtain ⟨d, -, rfl⟩ := Option.map_eq_some_iff.1 h
    exact Iff.rfl

theorem trinoCast_isSome {p q : Nat} {x : Option (Dec p)} {y : Option (Dec q)}
    (h : Dbt.trinoCast q x = some y) : y.isSome = x.isSome := by
  cases x with
  | none =>
    obtain rfl := Option.some.inj h
    rfl
  | some d =>
    obtain ⟨e, -, rfl⟩ := Option.map_eq_some_iff.1 h
    rfl

/-! ## Models that succeed -/

section Models

variable {orders : Multiset SilverOrder} {items : Multiset SilverOrderItem}

/-- The items are summed exactly when the sum of each order fits. -/
theorem orderItems_succeeds_iff : (∃ rows, Dbt.orderItems items = some rows) ↔
    ∀ g ∈ groupBy (fun i => i.orderId) items, SumFits (g.2.map fun i => i.lineTotal) := by
  constructor
  · rintro ⟨rows, hrows⟩ ⟨k, g⟩ hg
    obtain ⟨row, hrow⟩ := exists_of_collect hrows hg
    obtain ⟨sum, hsum, hrow⟩ := Option.bind_eq_some_iff.1 hrow
    obtain ⟨gross, hgross, -⟩ := Option.map_eq_some_iff.1 hrow
    exact (sum_succeeds_iff _).1 ⟨sum, gross, hsum, hgross⟩
  · intro h
    exact ⟨_, orderItems_eq h⟩

/-- `daily_revenue` succeeds when the sums of its orders and of its days do. -/
theorem dailyRevenue_succeeds_iff (hid : ∀ o ∈ orders, o.orderId.isSome = true) (now : Int) :
    (∃ rows, Dbt.dailyRevenue orders items now = some rows) ↔
      (∀ g ∈ groupBy (fun i => i.orderId) items, SumFits (g.2.map fun i => i.lineTotal)) ∧
      ∀ g ∈ groupBy (fun r => (r.reportDate, r.currency)) (orderRevenues (revenueOrders orders) items),
        SumFits (g.2.map OrderRevenue.lineRevenue) := by
  have hid' := forall_revenueOrders hid
  constructor
  · rintro ⟨rows, hrows⟩
    unfold Dbt.dailyRevenue at hrows
    rw [orders_eq] at hrows
    obtain ⟨orderItems, hitems, hrows⟩ := Option.bind_eq_some_iff.1 hrows
    obtain ⟨daily, hdaily, -⟩ := Option.map_eq_some_iff.1 hrows
    have hfits := orderItems_succeeds_iff.1 ⟨orderItems, hitems⟩
    refine ⟨hfits, fun g hg => ?_⟩
    obtain rfl := Option.some.inj (hitems.symm.trans (orderItems_eq hfits))
    -- a group of the job is a group of the joined rows
    unfold orderRevenues at hg
    rw [groupBy_map] at hg
    obtain ⟨⟨k, joined⟩, hjoined, rfl⟩ := Multiset.mem_map.1 hg
    obtain ⟨row, hrow⟩ := exists_of_collect hdaily hjoined
    obtain ⟨sum, hsum, hrow⟩ := Option.bind_eq_some_iff.1 hrow
    obtain ⟨revenue, hrevenue, -⟩ := Option.bind_eq_some_iff.1 hrow
    rw [lineRevenues_eq]
    exact (sum_succeeds_iff _).1 ⟨sum, revenue, hsum, hrevenue⟩
  · rintro ⟨hitems, hdays⟩
    obtain ⟨daily, hdaily, -⟩ := dbt_daily_measures hid' hdays 0
    unfold Dbt.dailyRevenue
    rw [orders_eq, orderItems_eq hitems, Option.bind_some, hdaily, Option.map_some]
    exact ⟨_, rfl⟩

/-- The model succeeds exactly when the sum of each customer fits. -/
theorem customerMetrics_succeeds_iff (hid : ∀ o ∈ orders, o.orderId.isSome = true)
    (customers : Multiset SilverCustomer) (today now : Int) :
    (∃ rows, Dbt.customerMetrics orders customers today now = some rows) ↔
      ∀ g ∈ groupBy SilverOrder.customerId (revenueOrders orders),
        SumFits (g.2.map SilverOrder.totalAmount) := by
  have hid' := forall_revenueOrders hid
  constructor
  · rintro ⟨rows, hrows⟩ ⟨k, g⟩ hg
    unfold Dbt.customerMetrics at hrows
    rw [orders_eq] at hrows
    obtain ⟨stats, hstats, -⟩ := Option.map_eq_some_iff.1 hrows
    obtain ⟨row, hrow⟩ := exists_of_collect hstats hg
    obtain ⟨sum, hsum, hrow⟩ := Option.bind_eq_some_iff.1 hrow
    obtain ⟨revenue, hrevenue, -⟩ := Option.bind_eq_some_iff.1 hrow
    exact (sum_succeeds_iff _).1 ⟨sum, revenue, hsum, hrevenue⟩
  · intro h
    obtain ⟨stats, hstats, -⟩ := dbt_stats_measures hid' h today
    unfold Dbt.customerMetrics
    rw [orders_eq, hstats, Option.map_some]
    exact ⟨_, rfl⟩

end Models

/-! ## Tests that pass -/

section Tests

variable {ρ α : Type} {column : ρ → Option α} {rows : Multiset ρ}

/-- What a `not_null` test asks. -/
theorem notNull_passes : Dbt.notNull column rows = 0 ↔ ∀ r ∈ rows, (column r).isSome = true := by
  rw [Dbt.notNull, Multiset.card_eq_zero, Multiset.filter_eq_nil]
  simp only [Option.isSome_iff_ne_none]

/-- What a `unique` test asks. -/
theorem unique_passes [DecidableEq α] : Dbt.unique column rows = 0 ↔
    ((rows.map column).filter fun v => v ≠ none).Nodup := by
  rw [Dbt.unique, Multiset.card_eq_zero, Multiset.filter_eq_nil, Multiset.nodup_iff_count_le_one]
  constructor
  · intro h v
    by_cases hv : v ∈ (rows.map column).filter fun v => v ≠ none
    · exact not_lt.1 (h v (Multiset.mem_dedup.2 hv))
    · rw [Multiset.count_eq_zero_of_notMem hv]
      exact zero_le_one
  · exact fun h v _ => not_lt.2 (h v)

/-- What a `relationships` test asks. -/
theorem relationships_passes [DecidableEq α] {parent : Multiset (Option α)} :
    Dbt.relationships column parent rows = 0 ↔
      ∀ r ∈ rows, (column r).isSome = true → column r ∈ parent := by
  rw [Dbt.relationships, Multiset.card_eq_zero, Multiset.filter_eq_nil]
  simp only [Option.isSome_iff_ne_none, not_and_not_right]

/-- What `assert_daily_revenue_unique_grain` asks. -/
theorem uniqueGrain_passes {rows : Multiset DailyRevenue} :
    Dbt.assertDailyRevenueUniqueGrain rows = 0 ↔
      (rows.map fun r => (r.reportDate, r.currency)).Nodup := by
  rw [Dbt.assertDailyRevenueUniqueGrain, Multiset.card_eq_zero, Multiset.filter_eq_nil,
    Multiset.nodup_iff_count_le_one]
  have hcount : ∀ k, (rows.filter fun r => (r.reportDate, r.currency) = k).card =
      (rows.map fun r => (r.reportDate, r.currency)).count k := by
    intro k
    rw [Multiset.count_map]
    exact congrArg _ (Multiset.filter_congr fun _ _ => eq_comm)
  constructor
  · intro h k
    by_cases hk : k ∈ rows.map fun r => (r.reportDate, r.currency)
    · rw [← hcount]
      exact not_lt.1 (h (k, _) ((mem_groupBy _).2 ⟨Multiset.mem_map.1 hk, rfl⟩))
    · rw [Multiset.count_eq_zero_of_notMem hk]
      exact zero_le_one
  · rintro h ⟨k, g⟩ hg
    obtain ⟨-, rfl⟩ := (mem_groupBy _).1 hg
    rw [hcount]
    exact not_lt.2 (h k)

end Tests

/-! ## The rows that are tested -/

section Rows

variable {orders : Multiset SilverOrder} {items : Multiset SilverOrderItem}

/-- One row for each day and currency, with a revenue where an order has one. -/
theorem dbt_dailyRevenue_groups {now : Int} {rows : Multiset DailyRevenue}
    (h : Dbt.dailyRevenue orders items now = some rows) :
    (rows.map fun r => ((r.reportDate, r.currency), r.netRevenue.isSome)) =
      (groupBy (fun r => (r.reportDate, r.currency)) (orderRevenues (revenueOrders orders) items)).map
        fun g => (g.1, decide (0 < sqlCount (g.2.map OrderRevenue.lineRevenue))) := by
  unfold Dbt.dailyRevenue at h
  rw [orders_eq] at h
  obtain ⟨orderItems, hitems, h⟩ := Option.bind_eq_some_iff.1 h
  obtain ⟨daily, hdaily, rfl⟩ := Option.map_eq_some_iff.1 h
  obtain rfl := Option.some.inj
    (hitems.symm.trans (orderItems_eq (orderItems_succeeds_iff.1 ⟨orderItems, hitems⟩)))
  have hgroups : (daily.map fun d => ((d.reportDate, d.currency), d.netRevenue.isSome)) =
      (groupBy (fun r => (days r.1.createdAt, some (r.1.currency.getD "USD")))
        (leftJoin SilverOrder.orderId OrderItems.orderId (revenueOrders orders)
          (orderItemsOf items))).map
            fun g => (g.1, decide (0 < sqlCount (g.2.map Dbt.lineRevenue))) := by
    apply map_of_collect hdaily
    rintro ⟨k, g⟩ - row hrow
    obtain ⟨sum, hsum, hrow⟩ := Option.bind_eq_some_iff.1 hrow
    obtain ⟨revenue, hrevenue, hrow⟩ := Option.bind_eq_some_iff.1 hrow
    obtain ⟨quotient, -, hrow⟩ := Option.bind_eq_some_iff.1 hrow
    obtain ⟨avg, -, rfl⟩ := Option.map_eq_some_iff.1 hrow
    have hnet : revenue.isSome = decide (0 < sqlCount (g.map Dbt.lineRevenue)) := by
      rw [trinoCast_isSome hrevenue, Bool.eq_iff_iff, decide_eq_true_iff]
      exact trinoSum_isSome hsum
    exact congrArg (Prod.mk k) hnet
  calc _ = ((leftJoin Dbt.Daily.reportDate FirstOrders.reportDate daily
            (firstOrdersOf (revenueOrders orders))).map Prod.fst).map
              fun d => ((d.reportDate, d.currency), d.netRevenue.isSome) := by
        rw [Multiset.map_map, Multiset.map_map]
        rfl
    _ = _ := by
        rw [map_fst_leftJoin _ _ (firstOrdersOf_keys_nodup _), hgroups, orderRevenues, groupBy_map,
          Multiset.map_map]
        refine Multiset.map_congr rfl fun g _ => ?_
        rw [← lineRevenues_eq]
        rfl

/-- One row for each customer. -/
theorem dbt_customerMetrics_ids {customers : Multiset SilverCustomer} {today now : Int}
    {rows : Multiset CustomerMetrics}
    (h : Dbt.customerMetrics orders customers today now = some rows) :
    rows.map CustomerMetrics.customerId = Dbt.customers customers := by
  obtain ⟨stats, hstats, rfl⟩ := Option.map_eq_some_iff.1 h
  have hkeys : stats.map Dbt.OrderStats.customerId =
      (groupBy SilverOrder.customerId (Dbt.orders orders)).map Prod.fst := by
    apply map_of_collect hstats
    rintro ⟨k, g⟩ - row hrow
    obtain ⟨sum, -, hrow⟩ := Option.bind_eq_some_iff.1 hrow
    obtain ⟨revenue, -, hrow⟩ := Option.bind_eq_some_iff.1 hrow
    obtain ⟨quotient, -, hrow⟩ := Option.bind_eq_some_iff.1 hrow
    obtain ⟨avg, -, rfl⟩ := Option.map_eq_some_iff.1 hrow
    rfl
  have hunique : (stats.map Dbt.OrderStats.customerId).Nodup := by
    rw [hkeys]
    exact keys_groupBy_nodup _ _
  conv_rhs => rw [← map_fst_leftJoin id Dbt.OrderStats.customerId hunique (Dbt.customers customers)]
  rw [Multiset.map_map]
  rfl

end Rows

/-! ## The build -/

/-- The nodes of a model succeed and pass when all of them are answered, the query succeeds and
every test of its rows returns nothing. -/
theorem buildModel_ok {ρ : Type} {replies : String → Dbt.Reply} {name : String}
    {query : Option (Multiset ρ)} {tests : List (Dbt.Test ρ)} {table : Multiset ρ} :
    ((Dbt.buildModel replies name query tests table).2.all fun r => r.2.isOk) = true ↔
      (replies name = .answered ∧ ∀ test ∈ tests, replies test.1 = .answered) ∧
        ∃ rows, query = some rows ∧ ∀ test ∈ tests, test.2 rows = 0 := by
  have htest : ∀ reply n, (Dbt.testStatus reply n).isOk = true ↔ reply = .answered ∧ n = 0 := by
    intro reply n
    unfold Dbt.testStatus
    by_cases hreply : reply = .answered
    · by_cases hn : n = 0 <;> simp [hreply, hn, Dbt.Status.isOk]
    · simp [hreply, Dbt.Status.isOk]
  cases query with
  | none => simp [Dbt.buildModel, Dbt.Status.isOk]
  | some rows =>
    have hmodel : Dbt.Status.success.isOk = true := rfl
    cases hreply : replies name with
    | answered =>
      simp only [Dbt.buildModel, hreply, List.all_cons, hmodel, Bool.true_and, List.all_map,
        List.all_eq_true, Function.comp_apply, htest, Option.some.injEq, exists_eq_left', true_and]
      exact forall₂_and
    | lost => simp [Dbt.buildModel, hreply, Dbt.Status.isOk]
    | failed => simp [Dbt.buildModel, hreply, Dbt.Status.isOk]

/-- Of a query that Trino does not carry out the table stays as it was. -/
theorem buildModel_table {ρ : Type} (replies : String → Dbt.Reply) (name : String)
    (query : Option (Multiset ρ)) (tests : List (Dbt.Test ρ)) (table : Multiset ρ) :
    (Dbt.buildModel replies name query tests table).1 =
      if replies name = .failed then table
      else (Dbt.buildModel (fun _ => .answered) name query tests table).1 := by
  cases query with
  | none => simp [Dbt.buildModel]
  | some rows => cases hreply : replies name <;> simp [Dbt.buildModel, hreply]

/-- What a green build asks of Silver. -/
structure Buildable {bucketHash : String → Nat} (silver : Silver bucketHash) : Prop where
  noOverflow : NoOverflow silver.orders.rows silver.orderItems.rows
  dated : ∀ o ∈ revenueOrders silver.orders.rows, o.createdAt.isSome = true
  /-- Of the orders of each day and currency one has an amount. -/
  amounts : ∀ g ∈ groupBy (fun r => (r.reportDate, r.currency))
    (orderRevenues (revenueOrders silver.orders.rows) silver.orderItems.rows),
      ∃ r ∈ g.2, r.lineRevenue.isSome = true
  customerIds : (Dbt.customers silver.customers.rows).Nodup

section Build

variable {bucketHash : String → Nat} {silver : Silver bucketHash}

/-- What the tests of `daily_revenue` ask of Silver. -/
theorem dailyRevenueTests_pass {now : Int} {rows : Multiset DailyRevenue}
    (h : Dbt.dailyRevenue silver.orders.rows silver.orderItems.rows now = some rows) :
    (∀ test ∈ Dbt.dailyRevenueTests, test.2 rows = 0) ↔
      (∀ o ∈ revenueOrders silver.orders.rows, o.createdAt.isSome = true) ∧
      ∀ g ∈ groupBy (fun r => (r.reportDate, r.currency))
        (orderRevenues (revenueOrders silver.orders.rows) silver.orderItems.rows),
          ∃ r ∈ g.2, r.lineRevenue.isSome = true := by
  have hgroups := dbt_dailyRevenue_groups h
  have hkeys : rows.map (fun r => (r.reportDate, r.currency)) =
      ((orderRevenues (revenueOrders silver.orders.rows) silver.orderItems.rows).map
        fun r => (r.reportDate, r.currency)).dedup := by
    have hfst := congrArg (Multiset.map Prod.fst) hgroups
    rw [Multiset.map_map, Multiset.map_map] at hfst
    rw [← keys_groupBy]
    exact hfst
  have hrow : ∀ r ∈ rows,
      ∃ x ∈ orderRevenues (revenueOrders silver.orders.rows) silver.orderItems.rows,
        x.reportDate = r.reportDate ∧ x.currency = r.currency := by
    intro r hr
    have hmem := Multiset.mem_map_of_mem (fun r => (r.reportDate, r.currency)) hr
    rw [hkeys, Multiset.mem_dedup] at hmem
    obtain ⟨x, hx, hk⟩ := Multiset.mem_map.1 hmem
    exact ⟨x, hx, Prod.mk.inj hk⟩
  have hdates : (∀ r ∈ rows, r.reportDate.isSome = true) ↔
      ∀ o ∈ revenueOrders silver.orders.rows, o.createdAt.isSome = true := by
    have horders := orderRevenues_dates (revenueOrders silver.orders.rows) silver.orderItems.rows
    constructor
    · intro hdated o ho
      have hday := Multiset.mem_map_of_mem (fun o => days o.createdAt) ho
      rw [← horders] at hday
      obtain ⟨x, hx, hxday⟩ := Multiset.mem_map.1 hday
      have hkey := Multiset.mem_dedup.2
        (Multiset.mem_map_of_mem (fun x : OrderRevenue => (x.reportDate, x.currency)) hx)
      rw [← hkeys] at hkey
      obtain ⟨r, hr, hk⟩ := Multiset.mem_map.1 hkey
      have hsome := hdated r hr
      rwa [(Prod.mk.inj hk).1, hxday, days, Option.isSome_map] at hsome
    · intro hdated r hr
      obtain ⟨x, hx, hday, -⟩ := hrow r hr
      have hxday := Multiset.mem_map_of_mem OrderRevenue.reportDate hx
      rw [horders] at hxday
      obtain ⟨o, ho, hoday⟩ := Multiset.mem_map.1 hxday
      rw [← hday, ← hoday, days, Option.isSome_map]
      exact hdated o ho
  have hcurrency : ∀ r ∈ rows, r.currency.isSome = true := by
    intro r hr
    obtain ⟨x, hx, -, hk⟩ := hrow r hr
    obtain ⟨joined, -, rfl⟩ := Multiset.mem_map.1 hx
    rw [← hk]
    rfl
  have hnets : (∀ r ∈ rows, r.netRevenue.isSome = true) ↔
      ∀ g ∈ groupBy (fun r => (r.reportDate, r.currency))
        (orderRevenues (revenueOrders silver.orders.rows) silver.orderItems.rows),
          ∃ r ∈ g.2, r.lineRevenue.isSome = true := by
    have hall := congrArg (fun s => ∀ p ∈ s, p.2 = true) hgroups
    simp only [Multiset.forall_mem_map_iff, decide_eq_true_eq, sqlCount_pos, eq_iff_iff] at hall
    rw [hall]
    simp only [Multiset.mem_map, exists_exists_and_eq_and]
  have hgrain : (rows.map fun r => (r.reportDate, r.currency)).Nodup := by
    rw [hkeys]
    exact Multiset.nodup_dedup _
  simp only [Dbt.dailyRevenueTests, List.forall_mem_cons, notNull_passes, uniqueGrain_passes]
  rw [← hdates, ← hnets]
  constructor
  · rintro ⟨hdate, -, -, hnet, -⟩
    exact ⟨hdate, hnet⟩
  · rintro ⟨hdate, hnet⟩
    exact ⟨hdate, hcurrency, fun _ _ => rfl, hnet, hgrain, List.forall_mem_nil _⟩

/-- What the tests of `customer_metrics` ask of Silver. -/
theorem customerMetricsTests_pass {today now : Int} {rows : Multiset CustomerMetrics}
    (h : Dbt.customerMetrics silver.orders.rows silver.customers.rows today now = some rows) :
    (∀ test ∈ Dbt.customerMetricsTests silver.customers.rows, test.2 rows = 0) ↔
      (Dbt.customers silver.customers.rows).Nodup := by
  have hids := dbt_customerMetrics_ids h
  have hsource : ∀ r ∈ rows, r.customerId ∈ silver.customers.rows.map SilverCustomer.customerId := by
    intro r hr
    have hmem := Multiset.mem_map_of_mem CustomerMetrics.customerId hr
    rw [hids] at hmem
    exact Multiset.mem_of_le (Multiset.map_le_map (Multiset.filter_le _ _)) hmem
  have hsome : ∀ r ∈ rows, r.customerId.isSome = true := by
    intro r hr
    obtain ⟨c, hc, hk⟩ := Multiset.mem_map.1 (hsource r hr)
    rw [← hk]
    exact silver.customers.valid c hc
  have hvalues : (rows.map CustomerMetrics.customerId).filter (fun v => v ≠ none) =
      Dbt.customers silver.customers.rows := by
    rw [← hids, Multiset.filter_eq_self, Multiset.forall_mem_map_iff]
    exact fun r hr => Option.isSome_iff_ne_none.1 (hsome r hr)
  simp only [Dbt.customerMetricsTests, List.forall_mem_cons, notNull_passes, unique_passes,
    relationships_passes]
  rw [hvalues]
  constructor
  · rintro ⟨hunique, -⟩
    exact hunique
  · intro hunique
    exact ⟨hunique, hsome, fun r hr _ => hsource r hr, fun _ _ => rfl, fun _ _ => rfl,
      List.forall_mem_nil _⟩

theorem nodes_answered (replies : String → Dbt.Reply) (customers : Multiset SilverCustomer) :
    (∀ node ∈ Dbt.nodes, replies node = .answered) ↔
      (replies "daily_revenue" = .answered ∧
        ∀ test ∈ Dbt.dailyRevenueTests, replies test.1 = .answered) ∧
      replies "customer_metrics" = .answered ∧
        ∀ test ∈ Dbt.customerMetricsTests customers, replies test.1 = .answered := by
  have hnames : (Dbt.customerMetricsTests 0).map Prod.fst =
    (Dbt.customerMetricsTests customers).map Prod.fst := rfl
  rw [Dbt.nodes, hnames]
  simp only [List.forall_mem_append, List.forall_mem_cons, List.forall_mem_map]

/-- Every node succeeds exactly when all of them are answered and Silver is buildable. -/
theorem dbtBuildWith_ok_iff (replies : String → Dbt.Reply) (clock : Dbt.Clock)
    (silver : Silver bucketHash) (gold : Dbt.Gold) :
    ((Dbt.dbtBuildWith replies clock silver gold).results.all fun r => r.2.isOk) = true ↔
      (∀ node ∈ Dbt.nodes, replies node = .answered) ∧ Buildable silver := by
  have hid := (ordersSpec_keys silver.orders).1
  simp only [Dbt.dbtBuildWith, List.all_append, Bool.and_eq_true, buildModel_ok]
  rw [nodes_answered replies silver.customers.rows]
  constructor
  · rintro ⟨⟨hrevenueNodes, daily, hdaily, hdailyTests⟩, hmetricsNodes, metrics, hmetrics,
      hmetricsTests⟩
    obtain ⟨hperOrder, hperDay⟩ := (dailyRevenue_succeeds_iff hid _).1 ⟨daily, hdaily⟩
    obtain ⟨hdated, hamounts⟩ := (dailyRevenueTests_pass hdaily).1 hdailyTests
    exact ⟨⟨hrevenueNodes, hmetricsNodes⟩,
      ⟨hperOrder, hperDay, (customerMetrics_succeeds_iff hid _ _ _).1 ⟨metrics, hmetrics⟩⟩,
      hdated, hamounts, (customerMetricsTests_pass hmetrics).1 hmetricsTests⟩
  · rintro ⟨⟨hrevenueNodes, hmetricsNodes⟩, h⟩
    obtain ⟨daily, hdaily⟩ := (dailyRevenue_succeeds_iff hid clock.dailyRevenue).2
      ⟨h.noOverflow.perOrder, h.noOverflow.perDay⟩
    obtain ⟨metrics, hmetrics⟩ := (customerMetrics_succeeds_iff hid silver.customers.rows
      clock.today clock.customerMetrics).2 h.noOverflow.perCustomer
    exact ⟨⟨hrevenueNodes, daily, hdaily, (dailyRevenueTests_pass hdaily).2 ⟨h.dated, h.amounts⟩⟩,
      hmetricsNodes, metrics, hmetrics, (customerMetricsTests_pass hmetrics).2 h.customerIds⟩

theorem build_exitCode_eq_zero {build : Dbt.Build} :
    build.exitCode = 0 ↔ (build.results.all fun r => r.2.isOk) = true := by
  unfold Dbt.Build.exitCode
  split
  · next h => exact iff_of_true rfl h
  · next h => exact iff_of_false one_ne_zero h

/-- A build that Trino answers in part. -/
theorem dbtBuildWith_exitCode (replies : String → Dbt.Reply) (clock : Dbt.Clock)
    (silver : Silver bucketHash) (gold : Dbt.Gold) :
    (Dbt.dbtBuildWith replies clock silver gold).exitCode = 0 ↔
      (∀ node ∈ Dbt.nodes, replies node = .answered) ∧ Buildable silver :=
  build_exitCode_eq_zero.trans (dbtBuildWith_ok_iff replies clock silver gold)

theorem dbtBuild_exitCode (clock : Dbt.Clock) (silver : Silver bucketHash) (gold : Dbt.Gold) :
    (Dbt.dbtBuild clock silver gold).exitCode = 0 ↔ Buildable silver :=
  (dbtBuildWith_exitCode _ clock silver gold).trans (and_iff_right fun _ _ => rfl)

/-- Each table is built or stays by itself. -/
theorem dbtBuildWith_gold (replies : String → Dbt.Reply) (clock : Dbt.Clock)
    (silver : Silver bucketHash) (gold : Dbt.Gold) :
    (Dbt.dbtBuildWith replies clock silver gold).gold =
      ⟨if replies "daily_revenue" = .failed then gold.dailyRevenue
        else (Dbt.dbtBuild clock silver gold).gold.dailyRevenue,
      if replies "customer_metrics" = .failed then gold.customerMetrics
        else (Dbt.dbtBuild clock silver gold).gold.customerMetrics⟩ :=
  congrArg₂ Dbt.Gold.mk (buildModel_table ..) (buildModel_table ..)

/-- **The build is green exactly when Silver is buildable**: no sum overflows, every revenue order
has a date, every day of a currency has an amount and no customer has two rows. Nothing else that
the tests ask can fail. -/
theorem dbtBuild_green_iff (clock : Dbt.Clock) (silver : Silver bucketHash) (gold : Dbt.Gold) :
    (Dbt.dbtBuild clock silver gold).exitCode = 0 ↔ Buildable silver :=
  dbtBuild_exitCode clock silver gold

end Build

end Lakehouse.Verify
