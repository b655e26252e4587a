import Lakehouse.Verify.DbtBuild
import Lakehouse.Verify.LakeRounds

/-!
# The dbt build over the runs of the lake

The Gold of the Airflow path. In every state of every run of the lake nothing but an overflow can
break the build (`buildable_iff`), and what it makes of Silver shows what Silver shows. Once Silver
shows the source as it is, no sum overflows unless the orders of the source themselves do
(`withinLimits_shown`), and the whole of both tables is that of the source: a model replaces its
table, so no month is left out.
-/

namespace Lakehouse.Verify

open Lib Source Batch Demo

/-! ## Limits of the source -/

/-- The totals of all orders together are a `DECIMAL(18,2)`, and there are fewer than `10 ^ 10`. -/
structure OrdersFit (db : Database) : Prop where
  total : cents db.orders < 10 ^ 18
  few : db.orders.length < 10 ^ 10

theorem sumFits_of_units {s : Multiset (Option (Dec 18))} (h : (s.map units).sum.natAbs < 10 ^ 18) :
    SumFits s := by
  intro n hn
  have hval := getD_sqlSum (decimals s)
  rw [Option.mem_def.1 hn, decimals, Multiset.map_map] at hval
  have heq : n = (s.map units).sum := hval
  rwa [heq]

section Limits

variable {db : Database} (hsound : Sound db) (hadmitted : ∀ i ∈ db.items, Admitted i)
include hsound hadmitted

theorem totalAmount_nonneg : ∀ o ∈ db.orders, 0 ≤ o.totalAmount.val := by
  intro o ho
  rw [← orderCents_eq_total hsound ho]
  exact orderCents_nonneg (fun i hi => hadmitted i (Multiset.mem_coe.1 hi)) _

/-- Some orders of the source fit where all of them do. -/
theorem OrdersFit.subset (hfits : OrdersFit db) {os : Multiset OrderRow}
    (hle : os ≤ (db.orders : Multiset OrderRow)) :
    (cents os).natAbs < 10 ^ 18 ∧ os.card < 10 ^ 10 := by
  have hnonneg : ∀ s ≤ (db.orders : Multiset OrderRow), 0 ≤ cents s := by
    intro s hs
    refine Multiset.sum_nonneg fun n hn => ?_
    obtain ⟨o, ho, rfl⟩ := Multiset.mem_map.1 hn
    exact totalAmount_nonneg hsound hadmitted o (Multiset.mem_coe.1 (Multiset.mem_of_le hs ho))
  obtain ⟨rest, hrest⟩ := Multiset.le_iff_exists_add.1 hle
  have hsplit : cents db.orders = cents os + cents rest := by
    rw [cents, hrest, Multiset.map_add, Multiset.sum_add, cents, cents]
  have hrestLe : rest ≤ (db.orders : Multiset OrderRow) := by
    rw [hrest]
    exact Multiset.le_add_left _ _
  have hpos := hnonneg os hle
  have hposRest := hnonneg rest hrestLe
  have htotal := hfits.total
  refine ⟨by omega, (Multiset.card_le_card hle).trans_lt ?_⟩
  rw [Multiset.coe_card]
  exact hfits.few

variable {silverOrders : Multiset SilverOrder} {items : Multiset SilverOrderItem}

/-- The sum of the items of an order is its total. -/
theorem perOrder_fits (hitems : orderItems.Shows (items.map SilverOrderItem.toLineItem) db.items) :
    ∀ g ∈ groupBy (fun i => i.orderId) items, SumFits (g.2.map fun i => i.lineTotal) := by
  obtain ⟨tag, -, hrows⟩ := hitems
  rintro ⟨k, g⟩ hg
  obtain ⟨⟨r, hr, rfl⟩, rfl⟩ := (mem_groupBy _).1 hg
  have hitem := Multiset.mem_map_of_mem SilverOrderItem.toLineItem hr
  rw [hrows] at hitem
  obtain ⟨i, hi, hrow⟩ := Multiset.mem_map.1 hitem
  obtain ⟨o, ho, hid⟩ := hsound.itemOrder i (Multiset.mem_coe.1 hi)
  have hk : r.orderId = some o.orderId.toInt.repr := by
    rw [hid]
    exact (congrArg LineItem.orderId hrow).symm
  have htotals : (items.filter fun x => x.orderId = r.orderId).map (fun x => x.lineTotal) =
      (itemsWithId db.items (some o.orderId.toInt.repr)).map fun x => castPrecision 18 x.cents := by
    rw [hk]
    calc _ = ((items.map SilverOrderItem.toLineItem).filter fun x =>
            x.orderId = some o.orderId.toInt.repr).map LineItem.lineTotal := by
          rw [Multiset.filter_map, Multiset.map_map]
          rfl
      _ = _ := by
          rw [hrows, Multiset.filter_map, Multiset.map_map]
          rfl
  apply sumFits_of_units
  rw [htotals, units_lineTotals hadmitted (cents_lt hsound hadmitted),
    orderCents_eq_total hsound ho]
  have hlt := o.totalAmount.property
  omega

/-- **No sum overflows** once Silver shows orders that fit. -/
theorem withinLimits_shown (hfits : OrdersFit db) (horders : orders.Shows silverOrders db.orders)
    (hitems : orderItems.Shows (items.map SilverOrderItem.toLineItem) db.items) :
    WithinLimits silverOrders items := by
  obtain ⟨tag, htag⟩ := horders.revenueOrders
  constructor
  · exact perOrder_fits hsound hadmitted hitems
  · rintro ⟨k, g⟩ hg
    obtain ⟨-, rfl⟩ := (mem_groupBy _).1 hg
    have hrows : orderRevenues (revenueOrders silverOrders) items =
        (revenueRows db).map (revenueRow items tag) := by
      rw [htag, orderRevenues_eq (Multiset.forall_mem_map_iff.2 fun _ _ => rfl), Multiset.map_map]
      rfl
    have hgroup : ∃ os ≤ (db.orders : Multiset OrderRow),
        (orderRevenues (revenueOrders silverOrders) items).filter
          (fun r => (r.reportDate, r.currency) = k) = os.map (revenueRow items tag) := by
      rw [hrows, Multiset.filter_map]
      exact ⟨_, (Multiset.filter_le _ _).trans (revenueRows_le db), rfl⟩
    obtain ⟨os, hos, hgroup⟩ := hgroup
    obtain ⟨hcents, hfew⟩ := hfits.subset hsound hadmitted hos
    rw [hgroup, Multiset.card_map]
    refine ⟨sumFits_of_units ?_, hfew⟩
    have hsum : (((os.map (revenueRow items tag)).map OrderRevenue.lineRevenue).map units).sum =
        cents os := by
      rw [Multiset.map_map, Multiset.map_map]
      refine congrArg Multiset.sum (Multiset.map_congr rfl fun o ho => ?_)
      obtain ⟨d, hd, hval⟩ := lineRevenue_shown hitems hsound hadmitted
        (Multiset.mem_coe.1 (Multiset.mem_of_le hos ho)) (tag o).1 (tag o).2
      rw [Function.comp_apply, Function.comp_apply, revenueRow, hd]
      exact hval
    rwa [hsum]
  · rintro ⟨k, g⟩ hg
    obtain ⟨-, rfl⟩ := (mem_groupBy _).1 hg
    have hgroup : ∃ os ≤ (db.orders : Multiset OrderRow),
        (revenueOrders silverOrders).filter (fun o => o.customerId = k) =
          os.map fun o => orders.silverRow (tag o).1 (tag o).2 o := by
      rw [htag, Multiset.filter_map]
      exact ⟨_, (Multiset.filter_le _ _).trans (revenueRows_le db), rfl⟩
    obtain ⟨os, hos, hgroup⟩ := hgroup
    obtain ⟨hcents, hfew⟩ := hfits.subset hsound hadmitted hos
    rw [hgroup, Multiset.card_map]
    refine ⟨sumFits_of_units ?_, hfew⟩
    rw [Multiset.map_map, Multiset.map_map]
    exact hcents

end Limits

/-! ## Figures -/

/-- Rows that differ in `computed_at` alone show the same. -/
theorem ShowsMetrics.of_figures {rows rows' : Multiset CustomerMetrics} {os cs : Database}
    {today : Int} (h : ShowsMetrics rows os cs today)
    (hfigures : rows'.map CustomerMetrics.figures = rows.map CustomerMetrics.figures) :
    ShowsMetrics rows' os cs today := by
  constructor
  · rw [← h.customers]
    have hids := congrArg (Multiset.map CustomerMetrics.customerId) hfigures
    rwa [Multiset.map_map, Multiset.map_map] at hids
  · intro m' hm'
    have hmem := Multiset.mem_map_of_mem CustomerMetrics.figures hm'
    rw [hfigures] at hmem
    obtain ⟨m, hm, heq⟩ := Multiset.mem_map.1 hmem
    obtain ⟨c, hc, hid, hof⟩ := h.figures m hm
    refine ⟨c, hc, (congrArg CustomerMetrics.customerId heq).symm.trans hid, ?_⟩
    have hof' : MetricsOf (placed os c.customerId) today m.figures := { hof with }
    rw [heq] at hof'
    exact { hof' with }

/-- What the rows show does not depend on when they were computed. -/
theorem ShowsRevenue.of_figures {rows rows' : Multiset DailyRevenue} {db : Database}
    (h : ShowsRevenue rows db)
    (hfigures : rows'.map DailyRevenue.figures = rows.map DailyRevenue.figures) :
    ShowsRevenue rows' db := by
  have hdates : rows'.map DailyRevenue.reportDate = rows.map DailyRevenue.reportDate := by
    have hmap := congrArg (Multiset.map DailyRevenue.reportDate) hfigures
    rwa [Multiset.map_map, Multiset.map_map] at hmap
  refine ⟨hdates ▸ h.nodup, fun day => hdates ▸ h.days day, fun r' hr' => ?_⟩
  have hmem := Multiset.mem_map_of_mem DailyRevenue.figures hr'
  rw [hfigures] at hmem
  obtain ⟨r, hr, heq⟩ := Multiset.mem_map.1 hmem
  obtain ⟨day, hday, hof⟩ := h.figures r hr
  refine ⟨day, (congrArg DailyRevenue.reportDate heq).symm.trans hday, ?_⟩
  have hof' : RevenueOf db day r.figures := { hof with }
  rw [heq] at hof'
  exact { hof' with }

/-! ## Every run -/

section Runs

variable {bucketHash : String → Nat} {p : Snapshot} {s : Lake bucketHash}

/-- **Nothing but an overflow breaks the build** on rows of the source. -/
theorem buildable_iff {silver : Silver bucketHash}
    (hrows : ∀ o ∈ silver.orders.rows, ∃ a op now, o = orders.silverRow op now a)
    (hids : (silver.customers.rows.map SilverCustomer.customerId).Nodup) :
    Buildable silver ↔ NoOverflow silver.orders.rows silver.orderItems.rows := by
  refine ⟨fun h => h.noOverflow, fun hfits => ⟨hfits, ?_, ?_, ?_⟩⟩
  · refine forall_revenueOrders fun o ho => ?_
    obtain ⟨a, op, now, rfl⟩ := hrows o ho
    rfl
  · rintro ⟨k, g⟩ hg
    obtain ⟨r, hr⟩ := Multiset.exists_mem_of_ne_zero (group_ne_zero _ hg)
    refine ⟨r, hr, ?_⟩
    obtain ⟨⟨o, joined⟩, hjoined, rfl⟩ := Multiset.mem_map.1 (mem_of_mem_group _ hg hr).1
    obtain ⟨a, op, now, rfl⟩ := hrows o
      (Multiset.mem_filter.1 ((mem_leftJoin _ _).1 hjoined).1).1
    rw [← lineRevenue_eq, Dbt.lineRevenue, Option.isSome_or]
    exact Bool.or_true _
  · exact Multiset.nodup_of_le (Multiset.map_le_map (Multiset.filter_le _ _)) hids

/-- The tables a build leaves when no sum overflows. -/
theorem dbtBuild_gold {silver : Silver bucketHash}
    (hfits : NoOverflow silver.orders.rows silver.orderItems.rows) (clock : Dbt.Clock)
    (gold : Dbt.Gold) :
    Dbt.dailyRevenue silver.orders.rows silver.orderItems.rows clock.dailyRevenue =
        some (Dbt.dbtBuild clock silver gold).gold.dailyRevenue ∧
      Dbt.customerMetrics silver.orders.rows silver.customers.rows clock.today
        clock.customerMetrics = some (Dbt.dbtBuild clock silver gold).gold.customerMetrics := by
  have hid := (ordersSpec_keys silver.orders).1
  obtain ⟨daily, hdaily⟩ := (dailyRevenue_succeeds_iff hid clock.dailyRevenue).2
    ⟨hfits.perOrder, hfits.perDay⟩
  obtain ⟨metrics, hmetrics⟩ := (customerMetrics_succeeds_iff hid silver.customers.rows
    clock.today clock.customerMetrics).2 hfits.perCustomer
  simp only [Dbt.dbtBuild, Dbt.dbtBuildWith, Dbt.buildModel, hdaily, hmetrics, and_self]

theorem noOverflow_of_withinLimits {orders : Multiset SilverOrder}
    {items : Multiset SilverOrderItem} (h : WithinLimits orders items) : NoOverflow orders items :=
  ⟨h.perOrder, fun g hg => (h.perDay g hg).1, fun g hg => (h.perCustomer g hg).1⟩

/-- With few enough orders, sums that do not overflow are within all limits. -/
theorem withinLimits_of_noOverflow {orders : Multiset SilverOrder}
    {items : Multiset SilverOrderItem} (hfits : NoOverflow orders items)
    (hfew : orders.card < 10 ^ 10) : WithinLimits orders items := by
  have hrevenue : (revenueOrders orders).card < 10 ^ 10 :=
    (Multiset.card_le_card (Multiset.filter_le _ _)).trans_lt hfew
  have hrows : (orderRevenues (revenueOrders orders) items).card = (revenueOrders orders).card := by
    have hdates := congrArg Multiset.card (orderRevenues_dates (revenueOrders orders) items)
    rwa [Multiset.card_map, Multiset.card_map] at hdates
  refine ⟨hfits.perOrder, fun g hg => ⟨hfits.perDay g hg, ?_⟩,
    fun g hg => ⟨hfits.perCustomer g hg, ?_⟩⟩
  · obtain ⟨-, hrest⟩ := (mem_groupBy _).1 hg
    rw [hrest]
    exact (Multiset.card_le_card (Multiset.filter_le _ _)).trans_lt (hrows ▸ hrevenue)
  · obtain ⟨-, hrest⟩ := (mem_groupBy _).1 hg
    rw [hrest]
    exact (Multiset.card_le_card (Multiset.filter_le _ _)).trans_lt hrevenue

/-- **The build over every run.** Whatever traffic and whichever writes came before, as long as
`ts_ms` tells the last change of each row: the build is green exactly when no sum overflows, and
then its `customer_metrics` shows the states of the source that Silver shows. -/
theorem dbtBuild_over_runs (hrun : LakeRun (Lake.start p) s) (htimes : TimesTell s.source.commits)
    (clock : Dbt.Clock) (gold : Dbt.Gold) :
    ((Dbt.dbtBuild clock s.silver gold).exitCode = 0 ↔
      NoOverflow s.silver.orders.rows s.silver.orderItems.rows) ∧
    (NoOverflow s.silver.orders.rows s.silver.orderItems.rows →
      s.silver.orders.rows.card < 10 ^ 10 →
      ShowsMetrics (Dbt.dbtBuild clock s.silver gold).gold.customerMetrics
        (s.shown .cdcOrders).db (s.shown .cdcCustomers).db clock.today) := by
  have hs := hrun.sound (lakeSound_start p)
  have hshows := hrun.shows (lakeSound_start p) (lakeShows_start p) htimes
  have hrows : ∀ o ∈ s.silver.orders.rows, ∃ a op now, o = orders.silverRow op now a := by
    intro o ho
    obtain ⟨a, -, op, now, hrow⟩ := hs.silverOrders o ho
    exact ⟨a, op, now, hrow⟩
  have hids := hshows.silverCustomers.keys_nodup (s.shown .cdcCustomers).mirrors_customers.nodup
  refine ⟨(dbtBuild_exitCode _ _ _).trans (buildable_iff hrows hids),
    fun hfits hfew => ?_⟩
  obtain ⟨rows, hrows, hfigures⟩ := customerMetrics_eq (withinLimits_of_noOverflow hfits hfew)
    (ordersSpec_keys s.silver.orders).1 s.silver.customers.rows clock.today 0 clock.customerMetrics
  rw [(dbtBuild_gold hfits clock gold).2] at hrows
  obtain rfl := Option.some.inj hrows
  exact (showsMetrics_rows hshows.silverOrders hshows.silverCustomers clock.today 0).of_figures
    hfigures

theorem ordersFit_confirmed : OrdersFit confirmedLake.source.db := ⟨by decide, by decide⟩

theorem dbtBuild_over_runs_confirmed : ∃ s : Lake murmurText,
    LakeRun (Lake.start sampleSnapshot) s ∧
      (Dbt.dbtBuild ⟨0, 0, 0⟩ s.silver ⟨0, 0⟩).exitCode = 0 ∧
      ShowsMetrics (Dbt.dbtBuild ⟨0, 0, 0⟩ s.silver ⟨0, 0⟩).gold.customerMetrics
        (s.shown .cdcOrders).db (s.shown .cdcCustomers).db 0 := by
  obtain ⟨s, hjobs⟩ := exists_confirmed_batch
  have hrun := hjobs.lakeRun confirmedLake_run
  have hquiet : QuietRun (Lake.start sampleSnapshot) confirmedLake :=
    .traffic .start confirmed_segment
  have hsilver := hquiet.silver_shows timesTell_confirmed ordered_batch hjobs (by decide)
  have htimes : TimesTell s.source.commits := hjobs.source_eq ▸ timesTell_confirmed
  have hfits : OrdersFit s.source.db := hjobs.source_eq ▸ ordersFit_confirmed
  have hno := noOverflow_of_withinLimits (withinLimits_shown s.source.inv.sound
    s.source.inv.admitted hfits hsilver.orders hsilver.items)
  have hfew : s.silver.orders.rows.card < 10 ^ 10 := by
    obtain ⟨tag, -, hrows⟩ := hsilver.orders
    rw [hrows, Multiset.card_map, Multiset.coe_card]
    exact hfits.few
  obtain ⟨hgreen, hshows⟩ := dbtBuild_over_runs hrun htimes ⟨0, 0, 0⟩ ⟨0, 0⟩
  exact ⟨s, hrun, hgreen.2 hno, hshows hno hfew⟩

/-- **The build over a source that is shown**: it is green, and Gold is that of the source. -/
theorem dbtBuild_of_silverShows (h : SilverShowsSource s) (hfits : OrdersFit s.source.db)
    (clock : Dbt.Clock) (gold : Dbt.Gold) :
    (Dbt.dbtBuild clock s.silver gold).exitCode = 0 ∧
      ShowsRevenue (Dbt.dbtBuild clock s.silver gold).gold.dailyRevenue s.source.db ∧
      ShowsMetrics (Dbt.dbtBuild clock s.silver gold).gold.customerMetrics s.source.db s.source.db
        clock.today := by
  obtain ⟨hsound, hadmitted⟩ := And.intro s.source.inv.sound s.source.inv.admitted
  have hid := (ordersSpec_keys s.silver.orders).1
  have hlimits := withinLimits_shown hsound hadmitted hfits h.orders h.items
  have hno := noOverflow_of_withinLimits hlimits
  have hrows : ∀ o ∈ s.silver.orders.rows, ∃ a op now, o = orders.silverRow op now a := by
    intro o ho
    obtain ⟨a, -, op, -, now, hrow⟩ := h.orders.source_row o ho
    exact ⟨a, op, now, hrow⟩
  have hids := h.customers.keys_nodup s.source.mirrors_customers.nodup
  obtain ⟨hdaily, hmetrics⟩ := dbtBuild_gold hno clock gold
  refine ⟨(dbtBuild_exitCode _ _ _).2 ((buildable_iff hrows hids).2 hno), ?_, ?_⟩
  · obtain ⟨rows, hrows, hfigures⟩ := dailyRevenue_eq hlimits hid 0 clock.dailyRevenue
    rw [hdaily] at hrows
    obtain rfl := Option.some.inj hrows
    exact (showsRevenue_rows h.orders h.items hsound hadmitted s.source.mirrors_customers.nodup
      0).of_figures hfigures
  · obtain ⟨rows, hrows, hfigures⟩ := customerMetrics_eq hlimits hid s.silver.customers.rows
      clock.today 0 clock.customerMetrics
    rw [hmetrics] at hrows
    obtain rfl := Option.some.inj hrows
    exact (showsMetrics_rows h.orders h.customers clock.today 0).of_figures hfigures

end Runs

end Lakehouse.Verify
