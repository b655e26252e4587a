import Lakehouse.Demo.Dashboard
import Lakehouse.Verify.DbtRuns

/-!
# Totals of the dashboard

What the cold path shows once Gold has been built over a source that Silver shows: the number of the
revenue orders of the source and their amount, one bar for each day that has one, the share of the
customers without an order in the last 90 days, and ten customers of which none has less revenue
than one that is left out (`coldPath_shows_source`).
-/

namespace Lakehouse.Verify

open Lib Source Batch Demo

/-! ## Daily revenue -/

section Daily

variable {db : Database} {rows : Multiset DailyRevenue}

/-- The days of the rows add up to the revenue orders. -/
theorem ShowsRevenue.sum_days {M : Type*} [AddCommMonoid M] (h : ShowsRevenue rows db)
    (w : OrderRow → M) :
    (rows.map fun r => (((revenueRows db).filter fun o =>
      some (dateOf o.createdAt) = r.reportDate).map w).sum).sum =
        ((revenueRows db).map w).sum := by
  rw [sum_matching DailyRevenue.reportDate (fun o => some (dateOf o.createdAt)) w h.nodup,
    Multiset.filter_eq_self.2]
  intro o ho
  exact (h.days _).2 (placedOn_ne_zero ho)

theorem placedOn_eq (db : Database) (day : Int) :
    ((revenueRows db).filter fun o => some (dateOf o.createdAt) = some day) = placedOn db day :=
  Multiset.filter_congr fun _ _ => Option.some_inj

/-- The rows count the revenue orders. -/
theorem ShowsRevenue.sum_orderCount (h : ShowsRevenue rows db) :
    (rows.map DailyRevenue.orderCount).sum = (revenueRows db).card := by
  have hsum := h.sum_days fun _ => 1
  rw [Multiset.map_const', Multiset.sum_replicate, smul_eq_mul, mul_one] at hsum
  rw [← hsum]
  refine congrArg Multiset.sum (Multiset.map_congr rfl fun r hr => ?_)
  obtain ⟨day, hday, hof⟩ := h.figures r hr
  rw [hday, placedOn_eq, Multiset.map_const', Multiset.sum_replicate, smul_eq_mul, mul_one]
  exact hof.orderCount

/-- The net revenue of a day that fits. -/
theorem RevenueOf.netRevenue_val {day : Int} {r : DailyRevenue} (h : RevenueOf db day r)
    (hsound : Sound db) (hadmitted : ∀ i ∈ db.items, Admitted i) (hfits : OrdersFit db) :
    r.netRevenue.map (fun d => d.val) = some (cents (placedOn db day)) := by
  obtain ⟨hcents, hfew⟩ := hfits.subset hsound hadmitted (placedOn_le db day)
  obtain ⟨hgross, hnet, -⟩ := h.amounts hcents hfew
  rw [hnet, hgross]

/-- The rows sum the revenue orders. -/
theorem ShowsRevenue.sum_netRevenue (h : ShowsRevenue rows db) (hsound : Sound db)
    (hadmitted : ∀ i ∈ db.items, Admitted i) (hfits : OrdersFit db) :
    (rows.map fun r => (r.netRevenue.map fun d => d.val).getD 0).sum = cents (revenueRows db) := by
  rw [cents, ← h.sum_days]
  refine congrArg Multiset.sum (Multiset.map_congr rfl fun r hr => ?_)
  obtain ⟨day, hday, hof⟩ := h.figures r hr
  rw [hof.netRevenue_val hsound hadmitted hfits, hday, placedOn_eq]
  rfl

/-- There are rows exactly when there are revenue orders. -/
theorem ShowsRevenue.eq_zero_iff (h : ShowsRevenue rows db) : rows = 0 ↔ revenueRows db = 0 := by
  constructor
  · rintro rfl
    exact Multiset.card_eq_zero.1 h.sum_orderCount.symm
  · intro hnone
    refine Multiset.eq_zero_of_forall_notMem fun r hr => ?_
    obtain ⟨day, hday, -⟩ := h.figures r hr
    refine (h.days day).1 (hday ▸ Multiset.mem_map_of_mem _ hr) ?_
    rw [placedOn, hnone, Multiset.filter_zero]

end Daily

/-! ## Customers -/

section Customers

/-- The last revenue order of the customer is more than 90 days ago, by a day. -/
def churned (db : Database) (today : Int) (customerId : Int64) : Bool :=
  (sqlMax ((placed db customerId).map fun o => some (dateOf o.createdAt))).any fun last =>
    decide (90 < today - last)

variable {db : Database} {today : Int} {rows : List CustomerMetrics}

/-- A row is churned exactly when its customer is. -/
theorem MetricsOf.isChurned_eq {m : CustomerMetrics} {customerId : Int64}
    (h : MetricsOf (placed db customerId) today m) : m.isChurned = churned db today customerId := by
  rw [Bool.eq_iff_iff, h.isChurned, churned, ← h.lastOrderDate, Option.any_eq_true]
  simp [Option.mem_def]

/-- The rows are those of the customers. -/
theorem ShowsMetrics.ids (h : ShowsMetrics (rows : Multiset CustomerMetrics) db db today) :
    (rows.map CustomerMetrics.customerId).Perm
      (db.customers.map fun c => some c.customerId.toInt.repr) := by
  have hids := h.customers
  rwa [Multiset.map_coe, Multiset.map_coe, Multiset.coe_eq_coe] at hids

/-- As many rows are churned as customers are. -/
theorem ShowsMetrics.countP_isChurned
    (h : ShowsMetrics (rows : Multiset CustomerMetrics) db db today) :
    rows.countP CustomerMetrics.isChurned =
      db.customers.countP fun c => churned db today c.customerId := by
  -- both sides count the same ids
  let lost := fun id : Option String => decide (∃ c ∈ db.customers,
    id = some c.customerId.toInt.repr ∧ churned db today c.customerId = true)
  have hrows : rows.countP CustomerMetrics.isChurned =
      (rows.map CustomerMetrics.customerId).countP lost := by
    rw [List.countP_map]
    refine List.countP_congr fun m hm => ?_
    obtain ⟨c, hc, hid, hof⟩ := h.figures m (Multiset.mem_coe.2 hm)
    rw [hof.isChurned_eq, Function.comp_apply, decide_eq_true_iff]
    constructor
    · intro hlost
      exact ⟨c, hc, hid, hlost⟩
    · rintro ⟨c', -, hid', hlost⟩
      rw [hid, Option.some.injEq, repr_int64_inj] at hid'
      rwa [hid']
  have hcustomers : (db.customers.map fun c => some c.customerId.toInt.repr).countP lost =
      db.customers.countP fun c => churned db today c.customerId := by
    rw [List.countP_map]
    refine List.countP_congr fun c hc => ?_
    rw [Function.comp_apply, decide_eq_true_iff]
    constructor
    · rintro ⟨c', -, hid, hlost⟩
      rw [Option.some.injEq, repr_int64_inj] at hid
      rwa [hid]
    · intro hlost
      exact ⟨c, hc, rfl, hlost⟩
  rw [hrows, h.ids.countP_eq, hcustomers]

/-- No customer has two rows. -/
theorem ShowsMetrics.distinct (h : ShowsMetrics (rows : Multiset CustomerMetrics) db db today)
    (hunique : (db.customers.map CustomerRow.customerId).Nodup) :
    (rows.map CustomerMetrics.customerId).Nodup := by
  have hids := hunique.map (f := fun id : Int64 => some id.toInt.repr)
    fun id id' heq => repr_int64_inj.1 (Option.some.inj heq)
  rw [List.map_map] at hids
  exact h.ids.nodup_iff.2 hids

/-- The revenue of a customer is that of its orders. -/
theorem ShowsMetrics.revenue (h : ShowsMetrics (rows : Multiset CustomerMetrics) db db today)
    (hsound : Sound db) (hadmitted : ∀ i ∈ db.items, Admitted i) (hfits : OrdersFit db) :
    ∀ m ∈ rows, ∃ c ∈ db.customers, m.customerId = some c.customerId.toInt.repr ∧
      m.totalRevenue.val = cents (placed db c.customerId) := by
  intro m hm
  obtain ⟨c, hc, hid, hof⟩ := h.figures m (Multiset.mem_coe.2 hm)
  obtain ⟨hcents, hfew⟩ := hfits.subset hsound hadmitted (placed_le db c.customerId)
  exact ⟨c, hc, hid, (hof.amounts hcents hfew).1⟩

/-- The rows of the customers with the most revenue. -/
theorem ShowsMetrics.top (h : ShowsMetrics (rows : Multiset CustomerMetrics) db db today) :
    (topCustomers rows).length = min 10 db.customers.length ∧
      (topCustomers rows).Pairwise (fun m m' => m'.totalRevenue.val ≤ m.totalRevenue.val) ∧
      ((topCustomers rows).map CustomerMetrics.customerId).Sublist
        ((rows.mergeSort fun m m' => decide (m'.totalRevenue.val ≤ m.totalRevenue.val)).map
          CustomerMetrics.customerId) ∧
      ∀ m ∈ rows, m ∈ topCustomers rows ∨
        ∀ m' ∈ topCustomers rows, m.totalRevenue.val ≤ m'.totalRevenue.val := by
  have hsorted : (rows.mergeSort fun m m' =>
      decide (m'.totalRevenue.val ≤ m.totalRevenue.val)).Pairwise
        fun m m' => m'.totalRevenue.val ≤ m.totalRevenue.val := by
    refine (List.pairwise_mergeSort ?_ ?_ rows).imp of_decide_eq_true
    · intro a b c hab hbc
      exact decide_eq_true ((of_decide_eq_true hbc).trans (of_decide_eq_true hab))
    · intro a b
      simpa using le_total b.totalRevenue.val a.totalRevenue.val
  refine ⟨?_, hsorted.sublist (List.take_sublist _ _), (List.take_sublist _ _).map _,
    fun m hm => take_earlier hsorted (List.mem_mergeSort.2 hm)⟩
  have hlength := h.ids.length_eq
  rw [List.length_map, List.length_map] at hlength
  rw [topCustomers, List.length_take, List.length_mergeSort, hlength]

end Customers

/-! ## The cold path -/

/-- The metrics, the bars and the customers are those of the source. The total revenue is summed in
double precision, over amounts that add up to that of the source. -/
structure ColdPathShows {F : Type} (floats : Floats F) (metrics : ColdMetrics F) (db : Database)
    (today : Int) : Prop where
  totalRevenue : metrics.totalRevenue = floats.sum (metrics.daily.map DailyRevenue.netRevenue)
  amounts : (metrics.daily.map fun r => (r.netRevenue.map fun d => d.val).getD 0).sum =
    cents (revenueRows db)
  totalOrders : metrics.totalOrders = (revenueRows db).card
  churnRate : metrics.churnRate = floats.average
    (db.customers.countP fun c => churned db today c.customerId) db.customers.length
  inOrder : metrics.daily.Pairwise fun r r' =>
    ∃ day ∈ r.reportDate, ∃ day' ∈ r'.reportDate, day < day'
  bars : ∀ r ∈ metrics.daily, ∃ day, r.reportDate = some day ∧
    r.netRevenue.map (fun d => d.val) = some (cents (placedOn db day))
  days : ∀ day, placedOn db day ≠ 0 ↔ some day ∈ metrics.daily.map DailyRevenue.reportDate
  atMostTen : metrics.customers.length = min 10 db.customers.length
  distinct : (metrics.customers.map CustomerMetrics.customerId).Nodup
  ranked : metrics.customers.Pairwise fun m m' => m'.totalRevenue.val ≤ m.totalRevenue.val
  revenue : ∀ m ∈ metrics.customers, ∃ c ∈ db.customers,
    m.customerId = some c.customerId.toInt.repr ∧ m.totalRevenue.val = cents (placed db c.customerId)
  top : ∀ c ∈ db.customers,
    some c.customerId.toInt.repr ∈ metrics.customers.map CustomerMetrics.customerId ∨
      ∀ m ∈ metrics.customers, cents (placed db c.customerId) ≤ m.totalRevenue.val

section ColdPath

variable {F : Type} {floats : Floats F} {db : Database} {today : Int} {daily : List DailyRevenue}
  {customers : List CustomerMetrics}

/-- The bars are in the order of their days. -/
theorem ShowsRevenue.inOrder (h : ShowsRevenue (daily : Multiset DailyRevenue) db) :
    (daily.mergeSort fun r r' => dateLe r.reportDate r'.reportDate).Pairwise fun r r' =>
      ∃ day ∈ r.reportDate, ∃ day' ∈ r'.reportDate, day < day' := by
  have hle : (daily.mergeSort fun r r' => dateLe r.reportDate r'.reportDate).Pairwise
      fun r r' => dateLe r.reportDate r'.reportDate = true := by
    refine List.pairwise_mergeSort ?_ ?_ daily
    · intro a b c
      cases a.reportDate <;> cases b.reportDate <;> cases c.reportDate <;> simp [dateLe]
      exact le_trans
    · intro a b
      cases a.reportDate <;> cases b.reportDate <;> simp [dateLe]
      exact le_total _ _
  have hne : (daily.mergeSort fun r r' => dateLe r.reportDate r'.reportDate).Pairwise
      fun r r' => r.reportDate ≠ r'.reportDate := by
    rw [← List.pairwise_map]
    refine ((List.mergeSort_perm _ _).map _).nodup_iff.2 ?_
    have hnodup := h.nodup
    rwa [Multiset.map_coe, Multiset.coe_nodup] at hnodup
  refine (hle.and hne).imp_of_mem fun {r r'} hr hr' hboth => ?_
  obtain ⟨day, hday, -⟩ := h.figures r (Multiset.mem_coe.2 (List.mem_mergeSort.1 hr))
  obtain ⟨day', hday', -⟩ := h.figures r' (Multiset.mem_coe.2 (List.mem_mergeSort.1 hr'))
  rw [hday, hday'] at hboth
  refine ⟨day, hday, day', hday', lt_of_le_of_ne (of_decide_eq_true hboth.1) fun heq => ?_⟩
  exact hboth.2 (congrArg some heq)

/-- The cold path over tables that show the source. -/
theorem coldPath_of_shows (hdaily : ShowsRevenue (daily : Multiset DailyRevenue) db)
    (hcustomers : ShowsMetrics (customers : Multiset CustomerMetrics) db db today)
    (hsound : Sound db) (hadmitted : ∀ i ∈ db.items, Admitted i) (hfits : OrdersFit db)
    (hunique : (db.customers.map CustomerRow.customerId).Nodup) :
    (revenueRows db = 0 ∧ coldPath floats daily customers = .empty) ∨
      (revenueRows db ≠ 0 ∧ ∃ metrics, coldPath floats daily customers = .shown metrics ∧
        ColdPathShows floats metrics db today) := by
  have hempty : daily = [] ↔ revenueRows db = 0 := by
    rw [← hdaily.eq_zero_iff, Multiset.coe_eq_zero]
  by_cases hnone : revenueRows db = 0
  · exact .inl ⟨hnone, if_pos (hempty.2 hnone)⟩
  refine .inr ⟨hnone, ?_⟩
  -- the customer of a revenue order has a row, so there is a rate
  have hlength : customers.length = db.customers.length := by
    have hlength := hcustomers.ids.length_eq
    rwa [List.length_map, List.length_map] at hlength
  have hsome : customers ≠ [] := by
    rintro rfl
    obtain ⟨o, ho⟩ := Multiset.exists_mem_of_ne_zero hnone
    have hdb := (List.mem_filter.1 (Multiset.mem_coe.1 ho)).1
    obtain ⟨c, hc, -⟩ := (hsound.consistent o hdb).knownCustomer
    rw [List.eq_nil_of_length_eq_zero hlength.symm] at hc
    exact List.not_mem_nil hc
  have hshown : coldPath floats daily customers = .shown (coldMetrics floats (floats.average
      (customers.countP CustomerMetrics.isChurned) customers.length) daily customers) := by
    rw [coldPath, if_neg (mt hempty.1 hnone), churnRate, if_neg hsome]
  obtain ⟨hcount, hranked, hsublist, htop⟩ := hcustomers.top
  have hnetRevenue := hdaily.sum_netRevenue hsound hadmitted hfits
  have horderCount := hdaily.sum_orderCount
  rw [Multiset.map_coe, Multiset.sum_coe] at hnetRevenue horderCount
  have hamounts := hcustomers.revenue hsound hadmitted hfits
  have hmem : ∀ m ∈ topCustomers customers, m ∈ customers := fun m hm =>
    List.mem_mergeSort.1 ((List.take_sublist _ _).subset hm)
  have hsorted := List.mergeSort_perm daily fun r r' => dateLe r.reportDate r'.reportDate
  refine ⟨_, hshown, rfl, (hsorted.map _).sum_eq.trans hnetRevenue,
    (hsorted.map _).sum_eq.trans horderCount, ?_, hdaily.inOrder, ?_, ?_, hcount, ?_, hranked,
    fun m hm => hamounts m (hmem m hm), ?_⟩
  · rw [coldMetrics, hcustomers.countP_isChurned, hlength]
  · intro r hr
    obtain ⟨day, hday, hof⟩ := hdaily.figures r (Multiset.mem_coe.2 (List.mem_mergeSort.1 hr))
    exact ⟨day, hday, hof.netRevenue_val hsound hadmitted hfits⟩
  · intro day
    rw [← hdaily.days, Multiset.map_coe, Multiset.mem_coe]
    exact ((List.mergeSort_perm _ _).map _).mem_iff.symm
  · exact hsublist.nodup
      (((List.mergeSort_perm _ _).map _).nodup_iff.2 (hcustomers.distinct hunique))
  · intro c hc
    obtain ⟨m, hm, hid⟩ := List.mem_map.1
      (hcustomers.ids.mem_iff.2 (List.mem_map_of_mem (f := fun c : CustomerRow =>
        some c.customerId.toInt.repr) hc))
    rcases htop m hm with hlisted | hless
    · exact .inl (hid ▸ List.mem_map_of_mem hlisted)
    · refine .inr fun m' hm' => ?_
      obtain ⟨c', -, hid', hrevenue⟩ := hamounts m hm
      rw [hid, Option.some.injEq, repr_int64_inj] at hid'
      rw [hid', ← hrevenue]
      exact hless m' hm'

/-- **The cold path shows the source.** For every run of the traffic and the jobs after which a
round refreshes all tables of Silver, and whatever order the queries give the rows in: once the dbt
project has built Gold, the totals, the bars and the churn rate are those of the source, and no
customer that is left out of the table has more revenue than one that is in it. Gold is shown as
empty as long as the source has no revenue order, and the churn rate is never null. -/
theorem coldPath_shows_source {bucketHash : String → Nat} {p : Snapshot} {s s' : Lake bucketHash}
    {jobs : List Job} (hrun : QuietRun (Lake.start p) s) (htimes : TimesTell s.source.commits)
    (hordered : Ordered jobs) (hjobs : JobRun s jobs s') (hall : ∀ j ∈ silverJobs, j ∈ jobs)
    (hfits : OrdersFit s.source.db) (clock : Dbt.Clock) (gold : Dbt.Gold)
    (hdaily : daily = (Dbt.dbtBuild clock s'.silver gold).gold.dailyRevenue)
    (hcustomers : customers = (Dbt.dbtBuild clock s'.silver gold).gold.customerMetrics) :
    (revenueRows s.source.db = 0 ∧ coldPath floats daily customers = .empty) ∨
      (revenueRows s.source.db ≠ 0 ∧ ∃ metrics, coldPath floats daily customers = .shown metrics ∧
        ColdPathShows floats metrics s.source.db clock.today) := by
  have hsource := hjobs.source_eq
  rw [← hsource] at hfits ⊢
  obtain ⟨-, hrevenue, hmetrics⟩ := dbtBuild_of_silverShows
    (hrun.silver_shows htimes hordered hjobs hall) hfits clock gold
  rw [← hdaily] at hrevenue
  rw [← hcustomers] at hmetrics
  exact coldPath_of_shows hrevenue hmetrics s'.source.inv.sound s'.source.inv.admitted hfits
    s'.source.mirrors_customers.nodup

/-- Exact arithmetic, as an example of the arithmetic of the dashboard. -/
def exactFloats : Floats ℚ where
  sum column := (column.map fun x => ((x.map fun d => d.val).getD 0 : ℚ)).sum / 100
  average n count := n / count

theorem coldPath_shows_source_confirmed : ∃ daily customers metrics,
    coldPath exactFloats daily customers = .shown metrics ∧
      ColdPathShows exactFloats metrics confirmedLake.source.db 0 := by
  obtain ⟨s, hjobs⟩ := exists_confirmed_batch
  have hrun : QuietRun (Lake.start sampleSnapshot) confirmedLake := .traffic .start confirmed_segment
  rcases coldPath_shows_source hrun timesTell_confirmed ordered_batch hjobs (by decide)
    ordersFit_confirmed ⟨0, 0, 0⟩ ⟨0, 0⟩ (Multiset.coe_toList _) (Multiset.coe_toList _) with
    ⟨hnone, -⟩ | ⟨-, metrics, hshown, hshows⟩
  · exact absurd hnone (by decide)
  · exact ⟨_, _, metrics, hshown, hshows⟩

end ColdPath

end Lakehouse.Verify
