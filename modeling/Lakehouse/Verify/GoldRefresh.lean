import Lakehouse.Batch.Gold
import Lakehouse.Lib.Runs
import Mathlib.Logic.Relation

/-!
# Daily revenue over whole runs

States of Silver that the lifecycle of the orders reaches, with one run of `gold_daily_revenue`
after each. A run writes a partition for every month that has a revenue order (`reportDates_iff`),
so it is a full refresh exactly when no month has lost its last revenue order
(`dailyRevenue_refresh_iff`). A month whose only revenue order is cancelled keeps its rows
(`dailyRevenue_keeps_cancelled`).
-/

namespace Lakehouse.Verify

open Lib Source Batch

/-! ## The lifecycle -/

/-- The Silver tables that `gold_daily_revenue` reads. -/
structure SilverState where
  orders : Multiset SilverOrder
  items : Multiset SilverOrderItem

/-- The statuses that an order can move on to. -/
def statusFlow : String → List String
  | "pending" => ["confirmed", "cancelled"]
  | "confirmed" => ["shipped", "cancelled"]
  | "shipped" => ["delivered"]
  | "delivered" => ["completed"]
  | _ => []

/-- A status stays, moves along the flow, or becomes cancelled. -/
def StatusMoves (status status' : Option String) : Prop :=
  status' = status ∨ status' = some "cancelled" ∨
    ∃ s s', status = some s ∧ status' = some s' ∧ s' ∈ statusFlow s

/-- One change of Silver: a new order, a new item, or an order that moves on. -/
inductive LifecycleStep : SilverState → SilverState → Prop
  | addOrder {orders items o} : ordersSpec.required o = true → o.createdAt.isSome →
      LifecycleStep ⟨orders, items⟩ ⟨o ::ₘ orders, items⟩
  | addItem {orders items i} : LifecycleStep ⟨orders, items⟩ ⟨orders, i ::ₘ items⟩
  | updateOrder {orders items o o'} : o'.orderId = o.orderId → o'.customerId = o.customerId →
      o'.createdAt = o.createdAt → StatusMoves o.status o'.status →
      LifecycleStep ⟨o ::ₘ orders, items⟩ ⟨o' ::ₘ orders, items⟩

/-- Every order has a time. -/
def Dated (s : SilverState) : Prop := ∀ o ∈ s.orders, o.createdAt.isSome

theorem LifecycleStep.dated {s s' : SilverState} (h : LifecycleStep s s') (hs : Dated s) :
    Dated s' := by
  cases h with
  | addOrder _ hcreated => exact fun o ho => (Multiset.mem_cons.1 ho).elim (· ▸ hcreated) (hs o)
  | addItem => exact hs
  | updateOrder _ _ hcreated _ =>
    intro o ho
    rcases Multiset.mem_cons.1 ho with rfl | ho
    · rw [hcreated]
      exact hs _ (Multiset.mem_cons_self _ _)
    · exact hs o (Multiset.mem_cons_of_mem ho)

/-- Every order has a time in every state. -/
theorem dated_of_reachable {s s' : SilverState} (h : Relation.ReflTransGen LifecycleStep s s')
    (hs : Dated s) : Dated s' :=
  invariant_of_reachable (fun _ _ hstep => hstep.dated) h hs

/-! ## Runs -/

/-- A run of `gold_daily_revenue`: what it reads, and its clock. -/
structure GoldRun where
  silver : SilverState
  computedAt : Int

/-- The rows the run writes. -/
def GoldRun.rows (run : GoldRun) : Multiset DailyRevenue :=
  dailyRevenueRows run.silver.orders run.silver.items run.computedAt

/-- `gold.daily_revenue` after each of a sequence of runs. -/
def goldRuns (t : Table dailyRevenueSpec) : List GoldRun → Option (List (Table dailyRevenueSpec))
  | [] => some []
  | run :: runs =>
    (goldDailyRevenue run.silver.orders run.silver.items run.computedAt t).bind fun t' =>
      (goldRuns t' runs).map (t' :: ·)

/-- The runs are overwrites with the rows they compute. -/
theorem goldRuns_eq (t : Table dailyRevenueSpec) (runs : List GoldRun) :
    goldRuns t runs = t.overwrites (runs.map GoldRun.rows) := by
  induction runs generalizing t with
  | nil => rfl
  | cons run runs ih =>
    simp only [goldRuns, List.map_cons, Table.overwrites, ih]
    rfl

/-- The states of the runs are reached one from the other, the first from nothing. -/
def FromLifecycle (runs : List GoldRun) : Prop :=
  (⟨0, 0⟩ :: runs.map GoldRun.silver).IsChain (Relation.ReflTransGen LifecycleStep)

/-- The table holds what the run computed and nothing else. -/
def Refreshed (run : GoldRun) (t : Table dailyRevenueSpec) : Prop :=
  t.rows.map DailyRevenue.figures = run.rows.map DailyRevenue.figures

/-- The months that have a revenue order. -/
def revenueMonths (s : SilverState) : Multiset (Option Int) :=
  (revenueOrders s.orders).map fun o => months (days o.createdAt)

/-- Every month that had a revenue order has one. -/
def KeepsMonths (run run' : GoldRun) : Prop :=
  ∀ m ∈ revenueMonths run.silver, m ∈ revenueMonths run'.silver

instance (run run' : GoldRun) : Decidable (KeepsMonths run run') :=
  inferInstanceAs (Decidable (∀ m ∈ _, m ∈ _))

/-! ## Partitions of a run -/

/-- No order is summed twice. -/
theorem orderItemsOf_keys_nodup (items : Multiset SilverOrderItem) :
    ((orderItemsOf items).map OrderItems.orderId).Nodup := by
  unfold orderItemsOf
  rw [Multiset.map_map]
  exact keys_groupBy_nodup (fun i : SilverOrderItem => i.orderId) _

/-- No day is counted twice. -/
theorem firstOrdersOf_keys_nodup (orders : Multiset SilverOrder) :
    ((firstOrdersOf orders).map FirstOrders.reportDate).Nodup := by
  unfold firstOrdersOf
  rw [Multiset.map_map]
  exact keys_groupBy_nodup (fun p : Option String × Option Int => p.2) _

/-- The join keeps one row for each order, with its date. -/
theorem orderRevenues_dates (orders : Multiset SilverOrder) (items : Multiset SilverOrderItem) :
    (orderRevenues orders items).map OrderRevenue.reportDate =
      orders.map fun o => days o.createdAt := by
  conv_rhs => rw [← map_fst_leftJoin SilverOrder.orderId OrderItems.orderId
    (orderItemsOf_keys_nodup items) orders]
  unfold orderRevenues
  rw [Multiset.map_map, Multiset.map_map]
  rfl

/-- The new customers join one row to each row of the day, and add a column. -/
theorem dailyRevenueRows_view {β : Type*} {view : DailyRevenue → β}
    (h : ∀ d n, view { d with newCustomers := n } = view d) (orders : Multiset SilverOrder)
    (items : Multiset SilverOrderItem) (computedAt : Int) :
    (dailyRevenueRows orders items computedAt).map view =
      (dailyRows (revenueOrders orders) items computedAt).map view := by
  conv_rhs => rw [← map_fst_leftJoin DailyRevenue.reportDate FirstOrders.reportDate
    (firstOrdersOf_keys_nodup (revenueOrders orders))
    (dailyRows (revenueOrders orders) items computedAt)]
  unfold dailyRevenueRows
  rw [Multiset.map_map, Multiset.map_map]
  exact Multiset.map_congr rfl fun p _ => h p.1 _

/-- Each pair of a day and a currency has one row. -/
theorem dailyRevenueRows_keys (orders : Multiset SilverOrder) (items : Multiset SilverOrderItem)
    (computedAt : Int) :
    (dailyRevenueRows orders items computedAt).map (fun r => (r.reportDate, r.currency)) =
      ((orderRevenues (revenueOrders orders) items).map
        fun r => (r.reportDate, r.currency)).dedup := by
  rw [dailyRevenueRows_view fun _ _ => rfl, dailyRows, ← keys_groupBy, Multiset.map_map]
  rfl

/-- The dates are those of the revenue orders. -/
theorem reportDates_iff {run : GoldRun} {d : Option Int} :
    d ∈ run.rows.map DailyRevenue.reportDate ↔
      d ∈ (revenueOrders run.silver.orders).map fun o => days o.createdAt := by
  rw [← orderRevenues_dates (revenueOrders run.silver.orders) run.silver.items]
  have hkeys := congrArg (fun s => d ∈ s.map Prod.fst)
    (dailyRevenueRows_keys run.silver.orders run.silver.items run.computedAt)
  simp only [Multiset.map_map, Function.comp_def] at hkeys
  rw [GoldRun.rows, hkeys]
  simp only [Multiset.mem_map, Multiset.mem_dedup]
  constructor
  · rintro ⟨_, ⟨r, hr, rfl⟩, rfl⟩
    exact ⟨r, hr, rfl⟩
  · rintro ⟨r, hr, rfl⟩
    exact ⟨_, ⟨r, hr, rfl⟩, rfl⟩

/-- A run writes the months that have a revenue order. -/
theorem partitions_iff {run : GoldRun} {m : Option Int} :
    m ∈ run.rows.map dailyRevenueSpec.partition ↔ m ∈ revenueMonths run.silver := by
  have hsplit : run.rows.map dailyRevenueSpec.partition =
      (run.rows.map DailyRevenue.reportDate).map months := by
    rw [Multiset.map_map]
    rfl
  have hsplit' : revenueMonths run.silver =
      ((revenueOrders run.silver.orders).map fun o => days o.createdAt).map months := by
    rw [Multiset.map_map]
    rfl
  rw [hsplit, hsplit', Multiset.mem_map, Multiset.mem_map]
  exact exists_congr fun d => and_congr_left fun _ => reportDates_iff

/-- No partition goes missing exactly when no month loses its last revenue order. -/
theorem covered_iff_keepsMonths {run run' : GoldRun} :
    Table.Covered dailyRevenueSpec run.rows run'.rows ↔ KeepsMonths run run' := by
  constructor
  · intro hcov m hm
    obtain ⟨r, hr, rfl⟩ := Multiset.mem_map.1 (partitions_iff.2 hm)
    obtain ⟨x, hx, he⟩ := hcov r hr
    exact partitions_iff.1 (Multiset.mem_map.2 ⟨x, hx, he⟩)
  · intro hkeep r hr
    have hm := hkeep _ (partitions_iff.1 (Multiset.mem_map_of_mem _ hr))
    exact Multiset.mem_map.1 (partitions_iff.2 hm)

theorem required_of_dated {run : GoldRun} (hdated : Dated run.silver) :
    ∀ r ∈ run.rows, dailyRevenueSpec.required r = true := by
  intro r hr
  have hday : r.reportDate.isSome := by
    obtain ⟨o, ho, hdate⟩ := Multiset.mem_map.1 (reportDates_iff.1 (Multiset.mem_map_of_mem _ hr))
    rw [← hdate]
    simpa [days] using hdated o (Multiset.mem_filter.1 ho).1
  have hcurrency : r.currency.isSome := by
    have hmem := Multiset.mem_map_of_mem (fun r : DailyRevenue => (r.reportDate, r.currency)) hr
    rw [GoldRun.rows, dailyRevenueRows_keys, Multiset.mem_dedup] at hmem
    obtain ⟨x, hx, he⟩ := Multiset.mem_map.1 hmem
    obtain ⟨y, -, rfl⟩ := Multiset.mem_map.1 hx
    rw [← (Prod.mk.inj he).2]
    rfl
  simp [dailyRevenueSpec, hday, hcurrency]

/-! ## Refreshes -/

theorem FromLifecycle.dated {runs : List GoldRun} (h : FromLifecycle runs) :
    ∀ run ∈ runs, Dated run.silver := by
  have hall : ∀ {s : SilverState} {states : List SilverState}, Dated s →
      (s :: states).IsChain (Relation.ReflTransGen LifecycleStep) → ∀ s' ∈ states, Dated s' := by
    intro s states hs hchain
    induction states generalizing s with
    | nil => nofun
    | cons next states ih =>
      obtain ⟨hreach, hchain⟩ := List.isChain_cons_cons.1 hchain
      have hnext := dated_of_reachable hreach hs
      exact List.forall_mem_cons.2 ⟨hnext, ih hnext hchain⟩
  exact fun run hrun => hall (fun o ho => absurd ho (Multiset.notMem_zero o)) h _
    (List.mem_map_of_mem hrun)

/-- No write is rejected as long as the orders have times. -/
theorem exists_goldRuns {runs : List GoldRun} (h : ∀ run ∈ runs, Dated run.silver)
    (t : Table dailyRevenueSpec) : ∃ ts, goldRuns t runs = some ts := by
  induction runs generalizing t with
  | nil => exact ⟨[], rfl⟩
  | cons run runs ih =>
    obtain ⟨t', ht'⟩ := t.exists_overwritePartitions (required_of_dated (h run (.head _)))
    obtain ⟨ts, hts⟩ := ih (fun r hr => h r (.tail _ hr)) t'
    exact ⟨t' :: ts, Option.bind_eq_some_iff.2
      ⟨t', ht', Option.map_eq_some_iff.2 ⟨ts, hts, rfl⟩⟩⟩

/-- **Daily revenue is refreshed in full** exactly when no month loses its last revenue order. For
every sequence of Silver states that the lifecycle reaches, every run completes, and every run
leaves exactly the rows it computed if and only if each month with a revenue order in one state has
one in the next. -/
theorem dailyRevenue_refresh_iff {runs : List GoldRun} (h : FromLifecycle runs) :
    ∃ ts, goldRuns .empty runs = some ts ∧
      (List.Forall₂ Refreshed runs ts ↔ runs.IsChain KeepsMonths) := by
  obtain ⟨ts, hts⟩ := exists_goldRuns h.dated .empty
  refine ⟨ts, hts, ?_⟩
  rw [goldRuns_eq] at hts
  have hrefreshed : List.Forall₂ Refreshed runs ts ↔ ts.map Table.rows = runs.map GoldRun.rows := by
    rw [← Table.overwrites_map_eq_iff DailyRevenue.figures hts, List.forall₂_map_left_iff]
    rfl
  rw [hrefreshed, Table.overwrites_refresh_iff hts, Table.rows_empty]
  have hempty : (0 :: runs.map GoldRun.rows).IsChain (Table.Covered dailyRevenueSpec) ↔
      (runs.map GoldRun.rows).IsChain (Table.Covered dailyRevenueSpec) := by
    rw [List.isChain_cons, and_iff_right]
    exact fun y _ => Table.covered_zero _ y
  rw [hempty, List.isChain_map]
  exact List.IsChain.iff fun _ _ => covered_iff_keepsMonths

/-! ## A cancelled order -/

/-- An order of the first of May 2026. -/
def mayOrder (status : String) : SilverOrder where
  orderId := some "1"
  customerId := some "7"
  status := some status
  totalAmount := some ⟨12999, by decide⟩
  currency := none
  createdAt := some 1777593600000000
  updatedAt := some 1777593600000000
  sourceOp := some "u"
  ingestedAt := 0

/-- A run over the order with each of the statuses. -/
def mayRuns (statuses : List String) : List GoldRun :=
  statuses.map fun status => ⟨⟨{mayOrder status}, 0⟩, 0⟩

theorem mayRuns_fromLifecycle (status status' : String)
    (h : StatusMoves (some status) (some status')) : FromLifecycle (mayRuns [status, status']) := by
  refine .cons_cons (.single (.addOrder rfl rfl)) (.cons_cons (.single ?_) (.singleton _))
  exact .updateOrder rfl rfl rfl h

/-- A shipped order keeps its month. -/
theorem dailyRevenue_refresh_iff_shipped : ∃ ts,
    goldRuns .empty (mayRuns ["confirmed", "shipped"]) = some ts ∧
      List.Forall₂ Refreshed (mayRuns ["confirmed", "shipped"]) ts := by
  obtain ⟨ts, hts, hiff⟩ := dailyRevenue_refresh_iff
    (mayRuns_fromLifecycle "confirmed" "shipped" (.inr (.inr ⟨_, _, rfl, rfl, by decide⟩)))
  exact ⟨ts, hts, hiff.2 (List.isChain_pair.2 (by decide))⟩

/-- The only revenue order of a month is cancelled, and its revenue stays. -/
theorem dailyRevenue_keeps_cancelled : FromLifecycle (mayRuns ["confirmed", "cancelled"]) ∧
    ∃ ts, goldRuns .empty (mayRuns ["confirmed", "cancelled"]) = some ts ∧
      ¬ List.Forall₂ Refreshed (mayRuns ["confirmed", "cancelled"]) ts := by
  have hlife := mayRuns_fromLifecycle "confirmed" "cancelled" (.inr (.inl rfl))
  obtain ⟨ts, hts⟩ := exists_goldRuns hlife.dated .empty
  refine ⟨hlife, ts, hts, fun hrefreshed => ?_⟩
  rw [goldRuns_eq] at hts
  have hrows := (Table.overwrites_map_eq_iff DailyRevenue.figures hts).1
    (List.forall₂_map_left_iff.2 hrefreshed)
  have hchain := (Table.overwrites_refresh_iff hts).1 hrows
  have hcov := covered_iff_keepsMonths.1 (List.isChain_pair.1 (List.isChain_cons_cons.1 hchain).2)
  exact absurd hcov (by decide)

end Lakehouse.Verify
