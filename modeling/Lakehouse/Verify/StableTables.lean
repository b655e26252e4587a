import Lakehouse.Batch.Gold
import Lakehouse.Verify.Dedup

/-!
# Tables whose partitions are stable

Runs of the batch jobs over a Bronze that only grows. Keys never leave the recomputed rows of
`silver.orders`, `silver.customers` and `gold.customer_metrics`, and as long as the images of one
key agree on `created_at` a key never changes its partition, so every partition-wise overwrite is a
full refresh (`batchRuns_fullRefresh`).
-/

namespace Lakehouse.Verify

open Lib Source Batch

/-- What one batch run reads: the CDC tables in some presentation, and the clock. -/
structure BatchRun where
  rawOrders : List CdcRow
  rawCustomers : List CdcRow
  today : Int
  computedAt : Int

/-- The tables that are overwritten on a partition their key determines. -/
structure StableTables (bucketHash : String → Nat) where
  orders : Table ordersSpec
  customers : Table customersSpec
  customerMetrics : Table (customerMetricsSpec bucketHash)

section Runs

variable {bucketHash : String → Nat}

/-- Before the first run. -/
def StableTables.empty : StableTables bucketHash := ⟨.empty, .empty, .empty⟩

/-- A run of the transform and of `gold_customer_metrics`. -/
def batchRun (run : BatchRun) (t : StableTables bucketHash) : Option (StableTables bucketHash) :=
  (silverOrders run.rawOrders t.orders).bind fun orders =>
  (silverCustomers run.rawCustomers t.customers).bind fun customers =>
  (goldCustomerMetrics orders.rows customers.rows run.today run.computedAt t.customerMetrics).map
    fun customerMetrics => ⟨orders, customers, customerMetrics⟩

/-- The tables after each of some runs. -/
def batchRuns (t : StableTables bucketHash) : List BatchRun → Option (List (StableTables bucketHash))
  | [] => some []
  | run :: runs => (batchRun run t).bind fun t' => (batchRuns t' runs).map (t' :: ·)

/-- The second run reads every Bronze row the first one read. -/
def Grows (run run' : BatchRun) : Prop :=
  (run.rawOrders : Multiset CdcRow) ≤ run'.rawOrders ∧
    (run.rawCustomers : Multiset CdcRow) ≤ run'.rawCustomers

/-- The images of one order, and those of one customer, carry one `created_at`. -/
def StableCreation (run : BatchRun) : Prop :=
  (∀ r ∈ run.rawOrders, ∀ r' ∈ run.rawOrders, IsUpsert r → IsUpsert r' →
      (selectOrder r).row.orderId = (selectOrder r').row.orderId →
      (selectOrder r).row.createdAt = (selectOrder r').row.createdAt) ∧
    ∀ r ∈ run.rawCustomers, ∀ r' ∈ run.rawCustomers, IsUpsert r → IsUpsert r' →
      (selectCustomer r).row.customerId = (selectCustomer r').row.customerId →
      (selectCustomer r).row.createdAt = (selectCustomer r').row.createdAt

/-- Every image carries its keys. -/
def CarriesKeys (run : BatchRun) : Prop :=
  (∀ r ∈ run.rawOrders, IsUpsert r → ordersSpec.required (selectOrder r).row = true) ∧
    ∀ r ∈ run.rawCustomers, IsUpsert r → customersSpec.required (selectCustomer r).row = true

/-- Each table holds the rows the run computed and nothing else, with one row for each key. -/
structure FullRefresh (run : BatchRun) (t : StableTables bucketHash) : Prop where
  orders : t.orders.rows = latestOrders run.rawOrders
  customers : t.customers.rows = latestCustomers run.rawCustomers
  customerMetrics : t.customerMetrics.rows =
    customerMetricsRows (latestOrders run.rawOrders) (latestCustomers run.rawCustomers) run.today
      run.computedAt
  orderKeys : OneRowPerKey selectOrder SilverOrder.orderId run.rawOrders
    (t.orders.rows.map SilverOrder.orderId)
  customerKeys : OneRowPerKey selectCustomer SilverCustomer.customerId run.rawCustomers
    (t.customers.rows.map SilverCustomer.customerId)
  metricsKeys : OneRowPerKey selectCustomer SilverCustomer.customerId run.rawCustomers
    (t.customerMetrics.rows.map CustomerMetrics.customerId)

/-! ## One table -/

section OneTable

variable {ρ π : Type} {select : CdcRow → Staged ρ} {keyCol : ρ → Option String}
  {raw raw' : List CdcRow}

/-- When the key determines the partition, the rows of a grown table cover those of the table. -/
theorem covered_latest {spec : TableSpec ρ π} (hgrow : ∀ r ∈ raw, r ∈ raw')
    (hstable : ∀ r ∈ raw', ∀ r' ∈ raw', IsUpsert r → IsUpsert r' →
      keyCol (select r).row = keyCol (select r').row →
      spec.partition (select r).row = spec.partition (select r').row) :
    Table.Covered spec (latestUpserts select keyCol raw) (latestUpserts select keyCol raw') := by
  intro row hrow
  obtain ⟨r, hr, hup, rfl, -⟩ := mem_latestUpserts (Multiset.mem_coe.1 hrow)
  obtain ⟨row', hrow', hk⟩ :=
    exists_latestUpserts select keyCol (hgrow r hr) hup
  refine ⟨row', Multiset.mem_coe.2 hrow', ?_⟩
  obtain ⟨r', hr', hup', rfl, -⟩ := mem_latestUpserts hrow'
  exact hstable r' hr' r (hgrow r hr) hup' hup hk

end OneTable

/-! ## The customer metrics -/

/-- No customer has two rows of statistics. -/
theorem orderStats_keys_nodup (orders : Multiset SilverOrder) (today : Int) :
    ((orderStats orders today).map OrderStats.customerId).Nodup := by
  unfold orderStats
  rw [Multiset.map_map]
  exact keys_groupBy_nodup SilverOrder.customerId _

/-- Each customer has one row. -/
theorem customerMetricsRows_keys (orders : Multiset SilverOrder)
    (customers : Multiset SilverCustomer) (today computedAt : Int) :
    (customerMetricsRows orders customers today computedAt).map CustomerMetrics.customerId =
      (customers.filter fun c => isIn c.sourceOp upsertOps = true).map
        SilverCustomer.customerId := by
  conv_rhs => rw [← map_fst_leftJoin SilverCustomer.customerId OrderStats.customerId
    (orderStats_keys_nodup (revenueOrders orders) today)
    (customers.filter fun c => isIn c.sourceOp upsertOps = true)]
  unfold customerMetricsRows
  rw [Multiset.map_map, Multiset.map_map]
  rfl

theorem filter_latestCustomers (raw : List CdcRow) :
    (latestCustomers raw : Multiset SilverCustomer).filter
      (fun c => isIn c.sourceOp upsertOps = true) = latestCustomers raw := by
  apply Multiset.filter_eq_self.2
  intro c hc
  obtain ⟨r, -, hup, rfl, -⟩ := mem_latestUpserts (Multiset.mem_coe.1 hc)
  exact hup

/-- The metrics of a grown set of customers cover those of the customers. -/
theorem covered_customerMetrics {orders orders' : Multiset SilverOrder} {raw raw' : List CdcRow}
    {today computedAt today' computedAt' : Int} (hgrow : ∀ r ∈ raw, r ∈ raw') :
    Table.Covered (customerMetricsSpec bucketHash)
      (customerMetricsRows orders (latestCustomers raw) today computedAt)
      (customerMetricsRows orders' (latestCustomers raw') today' computedAt') := by
  have hkeys : ∀ {orders : Multiset SilverOrder} {raw : List CdcRow} {today computedAt : Int},
      OneRowPerKey selectCustomer SilverCustomer.customerId raw
        ((customerMetricsRows orders (latestCustomers raw) today computedAt).map
          CustomerMetrics.customerId) := by
    intro orders raw today computedAt
    rw [customerMetricsRows_keys, filter_latestCustomers]
    exact oneRowPerKey_latest
  intro m hm
  obtain ⟨r, hr, hup, hk⟩ := (hkeys.2 _).1 (Multiset.mem_map_of_mem CustomerMetrics.customerId hm)
  obtain ⟨m', hm', hk'⟩ := Multiset.mem_map.1 ((hkeys.2 _).2 ⟨r, hgrow r hr, hup, hk⟩)
  exact ⟨m', hm', congrArg (bucket bucketHash 32) hk'⟩

/-! ## Runs -/

/-- The tables have no partition that the run does not write. -/
structure Covers (t : StableTables bucketHash) (run : BatchRun) : Prop where
  orders : Table.Covered ordersSpec t.orders.rows (latestOrders run.rawOrders)
  customers : Table.Covered customersSpec t.customers.rows (latestCustomers run.rawCustomers)
  customerMetrics : Table.Covered (customerMetricsSpec bucketHash) t.customerMetrics.rows
    (customerMetricsRows (latestOrders run.rawOrders) (latestCustomers run.rawCustomers) run.today
      run.computedAt)

theorem covers_empty (run : BatchRun) : Covers (StableTables.empty : StableTables bucketHash) run :=
  ⟨Table.covered_zero _ _, Table.covered_zero _ _, Table.covered_zero _ _⟩

/-- One run refreshes the tables it covers. -/
theorem batchRun_fullRefresh {run : BatchRun} {t t' : StableTables bucketHash}
    (hcov : Covers t run) (h : batchRun run t = some t') : FullRefresh run t' := by
  obtain ⟨tOrders, ho, h⟩ := Option.bind_eq_some_iff.1 h
  obtain ⟨tCustomers, hc, h⟩ := Option.bind_eq_some_iff.1 h
  obtain ⟨tMetrics, hm, rfl⟩ := Option.map_eq_some_iff.1 h
  have hor := (Table.overwritePartitions_eq_iff ho).2 hcov.orders
  have hcr := (Table.overwritePartitions_eq_iff hc).2 hcov.customers
  rw [hor, hcr] at hm
  have hmr := (Table.overwritePartitions_eq_iff hm).2 hcov.customerMetrics
  refine ⟨hor, hcr, hmr, ?_, ?_, ?_⟩
  · rw [hor]
    exact oneRowPerKey_latest
  · rw [hcr]
    exact oneRowPerKey_latest
  · rw [hmr, customerMetricsRows_keys, filter_latestCustomers]
    exact oneRowPerKey_latest

/-- A run on the tables of another one leaves out no partition. -/
theorem FullRefresh.covers {run run' : BatchRun} {t : StableTables bucketHash}
    (h : FullRefresh run t) (hgrow : Grows run run') (hstable : StableCreation run') :
    Covers t run' := by
  have hgo : ∀ r ∈ run.rawOrders, r ∈ run'.rawOrders := fun r hr =>
    Multiset.mem_coe.1 (Multiset.mem_of_le hgrow.1 (Multiset.mem_coe.2 hr))
  have hgc : ∀ r ∈ run.rawCustomers, r ∈ run'.rawCustomers := fun r hr =>
    Multiset.mem_coe.1 (Multiset.mem_of_le hgrow.2 (Multiset.mem_coe.2 hr))
  refine ⟨?_, ?_, ?_⟩
  · rw [h.orders]
    exact covered_latest hgo fun r hr r' hr' hup hup' hk =>
      congrArg days (hstable.1 r hr r' hr' hup hup' hk)
  · rw [h.customers]
    exact covered_latest hgc fun r hr r' hr' hup hup' hk =>
      congrArg days (hstable.2 r hr r' hr' hup hup' hk)
  · rw [h.customerMetrics]
    exact covered_customerMetrics hgc

/-- A run is accepted when its rows carry their keys. -/
theorem exists_batchRun {run : BatchRun} (hkeys : CarriesKeys run)
    (t : StableTables bucketHash) : ∃ t', batchRun run t = some t' := by
  obtain ⟨tOrders, ho⟩ : ∃ t', silverOrders run.rawOrders t.orders = some t' := by
    apply t.orders.exists_overwritePartitions
    intro row hrow
    obtain ⟨r, hr, hup, rfl, -⟩ := mem_latestUpserts (Multiset.mem_coe.1 hrow)
    exact hkeys.1 r hr hup
  obtain ⟨tCustomers, hc⟩ : ∃ t', silverCustomers run.rawCustomers t.customers = some t' := by
    apply t.customers.exists_overwritePartitions
    intro row hrow
    obtain ⟨r, hr, hup, rfl, -⟩ := mem_latestUpserts (Multiset.mem_coe.1 hrow)
    exact hkeys.2 r hr hup
  obtain ⟨tMetrics, hm⟩ : ∃ t', goldCustomerMetrics tOrders.rows tCustomers.rows run.today
      run.computedAt t.customerMetrics = some t' := by
    apply t.customerMetrics.exists_overwritePartitions
    intro m hm
    have hk := Multiset.mem_map_of_mem CustomerMetrics.customerId hm
    rw [customerMetricsRows_keys] at hk
    obtain ⟨c, hc, hck⟩ := Multiset.mem_map.1 hk
    change m.customerId.isSome = true
    rw [← hck]
    exact tCustomers.valid c (Multiset.mem_filter.1 hc).1
  exact ⟨⟨tOrders, tCustomers, tMetrics⟩, Option.bind_eq_some_iff.2 ⟨tOrders, ho,
    Option.bind_eq_some_iff.2 ⟨tCustomers, hc, Option.map_eq_some_iff.2 ⟨tMetrics, hm, rfl⟩⟩⟩⟩

/-- From tables the first run covers, every run refreshes. -/
theorem batchRuns_forall₂ {runs : List BatchRun} (hgrow : runs.IsChain Grows)
    (hstable : ∀ run ∈ runs, StableCreation run) {t : StableTables bucketHash}
    (hcov : ∀ run ∈ runs.head?, Covers t run) {ts : List (StableTables bucketHash)}
    (h : batchRuns t runs = some ts) : List.Forall₂ FullRefresh runs ts := by
  induction runs generalizing t ts with
  | nil =>
    obtain rfl : [] = ts := Option.some.inj h
    exact .nil
  | cons run runs ih =>
    obtain ⟨t', hrun, h⟩ := Option.bind_eq_some_iff.1 h
    obtain ⟨ts', hruns, rfl⟩ := Option.map_eq_some_iff.1 h
    have hfull := batchRun_fullRefresh (hcov run rfl) hrun
    refine .cons hfull (ih hgrow.tail (fun r hr => hstable r (.tail _ hr)) ?_ hruns)
    intro run' hrun'
    cases runs with
    | nil => cases hrun'
    | cons next runs =>
      obtain rfl := Option.some.inj hrun'
      exact hfull.covers (List.isChain_cons_cons.1 hgrow).1 (hstable next (.tail _ (.head _)))

/-- So are several. -/
theorem batchRuns_isSome {runs : List BatchRun} (hkeys : ∀ run ∈ runs, CarriesKeys run)
    (t : StableTables bucketHash) : (batchRuns t runs).isSome := by
  induction runs generalizing t with
  | nil => rfl
  | cons run runs ih =>
    obtain ⟨t', ht'⟩ := exists_batchRun (hkeys run (.head _)) t
    rw [batchRuns, ht', Option.bind_some, Option.isSome_map]
    exact ih (fun r hr => hkeys r (.tail _ hr)) t'

/-- **Partition-wise overwrite is full refresh.** Over a Bronze that only grows, with one
`created_at` for each order and each customer and any presentation of the rows in each run, every
run that completes leaves in the three tables exactly the rows it computed, one for each key; and
every run completes when the images carry their keys. -/
theorem batchRuns_fullRefresh (bucketHash : String → Nat) {runs : List BatchRun}
    (hgrow : runs.IsChain Grows) (hstable : ∀ run ∈ runs, StableCreation run) :
    (∀ ts, batchRuns (StableTables.empty : StableTables bucketHash) runs = some ts →
      List.Forall₂ FullRefresh runs ts) ∧
    ((∀ run ∈ runs, CarriesKeys run) →
      (batchRuns (StableTables.empty : StableTables bucketHash) runs).isSome) :=
  ⟨fun _ => batchRuns_forall₂ hgrow hstable fun run _ => covers_empty run,
    fun hkeys => batchRuns_isSome hkeys _⟩

end Runs

/-! ## Runs over captured histories -/

section Captured

variable {run : BatchRun} {orderHistory : List (ChangeEvent OrderRow)}
  {customerHistory : List (ChangeEvent CustomerRow)}

/-- Bronze has one `created_at` for each key when the source rows do. -/
theorem stableCreation_of_history
    (ho : ∀ r ∈ run.rawOrders, FromHistory orders orderHistory r)
    (hc : ∀ r ∈ run.rawCustomers, FromHistory customers customerHistory r)
    (horders : ∀ a ∈ orderHistory.filterMap (·.change.after),
      ∀ a' ∈ orderHistory.filterMap (·.change.after),
        a.orderId = a'.orderId → a.createdAt = a'.createdAt)
    (hcustomers : ∀ a ∈ customerHistory.filterMap (·.change.after),
      ∀ a' ∈ customerHistory.filterMap (·.change.after),
        a.customerId = a'.customerId → a.createdAt = a'.createdAt) :
    StableCreation run := by
  refine ⟨fun r hr r' hr' hup hup' => ?_, fun r hr r' hr' hup hup' => ?_⟩
  · obtain ⟨now, cdcId, e, he, rfl⟩ := ho r hr
    obtain ⟨now', cdcId', e', he', rfl⟩ := ho r' hr'
    obtain ⟨a, ha⟩ := isUpsert_cdcRow.1 hup
    obtain ⟨a', ha'⟩ := isUpsert_cdcRow.1 hup'
    have hsel := orders.select_cdcRow now cdcId e a ha
    have hsel' := orders.select_cdcRow now' cdcId' e' a' ha'
    intro hk
    rw [show selectOrder = orders.select from rfl, hsel, hsel'] at hk ⊢
    exact congrArg some (horders a (List.mem_filterMap.2 ⟨e, he, ha⟩)
      a' (List.mem_filterMap.2 ⟨e', he', ha'⟩) (repr_int64_inj.1 (Option.some.inj hk)))
  · obtain ⟨now, cdcId, e, he, rfl⟩ := hc r hr
    obtain ⟨now', cdcId', e', he', rfl⟩ := hc r' hr'
    obtain ⟨a, ha⟩ := isUpsert_cdcRow.1 hup
    obtain ⟨a', ha'⟩ := isUpsert_cdcRow.1 hup'
    have hsel := customers.select_cdcRow now cdcId e a ha
    have hsel' := customers.select_cdcRow now' cdcId' e' a' ha'
    intro hk
    rw [show selectCustomer = customers.select from rfl, hsel, hsel'] at hk ⊢
    exact congrArg some (hcustomers a (List.mem_filterMap.2 ⟨e, he, ha⟩)
      a' (List.mem_filterMap.2 ⟨e', he', ha'⟩) (repr_int64_inj.1 (Option.some.inj hk)))

/-- Every image of the source carries its keys. -/
theorem carriesKeys_of_history
    (ho : ∀ r ∈ run.rawOrders, FromHistory orders orderHistory r)
    (hc : ∀ r ∈ run.rawCustomers, FromHistory customers customerHistory r) :
    CarriesKeys run := by
  refine ⟨fun r hr hup => ?_, fun r hr hup => ?_⟩
  · obtain ⟨now, cdcId, e, -, rfl⟩ := ho r hr
    obtain ⟨a, ha⟩ := isUpsert_cdcRow.1 hup
    rw [show selectOrder = orders.select from rfl, orders.select_cdcRow now cdcId e a ha]
    rfl
  · obtain ⟨now, cdcId, e, -, rfl⟩ := hc r hr
    obtain ⟨a, ha⟩ := isUpsert_cdcRow.1 hup
    rw [show selectCustomer = customers.select from rfl, customers.select_cdcRow now cdcId e a ha]
    rfl

end Captured

/-! ## Two runs -/

section Given

/-- The changes of an order between two runs; the customer does not change. -/
def firstOrders : List (ChangeEvent OrderRow) := [⟨.create (order 1 "pending" 0), 1, none⟩]

/-- The order is confirmed before the second run. -/
def secondOrders : List (ChangeEvent OrderRow) :=
  firstOrders ++ [⟨.update (order 1 "pending" 0) (order 1 "confirmed" 0), 2, none⟩]

/-- The customer of the order. -/
def oneCustomer : List (ChangeEvent CustomerRow) := [⟨.create (customer 7), 1, none⟩]

/-- The second run reads what the first one appended and the whole topics again. -/
def twoRuns : List BatchRun :=
  let orders₁ := cdcRows orders.table orders.fields (anEnv "").uuid 0 firstOrders
  let customers₁ := cdcRows customers.table customers.fields (anEnv "").uuid 0 oneCustomer
  [{ rawOrders := orders₁, rawCustomers := customers₁, today := 0, computedAt := 0 },
    { rawOrders := orders₁ ++ cdcRows orders.table orders.fields (anEnv "").uuid 1 secondOrders
      rawCustomers := customers₁ ++
        cdcRows customers.table customers.fields (anEnv "").uuid 1 oneCustomer
      today := 1
      computedAt := 1 }]

theorem twoRuns_from : ∀ run ∈ twoRuns, (∀ r ∈ run.rawOrders, FromHistory orders secondOrders r) ∧
    ∀ r ∈ run.rawCustomers, FromHistory customers oneCustomer r := by
  have hfirst : ∀ {uuid now}, ∀ r ∈ cdcRows orders.table orders.fields uuid now firstOrders,
      FromHistory orders secondOrders r := fun r hr =>
    (fromHistory_of_mem_cdcRows hr).mono fun e he => List.mem_append_left _ he
  rintro run (_ | ⟨_, _ | ⟨_, ⟨⟩⟩⟩)
  · exact ⟨hfirst, fun r hr => fromHistory_of_mem_cdcRows hr⟩
  · refine ⟨fun r hr => ?_, fun r hr => ?_⟩
    · exact (List.mem_append.1 hr).elim (hfirst r) fromHistory_of_mem_cdcRows
    · exact (List.mem_append.1 hr).elim fromHistory_of_mem_cdcRows fromHistory_of_mem_cdcRows

theorem batchRuns_fullRefresh_twoRuns : ∃ ts : List (StableTables murmurText),
    batchRuns StableTables.empty twoRuns = some ts ∧ List.Forall₂ FullRefresh twoRuns ts := by
  have hgrow : twoRuns.IsChain Grows := List.isChain_pair.2
    ⟨Multiset.coe_le.2 (List.sublist_append_left _ _).subperm,
      Multiset.coe_le.2 (List.sublist_append_left _ _).subperm⟩
  have hstable : ∀ run ∈ twoRuns, StableCreation run := fun run hrun =>
    stableCreation_of_history (twoRuns_from run hrun).1 (twoRuns_from run hrun).2
      (by decide) (by decide)
  obtain ⟨hfull, hsome⟩ := batchRuns_fullRefresh murmurText hgrow hstable
  obtain ⟨ts, hts⟩ := Option.isSome_iff_exists.1 <| hsome fun run hrun =>
    carriesKeys_of_history (twoRuns_from run hrun).1 (twoRuns_from run hrun).2
  exact ⟨ts, hts, hfull ts hts⟩

end Given

end Lakehouse.Verify
