import Lakehouse.Verify.SourceMetrics
import Lakehouse.Verify.StableTables

/-!
# The lake follows the source

The whole pipeline as one machine: traffic on the source, reads of the topics at any time, and the
writes of Silver and Gold in any order, each as often as it is started and with any of them failing
in between. No row of a table is made up (`LakeSound`). `silver.orders` and `silver.customers` show
one past state of the source each; `customer_metrics` shows the orders of one and the customers of
another, those that the two tables showed when it was written, and no table is ahead of the one it
is computed from (`LakeShows`). Both hold in every run (`lake_shows_source`).
-/

namespace Lakehouse.Verify

open Lib Source Batch Demo

/-! ## States -/

/-- A state of the source, with all that has been published up to it. -/
structure Snapshot where
  commits : List Commit
  db : Database
  inv : SourceInv commits db

namespace Snapshot

/-- Before the first start of the connector. -/
def none : Snapshot where
  commits := []
  db := ⟨[], [], [], 0, 0, 0⟩
  inv :=
    { tracked := ⟨tracks_nil, tracks_nil, tracks_nil⟩
      sound := ⟨nofun, List.nodup_nil, List.nodup_nil, nofun⟩
      admitted := nofun }

/-- The sample data after the first start of the connector. -/
def sample {c : Commit} {now : Int} (h : Publishes c (snapshotOf (sampleData now))) : Snapshot :=
  ⟨[c], sampleData now, sourceInv_sampleData h⟩

/-- More traffic. -/
def next (p : Snapshot) {commits : List Commit} {db : Database} (h : Segment p.db commits db) :
    Snapshot :=
  ⟨p.commits ++ commits, db, h.inv p.inv⟩

/-- The state is an earlier one, or the same. -/
def Before (p q : Snapshot) : Prop := p.commits <+: q.commits

theorem Before.refl (p : Snapshot) : p.Before p := List.prefix_refl _

theorem Before.trans {p q r : Snapshot} (h : p.Before q) (h' : q.Before r) : p.Before r :=
  List.IsPrefix.trans h h'

theorem none_before (p : Snapshot) : Snapshot.none.Before p := List.nil_prefix

theorem before_next (p : Snapshot) {commits : List Commit} {db : Database}
    (h : Segment p.db commits db) : p.Before (p.next h) := List.prefix_append _ _

variable (p : Snapshot)

/-- The events of the orders lead to the orders of the state. -/
theorem mirrors_orders : orders.Mirrors OrderRow.createdAt (orderEvents p.commits) p.db.orders :=
  tracks_map (fun e : ChangeEvent OrderRow => e.change) p.inv.tracked.orders

/-- So do those of the customers. -/
theorem mirrors_customers :
    customers.Mirrors CustomerRow.createdAt (customerEvents p.commits) p.db.customers :=
  tracks_map (fun e : ChangeEvent CustomerRow => e.change) p.inv.tracked.customers

/-- And those of the items. -/
theorem mirrors_items :
    orderItems.Mirrors OrderItemRow.orderId (itemEvents p.commits) p.db.items :=
  tracks_map (fun e : ChangeEvent OrderItemRow => e.change) p.inv.tracked.items

variable {p} {q : Snapshot}

theorem Before.orderEvents (h : p.Before q) : orderEvents p.commits ⊆ orderEvents q.commits := by
  obtain ⟨rest, hrest⟩ := h
  rw [← hrest]
  exact fun _ he => mem_orderEvents_append he

theorem Before.customerEvents (h : p.Before q) :
    customerEvents p.commits ⊆ customerEvents q.commits := by
  obtain ⟨rest, hrest⟩ := h
  rw [← hrest]
  exact fun _ he => mem_customerEvents_append he

theorem Before.itemEvents (h : p.Before q) : itemEvents p.commits ⊆ itemEvents q.commits := by
  obtain ⟨rest, hrest⟩ := h
  rw [← hrest]
  exact fun _ he => mem_itemEvents_append he

/-- No order leaves the source or changes its time. -/
theorem Before.orders_grow (h : p.Before q) : ∀ o ∈ p.db.orders, ∃ o' ∈ q.db.orders,
    o'.orderId = o.orderId ∧ o'.createdAt = o.createdAt := fun _ ho =>
  p.mirrors_orders.grow q.mirrors_orders h.orderEvents ho

theorem Before.customers_grow (h : p.Before q) : ∀ c ∈ p.db.customers, ∃ c' ∈ q.db.customers,
    c'.customerId = c.customerId ∧ c'.createdAt = c.createdAt := fun _ hc =>
  p.mirrors_customers.grow q.mirrors_customers h.customerEvents hc

end Snapshot

/-- The source, the tables, and which state of the source each of them was made of. -/
structure Lake (bucketHash : String → Nat) where
  source : Snapshot
  bronze : Bronze
  silver : Silver bucketHash
  dailyRevenue : Table dailyRevenueSpec
  customerMetrics : Table (customerMetricsSpec bucketHash)
  /-- The source when the topic of a Bronze table was last read. -/
  read : CdcTable → Snapshot
  /-- What had been read when a Silver table was last written. -/
  shown : CdcTable → Snapshot
  /-- What Silver showed when `customer_metrics` was last written, and the date of the run. -/
  metricsOrders : Snapshot
  metricsCustomers : Snapshot
  metricsToday : Int

section Runs

variable {bucketHash : String → Nat}

/-- Before the first write, with a source at some state. -/
def Lake.start (p : Snapshot) : Lake bucketHash where
  source := p
  bronze := Bronze.empty
  silver := Silver.empty
  dailyRevenue := .empty
  customerMetrics := .empty
  read _ := .none
  shown _ := .none
  metricsOrders := .none
  metricsCustomers := .none
  metricsToday := 0

/-! ## Steps -/

/-- What the topics may hold: changes of the log, and all of those that Bronze does not have. -/
structure Lake.Holds (s : Lake bucketHash) (topics : Topics) : Prop where
  orders : Retains orders (orderEvents s.source.commits) (s.bronze.cdc .cdcOrders)
    (topics "debezium.public.orders")
  customers : Retains customers (customerEvents s.source.commits) (s.bronze.cdc .cdcCustomers)
    (topics "debezium.public.customers")
  items : Retains orderItems (itemEvents s.source.commits) (s.bronze.cdc .cdcOrderItems)
    (topics "debezium.public.order_items")

/-- One table of the three batch jobs. -/
inductive Job where
  | ingest (lane : Lane)
  | silverOrders
  | silverCustomers
  | silverOrderItems
  | goldDailyRevenue
  | goldCustomerMetrics
deriving DecidableEq

/-- The tables of a whole run, in their order. -/
def batch : List Job :=
  lanes.map .ingest ++ [.silverOrders, .silverCustomers, .silverOrderItems, .goldDailyRevenue,
    .goldCustomerMetrics]

/-- The topic of a lane is read. -/
def Lake.ingest (s : Lake bucketHash) (env : String → IngestEnv) (topics : Topics) (lane : Lane) :
    Lake bucketHash :=
  { s with
    bronze := (ingestLane env topics (s.bronze, 0) lane).1
    read := match lane with
      | .cdc _ table => Function.update s.read table s.source
      | .events => s.read }

/-- One table is written. -/
inductive JobStep : Job → Lake bucketHash → Lake bucketHash → Prop
  | ingest {s : Lake bucketHash} {lane : Lane} (hlane : lane ∈ lanes) {topics : Topics}
    (hholds : s.Holds topics) (env : String → IngestEnv) :
      JobStep (.ingest lane) s (s.ingest env topics lane)
  | silverOrders {s : Lake bucketHash} {raw : List CdcRow}
    (hraw : (raw : Multiset CdcRow) = s.bronze.cdc .cdcOrders) {t : Table ordersSpec}
    (hwrite : Batch.silverOrders raw s.silver.orders = some t) :
      JobStep .silverOrders s { s with
        silver := { s.silver with orders := t }
        shown := Function.update s.shown .cdcOrders (s.read .cdcOrders) }
  | silverCustomers {s : Lake bucketHash} {raw : List CdcRow}
    (hraw : (raw : Multiset CdcRow) = s.bronze.cdc .cdcCustomers) {t : Table customersSpec}
    (hwrite : Batch.silverCustomers raw s.silver.customers = some t) :
      JobStep .silverCustomers s { s with
        silver := { s.silver with customers := t }
        shown := Function.update s.shown .cdcCustomers (s.read .cdcCustomers) }
  | silverOrderItems {s : Lake bucketHash} {raw : List CdcRow}
    (hraw : (raw : Multiset CdcRow) = s.bronze.cdc .cdcOrderItems)
    {t : Table (orderItemsSpec bucketHash)}
    (hwrite : Batch.silverOrderItems raw s.silver.orders s.silver.orderItems = some t) :
      JobStep .silverOrderItems s { s with
        silver := { s.silver with orderItems := t }
        shown := Function.update s.shown .cdcOrderItems (s.read .cdcOrderItems) }
  | goldDailyRevenue {s : Lake bucketHash} (computedAt : Int) {t : Table dailyRevenueSpec}
    (hwrite : Batch.goldDailyRevenue s.silver.orders.rows s.silver.orderItems.rows computedAt
      s.dailyRevenue = some t) :
      JobStep .goldDailyRevenue s { s with dailyRevenue := t }
  | goldCustomerMetrics {s : Lake bucketHash} (today computedAt : Int)
    {t : Table (customerMetricsSpec bucketHash)}
    (hwrite : Batch.goldCustomerMetrics s.silver.orders.rows s.silver.customers.rows today computedAt
      s.customerMetrics = some t) :
      JobStep .goldCustomerMetrics s { s with
        customerMetrics := t
        metricsOrders := s.shown .cdcOrders
        metricsCustomers := s.shown .cdcCustomers
        metricsToday := today }

/-- Writes one after the other, while the source rests. -/
inductive JobRun : Lake bucketHash → List Job → Lake bucketHash → Prop
  | nil (s : Lake bucketHash) : JobRun s [] s
  | snoc {s s₁ s' : Lake bucketHash} {jobs : List Job} {j : Job} (hjobs : JobRun s jobs s₁)
    (h : JobStep j s₁ s') : JobRun s (jobs ++ [j]) s'

/-- Writes with traffic in between. -/
inductive LakeRun (s : Lake bucketHash) : Lake bucketHash → Prop
  | start : LakeRun s s
  | traffic {s' : Lake bucketHash} {commits : List Commit} {db : Database} (hrun : LakeRun s s')
    (h : Segment s'.source.db commits db) : LakeRun s { s' with source := s'.source.next h }
  | job {s₁ s' : Lake bucketHash} {j : Job} (hrun : LakeRun s s₁) (h : JobStep j s₁ s') :
      LakeRun s s'

/-! ## What every table holds -/

/-- A Silver item is an image of the log, with the time of its order in the source or with none. -/
structure ItemOf (p : Snapshot) (r : SilverOrderItem) : Prop where
  image : ∃ a ∈ (itemEvents p.commits).filterMap (·.change.after), ∃ op now,
    r.toLineItem = orderItems.silverRow op now a
  dated : ∀ t ∈ r.orderCreatedAt, ∃ o ∈ p.db.orders,
    r.orderId = some o.orderId.toInt.repr ∧ o.createdAt = t

/-- Bronze presents what has been read, and no row of Silver is made up. -/
structure LakeSound (s : Lake bucketHash) : Prop where
  readBefore : ∀ table, (s.read table).Before s.source
  shownBefore : ∀ table, (s.shown table).Before (s.read table)
  bronzeOrders : orders.Presents (orderEvents (s.read .cdcOrders).commits) (s.bronze.cdc .cdcOrders)
  bronzeCustomers : customers.Presents (customerEvents (s.read .cdcCustomers).commits)
    (s.bronze.cdc .cdcCustomers)
  bronzeItems : orderItems.Presents (itemEvents (s.read .cdcOrderItems).commits)
    (s.bronze.cdc .cdcOrderItems)
  silverOrders : orders.ImagesOf (orderEvents s.source.commits) s.silver.orders.rows
  silverCustomers : customers.ImagesOf (customerEvents s.source.commits) s.silver.customers.rows
  silverItems : ∀ r ∈ s.silver.orderItems.rows, ItemOf s.source r

theorem lakeSound_start (p : Snapshot) : LakeSound (Lake.start p : Lake bucketHash) where
  readBefore _ := Snapshot.none_before p
  shownBefore _ := Snapshot.Before.refl _
  bronzeOrders := ⟨fun r hr => absurd hr (Multiset.notMem_zero r), nofun⟩
  bronzeCustomers := ⟨fun r hr => absurd hr (Multiset.notMem_zero r), nofun⟩
  bronzeItems := ⟨fun r hr => absurd hr (Multiset.notMem_zero r), nofun⟩
  silverOrders r hr := absurd hr (Multiset.notMem_zero r)
  silverCustomers r hr := absurd hr (Multiset.notMem_zero r)
  silverItems r hr := absurd hr (Multiset.notMem_zero r)

theorem ItemOf.mono {p q : Snapshot} {r : SilverOrderItem} (h : ItemOf p r) (hle : p.Before q) :
    ItemOf q r where
  image := by
    obtain ⟨a, ha, hrow⟩ := h.image
    obtain ⟨e, he, hafter⟩ := List.mem_filterMap.1 ha
    exact ⟨a, List.mem_filterMap.2 ⟨e, hle.itemEvents he, hafter⟩, hrow⟩
  dated := by
    intro t ht
    obtain ⟨o, ho, hid, rfl⟩ := h.dated t ht
    obtain ⟨o', ho', hk, hcreated⟩ := hle.orders_grow o ho
    exact ⟨o', ho', by rw [hid, hk], hcreated⟩

/-- Traffic makes no row up. -/
theorem LakeSound.traffic {s : Lake bucketHash} (hs : LakeSound s) {commits : List Commit}
    {db : Database} (h : Segment s.source.db commits db) :
    LakeSound { s with source := s.source.next h } := by
  have hle := s.source.before_next h
  exact
    { hs with
      readBefore := fun table => (hs.readBefore table).trans hle
      silverOrders := hs.silverOrders.mono hle.orderEvents
      silverCustomers := hs.silverCustomers.mono hle.customerEvents
      silverItems := fun r hr => (hs.silverItems r hr).mono hle }

/-- A read of a topic. -/
theorem LakeSound.ingest {s : Lake bucketHash} (hs : LakeSound s) {lane : Lane}
    (hlane : lane ∈ lanes) {topics : Topics} (hholds : s.Holds topics) (env : String → IngestEnv) :
    LakeSound (s.ingest env topics lane) := by
  have hread : ∀ table table', (Function.update s.read table s.source table').Before s.source ∧
      (s.shown table').Before (Function.update s.read table s.source table') := by
    intro table table'
    rcases eq_or_ne table' table with rfl | hne
    · rw [Function.update_self]
      exact ⟨Snapshot.Before.refl _, (hs.shownBefore _).trans (hs.readBefore _)⟩
    · rw [Function.update_of_ne hne]
      exact ⟨hs.readBefore _, hs.shownBefore _⟩
  simp only [lanes, cdcTopics, List.map_cons, List.map_nil, List.mem_append, List.mem_cons,
    List.not_mem_nil, or_false] at hlane
  rcases hlane with (rfl | rfl | rfl) | rfl
  · have hcdc := ingestLane_cdc env topics s.bronze "debezium.public.orders" .cdcOrders
    have hnew := hs.bronzeOrders.ingest (hs.readBefore _).orderEvents hholds.orders
      (env "debezium.public.orders").uuid (env "debezium.public.orders").now
    exact
      { hs with
        readBefore := fun table => (hread .cdcOrders table).1
        shownBefore := fun table => (hread .cdcOrders table).2
        bronzeOrders := (congrFun hcdc .cdcOrders).symm ▸ hnew
        bronzeCustomers := (congrFun hcdc .cdcCustomers).symm ▸ hs.bronzeCustomers
        bronzeItems := (congrFun hcdc .cdcOrderItems).symm ▸ hs.bronzeItems }
  · have hcdc := ingestLane_cdc env topics s.bronze "debezium.public.customers" .cdcCustomers
    have hnew := hs.bronzeCustomers.ingest (hs.readBefore _).customerEvents hholds.customers
      (env "debezium.public.customers").uuid (env "debezium.public.customers").now
    exact
      { hs with
        readBefore := fun table => (hread .cdcCustomers table).1
        shownBefore := fun table => (hread .cdcCustomers table).2
        bronzeOrders := (congrFun hcdc .cdcOrders).symm ▸ hs.bronzeOrders
        bronzeCustomers := (congrFun hcdc .cdcCustomers).symm ▸ hnew
        bronzeItems := (congrFun hcdc .cdcOrderItems).symm ▸ hs.bronzeItems }
  · have hcdc := ingestLane_cdc env topics s.bronze "debezium.public.order_items" .cdcOrderItems
    have hnew := hs.bronzeItems.ingest (hs.readBefore _).itemEvents hholds.items
      (env "debezium.public.order_items").uuid (env "debezium.public.order_items").now
    exact
      { hs with
        readBefore := fun table => (hread .cdcOrderItems table).1
        shownBefore := fun table => (hread .cdcOrderItems table).2
        bronzeOrders := (congrFun hcdc .cdcOrders).symm ▸ hs.bronzeOrders
        bronzeCustomers := (congrFun hcdc .cdcCustomers).symm ▸ hs.bronzeCustomers
        bronzeItems := (congrFun hcdc .cdcOrderItems).symm ▸ hnew }
  · exact { hs with }

/-- The items that are written carry the times of orders of the source. -/
theorem itemOf_enrich {p q : Snapshot} (hle : q.Before p) {silverOrders : Multiset SilverOrder}
    (horders : orders.ImagesOf (orderEvents p.commits) silverOrders) {raw : List CdcRow}
    (hraw : orderItems.Presents (itemEvents q.commits) (raw : Multiset CdcRow)) :
    ∀ r ∈ enrichItems silverOrders (latestItems raw), ItemOf p r := by
  intro r hr
  obtain ⟨hitem, hdate⟩ := mem_enrichItems hr
  refine ⟨(Captured.latest_imagesOf hraw).mono hle.itemEvents _ hitem, fun t ht => ?_⟩
  rcases hdate with ⟨hnone, -⟩ | ⟨o, ho, hid, hcreated⟩
  · rw [hnone] at ht
    cases ht
  · obtain ⟨a, ha, op, now, rfl⟩ := horders o ho
    obtain ⟨e, he, hafter⟩ := List.mem_filterMap.1 ha
    obtain ⟨b, hb, b', hb', hk, hfixed⟩ := p.mirrors_orders.images e he
    obtain rfl := Option.some.inj (hb.symm.trans hafter)
    rw [hcreated] at ht
    obtain rfl : b.createdAt = t := Option.some.inj ht
    refine ⟨b', hb', ?_, hfixed⟩
    rw [hid, show b'.orderId = b.orderId from hk]
    rfl

/-- **Every write keeps the tables sound.** -/
theorem JobStep.sound {s s' : Lake bucketHash} {j : Job} (h : JobStep j s s') (hs : LakeSound s) :
    LakeSound s' := by
  have hshown : ∀ table table',
      (Function.update s.shown table (s.read table) table').Before (s.read table') := by
    intro table table'
    rcases eq_or_ne table' table with rfl | hne
    · rw [Function.update_self]
      exact Snapshot.Before.refl _
    · rw [Function.update_of_ne hne]
      exact hs.shownBefore _
  cases h with
  | ingest hlane hholds env => exact hs.ingest hlane hholds env
  | silverOrders hraw hwrite =>
    refine { hs with shownBefore := hshown _, silverOrders := ?_ }
    exact Table.forall_overwritePartitions hwrite hs.silverOrders <|
      (Captured.latest_imagesOf (T := orders) (hraw ▸ hs.bronzeOrders)).mono
        (hs.readBefore _).orderEvents
  | silverCustomers hraw hwrite =>
    refine { hs with shownBefore := hshown _, silverCustomers := ?_ }
    exact Table.forall_overwritePartitions hwrite hs.silverCustomers <|
      (Captured.latest_imagesOf (T := customers) (hraw ▸ hs.bronzeCustomers)).mono
        (hs.readBefore _).customerEvents
  | silverOrderItems hraw hwrite =>
    refine { hs with shownBefore := hshown _, silverItems := ?_ }
    exact Table.forall_overwritePartitions hwrite hs.silverItems <|
      itemOf_enrich (hs.readBefore _) hs.silverOrders (hraw ▸ hs.bronzeItems)
  | goldDailyRevenue => exact { hs with }
  | goldCustomerMetrics => exact { hs with }

/-- Writes make no row up. -/
theorem JobRun.sound {s s' : Lake bucketHash} {jobs : List Job} (h : JobRun s jobs s')
    (hs : LakeSound s) : LakeSound s' := by
  induction h with
  | nil => exact hs
  | snoc _ hstep ih => exact hstep.sound ih

/-- No row is made up in any state. -/
theorem LakeRun.sound {s s' : Lake bucketHash} (h : LakeRun s s') (hs : LakeSound s) :
    LakeSound s' := by
  induction h with
  | start => exact hs
  | traffic _ hsegment ih => exact ih.traffic hsegment
  | job _ hstep ih => exact hstep.sound ih

/-! ## No write is rejected -/

section Writes

variable {s : Lake bucketHash} {raw : List CdcRow}

/-- The write of the orders is accepted. -/
theorem exists_silverOrders (hs : LakeSound s)
    (hraw : (raw : Multiset CdcRow) = s.bronze.cdc .cdcOrders) :
    ∃ t, silverOrders raw s.silver.orders = some t :=
  Captured.exists_overwrite (T := orders) s.silver.orders (hraw ▸ hs.bronzeOrders) fun _ _ _ => rfl

/-- So is that of the customers. -/
theorem exists_silverCustomers (hs : LakeSound s)
    (hraw : (raw : Multiset CdcRow) = s.bronze.cdc .cdcCustomers) :
    ∃ t, silverCustomers raw s.silver.customers = some t :=
  Captured.exists_overwrite (T := customers) s.silver.customers (hraw ▸ hs.bronzeCustomers)
    fun _ _ _ => rfl

/-- And that of the items. -/
theorem exists_silverOrderItems (hs : LakeSound s)
    (hraw : (raw : Multiset CdcRow) = s.bronze.cdc .cdcOrderItems) (orders : Table ordersSpec) :
    ∃ t, silverOrderItems raw orders s.silver.orderItems = some t := by
  apply s.silver.orderItems.exists_overwritePartitions
  intro r hr
  obtain ⟨a, -, op, now, hrow⟩ :=
    Captured.latest_imagesOf (T := orderItems) (hraw ▸ hs.bronzeItems) _ (mem_enrichItems hr).1
  change (r.toLineItem.itemId.isSome && r.toLineItem.orderId.isSome &&
    r.toLineItem.productId.isSome) = true
  rw [hrow]
  rfl

/-- The write of daily revenue is accepted, since no order is without a time. -/
theorem exists_goldDailyRevenue (hs : LakeSound s) (computedAt : Int) :
    ∃ t, goldDailyRevenue s.silver.orders.rows s.silver.orderItems.rows computedAt s.dailyRevenue =
      some t := by
  let run : GoldRun := ⟨⟨s.silver.orders.rows, s.silver.orderItems.rows⟩, computedAt⟩
  have hrequired : Dated run.silver → ∀ r ∈ run.rows, dailyRevenueSpec.required r = true :=
    required_of_dated
  refine s.dailyRevenue.exists_overwritePartitions (hrequired fun o ho => ?_)
  obtain ⟨a, -, op, now, rfl⟩ := hs.silverOrders o ho
  rfl

/-- The write of the customer metrics is accepted. -/
theorem exists_goldCustomerMetrics (s : Lake bucketHash) (today computedAt : Int) :
    ∃ t, goldCustomerMetrics s.silver.orders.rows s.silver.customers.rows today computedAt
      s.customerMetrics = some t := by
  apply s.customerMetrics.exists_overwritePartitions
  intro m hm
  have hk := Multiset.mem_map_of_mem CustomerMetrics.customerId hm
  rw [customerMetricsRows_keys] at hk
  obtain ⟨c, hc, hck⟩ := Multiset.mem_map.1 hk
  change m.customerId.isSome = true
  rw [← hck]
  exact s.silver.customers.valid c (Multiset.mem_filter.1 hc).1

end Writes

/-! ## What the tables show -/

/-- `ts_ms` tells the last change of each row. -/
structure TimesTell (commits : List Commit) : Prop where
  orders : orders.TellsLast (orderEvents commits)
  customers : customers.TellsLast (customerEvents commits)
  items : orderItems.TellsLast (itemEvents commits)

theorem TimesTell.before {p q : Snapshot} (h : TimesTell q.commits) (hle : p.Before q) :
    TimesTell p.commits := by
  obtain ⟨rest, hrest⟩ := hle
  rw [← hrest] at h
  obtain ⟨horders, hcustomers, hitems⟩ := h
  rw [orderEvents, List.flatMap_append] at horders
  rw [customerEvents, List.flatMap_append] at hcustomers
  rw [itemEvents, List.flatMap_append] at hitems
  exact ⟨(List.pairwise_append.1 horders).1, (List.pairwise_append.1 hcustomers).1,
    (List.pairwise_append.1 hitems).1⟩

/-- Each table shows the state of the source it was made of, and none is ahead of its input. -/
structure LakeShows (s : Lake bucketHash) : Prop where
  silverOrders : orders.Shows s.silver.orders.rows (s.shown .cdcOrders).db.orders
  silverCustomers : customers.Shows s.silver.customers.rows (s.shown .cdcCustomers).db.customers
  metricsOrdersBefore : s.metricsOrders.Before (s.shown .cdcOrders)
  metricsCustomersBefore : s.metricsCustomers.Before (s.shown .cdcCustomers)
  metrics : ShowsMetrics s.customerMetrics.rows s.metricsOrders.db s.metricsCustomers.db
    s.metricsToday

theorem lakeShows_start (p : Snapshot) : LakeShows (Lake.start p : Lake bucketHash) where
  silverOrders := ⟨fun _ => ("c", 0), nofun, rfl⟩
  silverCustomers := ⟨fun _ => ("c", 0), nofun, rfl⟩
  metricsOrdersBefore := Snapshot.Before.refl _
  metricsCustomersBefore := Snapshot.Before.refl _
  metrics := ⟨rfl, fun m hm => absurd hm (Multiset.notMem_zero m)⟩

/-- The metrics of customers that do not leave keep their partitions. -/
theorem ShowsMetrics.covered {rows rows' : Multiset CustomerMetrics} {os os' cs cs' : Database}
    {today today' : Int} (h : ShowsMetrics rows os cs today) (h' : ShowsMetrics rows' os' cs' today')
    (hgrow : ∀ c ∈ cs.customers, ∃ c' ∈ cs'.customers, c'.customerId = c.customerId) :
    Table.Covered (customerMetricsSpec bucketHash) rows rows' := by
  intro m hm
  obtain ⟨c, hc, hid, -⟩ := h.figures m hm
  obtain ⟨c', hc', hk⟩ := hgrow c hc
  have hmem : some c'.customerId.toInt.repr ∈ rows'.map CustomerMetrics.customerId := by
    rw [h'.customers]
    exact Multiset.mem_map_of_mem (fun c : CustomerRow => some c.customerId.toInt.repr)
      (Multiset.mem_coe.2 hc')
  obtain ⟨m', hm', hid'⟩ := Multiset.mem_map.1 hmem
  exact ⟨m', hm', congrArg (bucket bucketHash 32) (hid'.trans (by rw [hid, hk]))⟩

/-- **Every write keeps each table at one state of the source.** -/
theorem JobStep.shows {s s' : Lake bucketHash} {j : Job} (h : JobStep j s s') (hs : LakeSound s)
    (htimes : TimesTell s.source.commits) (hshows : LakeShows s) : LakeShows s' := by
  have hread := fun table => htimes.before (hs.readBefore table)
  cases h with
  | ingest => exact { hshows with }
  | silverOrders hraw hwrite =>
    refine { hshows with silverOrders := ?_, metricsOrdersBefore := ?_ }
    · exact Captured.shows_overwrite (s.read .cdcOrders).mirrors_orders
        (hread .cdcOrders).orders.tiesAgree (hraw ▸ hs.bronzeOrders) hwrite hshows.silverOrders
        (hs.shownBefore _).orders_grow fun _ _ _ _ _ _ _ hcreated => congrArg (days ∘ some) hcreated
    · exact hshows.metricsOrdersBefore.trans (hs.shownBefore _)
  | silverCustomers hraw hwrite =>
    refine { hshows with silverCustomers := ?_, metricsCustomersBefore := ?_ }
    · exact Captured.shows_overwrite (s.read .cdcCustomers).mirrors_customers
        (hread .cdcCustomers).customers.tiesAgree (hraw ▸ hs.bronzeCustomers) hwrite
        hshows.silverCustomers (hs.shownBefore _).customers_grow
        fun _ _ _ _ _ _ _ hcreated => congrArg (days ∘ some) hcreated
    · exact hshows.metricsCustomersBefore.trans (hs.shownBefore _)
  | silverOrderItems => exact { hshows with }
  | goldDailyRevenue => exact { hshows with }
  | goldCustomerMetrics today computedAt hwrite =>
    have hrows := showsMetrics_rows hshows.silverOrders hshows.silverCustomers today computedAt
    refine { hshows with
      metricsOrdersBefore := Snapshot.Before.refl _
      metricsCustomersBefore := Snapshot.Before.refl _
      metrics := ?_ }
    rw [(Table.overwritePartitions_eq_iff hwrite).2 <| hshows.metrics.covered hrows fun c hc => by
      obtain ⟨c', hc', hk, -⟩ := hshows.metricsCustomersBefore.customers_grow c hc
      exact ⟨c', hc', hk⟩]
    exact hrows

/-- A write leaves the source alone. -/
theorem JobStep.source_eq {s s' : Lake bucketHash} {j : Job} (h : JobStep j s s') :
    s'.source = s.source := by
  cases h <;> rfl

theorem JobRun.source_eq {s s' : Lake bucketHash} {jobs : List Job} (h : JobRun s jobs s') :
    s'.source = s.source := by
  induction h with
  | nil => rfl
  | snoc _ hstep ih => exact hstep.source_eq.trans ih

/-- Writes after a run are a run. -/
theorem JobRun.lakeRun {s s₁ s' : Lake bucketHash} {jobs : List Job} (hrun : LakeRun s s₁)
    (h : JobRun s₁ jobs s') : LakeRun s s' := by
  induction h with
  | nil => exact hrun
  | snoc _ hstep ih => exact .job ih hstep

/-- The tables show their states in every run. -/
theorem LakeRun.shows {s s' : Lake bucketHash} (h : LakeRun s s') (hs : LakeSound s)
    (hshows : LakeShows s) (htimes : TimesTell s'.source.commits) : LakeShows s' := by
  induction h with
  | start => exact hshows
  | @traffic s₁ _ _ _ hsegment ih =>
    exact { ih (htimes.before (s₁.source.before_next hsegment)) with }
  | job hrun hstep ih =>
    rw [hstep.source_eq] at htimes
    exact hstep.shows (hrun.sound hs) htimes (ih htimes)

/-! ## Every run -/

variable {p : Snapshot} {s : Lake bucketHash}

/-- **The lake follows the source.** In every run, whatever traffic comes between the writes and
whichever writes are made, skipped or repeated: no row is made up, and as long as `ts_ms` tells the
last change of each row, `silver.orders` and `silver.customers` show one state of the source each,
and `customer_metrics` the orders of one state and the customers of another, none of them ahead of
the table it is made of. -/
theorem lake_shows_source (hrun : LakeRun (Lake.start p) s) :
    LakeSound s ∧ (TimesTell s.source.commits → LakeShows s) :=
  ⟨hrun.sound (lakeSound_start p), hrun.shows (lakeSound_start p) (lakeShows_start p)⟩

/-- **No write is rejected** in any state of any run, however Spark presents the rows. -/
theorem lake_rejects_nothing (hrun : LakeRun (Lake.start p) s) :
    (∀ raw : Presentation, raw.Of s.bronze →
      ∃ silver, silverTransform raw s.silver = some silver) ∧
    (∀ computedAt, ∃ t, goldDailyRevenue s.silver.orders.rows s.silver.orderItems.rows computedAt
      s.dailyRevenue = some t) ∧
    ∀ today computedAt, ∃ t, goldCustomerMetrics s.silver.orders.rows s.silver.customers.rows today
      computedAt s.customerMetrics = some t := by
  have hs := hrun.sound (lakeSound_start p)
  refine ⟨fun raw hraw => ?_, exists_goldDailyRevenue hs, exists_goldCustomerMetrics s⟩
  obtain ⟨orders, horders⟩ := exists_silverOrders hs (hraw .cdcOrders)
  obtain ⟨customers, hcustomers⟩ := exists_silverCustomers hs (hraw .cdcCustomers)
  obtain ⟨items, hitems⟩ := exists_silverOrderItems hs (hraw .cdcOrderItems) orders
  refine ⟨⟨orders, customers, items⟩, ?_⟩
  rw [silverTransform, horders, Option.bind_some, hcustomers, Option.bind_some, hitems,
    Option.map_some]

/-- What is written can be written. -/
theorem exists_jobStep (hs : LakeSound s) : ∀ j ∈ batch, ∃ s', JobStep j s s' := by
  obtain ⟨rawOrders, hrawOrders⟩ := Quotient.exists_rep (s.bronze.cdc .cdcOrders)
  obtain ⟨rawCustomers, hrawCustomers⟩ := Quotient.exists_rep (s.bronze.cdc .cdcCustomers)
  obtain ⟨rawItems, hrawItems⟩ := Quotient.exists_rep (s.bronze.cdc .cdcOrderItems)
  obtain ⟨horders, hcustomers, hitems⟩ := carries_topicsOf (orderEvents s.source.commits)
    (customerEvents s.source.commits) (itemEvents s.source.commits)
  have hholds : s.Holds (topicsOf (orderEvents s.source.commits) (customerEvents s.source.commits)
      (itemEvents s.source.commits)) :=
    ⟨⟨_, horders, .refl _, fun _ he => .inl he⟩, ⟨_, hcustomers, .refl _, fun _ he => .inl he⟩,
      ⟨_, hitems, .refl _, fun _ he => .inl he⟩⟩
  intro j hj
  cases j with
  | ingest lane =>
    have hlane : lane ∈ lanes := by
      rcases List.mem_append.1 hj with hmem | hmem
      · obtain ⟨lane', hlane', heq⟩ := List.mem_map.1 hmem
        obtain rfl := Job.ingest.inj heq
        exact hlane'
      · simp at hmem
    exact ⟨_, .ingest hlane hholds anEnv⟩
  | silverOrders =>
    obtain ⟨t, ht⟩ := exists_silverOrders hs hrawOrders
    exact ⟨_, .silverOrders hrawOrders ht⟩
  | silverCustomers =>
    obtain ⟨t, ht⟩ := exists_silverCustomers hs hrawCustomers
    exact ⟨_, .silverCustomers hrawCustomers ht⟩
  | silverOrderItems =>
    obtain ⟨t, ht⟩ := exists_silverOrderItems hs hrawItems s.silver.orders
    exact ⟨_, .silverOrderItems hrawItems ht⟩
  | goldDailyRevenue =>
    obtain ⟨t, ht⟩ := exists_goldDailyRevenue hs 0
    exact ⟨_, .goldDailyRevenue 0 ht⟩
  | goldCustomerMetrics =>
    obtain ⟨t, ht⟩ := exists_goldCustomerMetrics s 0 0
    exact ⟨_, .goldCustomerMetrics 0 0 ht⟩

theorem exists_jobRun (hs : LakeSound s) {jobs : List Job} (hjobs : ∀ j ∈ jobs, j ∈ batch) :
    ∃ s', JobRun s jobs s' := by
  induction jobs using List.reverseRecOn with
  | nil => exact ⟨s, .nil s⟩
  | append_singleton jobs j ih =>
    obtain ⟨s₁, hrun⟩ := ih fun j' hj' => hjobs j' (List.mem_append_left _ hj')
    obtain ⟨s', hstep⟩ := exists_jobStep (hrun.sound hs) j
      (hjobs j (List.mem_append_right _ (.head _)))
    exact ⟨s', .snoc hrun hstep⟩

end Runs

/-! ## A run on the sample data -/

section Given

/-- The events of a transaction, all at one time. -/
def commitOf (tsMs : Int64) (log : List RowChange) : Commit where
  orders := (Demo.orderChanges log).map fun c => ⟨c, tsMs, none⟩
  customers := (customerChanges log).map fun c => ⟨c, tsMs, none⟩
  items := (itemChanges log).map fun c => ⟨c, tsMs, none⟩

theorem publishes_commitOf (tsMs : Int64) (log : List RowChange) :
    Publishes (commitOf tsMs log) log := by
  constructor <;> exact (List.map_map ..).trans (List.map_id _)

/-- The sample data of the database, at the epoch. -/
def sampleSnapshot : Snapshot := .sample (publishes_commitOf 1 (snapshotOf (sampleData 0)))

/-- The pending order is confirmed. -/
def confirmation : List RowChange := updatedOrders (sampleData 0) 2 (setStatus "confirmed" 5)

theorem confirmed_segment : Segment sampleSnapshot.db [commitOf 2 confirmation]
    ((sampleData 0).updateOrder 2 (setStatus "confirmed" 5)) := by
  have hlog : Transaction (sampleData 0) (confirmation ++ []) _ :=
    .cons (.setStatus (sampleData 0) 2 "confirmed" 5) (.nil _)
  rw [List.append_nil] at hlog
  have hexec : (Action.progressOrder 0 0).exec 5 (sampleData 0) = some _ := rfl
  exact .commit hexec hlog (publishes_commitOf 2 _) (.nil _)

theorem timesTell_confirmed : TimesTell (sampleSnapshot.next confirmed_segment).commits :=
  ⟨by decide, by decide, by decide⟩

/-- The lake before its first batch. -/
def confirmedLake : Lake murmurText :=
  { Lake.start sampleSnapshot with source := sampleSnapshot.next confirmed_segment }

theorem confirmedLake_run : LakeRun (Lake.start sampleSnapshot) confirmedLake :=
  .traffic .start confirmed_segment

theorem exists_confirmed_batch : ∃ s, JobRun confirmedLake batch s :=
  exists_jobRun (confirmedLake_run.sound (lakeSound_start _)) fun _ hj => hj

theorem lake_shows_source_confirmed : ∃ s : Lake murmurText,
    LakeRun (Lake.start sampleSnapshot) s ∧
      s.source = sampleSnapshot.next confirmed_segment ∧ LakeShows s := by
  obtain ⟨s, hjobs⟩ := exists_confirmed_batch
  have hrun := hjobs.lakeRun confirmedLake_run
  exact ⟨s, hrun, hjobs.source_eq,
    (lake_shows_source hrun).2 (hjobs.source_eq ▸ timesTell_confirmed)⟩

theorem lake_rejects_nothing_confirmed : ∃ s : Lake murmurText,
    LakeRun (Lake.start sampleSnapshot) s ∧ ∀ raw : Presentation, raw.Of s.bronze →
      ∃ silver, silverTransform raw s.silver = some silver := by
  obtain ⟨s, hjobs⟩ := exists_confirmed_batch
  have hrun := hjobs.lakeRun confirmedLake_run
  exact ⟨s, hrun, (lake_rejects_nothing hrun).1⟩

end Given

end Lakehouse.Verify
