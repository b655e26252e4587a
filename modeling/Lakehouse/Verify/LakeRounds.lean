import Lakehouse.Verify.LakeRuns
import Lakehouse.Verify.SourceRevenue

/-!
# Batches while the source rests

Rounds of traffic and of writes, where no traffic comes between the writes of a round and each write
comes after those it reads from; a round may stop after any write and repeat any of them. Then every
item has one row with the time of its order (`ItemsShow`), and after a round with all tables Silver
and Gold show the source as it is (`quietBatch_shows_source`).
-/

namespace Lakehouse.Verify

open Lib Source Batch Demo

/-! ## Tables -/

/-- The rows of the months that have a revenue order. -/
def inRevenueMonths (db : Database) (rows : Multiset DailyRevenue) : Multiset DailyRevenue :=
  rows.filter fun r =>
    months r.reportDate ∈ (revenueRows db).map fun o => months (some (dateOf o.createdAt))

/-- A write of daily revenue refreshes the months of the source. -/
theorem inRevenueMonths_overwrite {db : Database} {t t' : Table dailyRevenueSpec}
    {new : Multiset DailyRevenue} (h : t.overwritePartitions new = some t')
    (hnew : ShowsRevenue new db) : inRevenueMonths db t'.rows = new := by
  refine Eq.trans (Multiset.filter_congr fun r _ => ?_) (Table.overwritePartitions_filter h)
  rw [Multiset.mem_map, Multiset.mem_map]
  constructor
  · rintro ⟨o, ho, hmonth⟩
    obtain ⟨r', hr', hdate⟩ := Multiset.mem_map.1 ((hnew.days _).2 (placedOn_ne_zero ho))
    exact ⟨r', hr', (congrArg months hdate).trans hmonth⟩
  · rintro ⟨r', hr', hmonth⟩
    obtain ⟨day, hdate, -⟩ := hnew.figures r' hr'
    have hday := (hnew.days day).1 (hdate ▸ Multiset.mem_map_of_mem DailyRevenue.reportDate hr')
    obtain ⟨o, ho⟩ := Multiset.exists_mem_of_ne_zero hday
    obtain ⟨hrow, rfl⟩ := Multiset.mem_filter.1 ho
    exact ⟨o, hrow, (congrArg months hdate).symm.trans hmonth⟩

/-! ## Items with the times of their orders -/

section Items

variable {bucketHash : String → Nat} {p : Snapshot} {silverOrders : Multiset SilverOrder}
  {raw : List CdcRow}

theorem orderIds_nodup (horders : orders.Shows silverOrders p.db.orders) :
    (silverOrders.map SilverOrder.orderId).Nodup := horders.keys_nodup p.inv.sound.orderIds

/-- Every item of the source finds its order. -/
theorem enrichItems_dated (horders : orders.Shows silverOrders p.db.orders)
    (hlatest : orderItems.Shows (latestItems raw : Multiset LineItem) p.db.items) :
    ∀ r ∈ enrichItems silverOrders (latestItems raw), r.orderCreatedAt.isSome = true := by
  intro r hr
  obtain ⟨hitem, ⟨-, hnone⟩ | ⟨o, ho, -, hcreated⟩⟩ := mem_enrichItems hr
  · obtain ⟨tag, -, hrows⟩ := hlatest
    rw [hrows] at hitem
    obtain ⟨i, hi, hrow⟩ := Multiset.mem_map.1 hitem
    have horderId : r.orderId = some i.orderId.toInt.repr :=
      (congrArg LineItem.orderId hrow).symm
    obtain ⟨o, ho, hid⟩ := p.inv.sound.itemOrder i (Multiset.mem_coe.1 hi)
    have hkey : some o.orderId.toInt.repr ∈ silverOrders.map SilverOrder.orderId := by
      rw [show SilverOrder.orderId = orders.keyCol from rfl, horders.keys]
      exact Multiset.mem_map_of_mem (fun o : OrderRow => some (orders.key o).toInt.repr)
        (Multiset.mem_coe.2 ho)
    obtain ⟨o', ho', hk⟩ := Multiset.mem_map.1 hkey
    exact absurd (by rw [horderId, hk, hid]) (hnone o' ho' (by rw [horderId]; rfl))
  · obtain ⟨tag, -, hrows⟩ := horders
    rw [hrows] at ho
    obtain ⟨a, -, rfl⟩ := Multiset.mem_map.1 ho
    rw [hcreated]
    rfl

/-- A dated item stays in its partition. -/
theorem enrichItems_covers {q : Snapshot} (hle : q.Before p)
    (horders : orders.Shows silverOrders p.db.orders)
    (hlatest : orderItems.Shows (latestItems raw : Multiset LineItem) p.db.items)
    (hnew : ∀ r ∈ enrichItems silverOrders (latestItems raw), ItemOf p r)
    {old : Multiset SilverOrderItem} (hold : ∀ r ∈ old, ItemOf p r)
    (hshows : orderItems.Shows (old.map SilverOrderItem.toLineItem) q.db.items)
    (hdated : ∀ r ∈ old, r.orderCreatedAt.isSome = true) :
    Table.Covered (orderItemsSpec bucketHash) old (enrichItems silverOrders (latestItems raw)) := by
  intro r hr
  obtain ⟨t, ht⟩ := Option.isSome_iff_exists.1 (hdated r hr)
  obtain ⟨o, ho, hid, rfl⟩ := (hold r hr).dated t ht
  obtain ⟨tag, -, hrows⟩ := hshows
  obtain ⟨i, hi, hrow⟩ := Multiset.mem_map.1 (hrows ▸ Multiset.mem_map_of_mem _ hr)
  obtain ⟨i', hi', -, horder⟩ :=
    q.mirrors_items.grow p.mirrors_items hle.itemEvents (Multiset.mem_coe.1 hi)
  -- the row of the same item in the new rows, and its order
  obtain ⟨tag', -, hrows'⟩ := id hlatest
  have hitem : orderItems.silverRow (tag' i').1 (tag' i').2 i' ∈
      (latestItems raw : Multiset LineItem) := by
    rw [hrows']
    exact Multiset.mem_map_of_mem (fun i => orderItems.silverRow (tag' i).1 (tag' i).2 i)
      (Multiset.mem_coe.2 hi')
  obtain ⟨r', hr', hrow'⟩ := exists_mem_enrichItems (orderIds_nodup horders) hitem
  obtain ⟨t', ht'⟩ := Option.isSome_iff_exists.1 (enrichItems_dated horders hlatest r' hr')
  obtain ⟨o', ho', hid', rfl⟩ := (hnew r' hr').dated t' ht'
  have horderId : r'.orderId = r.orderId := by
    rw [hrow', ← hrow]
    exact congrArg (fun id : Int64 => some id.toInt.repr) horder
  rw [hid, hid', Option.some.injEq, repr_int64_inj] at horderId
  obtain rfl := p.mirrors_orders.eq_of_key ho ho' horderId
  refine ⟨r', hr', ?_⟩
  change (days r'.orderCreatedAt, bucket bucketHash 16 r'.orderId) =
    (days r.orderCreatedAt, bucket bucketHash 16 r.orderId)
  rw [ht, ht', hid, hid']

end Items

section Rounds

variable {bucketHash : String → Nat}

/-- One row for each item that was shown, with the time of its order. -/
structure ItemsShow (s : Lake bucketHash) : Prop where
  shows : orderItems.Shows (s.silver.orderItems.rows.map SilverOrderItem.toLineItem)
    (s.shown .cdcOrderItems).db.items
  dated : ∀ r ∈ s.silver.orderItems.rows, r.orderCreatedAt.isSome = true

theorem itemsShow_start (p : Snapshot) : ItemsShow (Lake.start p : Lake bucketHash) where
  shows := ⟨fun _ => ("c", 0), nofun, rfl⟩
  dated r hr := absurd hr (Multiset.notMem_zero r)

/-- **A write of the items refreshes the table** when their orders are there. -/
theorem items_written {s : Lake bucketHash} (hs : LakeSound s) (hshows : LakeShows s)
    (htimes : TimesTell s.source.commits) (hitems : ItemsShow s)
    (hread : s.read .cdcOrderItems = s.source) (hshown : s.shown .cdcOrders = s.source)
    {raw : List CdcRow} (hraw : (raw : Multiset CdcRow) = s.bronze.cdc .cdcOrderItems)
    {t : Table (orderItemsSpec bucketHash)}
    (hwrite : silverOrderItems raw s.silver.orders s.silver.orderItems = some t) :
    orderItems.Shows (t.rows.map SilverOrderItem.toLineItem) s.source.db.items ∧
      ∀ r ∈ t.rows, r.orderCreatedAt.isSome = true := by
  have hbronze : orderItems.Presents (itemEvents s.source.commits) (raw : Multiset CdcRow) := by
    rw [← hread, hraw]
    exact hs.bronzeItems
  have hlatest : orderItems.Shows (latestItems raw : Multiset LineItem) s.source.db.items :=
    Captured.latest_shows_rows s.source.mirrors_items htimes.items.tiesAgree hbronze
  have horders : orders.Shows s.silver.orders.rows s.source.db.orders := by
    rw [← hshown]
    exact hshows.silverOrders
  have hrows := (Table.overwritePartitions_eq_iff hwrite).2 <|
    enrichItems_covers ((hs.shownBefore _).trans (hs.readBefore _)) horders hlatest
      (itemOf_enrich (Snapshot.Before.refl _) hs.silverOrders hbronze) hs.silverItems hitems.shows
      hitems.dated
  rw [hrows, enrichItems_items (orderIds_nodup horders)]
  exact ⟨hlatest, enrichItems_dated horders hlatest⟩

/-! ## Rounds -/

/-- The writes a write reads from, in the round it belongs to. -/
def requires : Job → List Job
  | .ingest _ => []
  | .silverOrders => [.ingest (.cdc "debezium.public.orders" .cdcOrders)]
  | .silverCustomers => [.ingest (.cdc "debezium.public.customers" .cdcCustomers)]
  | .silverOrderItems =>
    [.ingest (.cdc "debezium.public.order_items" .cdcOrderItems), .silverOrders]
  | .goldDailyRevenue => [.silverOrders, .silverOrderItems]
  | .goldCustomerMetrics => [.silverOrders, .silverCustomers]

/-- Every write comes after those it reads from; any of them may be repeated. -/
def Ordered (jobs : List Job) : Prop :=
  ∀ before j, before ++ [j] <+: jobs → ∀ j' ∈ requires j, j' ∈ before

theorem Ordered.of_prefix {jobs jobs' : List Job} (h : Ordered jobs') (hle : jobs <+: jobs') :
    Ordered jobs := fun before j hj => h before j (hj.trans hle)

/-- The jobs of a whole run are in order. -/
theorem ordered_batch : Ordered batch := by
  have hinits : ∀ l ∈ batch.inits, ∀ j ∈ l.getLast?, ∀ j' ∈ requires j, j' ∈ l.dropLast := by
    decide
  intro before j hj
  have hlast := hinits _ ((List.mem_inits _ _).2 hj) j (List.getLast?_concat ..)
  rwa [List.dropLast_concat] at hlast

/-- Rounds of traffic and of ordered writes. -/
inductive QuietRun (s : Lake bucketHash) : Lake bucketHash → Prop
  | start : QuietRun s s
  | traffic {s' : Lake bucketHash} {commits : List Commit} {db : Database} (hrun : QuietRun s s')
    (h : Segment s'.source.db commits db) : QuietRun s { s' with source := s'.source.next h }
  | round {s₁ s' : Lake bucketHash} {jobs : List Job} (hrun : QuietRun s s₁)
    (hordered : Ordered jobs) (hjobs : JobRun s₁ jobs s') : QuietRun s s'

/-- Rounds are runs. -/
theorem QuietRun.lakeRun {s s' : Lake bucketHash} (h : QuietRun s s') : LakeRun s s' := by
  induction h with
  | start => exact .start
  | traffic _ hsegment ih => exact .traffic ih hsegment
  | round _ _ hjobs ih => exact hjobs.lakeRun ih

/-! ## What a round has brought up to date -/

/-- The table shows the source as it is. -/
def UpToDate (s : Lake bucketHash) : Job → Prop
  | .ingest lane => ∀ topic table, lane = .cdc topic table → s.read table = s.source
  | .silverOrders => s.shown .cdcOrders = s.source
  | .silverCustomers => s.shown .cdcCustomers = s.source
  | .silverOrderItems => s.shown .cdcOrderItems = s.source
  | .goldDailyRevenue =>
    ShowsRevenue (inRevenueMonths s.source.db s.dailyRevenue.rows) s.source.db
  | .goldCustomerMetrics => s.metricsOrders = s.source ∧ s.metricsCustomers = s.source

theorem shown_update {s : Lake bucketHash} {table table' : CdcTable}
    (hread : s.read table = s.source) (h : s.shown table' = s.source) :
    Function.update s.shown table (s.read table) table' = s.source := by
  rcases eq_or_ne table' table with rfl | hne
  · rw [Function.update_self, hread]
  · rw [Function.update_of_ne hne, h]

theorem read_update {s : Lake bucketHash} {table table' : CdcTable}
    (h : s.read table' = s.source) :
    Function.update s.read table s.source table' = s.source := by
  rcases eq_or_ne table' table with rfl | hne
  · rw [Function.update_self]
  · rw [Function.update_of_ne hne, h]

/-- **A write brings its table up to date and leaves the others so.** -/
theorem JobStep.upToDate {s s' : Lake bucketHash} {j : Job} (h : JobStep j s s')
    (hs : LakeSound s) (hshows : LakeShows s) (htimes : TimesTell s.source.commits)
    (hitems : ItemsShow s) (hrequires : ∀ j' ∈ requires j, UpToDate s j') :
    ItemsShow s' ∧ UpToDate s' j ∧ ∀ j', UpToDate s j' → UpToDate s' j' := by
  cases h with
  | @ingest _ lane hlane topics hholds env =>
    refine ⟨⟨hitems.shows, hitems.dated⟩, ?_, fun j' hj' => ?_⟩
    · rintro topic table rfl
      exact Function.update_self ..
    · cases j' with
      | ingest lane' =>
        intro topic' table' hlane'
        cases lane with
        | cdc topic table => exact read_update (hj' topic' table' hlane')
        | events => exact hj' topic' table' hlane'
      | silverOrders | silverCustomers | silverOrderItems | goldDailyRevenue
      | goldCustomerMetrics => exact hj'
  | silverOrders hraw hwrite =>
    have hread : s.read .cdcOrders = s.source := hrequires _ (.head _) _ _ rfl
    have hnew : Function.update s.shown .cdcOrders (s.read .cdcOrders) .cdcOrders = s.source := by
      rw [Function.update_self, hread]
    refine ⟨⟨hitems.shows, hitems.dated⟩, hnew, fun j' hj' => ?_⟩
    cases j' with
    | silverOrders | silverCustomers | silverOrderItems => exact shown_update hread hj'
    | ingest | goldDailyRevenue | goldCustomerMetrics => exact hj'
  | silverCustomers hraw hwrite =>
    have hread : s.read .cdcCustomers = s.source := hrequires _ (.head _) _ _ rfl
    have hnew : Function.update s.shown .cdcCustomers (s.read .cdcCustomers) .cdcCustomers =
        s.source := by
      rw [Function.update_self, hread]
    refine ⟨⟨hitems.shows, hitems.dated⟩, hnew, fun j' hj' => ?_⟩
    cases j' with
    | silverOrders | silverCustomers | silverOrderItems => exact shown_update hread hj'
    | ingest | goldDailyRevenue | goldCustomerMetrics => exact hj'
  | @silverOrderItems _ raw hraw t hwrite =>
    have hread : s.read .cdcOrderItems = s.source := hrequires _ (.head _) _ _ rfl
    have hshown : s.shown .cdcOrders = s.source := hrequires _ (.tail _ (.head _))
    have hnew : Function.update s.shown .cdcOrderItems (s.read .cdcOrderItems) .cdcOrderItems =
        s.source := by
      rw [Function.update_self, hread]
    obtain ⟨hrows, hdated⟩ := items_written hs hshows htimes hitems hread hshown hraw hwrite
    have hshown' : orderItems.Shows (t.rows.map SilverOrderItem.toLineItem) (Function.update s.shown
        .cdcOrderItems (s.read .cdcOrderItems) .cdcOrderItems).db.items := by
      rw [hnew]
      exact hrows
    refine ⟨⟨hshown', hdated⟩, hnew, fun j' hj' => ?_⟩
    cases j' with
    | silverOrders | silverCustomers | silverOrderItems => exact shown_update hread hj'
    | ingest | goldDailyRevenue | goldCustomerMetrics => exact hj'
  | @goldDailyRevenue _ computedAt t hwrite =>
    have hshown : s.shown .cdcOrders = s.source := hrequires _ (.head _)
    have hshownItems : s.shown .cdcOrderItems = s.source := hrequires _ (.tail _ (.head _))
    have hrevenue := showsRevenue_rows (hshown ▸ hshows.silverOrders) (hshownItems ▸ hitems.shows)
      s.source.inv.sound s.source.inv.admitted s.source.mirrors_customers.nodup computedAt
    have hnew : ShowsRevenue (inRevenueMonths s.source.db t.rows) s.source.db := by
      rw [inRevenueMonths_overwrite hwrite hrevenue]
      exact hrevenue
    refine ⟨⟨hitems.shows, hitems.dated⟩, hnew, fun j' hj' => ?_⟩
    cases j' with
    | goldDailyRevenue => exact hnew
    | ingest | silverOrders | silverCustomers | silverOrderItems | goldCustomerMetrics => exact hj'
  | goldCustomerMetrics today computedAt hwrite =>
    have hmetrics : s.shown .cdcOrders = s.source ∧ s.shown .cdcCustomers = s.source :=
      ⟨hrequires _ (.head _), hrequires _ (.tail _ (.head _))⟩
    refine ⟨⟨hitems.shows, hitems.dated⟩, hmetrics, fun j' hj' => ?_⟩
    cases j' with
    | goldCustomerMetrics => exact hmetrics
    | ingest | silverOrders | silverCustomers | silverOrderItems | goldDailyRevenue => exact hj'

/-- A round brings up to date what it writes. -/
theorem JobRun.upToDate {s s' : Lake bucketHash} {jobs : List Job} (h : JobRun s jobs s')
    (hordered : Ordered jobs) (hs : LakeSound s) (hshows : LakeShows s)
    (htimes : TimesTell s.source.commits) (hitems : ItemsShow s) :
    LakeShows s' ∧ ItemsShow s' ∧ ∀ j ∈ jobs, UpToDate s' j := by
  induction h with
  | nil => exact ⟨hshows, hitems, nofun⟩
  | @snoc s₁ s' jobs j hjobs hstep ih =>
    obtain ⟨hshows₁, hitems₁, hupToDate⟩ := ih (hordered.of_prefix (List.prefix_append _ _))
    have htimes₁ : TimesTell s₁.source.commits := hjobs.source_eq ▸ htimes
    obtain ⟨hitems', hnew, hkeep⟩ := hstep.upToDate (hjobs.sound hs) hshows₁ htimes₁ hitems₁
      fun j' hj' => hupToDate j' (hordered _ _ (List.prefix_refl _) j' hj')
    refine ⟨hstep.shows (hjobs.sound hs) htimes₁ hshows₁, hitems', fun j' hj' => ?_⟩
    rcases List.mem_append.1 hj' with hj' | hj'
    · exact hkeep j' (hupToDate j' hj')
    · obtain rfl := List.mem_singleton.1 hj'
      exact hnew

/-- The items show a state of the source after any rounds. -/
theorem QuietRun.itemsShow {s s' : Lake bucketHash} (h : QuietRun s s') (hs : LakeSound s)
    (hshows : LakeShows s) (hitems : ItemsShow s) (htimes : TimesTell s'.source.commits) :
    ItemsShow s' := by
  induction h with
  | start => exact hitems
  | @traffic s₁ _ _ _ hsegment ih =>
    exact { ih (htimes.before (s₁.source.before_next hsegment)) with }
  | round hrun hordered hjobs ih =>
    rw [hjobs.source_eq] at htimes
    have hrun' := hrun.lakeRun
    exact (hjobs.upToDate hordered (hrun'.sound hs) (hrun'.shows hs hshows htimes) htimes
      (ih htimes)).2.1

/-! ## The source in the lake -/

/-- Silver shows the source as it is. -/
structure SilverShowsSource (s : Lake bucketHash) : Prop where
  orders : orders.Shows s.silver.orders.rows s.source.db.orders
  customers : customers.Shows s.silver.customers.rows s.source.db.customers
  items : orderItems.Shows (s.silver.orderItems.rows.map SilverOrderItem.toLineItem)
    s.source.db.items
  itemDates : ∀ r ∈ s.silver.orderItems.rows, ∃ o ∈ s.source.db.orders,
    r.orderId = some o.orderId.toInt.repr ∧ r.orderCreatedAt = some o.createdAt

/-- So does Gold. -/
structure ShowsSource (s : Lake bucketHash) : Prop extends SilverShowsSource s where
  dailyRevenue : ShowsRevenue (inRevenueMonths s.source.db s.dailyRevenue.rows) s.source.db
  metrics : ShowsMetrics s.customerMetrics.rows s.source.db s.source.db s.metricsToday

/-- The writes of `02_silver_transform.py`. -/
def silverJobs : List Job := [.silverOrders, .silverCustomers, .silverOrderItems]

section Quiet

variable {p : Snapshot} {s s' : Lake bucketHash} {jobs : List Job}

/-- After a round every table it has written is up to date. -/
theorem QuietRun.round_upToDate (hrun : QuietRun (Lake.start p) s)
    (htimes : TimesTell s.source.commits) (hordered : Ordered jobs) (hjobs : JobRun s jobs s') :
    LakeShows s' ∧ ItemsShow s' ∧ ∀ j ∈ jobs, UpToDate s' j := by
  have hlake := hrun.lakeRun
  exact hjobs.upToDate hordered (hlake.sound (lakeSound_start p))
    (hlake.shows (lakeSound_start p) (lakeShows_start p) htimes) htimes
    (hrun.itemsShow (lakeSound_start p) (lakeShows_start p) (itemsShow_start p) htimes)

/-- After a round with all tables of Silver, Silver shows the source. -/
theorem QuietRun.silver_shows (hrun : QuietRun (Lake.start p) s)
    (htimes : TimesTell s.source.commits) (hordered : Ordered jobs) (hjobs : JobRun s jobs s')
    (hall : ∀ j ∈ silverJobs, j ∈ jobs) : SilverShowsSource s' := by
  obtain ⟨hshows, hitems, hupToDate⟩ := hrun.round_upToDate htimes hordered hjobs
  have hdone : ∀ j ∈ silverJobs, UpToDate s' j := fun j hj => hupToDate j (hall j hj)
  have horders : s'.shown .cdcOrders = s'.source := hdone .silverOrders (by decide)
  have hcustomers : s'.shown .cdcCustomers = s'.source := hdone .silverCustomers (by decide)
  have hitemsShown : s'.shown .cdcOrderItems = s'.source := hdone .silverOrderItems (by decide)
  have hsound := hjobs.sound (hrun.lakeRun.sound (lakeSound_start p))
  constructor
  · exact horders ▸ hshows.silverOrders
  · exact hcustomers ▸ hshows.silverCustomers
  · exact hitemsShown ▸ hitems.shows
  · intro r hr
    obtain ⟨t, ht⟩ := Option.isSome_iff_exists.1 (hitems.dated r hr)
    obtain ⟨o, ho, hid, rfl⟩ := (hsound.silverItems r hr).dated t ht
    exact ⟨o, ho, hid, ht⟩

/-- After a round with the tables of Gold, Gold shows the source. -/
theorem QuietRun.gold_shows (hrun : QuietRun (Lake.start p) s)
    (htimes : TimesTell s.source.commits) (hordered : Ordered jobs) (hjobs : JobRun s jobs s')
    (hrevenue : .goldDailyRevenue ∈ jobs) (hmetrics : .goldCustomerMetrics ∈ jobs) :
    ShowsRevenue (inRevenueMonths s'.source.db s'.dailyRevenue.rows) s'.source.db ∧
      ShowsMetrics s'.customerMetrics.rows s'.source.db s'.source.db s'.metricsToday := by
  obtain ⟨hshows, -, hupToDate⟩ := hrun.round_upToDate htimes hordered hjobs
  obtain ⟨horders, hcustomers⟩ :
      s'.metricsOrders = s'.source ∧ s'.metricsCustomers = s'.source :=
    hupToDate .goldCustomerMetrics hmetrics
  have hshown := hshows.metrics
  rw [horders, hcustomers] at hshown
  exact ⟨hupToDate .goldDailyRevenue hrevenue, hshown⟩

/-- **After a whole round the lake shows the source.** -/
theorem quietBatch_shows_source (hrun : QuietRun (Lake.start p) s)
    (htimes : TimesTell s.source.commits) (hordered : Ordered jobs) (hjobs : JobRun s jobs s')
    (hall : ∀ j ∈ batch, j ∈ jobs) : ShowsSource s' := by
  have hsilver : ∀ j ∈ silverJobs, j ∈ jobs := fun j hj =>
    hall j (List.mem_append_right _ ((List.prefix_append silverJobs _).subset hj))
  obtain ⟨hrevenue, hmetrics⟩ := hrun.gold_shows htimes hordered hjobs (hall _ (by decide))
    (hall _ (by decide))
  exact { hrun.silver_shows htimes hordered hjobs hsilver with
    dailyRevenue := hrevenue, metrics := hmetrics }

end Quiet

theorem quietBatch_shows_source_confirmed :
    ∃ s, JobRun confirmedLake batch s ∧ ShowsSource s := by
  obtain ⟨s, hjobs⟩ := exists_confirmed_batch
  have hrun : QuietRun (Lake.start sampleSnapshot) confirmedLake := .traffic .start confirmed_segment
  exact ⟨s, hjobs, quietBatch_shows_source hrun timesTell_confirmed ordered_batch hjobs
    fun _ hj => hj⟩

end Rounds

end Lakehouse.Verify
