import Lakehouse.Verify.SilverMirror

/-!
# Line items over whole runs

Rounds of the batch pipeline: source transactions commit while the Bronze job reads its topics one
after the other, and then Silver runs. An item whose order is committed after the orders topic was
read is written with no `order_created_at`; the next run writes it with one, and its first copy
stays unless that run happens to write the same bucket without a day again. There is one row per
item after every run exactly when it always does (`itemRounds_unique_iff`).
-/

namespace Lakehouse.Verify

open Lib Source Batch

/-! ## The pipeline -/

/-- The changes of one source transaction. -/
structure Commit where
  orders : List (ChangeEvent OrderRow) := []
  customers : List (ChangeEvent CustomerRow) := []
  items : List (ChangeEvent OrderItemRow) := []

/-- The events of the orders in some commits. -/
def orderEvents (commits : List Commit) : List (ChangeEvent OrderRow) := commits.flatMap (·.orders)

/-- The events of the customers. -/
def customerEvents (commits : List Commit) : List (ChangeEvent CustomerRow) :=
  commits.flatMap (·.customers)

/-- The events of the items. -/
def itemEvents (commits : List Commit) : List (ChangeEvent OrderItemRow) :=
  commits.flatMap (·.items)

/-- The transactions that commit around the topic reads of one batch run. -/
structure Round where
  beforeOrders : List Commit
  beforeCustomers : List Commit
  beforeItems : List Commit
  env : String → IngestEnv

namespace Round

/-- The commits that the read of the orders sees. -/
def ordersSeen (r : Round) (committed : List Commit) : List Commit := committed ++ r.beforeOrders

/-- The commits that the read of the customers sees. -/
def customersSeen (r : Round) (committed : List Commit) : List Commit :=
  r.ordersSeen committed ++ r.beforeCustomers

/-- The commits that the read of the items sees. -/
def itemsSeen (r : Round) (committed : List Commit) : List Commit :=
  r.customersSeen committed ++ r.beforeItems

/-- The topics as a round finds them. -/
def topics (r : Round) (committed : List Commit) : Topics :=
  topicsOf (orderEvents (r.ordersSeen committed)) (customerEvents (r.customersSeen committed))
    (itemEvents (r.itemsSeen committed))

/-- The transactions that commit after the orders topic is read and before the items topic is. -/
def window (r : Round) : List Commit := r.beforeCustomers ++ r.beforeItems

end Round

section Rounds

variable {bucketHash : String → Nat}

/-- The source log and the tables. -/
structure Pipeline (bucketHash : String → Nat) where
  committed : List Commit
  bronze : Bronze
  silver : Silver bucketHash

/-- Before the first round. -/
def Pipeline.empty : Pipeline bucketHash := ⟨[], Bronze.empty, Silver.empty⟩

/-- One Bronze run and one Silver run, for some presentation of the Bronze rows. -/
structure Step (r : Round) (s s' : Pipeline bucketHash) : Prop where
  committed : s'.committed = r.itemsSeen s.committed
  bronze : s'.bronze = (bronzeIngest r.env (r.topics s.committed) s.bronze).1
  silver : ∃ raw : Presentation, raw.Of s'.bronze ∧ silverTransform raw s.silver = some s'.silver

/-- The states after each of a sequence of rounds. -/
inductive Rounds : Pipeline bucketHash → List Round → List (Pipeline bucketHash) → Prop
  | nil (s : Pipeline bucketHash) : Rounds s [] []
  | cons {r : Round} {rs : List Round} {s s' : Pipeline bucketHash}
    {ss : List (Pipeline bucketHash)} : Step r s s' → Rounds s' rs ss → Rounds s (r :: rs) (s' :: ss)

/-! ## The source -/

/-- The images of the orders in some commits. -/
def orderImages (commits : List Commit) : List OrderRow :=
  (orderEvents commits).filterMap (·.change.after)

/-- The images of the items. -/
def itemImages (commits : List Commit) : List OrderItemRow :=
  (itemEvents commits).filterMap (·.change.after)

/-- The row a change inserts, or reads in the initial snapshot. -/
def inserted {α : Type} (e : ChangeEvent α) : Option α :=
  match e.change with
  | .create a => some a
  | .read a => some a
  | _ => none

/-- The items a transaction inserts. -/
def Commit.newItems (c : Commit) : List OrderItemRow := c.items.filterMap inserted

/-- What the source application promises: nothing is deleted, `created_at` of an order and the order
of an item never change, an item is inserted before it is updated, and in the transaction that
inserts its order. -/
structure SourceRules (commits : List Commit) : Prop where
  noDeletedOrder : ∀ e ∈ orderEvents commits, e.change.isDelete = false
  noDeletedItem : ∀ e ∈ itemEvents commits, e.change.isDelete = false
  createdAt : ∀ o ∈ orderImages commits, ∀ o' ∈ orderImages commits,
    o.orderId = o'.orderId → o.createdAt = o'.createdAt
  itemOrder : ∀ x ∈ itemImages commits, ∀ x' ∈ itemImages commits,
    x.itemId = x'.itemId → x.orderId = x'.orderId
  insertedFirst : ∀ before c after, commits = before ++ c :: after → ∀ x ∈ itemImages [c],
    ∃ c' ∈ before ++ [c], ∃ x' ∈ c'.newItems, x'.itemId = x.itemId
  oneTransaction : ∀ before c after, commits = before ++ c :: after → ∀ x ∈ c.newItems,
    (∃ o ∈ orderImages [c], o.orderId = x.orderId) ∧
      ∀ o ∈ orderImages before, o.orderId ≠ x.orderId

/-- The commits of some rounds. -/
def allCommits (rs : List Round) : List Commit :=
  rs.flatMap fun r => r.beforeOrders ++ r.window

/-- The buckets of the orders that are inserted, with their items, between the two topic reads. -/
def Round.lateBuckets (bucketHash : String → Nat) (r : Round) : List (Option Nat) :=
  (r.window.flatMap Commit.newItems).map fun x =>
    bucket bucketHash 16 (some x.orderId.toInt.repr)

/-! ## Bronze and Silver of the log -/

/-- The Bronze rows, and the orders of Silver, come from what is committed. -/
structure Inv (s : Pipeline bucketHash) : Prop where
  bronzeOrders : ∀ r ∈ s.bronze.cdc .cdcOrders, FromHistory orders (orderEvents s.committed) r
  bronzeCustomers : ∀ r ∈ s.bronze.cdc .cdcCustomers,
    FromHistory customers (customerEvents s.committed) r
  bronzeItems : ∀ r ∈ s.bronze.cdc .cdcOrderItems, FromHistory orderItems (itemEvents s.committed) r
  silverOrders : ∀ o ∈ s.silver.orders.rows, ∃ a ∈ orderImages s.committed,
    o.orderId = some a.orderId.toInt.repr ∧ o.createdAt = some a.createdAt

theorem inv_empty : Inv (Pipeline.empty : Pipeline bucketHash) where
  bronzeOrders r hr := absurd hr (Multiset.notMem_zero r)
  bronzeCustomers r hr := absurd hr (Multiset.notMem_zero r)
  bronzeItems r hr := absurd hr (Multiset.notMem_zero r)
  silverOrders o ho := absurd ho (Multiset.notMem_zero o)

/-- What a run writes to `silver.order_items`, in terms of what its topic reads saw: one row for
each item, with the creation time of its order when the order was seen. -/
structure Wrote (ordersSeen itemsSeen : List Commit) (rows : Multiset SilverOrderItem) : Prop where
  nodup : (rows.map fun w => w.itemId).Nodup
  item : ∀ w ∈ rows, ∃ x ∈ itemImages itemsSeen, w.itemId = some x.itemId.toInt.repr ∧
    w.orderId = some x.orderId.toInt.repr ∧
      ((w.orderCreatedAt = none ∧ ∀ o ∈ orderImages ordersSeen, o.orderId ≠ x.orderId) ∨
        ∃ o ∈ orderImages ordersSeen, o.orderId = x.orderId ∧ w.orderCreatedAt = some o.createdAt)
  all : ∀ x ∈ itemImages itemsSeen, ∃ w ∈ rows, w.itemId = some x.itemId.toInt.repr

theorem mem_orderEvents_append {c c' : List Commit} {e : ChangeEvent OrderRow}
    (h : e ∈ orderEvents c) : e ∈ orderEvents (c ++ c') := by
  rw [orderEvents, List.flatMap_append]
  exact List.mem_append_left _ h

theorem mem_customerEvents_append {c c' : List Commit} {e : ChangeEvent CustomerRow}
    (h : e ∈ customerEvents c) : e ∈ customerEvents (c ++ c') := by
  rw [customerEvents, List.flatMap_append]
  exact List.mem_append_left _ h

theorem mem_itemEvents_append {c c' : List Commit} {e : ChangeEvent OrderItemRow}
    (h : e ∈ itemEvents c) : e ∈ itemEvents (c ++ c') := by
  rw [itemEvents, List.flatMap_append]
  exact List.mem_append_left _ h

theorem mem_orderImages_append {c c' : List Commit} {o : OrderRow} (h : o ∈ orderImages c) :
    o ∈ orderImages (c ++ c') := by
  obtain ⟨e, he, ho⟩ := List.mem_filterMap.1 h
  exact List.mem_filterMap.2 ⟨e, mem_orderEvents_append he, ho⟩

theorem mem_itemImages_append {c c' : List Commit} {x : OrderItemRow} (h : x ∈ itemImages c) :
    x ∈ itemImages (c ++ c') := by
  obtain ⟨e, he, hx⟩ := List.mem_filterMap.1 h
  exact List.mem_filterMap.2 ⟨e, mem_itemEvents_append he, hx⟩

theorem Round.itemsSeen_eq (r : Round) (committed : List Commit) :
    r.itemsSeen committed = r.ordersSeen committed ++ r.window := by
  simp only [itemsSeen, customersSeen, window, List.append_assoc]

theorem bronze_of_step {α ρ : Type} {T : Captured α ρ} {before seen : List (ChangeEvent α)}
    {topic : String} {table : CdcTable} (hmem : (topic, table) ∈ cdcTopics)
    {env : String → IngestEnv} {topics : Topics} {b : Bronze} {raw : List CdcRow}
    (hraw : (raw : Multiset CdcRow) = (bronzeIngest env topics b).1.cdc table)
    (hcarries : Carries T.table T.fields (readTopic (topics topic)) seen)
    (hold : ∀ r ∈ b.cdc table, FromHistory T before r) (hsub : ∀ e ∈ before, e ∈ seen) :
    (∀ r ∈ raw, FromHistory T seen r) ∧
      ∀ e ∈ seen, ∃ now cdcId, cdcRow T.table T.fields now cdcId e ∈ raw := by
  have hrows := bronzeIngest_cdc env topics b _ hmem
  rw [parseDebeziumEnvelope_carries _ _ _ _ hcarries, ← hraw] at hrows
  have hiff : ∀ r, r ∈ raw ↔ r ∈ b.cdc table ∨
      r ∈ cdcRows T.table T.fields (env topic).uuid (env topic).now seen := fun r => by
    rw [← Multiset.mem_coe, hrows, Multiset.mem_add, Multiset.mem_coe]
  constructor
  · intro r hr
    rcases (hiff r).1 hr with hr | hr
    · exact (hold r hr).mono hsub
    · exact fromHistory_of_mem_cdcRows hr
  · intro e he
    obtain ⟨i, hi⟩ := List.mem_iff_getElem?.1 he
    exact ⟨_, _, (hiff _).2 (.inr ((mem_cdcRows _ _ _ _).2 ⟨i, e, hi, rfl⟩))⟩

/-- What Bronze holds after the ingest of a round, in any presentation: the logs that were read. -/
theorem presented_round {r : Round} {s : Pipeline bucketHash} (hinv : Inv s) {raw : Presentation}
    (hraw : raw.Of (bronzeIngest r.env (r.topics s.committed) s.bronze).1) :
    ((∀ row ∈ raw .cdcOrders, FromHistory orders (orderEvents (r.ordersSeen s.committed)) row) ∧
      ∀ e ∈ orderEvents (r.ordersSeen s.committed), ∃ now cdcId,
        cdcRow orders.table orders.fields now cdcId e ∈ raw .cdcOrders) ∧
    (∀ row ∈ raw .cdcCustomers,
      FromHistory customers (customerEvents (r.customersSeen s.committed)) row) ∧
    (∀ row ∈ raw .cdcOrderItems,
      FromHistory orderItems (itemEvents (r.itemsSeen s.committed)) row) ∧
      ∀ e ∈ itemEvents (r.itemsSeen s.committed), ∃ now cdcId,
        cdcRow orderItems.table orderItems.fields now cdcId e ∈ raw .cdcOrderItems := by
  have hcarries := carries_topicsOf (orderEvents (r.ordersSeen s.committed))
    (customerEvents (r.customersSeen s.committed)) (itemEvents (r.itemsSeen s.committed))
  have hitems := bronze_of_step (T := orderItems) (.tail _ (.tail _ (.head _))) (hraw _)
    hcarries.2.2 hinv.bronzeItems fun e he => by
      rw [r.itemsSeen_eq, Round.ordersSeen, List.append_assoc]
      exact mem_itemEvents_append he
  have hcustomers := bronze_of_step (T := customers) (.tail _ (.head _)) (hraw _)
    hcarries.2.1 hinv.bronzeCustomers fun e he => by
      rw [Round.customersSeen, Round.ordersSeen, List.append_assoc]
      exact mem_customerEvents_append he
  exact ⟨bronze_of_step (T := orders) (.head _) (hraw _) hcarries.1 hinv.bronzeOrders
    fun e he => mem_orderEvents_append he, hcustomers.1, hitems⟩

/-- The orders of Silver are refreshed: `created_at` never changes, so no partition is left out. -/
theorem silverOrders_refresh {commits : List Commit} {raw : List CdcRow}
    {t t' : Table ordersSpec}
    (hraw : ∀ r ∈ raw, FromHistory orders (orderEvents commits) r)
    (hall : ∀ e ∈ orderEvents commits, ∃ now cdcId,
      cdcRow orders.table orders.fields now cdcId e ∈ raw)
    (hcreated : ∀ o ∈ orderImages commits, ∀ o' ∈ orderImages commits,
      o.orderId = o'.orderId → o.createdAt = o'.createdAt)
    (hold : ∀ o ∈ t.rows, ∃ a ∈ orderImages commits,
      o.orderId = some a.orderId.toInt.repr ∧ o.createdAt = some a.createdAt)
    (h : silverOrders raw t = some t') : t'.rows = latestOrders raw := by
  apply (Table.overwritePartitions_eq_iff h).2
  intro o ho
  obtain ⟨a, ha, -, hcreatedAt⟩ := hold o ho
  obtain ⟨row, hrow, hk⟩ := exists_latest_of_image hall ha
  obtain ⟨a', ha', op, now, rfl⟩ := image_of_mem_latest hraw hrow
  rw [orders.keyCol_silverRow, Option.some.injEq, repr_int64_inj] at hk
  refine ⟨_, Multiset.mem_coe.2 hrow, ?_⟩
  change days (some a'.createdAt) = days o.createdAt
  rw [hcreatedAt, hcreated a' ha' a ha hk]

theorem wrote_enrichItems {ordersSeen itemsSeen : List Commit} {orders : Multiset SilverOrder}
    {raw : List CdcRow} (hkeys : (orders.map SilverOrder.orderId).Nodup)
    (himage : ∀ o ∈ orders, ∃ a ∈ orderImages ordersSeen,
      o.orderId = some a.orderId.toInt.repr ∧ o.createdAt = some a.createdAt)
    (hseen : ∀ a ∈ orderImages ordersSeen, ∃ o ∈ orders, o.orderId = some a.orderId.toInt.repr)
    (hraw : ∀ r ∈ raw, FromHistory orderItems (itemEvents itemsSeen) r)
    (hall : ∀ e ∈ itemEvents itemsSeen, ∃ now cdcId,
      cdcRow orderItems.table orderItems.fields now cdcId e ∈ raw) :
    Wrote ordersSeen itemsSeen (enrichItems orders (latestItems raw)) where
  nodup := by
    have hmap := congrArg (Multiset.map LineItem.itemId) (enrichItems_items hkeys (latestItems raw))
    rw [Multiset.map_map] at hmap
    refine (congrArg Multiset.Nodup hmap).mpr (Multiset.coe_nodup.2 ?_)
    exact latestUpserts_keys_nodup selectItem LineItem.itemId _
  item w hw := by
    obtain ⟨hitem, hjoin⟩ := mem_enrichItems hw
    obtain ⟨x, hx, op, now, hcols⟩ := image_of_mem_latest hraw (Multiset.mem_coe.1 hitem)
    have hitemId : w.itemId = some x.itemId.toInt.repr := congrArg LineItem.itemId hcols
    have horderId : w.orderId = some x.orderId.toInt.repr := congrArg LineItem.orderId hcols
    refine ⟨x, hx, hitemId, horderId, ?_⟩
    rcases hjoin with ⟨hnone, hno⟩ | ⟨o, ho, hk, hat⟩
    · refine .inl ⟨hnone, fun a ha heq => ?_⟩
      obtain ⟨o, ho, hk⟩ := hseen a ha
      exact hno o ho (by rw [horderId]; rfl) (by rw [horderId, hk, heq])
    · obtain ⟨a, ha, haid, hacreated⟩ := himage o ho
      rw [horderId, haid, Option.some.injEq, repr_int64_inj] at hk
      exact .inr ⟨a, ha, hk.symm, hat.trans hacreated⟩
  all x hx := by
    obtain ⟨row, hrow, hk⟩ := exists_latest_of_image hall hx
    obtain ⟨w, hw, rfl⟩ := exists_mem_enrichItems hkeys (Multiset.mem_coe.2 hrow)
    exact ⟨w, hw, hk⟩

/-- One round keeps the invariant and overwrites the items with what its reads saw. -/
theorem Step.spec {r : Round} {s s' : Pipeline bucketHash} (hstep : Step r s s') (hinv : Inv s)
    (hcreated : ∀ o ∈ orderImages (r.ordersSeen s.committed),
      ∀ o' ∈ orderImages (r.ordersSeen s.committed),
        o.orderId = o'.orderId → o.createdAt = o'.createdAt) :
    Inv s' ∧ ∃ rows, s.silver.orderItems.overwritePartitions rows = some s'.silver.orderItems ∧
      Wrote (r.ordersSeen s.committed) (r.itemsSeen s.committed) rows := by
  obtain ⟨raw, hraw, hsilver⟩ := hstep.silver
  obtain ⟨tOrders, ho, hsilver⟩ := Option.bind_eq_some_iff.1 hsilver
  obtain ⟨tCustomers, -, hsilver⟩ := Option.bind_eq_some_iff.1 hsilver
  obtain ⟨tItems, hi, hsilver⟩ := Option.map_eq_some_iff.1 hsilver
  obtain ⟨⟨hfromO, hallO⟩, hfromC, hfromI, hallI⟩ :=
    presented_round (r := r) hinv fun table => (hraw table).trans (by rw [hstep.bronze])
  have hrows : tOrders.rows = latestOrders (raw .cdcOrders) := by
    refine silverOrders_refresh hfromO hallO hcreated (fun o ho => ?_) ho
    obtain ⟨a, ha, hcols⟩ := hinv.silverOrders o ho
    exact ⟨a, mem_orderImages_append ha, hcols⟩
  have hkeys : (tOrders.rows.map SilverOrder.orderId).Nodup := by
    rw [hrows]
    exact Multiset.coe_nodup.2 (latestUpserts_keys_nodup selectOrder SilverOrder.orderId _)
  have himage : ∀ o ∈ tOrders.rows, ∃ a ∈ orderImages (r.ordersSeen s.committed),
      o.orderId = some a.orderId.toInt.repr ∧ o.createdAt = some a.createdAt := by
    intro o ho
    rw [hrows, Multiset.mem_coe] at ho
    obtain ⟨a, ha, op, now, rfl⟩ := image_of_mem_latest hfromO ho
    exact ⟨a, ha, rfl, rfl⟩
  have hseen : ∀ a ∈ orderImages (r.ordersSeen s.committed), ∃ o ∈ tOrders.rows,
      o.orderId = some a.orderId.toInt.repr := by
    intro a ha
    obtain ⟨row, hrow, hk⟩ := exists_latest_of_image hallO ha
    exact ⟨row, by rw [hrows]; exact Multiset.mem_coe.2 hrow, hk⟩
  have hinv' : Inv s' := by
    refine ⟨?_, ?_, ?_, ?_⟩
    · rw [hstep.committed, r.itemsSeen_eq]
      intro row hrow
      rw [← hraw, Multiset.mem_coe] at hrow
      exact (hfromO row hrow).mono fun e he => mem_orderEvents_append he
    · rw [hstep.committed, Round.itemsSeen]
      intro row hrow
      rw [← hraw, Multiset.mem_coe] at hrow
      exact (hfromC row hrow).mono fun e he => mem_customerEvents_append he
    · rw [hstep.committed]
      intro row hrow
      rw [← hraw, Multiset.mem_coe] at hrow
      exact hfromI row hrow
    · rw [hstep.committed, r.itemsSeen_eq, ← hsilver]
      intro o ho
      obtain ⟨a, ha, hcols⟩ := himage o ho
      exact ⟨a, mem_orderImages_append ha, hcols⟩
  refine ⟨hinv', _, ?_, wrote_enrichItems hkeys himage hseen hfromI hallI⟩
  rw [← hsilver]
  exact hi

/-- A round goes through in every state. -/
theorem exists_step (r : Round) {s : Pipeline bucketHash} (hinv : Inv s) :
    ∃ s', Step r s s' := by
  have hraw : ∀ table, ∃ l : List CdcRow, (l : Multiset CdcRow) =
      (bronzeIngest r.env (r.topics s.committed) s.bronze).1.cdc table := fun table =>
    Quot.exists_rep _
  choose raw hraw using hraw
  obtain ⟨⟨hfromO, -⟩, hfromC, hfromI, -⟩ := presented_round (r := r) hinv hraw
  obtain ⟨tOrders, ho⟩ : ∃ t, silverOrders (raw .cdcOrders) s.silver.orders = some t := by
    apply s.silver.orders.exists_overwritePartitions
    intro row hrow
    obtain ⟨a, -, op, now, rfl⟩ := image_of_mem_latest hfromO (Multiset.mem_coe.1 hrow)
    rfl
  obtain ⟨tCustomers, hc⟩ :
      ∃ t, silverCustomers (raw .cdcCustomers) s.silver.customers = some t := by
    apply s.silver.customers.exists_overwritePartitions
    intro row hrow
    obtain ⟨a, -, op, now, rfl⟩ := image_of_mem_latest hfromC (Multiset.mem_coe.1 hrow)
    rfl
  obtain ⟨tItems, hi⟩ :
      ∃ t, silverOrderItems (raw .cdcOrderItems) tOrders s.silver.orderItems = some t := by
    apply s.silver.orderItems.exists_overwritePartitions
    intro w hw
    obtain ⟨a, -, op, now, hcols⟩ := image_of_mem_latest hfromI
      (Multiset.mem_coe.1 (mem_enrichItems hw).1)
    change (w.toLineItem.itemId.isSome && w.toLineItem.orderId.isSome &&
      w.toLineItem.productId.isSome) = true
    rw [hcols]
    rfl
  exact ⟨⟨r.itemsSeen s.committed, _, tOrders, tCustomers, tItems⟩, rfl, rfl, raw, hraw,
    Option.bind_eq_some_iff.2 ⟨tOrders, ho, Option.bind_eq_some_iff.2 ⟨tCustomers, hc,
      Option.map_eq_some_iff.2 ⟨tItems, hi, rfl⟩⟩⟩⟩

/-! ## Consecutive runs -/

/-- Every image has its commit. -/
theorem exists_commit_of_image {commits : List Commit} {x : OrderItemRow}
    (h : x ∈ itemImages commits) :
    ∃ before c after, commits = before ++ c :: after ∧ x ∈ itemImages [c] := by
  obtain ⟨e, he, hx⟩ := List.mem_filterMap.1 h
  obtain ⟨c, hc, hec⟩ := List.mem_flatMap.1 he
  obtain ⟨before, after, rfl⟩ := List.append_of_mem hc
  refine ⟨before, c, after, rfl, List.mem_filterMap.2 ⟨e, ?_, hx⟩⟩
  exact List.mem_flatMap.2 ⟨c, List.mem_cons_self, hec⟩

theorem mem_orderImages_of_commit {commits : List Commit} {c : Commit} {o : OrderRow}
    (hc : c ∈ commits) (h : o ∈ orderImages [c]) : o ∈ orderImages commits := by
  obtain ⟨e, he, ho⟩ := List.mem_filterMap.1 h
  obtain ⟨c', hc', he⟩ := List.mem_flatMap.1 he
  rw [List.mem_singleton.1 hc'] at he
  exact List.mem_filterMap.2 ⟨e, List.mem_flatMap.2 ⟨c, hc, he⟩, ho⟩

theorem mem_itemImages_of_newItem {commits : List Commit} {c : Commit} {x : OrderItemRow}
    (hc : c ∈ commits) (h : x ∈ c.newItems) : x ∈ itemImages commits := by
  obtain ⟨e, he, hx⟩ := List.mem_filterMap.1 h
  refine List.mem_filterMap.2 ⟨e, List.mem_flatMap.2 ⟨c, hc, he⟩, ?_⟩
  revert hx
  unfold inserted
  cases e.change <;> simp [Change.after]

section Consecutive

variable {commits ordersSeen window itemsSeen rest : List Commit}
  {rows : Multiset SilverOrderItem}

/-- A bucket without a day is written exactly for the orders inserted between the two reads. -/
theorem late_iff (hrules : SourceRules commits) (hseen : itemsSeen = ordersSeen ++ window)
    (hlog : commits = itemsSeen ++ rest) (hw : Wrote ordersSeen itemsSeen rows)
    (b : Option Nat) :
    (∃ w ∈ rows, (orderItemsSpec bucketHash).partition w = (none, b)) ↔
      ∃ x ∈ window.flatMap Commit.newItems, bucket bucketHash 16 (some x.orderId.toInt.repr) = b := by
  have hall : ∀ {x}, x ∈ itemImages itemsSeen → x ∈ itemImages commits := fun hx => by
    rw [hlog]
    exact mem_itemImages_append hx
  constructor
  · rintro ⟨w, hwmem, hpart⟩
    obtain ⟨x, hx, -, horder, ⟨-, hno⟩ | ⟨o, -, -, hat⟩⟩ := hw.item w hwmem
    · obtain ⟨before, c, after, hsplit, hxc⟩ := exists_commit_of_image hx
      obtain ⟨c', hc', x', hx', hid⟩ := hrules.insertedFirst before c (after ++ rest)
        (by rw [hlog, hsplit]; simp) x hxc
      have hc'mem : c' ∈ itemsSeen := by
        rw [hsplit]
        rcases List.mem_append.1 hc' with h | h
        · exact List.mem_append_left _ h
        · rw [List.mem_singleton.1 h]
          exact List.mem_append_right _ List.mem_cons_self
      have hx'order : x'.orderId = x.orderId := hrules.itemOrder x'
        (hall (mem_itemImages_of_newItem hc'mem hx')) x (hall hx) hid
      refine ⟨x', List.mem_flatMap.2 ⟨c', ?_, hx'⟩, ?_⟩
      · rw [hseen] at hc'mem
        apply (List.mem_append.1 hc'mem).resolve_left
        intro hin
        obtain ⟨pre, post, hpre⟩ := List.append_of_mem hin
        obtain ⟨⟨o, ho, hoid⟩, -⟩ := hrules.oneTransaction pre c' (post ++ window ++ rest)
          (by rw [hlog, hseen, hpre]; simp) x' hx'
        exact hno o (mem_orderImages_of_commit hin ho) (hoid.trans hx'order)
      · rw [hx'order, ← horder]
        exact congrArg Prod.snd hpart
    · exact absurd (congrArg Prod.fst hpart) (by simp [orderItemsSpec, days, hat])
  · rintro ⟨x, hx, rfl⟩
    obtain ⟨c, hc, hxc⟩ := List.mem_flatMap.1 hx
    have hcmem : c ∈ itemsSeen := by
      rw [hseen]
      exact List.mem_append_right _ hc
    have hximage := mem_itemImages_of_newItem hcmem hxc
    obtain ⟨w, hwmem, hid⟩ := hw.all x hximage
    obtain ⟨x', hx', hid', horder, hjoin⟩ := hw.item w hwmem
    rw [hid, Option.some.injEq, repr_int64_inj] at hid'
    have hsame : x'.orderId = x.orderId :=
      (hrules.itemOrder x (hall hximage) x' (hall hx') hid').symm
    obtain ⟨pre, post, hpre⟩ := List.append_of_mem hc
    have hunseen := (hrules.oneTransaction (ordersSeen ++ pre) c (post ++ rest)
      (by rw [hlog, hseen, hpre]; simp) x hxc).2
    rcases hjoin with ⟨hnone, -⟩ | ⟨o, ho, hoid, -⟩
    · refine ⟨w, hwmem, Prod.ext ?_ ?_⟩
      · change days w.orderCreatedAt = none
        rw [hnone]
        rfl
      · change bucket bucketHash 16 w.orderId = _
        rw [horder, hsame]
    · exact absurd (hoid.trans hsame) (hunseen o (mem_orderImages_append ho))

/-- The partitions of one run occur in the next exactly when its late buckets do. -/
theorem covered_iff {ordersSeen' window' itemsSeen' rest' : List Commit}
    {rows' : Multiset SilverOrderItem} (hrules : SourceRules commits)
    (hseen : itemsSeen = ordersSeen ++ window) (hlog : commits = itemsSeen ++ rest)
    (hw : Wrote ordersSeen itemsSeen rows) (hseen' : itemsSeen' = ordersSeen' ++ window')
    (hlog' : commits = itemsSeen' ++ rest') (hw' : Wrote ordersSeen' itemsSeen' rows')
    (hgrowO : ∀ o ∈ orderImages ordersSeen, o ∈ orderImages ordersSeen')
    (hgrowI : ∀ x ∈ itemImages itemsSeen, x ∈ itemImages itemsSeen') :
    Table.Covered (orderItemsSpec bucketHash) rows rows' ↔
      ∀ x ∈ window.flatMap Commit.newItems, ∃ x' ∈ window'.flatMap Commit.newItems,
        bucket bucketHash 16 (some x'.orderId.toInt.repr) =
          bucket bucketHash 16 (some x.orderId.toInt.repr) := by
  constructor
  · intro hcov x hx
    obtain ⟨w, hwmem, hpart⟩ := (late_iff hrules hseen hlog hw
      (bucket bucketHash 16 (some x.orderId.toInt.repr))).2 ⟨x, hx, rfl⟩
    obtain ⟨w', hwmem', hpart'⟩ := hcov w hwmem
    exact (late_iff hrules hseen' hlog' hw' _).1 ⟨w', hwmem', hpart'.trans hpart⟩
  · intro hlate w hwmem
    obtain ⟨x, hx, hid, horder, hjoin⟩ := hw.item w hwmem
    rcases hjoin with ⟨hnone, -⟩ | ⟨o, ho, hoid, hat⟩
    · have hpart : (orderItemsSpec bucketHash).partition w =
          (none, bucket bucketHash 16 w.orderId) := by
        change (days w.orderCreatedAt, _) = _
        rw [hnone]
        rfl
      obtain ⟨y, hy, hyb⟩ := (late_iff hrules hseen hlog hw _).1 ⟨w, hwmem, hpart⟩
      obtain ⟨y', hy', hyb'⟩ := hlate y hy
      obtain ⟨w', hwmem', hpart'⟩ := (late_iff hrules hseen' hlog' hw' _).2
        ⟨y', hy', hyb'.trans hyb⟩
      exact ⟨w', hwmem', hpart'.trans hpart.symm⟩
    · -- the order was seen, so the item is written to the same day again
      obtain ⟨w', hwmem', hid'⟩ := hw'.all x (hgrowI x hx)
      obtain ⟨x', hx', hxid', horder', hjoin'⟩ := hw'.item w' hwmem'
      rw [hid', Option.some.injEq, repr_int64_inj] at hxid'
      have hin : ∀ {z}, z ∈ itemImages itemsSeen' → z ∈ itemImages commits := fun hz => by
        rw [hlog']
        exact mem_itemImages_append hz
      have hin' : ∀ {z}, z ∈ orderImages ordersSeen' → z ∈ orderImages commits := fun hz => by
        rw [hlog', hseen', List.append_assoc]
        exact mem_orderImages_append hz
      have hsame : x.orderId = x'.orderId :=
        hrules.itemOrder x (hin (hgrowI x hx)) x' (hin hx') hxid'
      rcases hjoin' with ⟨-, hno⟩ | ⟨o', ho', hoid', hat'⟩
      · exact absurd (hoid.trans hsame) (hno o (hgrowO o ho))
      · have hcreated := hrules.createdAt o' (hin' ho') o (hin' (hgrowO o ho))
          (hoid'.trans (hsame.symm.trans hoid.symm))
        refine ⟨w', hwmem', Prod.ext ?_ ?_⟩
        · change days w'.orderCreatedAt = days w.orderCreatedAt
          rw [hat, hat', hcreated]
        · change bucket bucketHash 16 w'.orderId = bucket bucketHash 16 w.orderId
          rw [horder, horder', hsame]

end Consecutive

/-! ## Runs -/

/-- The rows each round of a sequence wrote, after some log. -/
inductive Records : List Commit → List Round → List (Multiset SilverOrderItem) → Prop
  | nil (committed : List Commit) : Records committed [] []
  | cons {committed : List Commit} {r : Round} {rs : List Round} {rows : Multiset SilverOrderItem}
    {rowss : List (Multiset SilverOrderItem)} :
    Wrote (r.ordersSeen committed) (r.itemsSeen committed) rows →
      Records (r.itemsSeen committed) rs rowss → Records committed (r :: rs) (rows :: rowss)

theorem allCommits_cons (committed : List Commit) (r : Round) (rs : List Round) :
    committed ++ allCommits (r :: rs) = r.itemsSeen committed ++ allCommits rs := by
  rw [r.itemsSeen_eq, Round.ordersSeen, allCommits, List.flatMap_cons, ← allCommits]
  simp only [List.append_assoc]

/-- An order that is seen has one time. -/
theorem SourceRules.createdAt_seen {committed : List Commit} {r : Round} {rs : List Round}
    (h : SourceRules (committed ++ allCommits (r :: rs))) :
    ∀ o ∈ orderImages (r.ordersSeen committed), ∀ o' ∈ orderImages (r.ordersSeen committed),
      o.orderId = o'.orderId → o.createdAt = o'.createdAt := by
  have hsub : ∀ o ∈ orderImages (r.ordersSeen committed),
      o ∈ orderImages (committed ++ allCommits (r :: rs)) := by
    intro o ho
    rw [allCommits_cons, r.itemsSeen_eq, List.append_assoc]
    exact mem_orderImages_append ho
  intro o ho o' ho'
  exact h.createdAt o (hsub o ho) o' (hsub o' ho')

/-- The rounds of a run are overwrites of the items with what each of them saw. -/
theorem Rounds.records {rs : List Round} {s : Pipeline bucketHash}
    {ss : List (Pipeline bucketHash)} (h : Rounds s rs ss) (hinv : Inv s)
    (hrules : SourceRules (s.committed ++ allCommits rs)) :
    ∃ rowss, s.silver.orderItems.overwrites rowss = some (ss.map fun s => s.silver.orderItems) ∧
      Records s.committed rs rowss := by
  induction h with
  | nil s => exact ⟨[], rfl, .nil _⟩
  | @cons r rs s s' ss hstep hrest ih =>
    obtain ⟨hinv', rows, hrows, hwrote⟩ := hstep.spec hinv hrules.createdAt_seen
    rw [allCommits_cons] at hrules
    obtain ⟨rowss, hover, hrecords⟩ := ih hinv' (by rw [hstep.committed]; exact hrules)
    rw [hstep.committed] at hrecords
    exact ⟨rows :: rowss, Table.overwrites_cons_eq_some.2 ⟨_, _, rfl, hrows, hover⟩,
      .cons hwrote hrecords⟩

/-- No write of recorded rounds has an item twice. -/
theorem Records.nodup {committed : List Commit} {rs : List Round}
    {rowss : List (Multiset SilverOrderItem)} (h : Records committed rs rowss) :
    ∀ rows ∈ rowss, (rows.map fun w => w.itemId).Nodup := by
  induction h with
  | nil => exact nofun
  | cons hwrote _ ih => exact List.forall_mem_cons.2 ⟨hwrote.nodup, ih⟩

/-- The orders that a round sees are seen by the next. -/
theorem Round.orders_grow (r r' : Round) (committed : List Commit) :
    ∀ o ∈ orderImages (r.ordersSeen committed),
      o ∈ orderImages (r'.ordersSeen (r.itemsSeen committed)) := fun o ho => by
  rw [ordersSeen, r.itemsSeen_eq, List.append_assoc]
  exact mem_orderImages_append ho

/-- So are the items. -/
theorem Round.items_grow (r r' : Round) (committed : List Commit) :
    ∀ x ∈ itemImages (r.itemsSeen committed),
      x ∈ itemImages (r'.itemsSeen (r.itemsSeen committed)) := fun x hx => by
  rw [r'.itemsSeen_eq, ordersSeen, List.append_assoc]
  exact mem_itemImages_append hx

/-- No item goes missing, and the partitions grow exactly when the late buckets do. -/
theorem Records.chains (bucketHash : String → Nat) {committed : List Commit} {rs : List Round}
    {rowss : List (Multiset SilverOrderItem)} (h : Records committed rs rowss)
    (hrules : SourceRules (committed ++ allCommits rs)) :
    rowss.IsChain (Table.KeysKept fun w => w.itemId) ∧
      (rowss.IsChain (Table.Covered (orderItemsSpec bucketHash)) ↔
        rs.IsChain fun r r' => ∀ b ∈ r.lateBuckets bucketHash, b ∈ r'.lateBuckets bucketHash) := by
  induction h with
  | nil => simp
  | @cons committed r rs rows rowss hwrote hrest ih =>
    rw [allCommits_cons] at hrules
    cases hrest with
    | nil => simp
    | @cons _ r' rs rows' rowss hwrote' hrest =>
      obtain ⟨hkept, hcov⟩ := ih hrules
      simp only [List.isChain_cons_cons]
      refine ⟨⟨?_, hkept⟩, ?_⟩
      · intro w hw
        obtain ⟨x, hx, hid, -⟩ := hwrote.item w hw
        obtain ⟨w', hw', hid'⟩ := hwrote'.all x (r.items_grow r' committed x hx)
        exact ⟨w', hw', hid'.trans hid.symm⟩
      · rw [hcov]
        apply and_congr_left
        intro _
        rw [covered_iff hrules (r.itemsSeen_eq committed) rfl hwrote (r'.itemsSeen_eq _)
          (allCommits_cons _ r' rs) hwrote' (r.orders_grow r' committed)
          (r.items_grow r' committed)]
        simp only [Round.lateBuckets, List.mem_map, forall_exists_index, and_imp,
          forall_apply_eq_imp_iff₂]

/-- Rounds go through under the rules of the source. -/
theorem exists_rounds {rs : List Round} {s : Pipeline bucketHash} (hinv : Inv s)
    (hrules : SourceRules (s.committed ++ allCommits rs)) : ∃ ss, Rounds s rs ss := by
  induction rs generalizing s with
  | nil => exact ⟨[], .nil s⟩
  | cons r rs ih =>
    obtain ⟨s', hstep⟩ := exists_step r hinv
    obtain ⟨hinv', -⟩ := hstep.spec hinv hrules.createdAt_seen
    rw [allCommits_cons] at hrules
    obtain ⟨ss, hss⟩ := ih hinv' (by rw [hstep.committed]; exact hrules)
    exact ⟨s' :: ss, .cons hstep hss⟩

/-- From a state without items, each item is there once after every round exactly when the late
buckets only grow. -/
theorem Rounds.nodup_iff {rs : List Round} {s : Pipeline bucketHash}
    {ss : List (Pipeline bucketHash)} (h : Rounds s rs ss) (hinv : Inv s)
    (hstart : s.silver.orderItems.rows = 0)
    (hrules : SourceRules (s.committed ++ allCommits rs)) :
    (∀ s ∈ ss, (s.silver.orderItems.rows.map fun w => w.itemId).Nodup) ↔
      rs.IsChain fun r r' => ∀ b ∈ r.lateBuckets bucketHash, b ∈ r'.lateBuckets bucketHash := by
  obtain ⟨rowss, hover, hrecords⟩ := h.records hinv hrules
  obtain ⟨hkept, hcov⟩ := hrecords.chains bucketHash hrules
  have hempty : ∀ R : Multiset SilverOrderItem → Multiset SilverOrderItem → Prop,
      (∀ rows, R 0 rows) → ((0 :: rowss).IsChain R ↔ rowss.IsChain R) := by
    intro R hR
    cases rowss with
    | nil => simp
    | cons rows rowss => simp [List.isChain_cons_cons, hR]
  have hnodup := Table.overwrites_nodup_iff (fun w : SilverOrderItem => w.itemId) hover
    hrecords.nodup (by
      rw [hstart]
      exact (hempty _ fun _ r hr => absurd hr (Multiset.notMem_zero r)).2 hkept)
  rw [List.forall_mem_map, hstart, hempty _ (Table.covered_zero _)] at hnodup
  rw [hnodup, hcov]

/-- **One row per line item.** For every interleaving of source transactions with the topic reads of
any number of batch runs, `silver.order_items` has each item once after every run if and only if the
buckets of the orders that are inserted between the two topic reads of a run are, each time, among
those of the next run. -/
theorem itemRounds_unique_iff {rs : List Round} {ss : List (Pipeline bucketHash)}
    (hrules : SourceRules (allCommits rs)) (h : Rounds Pipeline.empty rs ss) :
    (∀ s ∈ ss, (s.silver.orderItems.rows.map fun w => w.itemId).Nodup) ↔
      rs.IsChain fun r r' => ∀ b ∈ r.lateBuckets bucketHash, b ∈ r'.lateBuckets bucketHash :=
  h.nodup_iff inv_empty rfl hrules

end Rounds

/-! ## Given rounds -/

section Given

/-- A transaction that inserts an order with one item. -/
def placeOrder (id : Int64) : Commit :=
  { orders := [⟨.create (order id "pending" 0), 1, none⟩]
    items := [⟨.create (item id id), 1, none⟩] }

/-- A round in which an order is placed between its reads. -/
def late (id : Int64) : Round := ⟨[], [], [placeOrder id], anEnv⟩

/-- A round without commits. -/
def quiet : Round := ⟨[], [], [], anEnv⟩

theorem sourceRules_placeOrder (id : Int64) : SourceRules [placeOrder id] := by
  have hsplit : ∀ {before after : List Commit} {c : Commit},
      [placeOrder id] = before ++ c :: after → before = [] ∧ c = placeOrder id := by
    intro before after c h
    cases before with
    | nil => exact ⟨rfl, (List.cons.inj h).1.symm⟩
    | cons b before => simp at h
  have hitem : ∀ x ∈ itemImages [placeOrder id], x = item id id := by
    intro x hx
    simpa [itemImages, itemEvents, placeOrder, Change.after] using hx
  have hnew : ∀ x ∈ (placeOrder id).newItems, x = item id id := by
    intro x hx
    simpa [Commit.newItems, placeOrder, inserted] using hx
  have horder : ∀ o ∈ orderImages [placeOrder id], o = order id "pending" 0 := by
    intro o ho
    simpa [orderImages, orderEvents, placeOrder, Change.after] using ho
  refine ⟨?_, ?_, ?_, ?_, ?_, ?_⟩
  · intro e he
    obtain rfl : e = ⟨.create (order id "pending" 0), 1, none⟩ := by
      simpa [orderEvents, placeOrder] using he
    rfl
  · intro e he
    obtain rfl : e = ⟨.create (item id id), 1, none⟩ := by
      simpa [itemEvents, placeOrder] using he
    rfl
  · intro o ho o' ho' _
    rw [horder o ho, horder o' ho']
  · intro x hx x' hx' _
    rw [hitem x hx, hitem x' hx']
  · intro before c after h x hx
    obtain ⟨rfl, rfl⟩ := hsplit h
    refine ⟨placeOrder id, by simp, item id id, by simp [Commit.newItems, placeOrder, inserted], ?_⟩
    rw [hitem x hx]
  · intro before c after h x hx
    obtain ⟨rfl, rfl⟩ := hsplit h
    rw [hnew x hx]
    refine ⟨⟨order id "pending" 0, ?_, rfl⟩, nofun⟩
    simp [orderImages, orderEvents, placeOrder, Change.after]

/-- An order that was late in the last run only is written once. -/
theorem itemRounds_unique_iff_late : ∃ ss : List (Pipeline murmurText),
    Rounds Pipeline.empty [quiet, late 1] ss ∧
      ∀ s ∈ ss, (s.silver.orderItems.rows.map fun w => w.itemId).Nodup := by
  have hrules : SourceRules (allCommits [quiet, late 1]) := sourceRules_placeOrder 1
  obtain ⟨ss, hss⟩ : ∃ ss : List (Pipeline murmurText), Rounds Pipeline.empty [quiet, late 1] ss :=
    exists_rounds inv_empty hrules
  refine ⟨ss, hss, (itemRounds_unique_iff hrules hss).2 ?_⟩
  exact List.isChain_pair.2 nofun

/-- An order that was late in one run is written twice by the next. -/
theorem itemRounds_doubles_late : SourceRules (allCommits [late 1, quiet]) ∧
    ∃ ss : List (Pipeline murmurText), Rounds Pipeline.empty [late 1, quiet] ss ∧
      ¬ ∀ s ∈ ss, (s.silver.orderItems.rows.map fun w => w.itemId).Nodup := by
  have hrules : SourceRules (allCommits [late 1, quiet]) := sourceRules_placeOrder 1
  obtain ⟨ss, hss⟩ : ∃ ss : List (Pipeline murmurText), Rounds Pipeline.empty [late 1, quiet] ss :=
    exists_rounds inv_empty hrules
  refine ⟨hrules, ss, hss, ?_⟩
  rw [hss.nodup_iff inv_empty rfl hrules, List.isChain_pair]
  intro h
  exact absurd (h _ (List.mem_map_of_mem (List.mem_singleton_self (item 1 1)))) (List.not_mem_nil)

end Given

end Lakehouse.Verify
