import Lakehouse.Batch.Bronze
import Lakehouse.Lib.PartitionedTable
import Lakehouse.Lib.Relational

/-!
# Silver transform

`pipelines/batch/spark-jobs/02_silver_transform.py` with the table definitions of
`data/models/iceberg/silver`. Each function reads a Bronze table in the order in which Spark
presents it, keeps the upserts, takes the columns out of the row images, keeps the latest row of
each key and overwrites the partitions it has rows for. `bucketHash` is the hash of Iceberg's bucket
transform; `murmurText` is the one Iceberg takes.
-/

namespace Lakehouse.Batch

open Lib Source

/-! ## The bucket transform -/

/-- The bits of a word, moved up by `r` places and around. -/
def rotateLeft (x r : UInt32) : UInt32 := (x <<< r) ||| (x >>> (32 - r))

/-- The bytes of a word, lowest first. -/
def wordOfBytes (bytes : List UInt8) : UInt32 :=
  bytes.foldr (fun b word => word <<< 8 ||| b.toUInt32) 0

/-- A word of the input, before it enters the state. -/
def scramble (k : UInt32) : UInt32 := rotateLeft (k * 0xcc9e2d51) 15 * 0x1b873593

/-- The state after all words of the input; the bytes that are left over make a last, short word. -/
def murmurBody (h : UInt32) : List UInt8 → UInt32
  | a :: b :: c :: d :: bytes =>
    murmurBody (rotateLeft (h ^^^ scramble (wordOfBytes [a, b, c, d])) 13 * 5 + 0xe6546b64) bytes
  | bytes => h ^^^ scramble (wordOfBytes bytes)

/-- The finish, in which every bit of the state reaches all others. -/
def avalanche (h : UInt32) : UInt32 :=
  let h := (h ^^^ (h >>> 16)) * 0x85ebca6b
  let h := (h ^^^ (h >>> 13)) * 0xc2b2ae35
  h ^^^ (h >>> 16)

/-- Murmur3 in its 32-bit variant with seed zero. -/
def murmur (bytes : List UInt8) : UInt32 :=
  avalanche (murmurBody 0 bytes ^^^ bytes.length.toUInt32)

/-- The hash of the UTF-8 bytes of a text, without its sign bit. -/
def murmurText (s : String) : Nat :=
  (murmur (s.toList.flatMap String.utf8EncodeChar) &&& 0x7fffffff).toNat

example : murmurText "iceberg" = 1210000089 := by decide +kernel

/-- The partition transform `bucket(n, column)`. -/
def bucket (bucketHash : String → Nat) (n : Nat) (s : Option String) : Option Nat :=
  s.map (bucketHash · % n)

/-! ## Tables -/

/-- A row of `silver.orders`. -/
structure SilverOrder where
  orderId : Option String
  customerId : Option String
  status : Option String
  totalAmount : Option (Dec 18)
  currency : Option String
  createdAt : Option Int
  updatedAt : Option Int
  sourceOp : Option String
  ingestedAt : Int
deriving DecidableEq

/-- A row of `silver.customers`. -/
structure SilverCustomer where
  customerId : Option String
  name : Option String
  email : Option String
  createdAt : Option Int
  updatedAt : Option Int
  sourceOp : Option String
  ingestedAt : Int
deriving DecidableEq

/-- The columns of `silver.order_items` before the join with the orders. -/
structure LineItem where
  itemId : Option String
  orderId : Option String
  productId : Option String
  quantity : Option Int
  unitPrice : Option (Dec 18)
  lineTotal : Option (Dec 18)
  ingestedAt : Int
deriving DecidableEq

/-- A row of `silver.order_items`. -/
structure SilverOrderItem extends LineItem where
  orderCreatedAt : Option Int
deriving DecidableEq

/-- The partition transform `days`, on a column that may be null. -/
def days (t : Option Int) : Option Int := t.map dateOf

/-- `silver.orders`, by day of `created_at`. -/
def ordersSpec : TableSpec SilverOrder (Option Int) where
  required r := r.orderId.isSome && r.customerId.isSome
  partition r := days r.createdAt

theorem ordersSpec_keys (t : Table ordersSpec) :
    (∀ o ∈ t.rows, o.orderId.isSome = true) ∧ ∀ o ∈ t.rows, o.customerId.isSome = true :=
  ⟨fun o ho => (Bool.and_eq_true_iff.1 (t.valid o ho)).1,
    fun o ho => (Bool.and_eq_true_iff.1 (t.valid o ho)).2⟩

/-- `silver.customers`, by day of `created_at`. -/
def customersSpec : TableSpec SilverCustomer (Option Int) where
  required r := r.customerId.isSome
  partition r := days r.createdAt

/-- `silver.order_items`, by day of its order and a bucket of `order_id`. -/
def orderItemsSpec (bucketHash : String → Nat) :
    TableSpec SilverOrderItem (Option Int × Option Nat) where
  required r := r.itemId.isSome && r.orderId.isSome && r.productId.isSome
  partition r := (days r.orderCreatedAt, bucket bucketHash 16 r.orderId)

/-- The Silver tables. -/
structure Silver (bucketHash : String → Nat) where
  orders : Table ordersSpec
  customers : Table customersSpec
  orderItems : Table (orderItemsSpec bucketHash)

/-- The tables before the first run. -/
def Silver.empty {bucketHash : String → Nat} : Silver bucketHash := ⟨.empty, .empty, .empty⟩

/-! ## Columns -/

/-- A selected row with the `ts_ms` it is ordered by. -/
structure Staged (ρ : Type) where
  row : ρ
  tsMs : Option Int
deriving DecidableEq

/-- `get_json_object("after", "$.field")`. -/
def CdcRow.afterField (r : CdcRow) (field : String) : Option String :=
  r.after.bind (getJsonObject · [field])

/-- `to_timestamp`, on the form in which Debezium writes a time: ISO-8601 in UTC, with `T` and `Z`.
Only that form is read; Spark reads others too, such as `2026-05-01` and `2026-05-01 10:00:00`,
which are null here. -/
def toTimestamp (s : Option String) : Option Int := s.bind fun s => readTimestamp s.toList

/-- The columns of `silver_orders`. -/
def selectOrder (r : CdcRow) : Staged SilverOrder where
  row :=
    { orderId := r.afterField "order_id"
      customerId := r.afterField "customer_id"
      status := r.afterField "status"
      totalAmount := (r.afterField "total_amount").bind (castDecimal 18 2)
      currency := none
      createdAt := toTimestamp (r.afterField "created_at")
      updatedAt := toTimestamp (r.afterField "updated_at")
      sourceOp := r.op
      ingestedAt := r.ingestedAt }
  tsMs := r.tsMs

/-- The columns of `silver_customers`. -/
def selectCustomer (r : CdcRow) : Staged SilverCustomer where
  row :=
    { customerId := r.afterField "customer_id"
      name := r.afterField "name"
      email := r.afterField "email"
      createdAt := toTimestamp (r.afterField "created_at")
      updatedAt := toTimestamp (r.afterField "updated_at")
      sourceOp := r.op
      ingestedAt := r.ingestedAt }
  tsMs := r.tsMs

/-- The columns of `silver_order_items`, before the join. -/
def selectItem (r : CdcRow) : Staged LineItem where
  row :=
    let quantity := (r.afterField "quantity").bind (castInt 32)
    let unitPrice := (r.afterField "unit_price").bind (castDecimal 18 2)
    { itemId := r.afterField "item_id"
      orderId := r.afterField "order_id"
      productId := r.afterField "product_id"
      quantity := quantity
      unitPrice := unitPrice
      lineTotal := withLineTotal quantity unitPrice
      ingestedAt := r.ingestedAt }
  tsMs := r.tsMs

/-! ## The jobs -/

/-- The rows whose op is an upsert. -/
def upserts (raw : List CdcRow) : List CdcRow := raw.filter fun r => isIn r.op upsertOps

/-- The upserts of a Bronze table, selected and deduplicated on a key. -/
def latestUpserts {ρ : Type} (select : CdcRow → Staged ρ) (keyCol : ρ → Option String)
    (raw : List CdcRow) : List ρ :=
  (latestPerKey (fun s => keyCol s.row) Staged.tsMs ((upserts raw).map select)).map Staged.row

/-- The rows `silver_orders` writes. -/
def latestOrders (raw : List CdcRow) : List SilverOrder :=
  latestUpserts selectOrder SilverOrder.orderId raw

/-- The rows `silver_customers` writes. -/
def latestCustomers (raw : List CdcRow) : List SilverCustomer :=
  latestUpserts selectCustomer SilverCustomer.customerId raw

/-- The rows of `silver_order_items` before the join. -/
def latestItems (raw : List CdcRow) : List LineItem :=
  latestUpserts selectItem LineItem.itemId raw

/-- `silver_orders`. -/
def silverOrders (raw : List CdcRow) (target : Table ordersSpec) : Option (Table ordersSpec) :=
  target.overwritePartitions (latestOrders raw)

/-- `silver_customers`. -/
def silverCustomers (raw : List CdcRow) (target : Table customersSpec) :
    Option (Table customersSpec) :=
  target.overwritePartitions (latestCustomers raw)

/-- The items with the `created_at` of their order. -/
def enrichItems (orders : Multiset SilverOrder) (latest : Multiset LineItem) :
    Multiset SilverOrderItem :=
  let ordersRef := orders.map fun o => (o.orderId, o.createdAt)
  (leftJoin LineItem.orderId Prod.fst latest ordersRef).map fun (item, order) =>
    { item with orderCreatedAt := order.bind Prod.snd }

/-- `silver_order_items`. -/
def silverOrderItems {bucketHash : String → Nat} (raw : List CdcRow) (orders : Table ordersSpec)
    (target : Table (orderItemsSpec bucketHash)) : Option (Table (orderItemsSpec bucketHash)) :=
  target.overwritePartitions (enrichItems orders.rows (latestItems raw))

/-- An order in which Spark presents the rows of the CDC tables. -/
abbrev Presentation := CdcTable → List CdcRow

/-- The rows that are presented are those of the tables. -/
def Presentation.Of (raw : Presentation) (b : Bronze) : Prop :=
  ∀ table, (raw table : Multiset CdcRow) = b.cdc table

/-- The rows of one ingest into empty tables, in the order of the topics. -/
def Presentation.ofIngest (env : String → IngestEnv) (topics : Topics) : Presentation
  | .cdcOrders => ingested "debezium.public.orders"
  | .cdcCustomers => ingested "debezium.public.customers"
  | .cdcOrderItems => ingested "debezium.public.order_items"
where
  ingested (topic : String) : List CdcRow :=
    parseDebeziumEnvelope (env topic).uuid (env topic).now (readTopic (topics topic))

theorem Presentation.ofIngest_of (env : String → IngestEnv) (topics : Topics) :
    (Presentation.ofIngest env topics).Of (bronzeIngest env topics Bronze.empty).1 := by
  intro table
  have h := bronzeIngest_cdc env topics Bronze.empty
  cases table with
  | cdcOrders => exact ((h _ (.head _)).trans (zero_add _)).symm
  | cdcCustomers => exact ((h _ (.tail _ (.head _))).trans (zero_add _)).symm
  | cdcOrderItems => exact ((h _ (.tail _ (.tail _ (.head _)))).trans (zero_add _)).symm

/-- `main`: a rejected write ends the job. -/
def silverTransform {bucketHash : String → Nat} (raw : Presentation) (s : Silver bucketHash) :
    Option (Silver bucketHash) :=
  (silverOrders (raw .cdcOrders) s.orders).bind fun orders =>
  (silverCustomers (raw .cdcCustomers) s.customers).bind fun customers =>
  (silverOrderItems (raw .cdcOrderItems) orders s.orderItems).map fun orderItems =>
    ⟨orders, customers, orderItems⟩

/-- The join adds a column and, on unique orders, keeps each item once. -/
theorem enrichItems_items {orders : Multiset SilverOrder} (h : (orders.map SilverOrder.orderId).Nodup)
    (latest : Multiset LineItem) :
    (enrichItems orders latest).map SilverOrderItem.toLineItem = latest := by
  unfold enrichItems
  rw [Multiset.map_map]
  refine (Multiset.map_congr rfl fun p _ => rfl).trans (map_fst_leftJoin _ _ ?_ latest)
  rwa [Multiset.map_map]

/-- An enriched item has the `created_at` of an order with its `order_id`, or none where there is no
such order. -/
theorem mem_enrichItems {orders : Multiset SilverOrder} {latest : Multiset LineItem}
    {r : SilverOrderItem} (h : r ∈ enrichItems orders latest) : r.toLineItem ∈ latest ∧
      ((r.orderCreatedAt = none ∧ ∀ o ∈ orders, r.orderId.isSome → r.orderId ≠ o.orderId) ∨
        ∃ o ∈ orders, r.orderId = o.orderId ∧ r.orderCreatedAt = o.createdAt) := by
  obtain ⟨⟨item, o⟩, hmem, rfl⟩ := Multiset.mem_map.1 h
  obtain ⟨hitem, ⟨rfl, hnone⟩ | ⟨y, hy, hmatch, rfl⟩⟩ := (mem_leftJoin _ _).1 hmem
  · refine ⟨hitem, .inl ⟨rfl, fun o ho hsome heq => ?_⟩⟩
    exact hnone _ (Multiset.mem_map_of_mem _ ho) ⟨heq, hsome⟩
  · obtain ⟨o, ho, rfl⟩ := Multiset.mem_map.1 hy
    exact ⟨hitem, .inr ⟨o, ho, hmatch.1, rfl⟩⟩

theorem exists_mem_enrichItems {orders : Multiset SilverOrder} {latest : Multiset LineItem}
    (h : (orders.map SilverOrder.orderId).Nodup) {item : LineItem} (hitem : item ∈ latest) :
    ∃ r ∈ enrichItems orders latest, r.toLineItem = item := by
  rw [← enrichItems_items h latest] at hitem
  exact Multiset.mem_map.1 hitem

end Lakehouse.Batch
