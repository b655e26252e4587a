import Lakehouse.Batch.Silver

/-!
# What the Silver deduplication keeps

The rows `latestUpserts` keeps for any presentation of a Bronze table: one row for each key of an
upsert (`latestUpserts_keys_nodup`, `exists_latestUpserts`), each of them the selection of an upsert
with the highest `ts_ms` of its key (`mem_latestUpserts`). `Captured` bundles a source table with
the Silver columns of its images, and `orders`, `customers` and `orderItems` are the three that
exist.
-/

namespace Lakehouse.Verify

open Lib Source Batch

section Dedup

variable {ρ : Type} {select : CdcRow → Staged ρ} {keyCol : ρ → Option String} {raw : List CdcRow}

/-- A row carries an image that Silver reads. -/
def IsUpsert (r : CdcRow) : Prop := isIn r.op upsertOps = true

instance (r : CdcRow) : Decidable (IsUpsert r) := inferInstanceAs (Decidable (_ = true))

theorem upserts_cons_of_pos {r : CdcRow} (h : IsUpsert r) :
    upserts (r :: raw) = r :: upserts raw := List.filter_cons_of_pos h

theorem upserts_cons_of_neg {r : CdcRow} (h : ¬ IsUpsert r) :
    upserts (r :: raw) = upserts raw := List.filter_cons_of_neg h

theorem mem_staged {s : Staged ρ} :
    s ∈ (upserts raw).map select ↔ ∃ r ∈ raw, IsUpsert r ∧ select r = s := by
  simp only [List.mem_map, upserts, List.mem_filter, IsUpsert, and_assoc]

/-- `ts_ms` as the ordering value of the window, with null below every other value. -/
abbrev orderValue (s : Staged ρ) : WithBot Int := s.tsMs

/-- A row that is kept is one of the newest of its key. -/
theorem mem_latestUpserts {row : ρ} (h : row ∈ latestUpserts select keyCol raw) :
    ∃ r ∈ raw, IsUpsert r ∧ (select r).row = row ∧ ∀ r' ∈ raw, IsUpsert r' →
      keyCol (select r').row = keyCol row → orderValue (select r') ≤ orderValue (select r) := by
  obtain ⟨s, hs, rfl⟩ := List.mem_map.1 h
  obtain ⟨r, hr, hup, rfl⟩ := mem_staged.1 (mem_of_mem_firstPerKey _ _ hs)
  refine ⟨r, hr, hup, rfl, fun r' hr' hup' hk => ?_⟩
  exact le_of_mem_firstPerKey _ _ hs (mem_staged.2 ⟨r', hr', hup', rfl⟩) hk

/-- Every key of an upsert is kept. -/
theorem exists_latestUpserts (select : CdcRow → Staged ρ) (keyCol : ρ → Option String)
    {r : CdcRow} (hr : r ∈ raw) (hup : IsUpsert r) :
    ∃ row ∈ latestUpserts select keyCol raw, keyCol row = keyCol (select r).row := by
  obtain ⟨s, hs, hk⟩ := exists_firstPerKey (fun s => keyCol s.row) (orderValue (ρ := ρ))
    ⟨select r, mem_staged.2 ⟨r, hr, hup, rfl⟩, rfl⟩
  exact ⟨s.row, List.mem_map.2 ⟨s, hs, rfl⟩, hk⟩

/-- No key is kept twice. -/
theorem latestUpserts_keys_nodup (select : CdcRow → Staged ρ) (keyCol : ρ → Option String)
    (raw : List CdcRow) : ((latestUpserts select keyCol raw).map keyCol).Nodup := by
  unfold latestUpserts
  rw [List.map_map]
  exact firstPerKey_keys_nodup _ _ _

theorem latestUpserts_nodup (select : CdcRow → Staged ρ) (keyCol : ρ → Option String)
    (raw : List CdcRow) : (latestUpserts select keyCol raw).Nodup :=
  List.Nodup.of_map keyCol (latestUpserts_keys_nodup select keyCol raw)

/-- The keys are those of the upserts, each once. -/
def OneRowPerKey (select : CdcRow → Staged ρ) (keyCol : ρ → Option String)
    (raw : List CdcRow) (keys : Multiset (Option String)) : Prop :=
  keys.Nodup ∧ ∀ k, k ∈ keys ↔ ∃ r ∈ raw, IsUpsert r ∧ keyCol (select r).row = k

theorem oneRowPerKey_latest : OneRowPerKey select keyCol raw
    ((latestUpserts select keyCol raw : Multiset ρ).map keyCol) := by
  refine ⟨Multiset.coe_nodup.2 (latestUpserts_keys_nodup select keyCol raw), fun k => ?_⟩
  rw [Multiset.mem_map]
  constructor
  · rintro ⟨row, hrow, rfl⟩
    obtain ⟨r, hr, hup, rfl, -⟩ := mem_latestUpserts (Multiset.mem_coe.1 hrow)
    exact ⟨r, hr, hup, rfl⟩
  · rintro ⟨r, hr, hup, rfl⟩
    obtain ⟨row, hrow, hk⟩ := exists_latestUpserts select keyCol hr hup
    exact ⟨row, Multiset.mem_coe.2 hrow, hk⟩

/-- The first row of its key is kept when none of the others is newer. -/
theorem head_mem_latestUpserts {r : CdcRow} (hup : IsUpsert r)
    (h : ∀ r' ∈ raw, IsUpsert r' → keyCol (select r').row = keyCol (select r).row →
      orderValue (select r') ≤ orderValue (select r)) :
    (select r).row ∈ latestUpserts select keyCol (r :: raw) := by
  refine List.mem_map.2 ⟨select r, ?_, rfl⟩
  rw [upserts_cons_of_pos hup, List.map_cons]
  apply head_mem_firstPerKey _ _
  intro s hs hk
  obtain ⟨r', hr', hup', rfl⟩ := mem_staged.1 hs
  exact h r' hr' hup' hk

end Dedup

/-! ## Captured tables -/

/-- A captured source table with the Silver columns taken from its row images. -/
structure Captured (α ρ : Type) where
  table : String
  fields : α → List (String × Json)
  key : α → Int64
  select : CdcRow → Staged ρ
  keyCol : ρ → Option String
  /-- The Silver row of an image, with the op of the change and the time of its ingest. -/
  silverRow : String → Int → α → ρ
  select_cdcRow : ∀ (now : Int) (cdcId : String) (e : ChangeEvent α) (a : α),
    e.change.after = some a → select (cdcRow table fields now cdcId e) =
      ⟨silverRow e.change.op now a, some e.tsMs.toInt⟩
  keyCol_silverRow : ∀ (op : String) (now : Int) (a : α),
    keyCol (silverRow op now a) = some (key a).toInt.repr

/-- A field of a row is that of the image. -/
theorem afterField_cdcRow {α : Type} {table : String} {fields : α → List (String × Json)}
    {now : Int} {cdcId : String} {e : ChangeEvent α} {a : α} (h : e.change.after = some a)
    (field : String) :
    (cdcRow table fields now cdcId e).afterField field = (Json.obj (fields a)).lookup [field] := by
  change (imageText fields e.change.after).bind (getJsonObject · [field]) = _
  rw [h, getJsonObject_image]

/-- `public.orders` and `silver.orders`. -/
def orders : Captured OrderRow SilverOrder where
  table := "orders"
  fields := OrderRow.fields
  key := OrderRow.orderId
  select := selectOrder
  keyCol := SilverOrder.orderId
  silverRow op now a :=
    { orderId := some a.orderId.toInt.repr
      customerId := some a.customerId.toInt.repr
      status := some a.status
      totalAmount := some (widen 18 (by decide) a.totalAmount)
      currency := none
      createdAt := some a.createdAt
      updatedAt := some a.updatedAt
      sourceOp := some op
      ingestedAt := now }
  select_cdcRow now cdcId e a h := by
    simp only [selectOrder, afterField_cdcRow h, OrderRow.fields]
    simp [toTimestamp, cdcRow]
  keyCol_silverRow _ _ _ := rfl

/-- `public.customers` and `silver.customers`. -/
def customers : Captured CustomerRow SilverCustomer where
  table := "customers"
  fields := CustomerRow.fields
  key := CustomerRow.customerId
  select := selectCustomer
  keyCol := SilverCustomer.customerId
  silverRow op now a :=
    { customerId := some a.customerId.toInt.repr
      name := some a.name
      email := some a.email
      createdAt := some a.createdAt
      updatedAt := some a.updatedAt
      sourceOp := some op
      ingestedAt := now }
  select_cdcRow now cdcId e a h := by
    simp only [selectCustomer, afterField_cdcRow h, CustomerRow.fields]
    simp [toTimestamp, cdcRow]
  keyCol_silverRow _ _ _ := rfl

/-- `public.order_items` and `silver.order_items`. -/
def orderItems : Captured OrderItemRow LineItem where
  table := "order_items"
  fields := OrderItemRow.fields
  key := OrderItemRow.itemId
  select := selectItem
  keyCol := LineItem.itemId
  silverRow _ now a :=
    let unitPrice := widen 18 (by decide) a.unitPrice
    { itemId := some a.itemId.toInt.repr
      orderId := some a.orderId.toInt.repr
      productId := some a.productId.toInt.repr
      quantity := some a.quantity.toInt
      unitPrice := some unitPrice
      lineTotal := withLineTotal (some a.quantity.toInt) (some unitPrice)
      ingestedAt := now }
  select_cdcRow now cdcId e a h := by
    simp only [selectItem, afterField_cdcRow h, OrderItemRow.fields]
    simp [cdcRow]
  keyCol_silverRow _ _ _ := rfl

/-! ## Bronze rows of a history -/

/-- A Bronze row of some change of a history. -/
def FromHistory {α ρ : Type} (T : Captured α ρ) (history : List (ChangeEvent α)) (r : CdcRow) :
    Prop :=
  ∃ now cdcId, ∃ e ∈ history, r = cdcRow T.table T.fields now cdcId e

section Changes

variable {α ρ : Type} {T : Captured α ρ} {e : ChangeEvent α}

theorem isDelete_eq_false_iff : e.change.isDelete = false ↔ ∃ a, e.change.after = some a := by
  unfold Change.isDelete
  rw [Option.isNone_eq_false_iff, Option.isSome_iff_exists]

/-- An event with an image is an upsert. -/
theorem isUpsert_cdcRow {now : Int} {cdcId : String} :
    IsUpsert (cdcRow T.table T.fields now cdcId e) ↔ ∃ a, e.change.after = some a := by
  rw [← isDelete_eq_false_iff]
  change isIn (some e.change.op) upsertOps = true ↔ _
  rw [isIn_op]
  cases e.change.isDelete <;> simp

end Changes

section History

variable {α ρ : Type} {T : Captured α ρ} {history history' : List (ChangeEvent α)}
  {raw : List CdcRow}

theorem FromHistory.mono {r : CdcRow} (h : FromHistory T history r)
    (hsub : ∀ e ∈ history, e ∈ history') : FromHistory T history' r := by
  obtain ⟨now, cdcId, e, he, rfl⟩ := h
  exact ⟨now, cdcId, e, hsub e he, rfl⟩

/-- The rows of a history come from it. -/
theorem fromHistory_of_mem_cdcRows {uuid : Nat → String} {now : Int} {r : CdcRow}
    (h : r ∈ cdcRows T.table T.fields uuid now history) : FromHistory T history r := by
  obtain ⟨i, e, hi, rfl⟩ := (mem_cdcRows _ _ _ _).1 h
  exact ⟨now, uuid i, e, List.mem_of_getElem? hi, rfl⟩

/-- A row that is kept is an image of the history. -/
theorem image_of_mem_latest (hraw : ∀ r ∈ raw, FromHistory T history r) {row : ρ}
    (h : row ∈ latestUpserts T.select T.keyCol raw) :
    ∃ a ∈ history.filterMap (·.change.after), ∃ op now, row = T.silverRow op now a := by
  obtain ⟨r, hr, hup, rfl, -⟩ := mem_latestUpserts h
  obtain ⟨now, cdcId, e, he, rfl⟩ := hraw r hr
  obtain ⟨a, ha⟩ := isUpsert_cdcRow.1 hup
  exact ⟨a, List.mem_filterMap.2 ⟨e, he, ha⟩, e.change.op, now, by
    rw [T.select_cdcRow _ _ _ _ ha]⟩

/-- Every image of a log that is presented in full has its key kept. -/
theorem exists_latest_of_image (hraw : ∀ e ∈ history, ∃ now cdcId,
      cdcRow T.table T.fields now cdcId e ∈ raw) {a : α}
    (ha : a ∈ history.filterMap (·.change.after)) :
    ∃ row ∈ latestUpserts T.select T.keyCol raw, T.keyCol row = some (T.key a).toInt.repr := by
  obtain ⟨e, he, ha⟩ := List.mem_filterMap.1 ha
  obtain ⟨now, cdcId, hmem⟩ := hraw e he
  obtain ⟨row, hrow, hk⟩ := exists_latestUpserts T.select T.keyCol hmem
    (isUpsert_cdcRow.2 ⟨a, ha⟩)
  exact ⟨row, hrow, by rw [hk, T.select_cdcRow _ _ _ _ ha, T.keyCol_silverRow]⟩

end History

/-! ## Topics of the captured tables -/

/-- Topics that carry the given histories and nothing else. -/
def topicsOf (orderHistory : List (ChangeEvent OrderRow))
    (customerHistory : List (ChangeEvent CustomerRow))
    (itemHistory : List (ChangeEvent OrderItemRow)) : Topics := fun topic =>
  recordsOf topic <|
    if topic = "debezium.public.orders" then
      orderHistory.flatMap fun e => e.values orders.table orders.fields
    else if topic = "debezium.public.customers" then
      customerHistory.flatMap fun e => e.values customers.table customers.fields
    else if topic = "debezium.public.order_items" then
      itemHistory.flatMap fun e => e.values orderItems.table orderItems.fields
    else []

/-- Topics that are written from some histories carry them. -/
theorem carries_topicsOf (oh : List (ChangeEvent OrderRow)) (ch : List (ChangeEvent CustomerRow))
    (ih : List (ChangeEvent OrderItemRow)) :
    Carries orders.table orders.fields
        (readTopic (topicsOf oh ch ih "debezium.public.orders")) oh ∧
      Carries customers.table customers.fields
        (readTopic (topicsOf oh ch ih "debezium.public.customers")) ch ∧
      Carries orderItems.table orderItems.fields
        (readTopic (topicsOf oh ch ih "debezium.public.order_items")) ih := by
  refine ⟨?_, ?_, ?_⟩
  · rw [readTopic, topicsOf, values_recordsOf]; exact carries_publish _ _ _
  · rw [readTopic, topicsOf, values_recordsOf]; exact carries_publish _ _ _
  · rw [readTopic, topicsOf, values_recordsOf]; exact carries_publish _ _ _

/-! ## Given rows -/

/-- UUIDs and a clock. -/
def anEnv : String → IngestEnv := fun _ => ⟨fun i => i.repr, 0⟩

/-- An order of customer 7. -/
def order (id : Int64) (status : String) (total : Dec 12) : OrderRow :=
  { orderId := id, customerId := 7, status := status, totalAmount := total, createdAt := 0,
    updatedAt := 0 }

/-- A customer. -/
def customer (id : Int64) : CustomerRow :=
  { customerId := id, name := "Alice Martin", email := "alice@example.com", createdAt := 0,
    updatedAt := 0 }

/-- Two pieces of a product, on an order. -/
def item (id order : Int64) : OrderItemRow :=
  { itemId := id, orderId := order, productId := 101, quantity := 2, unitPrice := ⟨4999, by decide⟩ }

end Lakehouse.Verify
