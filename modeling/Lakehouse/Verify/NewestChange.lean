import Lakehouse.Verify.Dedup

/-!
# What Silver reads of Bronze

Silver depends on the newest change of each key alone: two Bronze tables with the same newest
changes give the same rows (`silver_newest_only`), however many copies of a change and however many
of the older ones they hold, and in whatever order Spark presents them. Only `_ingested_at` may
differ, since it is that of the copy that is kept.
-/

namespace Lakehouse.Verify

open Lib Source Batch

/-- The change a Bronze row holds, as far as Silver reads it. -/
def changeOf (r : CdcRow) : Option String × Option Int × Option String := (r.op, r.tsMs, r.after)

/-- The columns of a row but `_ingested_at`. -/
def orderColumns (r : SilverOrder) : SilverOrder := { r with ingestedAt := 0 }

/-- A customer without the time it was ingested at. -/
def customerColumns (r : SilverCustomer) : SilverCustomer := { r with ingestedAt := 0 }

section Newest

variable {ρ : Type} (select : CdcRow → Staged ρ) (keyCol : ρ → Option String)

/-- No upsert of the table has the key of `r` and a higher `ts_ms`. -/
def NewestUpsert (raw : List CdcRow) (r : CdcRow) : Prop :=
  r ∈ raw ∧ IsUpsert r ∧ ∀ r' ∈ raw, IsUpsert r' → keyCol (select r').row = keyCol (select r).row →
    orderValue (select r') ≤ orderValue (select r)

instance (raw : List CdcRow) (r : CdcRow) : Decidable (NewestUpsert select keyCol raw r) :=
  inferInstanceAs (Decidable (_ ∧ _ ∧ _))

/-- Distinct changes of one key have distinct `ts_ms`. -/
def DistinctChanges (raw : List CdcRow) : Prop :=
  ∀ r ∈ raw, ∀ r' ∈ raw, IsUpsert r → IsUpsert r' →
    keyCol (select r).row = keyCol (select r').row → r.tsMs = r'.tsMs → changeOf r = changeOf r'

instance (raw : List CdcRow) : Decidable (DistinctChanges select keyCol raw) :=
  inferInstanceAs (Decidable (∀ r ∈ raw, ∀ r' ∈ raw, _))

/-- Every newest change of the one table is a newest change of the other. -/
def NewestIn (raw raw' : List CdcRow) : Prop :=
  ∀ r ∈ raw, NewestUpsert select keyCol raw r →
    ∃ r' ∈ raw', NewestUpsert select keyCol raw' r' ∧ changeOf r' = changeOf r

instance (raw raw' : List CdcRow) : Decidable (NewestIn select keyCol raw raw') :=
  inferInstanceAs (Decidable (∀ r ∈ raw, _ → ∃ r' ∈ raw', _))

/-- Two tables with the same newest changes, each of them with distinct times. -/
structure SameNewest (raw raw' : List CdcRow) : Prop where
  distinct : DistinctChanges select keyCol raw
  distinct' : DistinctChanges select keyCol raw'
  newest : NewestIn select keyCol raw raw'
  newest' : NewestIn select keyCol raw' raw

/-- Two results are the same rows, one for each key of an upsert. -/
structure SameRows (columns : ρ → ρ) (raw raw' : List CdcRow) (rows rows' : Multiset ρ) : Prop where
  same : rows.map columns = rows'.map columns
  oneRowPerKey : OneRowPerKey select keyCol raw (rows.map keyCol)
  oneRowPerKey' : OneRowPerKey select keyCol raw' (rows'.map keyCol)

variable {select keyCol} {raw raw' : List CdcRow}

theorem SameNewest.symm (h : SameNewest select keyCol raw raw') :
    SameNewest select keyCol raw' raw := ⟨h.distinct', h.distinct, h.newest', h.newest⟩

/-- A row that is kept is that of a newest upsert. -/
theorem newest_of_mem_latest {row : ρ} (h : row ∈ latestUpserts select keyCol raw) :
    ∃ r, NewestUpsert select keyCol raw r ∧ (select r).row = row := by
  obtain ⟨r, hr, hup, rfl, hmax⟩ := mem_latestUpserts h
  exact ⟨r, ⟨hr, hup, hmax⟩, rfl⟩

/-- The row of a newest change is kept, but for the time it was ingested. -/
theorem mem_columns_of_newest {columns : ρ → ρ}
    (hcolumns : ∀ r r', changeOf r = changeOf r' →
      columns (select r).row = columns (select r').row)
    (hts : ∀ r, (select r).tsMs = r.tsMs)
    (hdistinct : DistinctChanges select keyCol raw) {r : CdcRow}
    (h : NewestUpsert select keyCol raw r) :
    columns (select r).row ∈ (latestUpserts select keyCol raw).map columns := by
  obtain ⟨hr, hup, hmax⟩ := h
  obtain ⟨row, hrow, hk⟩ := exists_latestUpserts select keyCol hr hup
  obtain ⟨r', ⟨hr', hup', hmax'⟩, rfl⟩ := newest_of_mem_latest hrow
  -- both are newest of the key, so they have one time
  have htime : r'.tsMs = r.tsMs := by
    have horder : orderValue (select r') = orderValue (select r) :=
      le_antisymm (hmax r' hr' hup' hk) (hmax' r hr hup hk.symm)
    rw [← hts, ← hts]
    exact horder
  rw [← hcolumns r' r (hdistinct r' hr' r hr hup' hup hk htime)]
  exact List.mem_map_of_mem hrow

/-- Of two presentations with the same newest upserts, the rows of one are rows of the other. -/
theorem columns_subset {columns : ρ → ρ}
    (hcolumns : ∀ r r', changeOf r = changeOf r' →
      columns (select r).row = columns (select r').row)
    (hts : ∀ r, (select r).tsMs = r.tsMs)
    (h : SameNewest select keyCol raw raw') {x : ρ}
    (hx : x ∈ (latestUpserts select keyCol raw).map columns) :
    x ∈ (latestUpserts select keyCol raw').map columns := by
  obtain ⟨row, hrow, rfl⟩ := List.mem_map.1 hx
  obtain ⟨r, hnew, rfl⟩ := newest_of_mem_latest hrow
  obtain ⟨r', -, hnew', hsame⟩ := h.newest r hnew.1 hnew
  rw [← hcolumns r' r hsame]
  exact mem_columns_of_newest hcolumns hts h.distinct' hnew'

/-- **Two runs of the deduplication** over the same newest changes keep the same rows. -/
theorem latestUpserts_sameRows {columns : ρ → ρ}
    (hcolumns : ∀ r r', changeOf r = changeOf r' →
      columns (select r).row = columns (select r').row)
    (hts : ∀ r, (select r).tsMs = r.tsMs) (hkey : ∀ row, keyCol (columns row) = keyCol row)
    (h : SameNewest select keyCol raw raw') :
    SameRows select keyCol columns raw raw' (latestUpserts select keyCol raw : List ρ)
      (latestUpserts select keyCol raw' : List ρ) := by
  have hnodup : ∀ raw : List CdcRow, ((latestUpserts select keyCol raw).map columns).Nodup := by
    intro raw
    apply List.Nodup.of_map keyCol
    have hsame : keyCol ∘ columns = keyCol := funext hkey
    rw [List.map_map, hsame]
    exact latestUpserts_keys_nodup select keyCol raw
  refine ⟨?_, oneRowPerKey_latest, oneRowPerKey_latest⟩
  refine (Multiset.Nodup.ext (Multiset.coe_nodup.2 (hnodup raw))
    (Multiset.coe_nodup.2 (hnodup raw'))).2 fun x => ?_
  exact ⟨columns_subset hcolumns hts h, columns_subset hcolumns hts h.symm⟩

end Newest

/-- A field depends on the change only. -/
theorem afterField_congr {r r' : CdcRow} (h : changeOf r = changeOf r') (field : String) :
    r.afterField field = r'.afterField field := by
  have hafter : r.after = r'.after := congrArg (fun c => c.2.2) h
  rw [CdcRow.afterField, hafter]
  rfl

theorem selectOrder_congr {r r' : CdcRow} (h : changeOf r = changeOf r') :
    orderColumns (selectOrder r).row = orderColumns (selectOrder r').row := by
  have hop : r.op = r'.op := congrArg Prod.fst h
  simp only [selectOrder, orderColumns, afterField_congr h, hop]

theorem selectCustomer_congr {r r' : CdcRow} (h : changeOf r = changeOf r') :
    customerColumns (selectCustomer r).row =
      customerColumns (selectCustomer r').row := by
  have hop : r.op = r'.op := congrArg Prod.fst h
  simp only [selectCustomer, customerColumns, afterField_congr h, hop]

/-- **Silver depends on the newest changes alone.** For any two states of the Bronze tables with the
same newest change for each key, in which distinct changes of a key have distinct `ts_ms`, and
whatever order Spark presents their rows in, the orders and the customers that are computed are the
same but for `_ingested_at`, one row for each key that occurs. -/
theorem silver_newest_only {raw raw' : Presentation}
    (ho : SameNewest selectOrder SilverOrder.orderId (raw .cdcOrders) (raw' .cdcOrders))
    (hc : SameNewest selectCustomer SilverCustomer.customerId (raw .cdcCustomers)
      (raw' .cdcCustomers)) :
    SameRows selectOrder SilverOrder.orderId orderColumns (raw .cdcOrders) (raw' .cdcOrders)
        (latestOrders (raw .cdcOrders)) (latestOrders (raw' .cdcOrders)) ∧
      SameRows selectCustomer SilverCustomer.customerId customerColumns (raw .cdcCustomers)
        (raw' .cdcCustomers) (latestCustomers (raw .cdcCustomers))
        (latestCustomers (raw' .cdcCustomers)) :=
  ⟨latestUpserts_sameRows (fun _ _ => selectOrder_congr) (fun _ => rfl) (fun _ => rfl) ho,
    latestUpserts_sameRows (fun _ _ => selectCustomer_congr) (fun _ => rfl) (fun _ => rfl) hc⟩

/-- A Bronze row with an image. -/
def upsertRow (cdcId op : String) (tsMs : Int) (after : String) : CdcRow where
  cdcId := cdcId
  op := some op
  tsMs := some tsMs
  sourceDb := none
  sourceTable := none
  txnId := none
  before := none
  after := some after
  ingestedAt := tsMs

/-- An order that was created and updated, and one customer. -/
def wholeTopic : Presentation
  | .cdcOrders => [upsertRow "1" "c" 1 "\x7b\"order_id\":1,\"status\":\"pending\"\x7d",
      upsertRow "2" "u" 2 "\x7b\"order_id\":1,\"status\":\"confirmed\"\x7d"]
  | .cdcCustomers => [upsertRow "3" "c" 1 "\x7b\"customer_id\":7\x7d"]
  | .cdcOrderItems => []

/-- The update was read twice, after the topic was compacted. -/
def compactedTopic : Presentation
  | .cdcOrders => [upsertRow "4" "u" 2 "\x7b\"order_id\":1,\"status\":\"confirmed\"\x7d",
      { upsertRow "5" "u" 2 "\x7b\"order_id\":1,\"status\":\"confirmed\"\x7d" with
        ingestedAt := 9 }]
  | .cdcCustomers => [upsertRow "6" "c" 1 "\x7b\"customer_id\":7\x7d"]
  | .cdcOrderItems => []

theorem silver_newest_only_compacted :
    SameRows selectOrder SilverOrder.orderId orderColumns (wholeTopic .cdcOrders)
        (compactedTopic .cdcOrders) (latestOrders (wholeTopic .cdcOrders))
        (latestOrders (compactedTopic .cdcOrders)) ∧
      SameRows selectCustomer SilverCustomer.customerId customerColumns (wholeTopic .cdcCustomers)
        (compactedTopic .cdcCustomers) (latestCustomers (wholeTopic .cdcCustomers))
        (latestCustomers (compactedTopic .cdcCustomers)) :=
  @silver_newest_only wholeTopic compactedTopic
    ⟨by decide +kernel, by decide +kernel, by decide +kernel, by decide +kernel⟩
    ⟨by decide +kernel, by decide +kernel, by decide +kernel, by decide +kernel⟩

end Lakehouse.Verify
