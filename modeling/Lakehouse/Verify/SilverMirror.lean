import Lakehouse.Verify.Dedup

/-!
# Silver as a mirror of the source

What one Bronze ingest and one Silver transform make of a history of changes with distinct times per
key. The upsert filter runs before the deduplication, so a delete never competes for its key: a
table mirrors the live source rows exactly when no deleted key has an earlier image in Bronze
(`silver_mirrors_iff`).
-/

namespace Lakehouse.Verify

open Lib Source Batch

namespace Captured

section Mirror

variable {α ρ : Type} (T : Captured α ρ)

/-- The key of the row that an event is about. -/
def keyOf (e : ChangeEvent α) : Int64 := T.key e.change.row

/-- No change of the key of `e` has a higher `ts_ms`. -/
def Newest (history : List (ChangeEvent α)) (e : ChangeEvent α) : Prop :=
  ∀ e' ∈ history, T.keyOf e' = T.keyOf e → e'.tsMs.toInt ≤ e.tsMs.toInt

instance (history : List (ChangeEvent α)) (e : ChangeEvent α) : Decidable (T.Newest history e) :=
  inferInstanceAs (Decidable (∀ e' ∈ history, _))

/-- The live source rows: for each key whose newest change is not a delete, the image of that
change. -/
def mirror (now : Int) (history : List (ChangeEvent α)) : List ρ :=
  (history.filter fun e => T.Newest history e).filterMap fun e =>
    e.change.after.map (T.silverRow e.change.op now)

/-- No two events of a key carry one time. -/
def DistinctTimes (history : List (ChangeEvent α)) : Prop :=
  history.Pairwise fun e e' => T.keyOf e = T.keyOf e' → e.tsMs ≠ e'.tsMs

/-- Every key whose newest change is a delete has deletes only: no change of it left an image. -/
def DeletedKeysUnseen (history : List (ChangeEvent α)) : Prop :=
  ∀ e ∈ history, T.Newest history e → e.change.isDelete = true →
    ∀ e' ∈ history, T.keyOf e' = T.keyOf e → e'.change.isDelete = true

instance (history : List (ChangeEvent α)) : Decidable (T.DistinctTimes history) :=
  inferInstanceAs (Decidable (history.Pairwise _))

instance (history : List (ChangeEvent α)) : Decidable (T.DeletedKeysUnseen history) :=
  inferInstanceAs (Decidable (∀ e ∈ history, _ → _ → ∀ e' ∈ history, _))

variable {T} {history : List (ChangeEvent α)} {e e' : ChangeEvent α} {a a' : α}

theorem keyOf_of_after (h : e.change.after = some a) : T.keyOf e = T.key a := by
  unfold keyOf
  cases hc : e.change with
  | create b => rw [hc] at h; exact congrArg T.key (Option.some.inj h)
  | read b => rw [hc] at h; exact congrArg T.key (Option.some.inj h)
  | update b c => rw [hc] at h; exact congrArg T.key (Option.some.inj h)
  | delete b => rw [hc] at h; cases h

theorem keyCol_silverRow_of_after (op : String) (now : Int) (h : e.change.after = some a) :
    T.keyCol (T.silverRow op now a) = some (T.keyOf e).toInt.repr := by
  rw [T.keyCol_silverRow, keyOf_of_after h]

/-- A key has one event of a time. -/
theorem DistinctTimes.eq (hd : T.DistinctTimes history) (he : e ∈ history) (he' : e' ∈ history)
    (hk : T.keyOf e = T.keyOf e') (ht : e.tsMs.toInt = e'.tsMs.toInt) : e = e' := by
  by_contra hne
  have : Std.Symm fun e e' : ChangeEvent α => T.keyOf e = T.keyOf e' → e.tsMs ≠ e'.tsMs :=
    ⟨fun _ _ h hk => (h hk.symm).symm⟩
  exact hd.forall he he' hne hk (Int64.toInt_inj.1 ht)

/-- Every key has a newest event. -/
theorem exists_newest (he : e ∈ history) :
    ∃ m ∈ history, T.keyOf m = T.keyOf e ∧ T.Newest history m := by
  let time : ChangeEvent α → Int := fun e => e.tsMs.toInt
  obtain ⟨m, hm, hk⟩ := exists_firstPerKey T.keyOf time ⟨e, he, rfl⟩
  refine ⟨m, mem_of_mem_firstPerKey T.keyOf time hm, hk, fun e' he' hk' => ?_⟩
  exact le_of_mem_firstPerKey T.keyOf time hm he' hk'

/-- The rows of the mirror are the images of the newest events. -/
theorem mem_mirror {now : Int} {row : ρ} :
    row ∈ T.mirror now history ↔ ∃ e ∈ history, T.Newest history e ∧ ∃ a,
      e.change.after = some a ∧ row = T.silverRow e.change.op now a := by
  simp only [mirror, List.mem_filterMap, List.mem_filter, decide_eq_true_eq, and_assoc,
    Option.map_eq_some_iff, eq_comm (a := row)]

/-- No row is mirrored twice. -/
theorem mirror_nodup (hd : T.DistinctTimes history) (now : Int) :
    (T.mirror now history).Nodup := by
  have hkeys : (history.filter fun e => T.Newest history e).Pairwise
      fun e e' => T.keyOf e ≠ T.keyOf e' := by
    refine (hd.filter _).imp_of_mem fun {e e'} he he' hne hk => hne hk ?_
    obtain ⟨he, hnew⟩ := List.mem_filter.1 he
    obtain ⟨he', hnew'⟩ := List.mem_filter.1 he'
    have h₁ := of_decide_eq_true hnew e' he' hk.symm
    have h₂ := of_decide_eq_true hnew' e he hk
    exact Int64.toInt_inj.1 (Int.le_antisymm h₂ h₁)
  apply hkeys.filterMap _
  rintro e e' hne row hrow _ hrow' rfl
  obtain ⟨a, ha, rfl⟩ := Option.map_eq_some_iff.1 hrow
  obtain ⟨a', ha', heq⟩ := Option.map_eq_some_iff.1 hrow'
  have hk := keyCol_silverRow_of_after (T := T) e'.change.op now ha'
  rw [heq, keyCol_silverRow_of_after _ _ ha, Option.some.injEq, repr_int64_inj] at hk
  exact hne hk

/-! ## What the table keeps -/

variable {now : Int} {uuid : Nat → String} {raw : List CdcRow}

/-- What is presented are the rows of the history. -/
theorem mem_presented (hraw : raw.Perm (cdcRows T.table T.fields uuid now history)) {r : CdcRow} :
    r ∈ raw ↔ ∃ i e, history[i]? = some e ∧ r = cdcRow T.table T.fields now (uuid i) e := by
  rw [hraw.mem_iff, mem_cdcRows]

/-- An event with an image is presented as an upsert. -/
theorem exists_presented (hraw : raw.Perm (cdcRows T.table T.fields uuid now history))
    (he : e ∈ history) (ha : e.change.after = some a) :
    ∃ r ∈ raw, IsUpsert r ∧
      T.select r = ⟨T.silverRow e.change.op now a, some e.tsMs.toInt⟩ := by
  obtain ⟨i, hi⟩ := List.mem_iff_getElem?.1 he
  exact ⟨_, (mem_presented hraw).2 ⟨i, e, hi, rfl⟩, isUpsert_cdcRow.2 ⟨a, ha⟩,
    T.select_cdcRow _ _ _ _ ha⟩

/-- A row that is kept carries an image of an upsert that no upsert of its key is newer than. -/
theorem exists_of_mem_latest (hraw : raw.Perm (cdcRows T.table T.fields uuid now history))
    {row : ρ} (h : row ∈ latestUpserts T.select T.keyCol raw) :
    ∃ e ∈ history, ∃ a, e.change.after = some a ∧ row = T.silverRow e.change.op now a ∧
      ∀ e' ∈ history, e'.change.isDelete = false → T.keyOf e' = T.keyOf e →
        e'.tsMs.toInt ≤ e.tsMs.toInt := by
  obtain ⟨r, hr, hup, rfl, hmax⟩ := mem_latestUpserts h
  obtain ⟨i, e, hi, rfl⟩ := (mem_presented hraw).1 hr
  obtain ⟨a, ha⟩ := isUpsert_cdcRow.1 hup
  have hsel := T.select_cdcRow now (uuid i) e a ha
  rw [hsel] at hmax ⊢
  refine ⟨e, List.mem_of_getElem? hi, a, ha, rfl, fun e' he' hdel hk => ?_⟩
  obtain ⟨a', ha'⟩ := isDelete_eq_false_iff.1 hdel
  obtain ⟨r', hr', hup', hsel'⟩ := exists_presented hraw he' ha'
  have hle := hmax r' hr' hup' (by
    rw [hsel', keyCol_silverRow_of_after _ _ ha', keyCol_silverRow_of_after _ _ ha, hk])
  rw [hsel'] at hle
  exact WithBot.coe_le_coe.1 hle

/-- The key of an image is kept. -/
theorem exists_latest (hraw : raw.Perm (cdcRows T.table T.fields uuid now history))
    (he : e ∈ history) (ha : e.change.after = some a) :
    ∃ row ∈ latestUpserts T.select T.keyCol raw, T.keyCol row = some (T.keyOf e).toInt.repr := by
  obtain ⟨r, hr, hup, hsel⟩ := exists_presented hraw he ha
  obtain ⟨row, hrow, hk⟩ := exists_latestUpserts T.select T.keyCol hr hup
  exact ⟨row, hrow, by rw [hk, hsel, keyCol_silverRow_of_after _ _ ha]⟩

/-- The rows that are kept mirror the history without its deletes. -/
theorem latest_eq_mirror_upserts
    (hraw : raw.Perm (cdcRows T.table T.fields uuid now history)) (hd : T.DistinctTimes history) :
    (latestUpserts T.select T.keyCol raw : Multiset ρ) =
      T.mirror now (history.filter fun e => !e.change.isDelete) := by
  have hup : ∀ e, e ∈ history.filter (fun e => !e.change.isDelete) ↔
      e ∈ history ∧ e.change.isDelete = false := by simp
  rw [Multiset.coe_eq_coe, List.perm_ext_iff_of_nodup (latestUpserts_nodup _ _ _)
    (mirror_nodup (hd.filter _) now)]
  intro row
  rw [mem_mirror]
  constructor
  · intro h
    obtain ⟨e, he, a, ha, hrow, hmax⟩ := exists_of_mem_latest hraw h
    refine ⟨e, (hup e).2 ⟨he, isDelete_eq_false_iff.2 ⟨a, ha⟩⟩, fun e' he' hk => ?_, a, ha, hrow⟩
    exact hmax e' ((hup e').1 he').1 ((hup e').1 he').2 hk
  · rintro ⟨e, he, hmax, a, ha, rfl⟩
    obtain ⟨row, hrow, hk⟩ := exists_latest hraw ((hup e).1 he).1 ha
    obtain ⟨m, hm, b, hb, rfl, hmmax⟩ := exists_of_mem_latest hraw hrow
    rw [keyCol_silverRow_of_after _ _ hb, Option.some.injEq, repr_int64_inj] at hk
    have h₁ := hmax m ((hup m).2 ⟨hm, isDelete_eq_false_iff.2 ⟨b, hb⟩⟩) hk
    have h₂ := hmmax e ((hup e).1 he).1 ((hup e).1 he).2 hk.symm
    obtain rfl := hd.eq hm ((hup e).1 he).1 hk (Int.le_antisymm h₁ h₂)
    rw [ha] at hb
    cases hb
    exact hrow

/-- **The mirror law of one table**: the deduplicated upserts are the live source rows exactly when
the changes of every deleted key are deletes only. -/
theorem latest_eq_mirror_iff (hraw : raw.Perm (cdcRows T.table T.fields uuid now history))
    (hd : T.DistinctTimes history) :
    (latestUpserts T.select T.keyCol raw : Multiset ρ) = T.mirror now history ↔
      T.DeletedKeysUnseen history := by
  rw [Multiset.coe_eq_coe, List.perm_ext_iff_of_nodup (latestUpserts_nodup _ _ _)
    (mirror_nodup hd now)]
  constructor
  · intro h e he hnew hdel e' he' hk
    by_contra hup
    obtain ⟨a', ha'⟩ := isDelete_eq_false_iff.1 (Bool.eq_false_of_not_eq_true hup)
    obtain ⟨row, hrow, hrk⟩ := exists_latest hraw he' ha'
    obtain ⟨m, hm, hmnew, b, hb, rfl⟩ := mem_mirror.1 ((h row).1 hrow)
    -- the image in the mirror is of the newest change of the key, which is the delete
    rw [keyCol_silverRow_of_after _ _ hb, Option.some.injEq, repr_int64_inj] at hrk
    have hkm : T.keyOf m = T.keyOf e := hrk.trans hk
    obtain rfl := hd.eq hm he hkm
      (Int.le_antisymm (hnew m hm hkm) (hmnew e he hkm.symm))
    rw [isDelete_eq_false_iff.2 ⟨b, hb⟩] at hdel
    cases hdel
  · intro h row
    have hrow : row ∈ latestUpserts T.select T.keyCol raw ↔
        row ∈ T.mirror now (history.filter fun e => !e.change.isDelete) :=
      (Multiset.coe_eq_coe.1 (latest_eq_mirror_upserts hraw hd)).mem_iff
    rw [hrow, mem_mirror, mem_mirror]
    constructor
    · rintro ⟨e, he, hmax, a, ha, rfl⟩
      have he' := (List.mem_filter.1 he).1
      refine ⟨e, he', fun e' hin hk => ?_, a, ha, rfl⟩
      obtain ⟨m, hm, hkm, hmnew⟩ := exists_newest (T := T) he'
      have hup : m.change.isDelete = false := by
        by_contra hdel
        have := h m hm hmnew (Bool.eq_true_of_not_eq_false hdel) e he' hkm.symm
        rw [isDelete_eq_false_iff.2 ⟨a, ha⟩] at this
        cases this
      exact (hmnew e' hin (hk.trans hkm.symm)).trans
        (hmax m (List.mem_filter.2 ⟨hm, by simp [hup]⟩) hkm)
    · rintro ⟨e, he, hnew, a, ha, rfl⟩
      refine ⟨e, List.mem_filter.2 ⟨he, by simp [isDelete_eq_false_iff.2 ⟨a, ha⟩]⟩, ?_, a, ha, rfl⟩
      exact fun e' he' hk => hnew e' (List.mem_filter.1 he').1 hk

end Mirror

end Captured

/-! ## The three tables -/

section Tables

variable {env : String → IngestEnv} {topics : Topics} {raw : Presentation}

/-- What Spark presents of a table are the rows of the history that its topic carries. -/
theorem presented_perm {α ρ : Type} (T : Captured α ρ) {history : List (ChangeEvent α)}
    {topic : String} {table : CdcTable} (hmem : (topic, table) ∈ cdcTopics)
    (hcarries : Carries T.table T.fields (readTopic (topics topic)) history)
    {l : List CdcRow}
    (hl : (l : Multiset CdcRow) = (bronzeIngest env topics Bronze.empty).1.cdc table) :
    l.Perm (cdcRows T.table T.fields (env topic).uuid (env topic).now history) := by
  have hrows := bronzeIngest_cdc env topics Bronze.empty _ hmem
  rw [← hl, parseDebeziumEnvelope_carries _ _ _ _ hcarries] at hrows
  exact Multiset.coe_eq_coe.1 (hrows.trans (zero_add _))

theorem forall_latest {α ρ : Type} {T : Captured α ρ} {history : List (ChangeEvent α)}
    {uuid : Nat → String} {now : Int} {l : List CdcRow}
    (hl : l.Perm (cdcRows T.table T.fields uuid now history)) {p : ρ → Prop}
    (hp : ∀ op a, p (T.silverRow op now a)) :
    ∀ row ∈ (latestUpserts T.select T.keyCol l : Multiset ρ), p row := by
  intro row hrow
  obtain ⟨e, -, a, -, rfl, -⟩ := Captured.exists_of_mem_latest hl (Multiset.mem_coe.1 hrow)
  exact hp _ _

variable {orderHistory : List (ChangeEvent OrderRow)}
  {customerHistory : List (ChangeEvent CustomerRow)}
  {itemHistory : List (ChangeEvent OrderItemRow)}

/-- One ingest and one transform into empty tables succeed, and each table holds the deduplicated
upserts of its history. -/
theorem silverTransform_ingest (bucketHash : String → Nat)
    (ho : Carries orders.table orders.fields (readTopic (topics "debezium.public.orders"))
      orderHistory)
    (hc : Carries customers.table customers.fields (readTopic (topics "debezium.public.customers"))
      customerHistory)
    (hi : Carries orderItems.table orderItems.fields
      (readTopic (topics "debezium.public.order_items")) itemHistory)
    (hraw : raw.Of (bronzeIngest env topics Bronze.empty).1) :
    ∃ s : Silver bucketHash, silverTransform raw Silver.empty = some s ∧
      s.orders.rows = latestOrders (raw .cdcOrders) ∧
      s.customers.rows = latestCustomers (raw .cdcCustomers) ∧
      s.orderItems.rows.map SilverOrderItem.toLineItem = latestItems (raw .cdcOrderItems) := by
  have hpo := presented_perm orders (.head _) ho (hraw _)
  have hpc := presented_perm customers (.tail _ (.head _)) hc (hraw _)
  have hpi := presented_perm orderItems (.tail _ (.tail _ (.head _))) hi (hraw _)
  obtain ⟨tOrders, hto, hor⟩ := Table.overwritePartitions_empty ordersSpec
    (forall_latest hpo (p := fun r => ordersSpec.required r = true) fun _ _ => rfl)
  obtain ⟨tCustomers, htc, hcr⟩ := Table.overwritePartitions_empty customersSpec
    (forall_latest hpc (p := fun r => customersSpec.required r = true) fun _ _ => rfl)
  have hitems := forall_latest hpi
    (p := fun r => (r.itemId.isSome && r.orderId.isSome && r.productId.isSome) = true)
    fun _ _ => rfl
  obtain ⟨tItems, hti, hir⟩ := Table.overwritePartitions_empty (orderItemsSpec bucketHash)
    (show ∀ r ∈ enrichItems tOrders.rows (latestItems (raw .cdcOrderItems)), _ from
      fun r hr => hitems _ (mem_enrichItems hr).1)
  refine ⟨⟨tOrders, tCustomers, tItems⟩, ?_, hor, hcr, ?_⟩
  · exact Option.bind_eq_some_iff.2 ⟨tOrders, hto, Option.bind_eq_some_iff.2 ⟨tCustomers, htc,
      Option.map_eq_some_iff.2 ⟨tItems, hti, rfl⟩⟩⟩
  · have hkeys : (tOrders.rows.map SilverOrder.orderId).Nodup := by
      rw [hor]
      exact latestUpserts_keys_nodup selectOrder SilverOrder.orderId _
    rw [hir, enrichItems_items hkeys]

/-- **Silver mirrors the live source rows** exactly when Bronze has no image of a deleted key. For
every history with distinct times per key, published in any order, one ingest and one transform into
empty tables succeed, and each of the three tables is the mirror of its source table if and only if
every key of it whose newest change is a delete was never seen before. -/
theorem silver_mirrors_iff (bucketHash : String → Nat)
    (ho : Carries orders.table orders.fields (readTopic (topics "debezium.public.orders"))
      orderHistory)
    (hc : Carries customers.table customers.fields (readTopic (topics "debezium.public.customers"))
      customerHistory)
    (hi : Carries orderItems.table orderItems.fields
      (readTopic (topics "debezium.public.order_items")) itemHistory)
    (hdo : orders.DistinctTimes orderHistory) (hdc : customers.DistinctTimes customerHistory)
    (hdi : orderItems.DistinctTimes itemHistory)
    (hraw : raw.Of (bronzeIngest env topics Bronze.empty).1) :
    ∃ s : Silver bucketHash, silverTransform raw Silver.empty = some s ∧
      (s.orders.rows = orders.mirror (env "debezium.public.orders").now orderHistory ↔
        orders.DeletedKeysUnseen orderHistory) ∧
      (s.customers.rows = customers.mirror (env "debezium.public.customers").now customerHistory ↔
        customers.DeletedKeysUnseen customerHistory) ∧
      (s.orderItems.rows.map SilverOrderItem.toLineItem =
          orderItems.mirror (env "debezium.public.order_items").now itemHistory ↔
        orderItems.DeletedKeysUnseen itemHistory) := by
  have hpo := presented_perm orders (.head _) ho (hraw _)
  have hpc := presented_perm customers (.tail _ (.head _)) hc (hraw _)
  have hpi := presented_perm orderItems (.tail _ (.tail _ (.head _))) hi (hraw _)
  obtain ⟨s, hs, hor, hcr, hir⟩ := silverTransform_ingest bucketHash ho hc hi hraw
  refine ⟨s, hs, ?_, ?_, ?_⟩
  · rw [hor]
    exact Captured.latest_eq_mirror_iff hpo hdo
  · rw [hcr]
    exact Captured.latest_eq_mirror_iff hpc hdc
  · rw [hir]
    exact Captured.latest_eq_mirror_iff hpi hdi

end Tables

/-! ## Runs on given histories -/

section Given

/-- An order that is updated, a customer that is only seen deleted, and an item. -/
theorem silver_mirrors_iff_update :
    ∃ s : Silver murmurText, silverTransform (Presentation.ofIngest anEnv
        (topicsOf [⟨.update (order 1 "pending" 0) (order 1 "confirmed" 0), 2, none⟩,
            ⟨.create (order 1 "pending" 0), 1, none⟩]
          [⟨.delete (customer 7), 3, none⟩] [⟨.create (item 1 1), 4, none⟩])) Silver.empty = some s ∧
      s.orders.rows = [orders.silverRow "u" 0 (order 1 "confirmed" 0)] ∧
      s.customers.rows = 0 ∧
      s.orderItems.rows.map SilverOrderItem.toLineItem =
        [orderItems.silverRow "c" 0 (item 1 1)] := by
  have hcarries := carries_topicsOf
    [⟨.update (order 1 "pending" 0) (order 1 "confirmed" 0), 2, none⟩,
      ⟨.create (order 1 "pending" 0), 1, none⟩]
    [⟨.delete (customer 7), 3, none⟩] [⟨.create (item 1 1), 4, none⟩]
  obtain ⟨s, hs, ho, hc, hi⟩ := silver_mirrors_iff murmurText hcarries.1 hcarries.2.1 hcarries.2.2
    (by decide) (by decide) (by decide) (Presentation.ofIngest_of anEnv _)
  exact ⟨s, hs, ho.2 (by decide), hc.2 (by decide), hi.2 (by decide)⟩

/-- An order that is deleted again. -/
def createdAndDeleted : List (ChangeEvent OrderRow) :=
  [⟨.create (order 1 "pending" 0), 1, none⟩, ⟨.delete (order 1 "pending" 0), 2, none⟩]

/-- The source has no live row of a deleted order, Silver keeps the row of its creation. -/
theorem silver_orders_keeps_deleted :
    orders.DistinctTimes createdAndDeleted ∧ orders.mirror 0 createdAndDeleted = [] ∧
      ∃ s : Silver murmurText, silverTransform (Presentation.ofIngest anEnv
          (topicsOf createdAndDeleted [] [])) Silver.empty = some s ∧
        s.orders.rows = [orders.silverRow "c" 0 (order 1 "pending" 0)] := by
  have hd : orders.DistinctTimes createdAndDeleted := by decide
  have hkept : orders.mirror 0 (createdAndDeleted.filter fun e => !e.change.isDelete) =
      [orders.silverRow "c" 0 (order 1 "pending" 0)] := by decide
  have hcarries := carries_topicsOf createdAndDeleted [] []
  have hraw := Presentation.ofIngest_of anEnv (topicsOf createdAndDeleted [] [])
  obtain ⟨s, hs, hor, -⟩ := silverTransform_ingest murmurText hcarries.1 hcarries.2.1
    hcarries.2.2 hraw
  have hrows := Captured.latest_eq_mirror_upserts
    (presented_perm orders (.head _) hcarries.1 (hraw _)) hd
  refine ⟨hd, by decide, s, hs, ?_⟩
  rw [hor, ← hkept]
  exact hrows

end Given

end Lakehouse.Verify
