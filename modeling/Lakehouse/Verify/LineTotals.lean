import Lakehouse.Verify.DailyTotals
import Lakehouse.Verify.SilverMirror

/-!
# Line totals and the revenue of an order

What one ingest and one transform make of the rows of `order_items`, and the amount daily revenue
takes for an order with items. A product of a quantity and a price has up to twenty digits and a
`DECIMAL(18,2)` eighteen: past them the line total is null, the sum of the order skips it, and an
order whose sum is null counts with its total amount. The amounts are exact precisely when no
product and no sum of an order exceeds the column (`lineRevenue_exact_iff`).
-/

namespace Lakehouse.Verify

open Lib Source Batch

/-! ## What the source says -/

/-- The live rows of `order_items`: the image of the newest change of each item. -/
def liveItems (history : List (ChangeEvent OrderItemRow)) : Multiset OrderItemRow :=
  ((history.filter fun e => orderItems.Newest history e).filterMap fun e => e.change.after : List _)

/-- A history that leaves these rows in the table, in which no two changes of an item carry one time
and an item that ends deleted has deletes only. -/
structure Leaves (history : List (ChangeEvent OrderItemRow)) (items : Multiset OrderItemRow) :
    Prop where
  times : orderItems.DistinctTimes history
  deletes : orderItems.DeletedKeysUnseen history
  live : liveItems history = items

/-- What the application keeps of its quantities and prices. -/
def Admitted (a : OrderItemRow) : Prop := 1 ≤ a.quantity.toInt ∧ 0 ≤ a.unitPrice.val

instance (a : OrderItemRow) : Decidable (Admitted a) := inferInstanceAs (Decidable (_ ∧ _))

/-- The source rows of an order. -/
def itemsWithId (items : Multiset OrderItemRow) (orderId : Option String) : Multiset OrderItemRow :=
  items.filter fun a => some a.orderId.toInt.repr = orderId

/-- The products of the items of an order, summed. -/
def orderCents (items : Multiset OrderItemRow) (orderId : Option String) : Int :=
  ((itemsWithId items orderId).map OrderItemRow.cents).sum

/-- Every Silver item has the exact product of its source row, and every revenue order with an item
counts with the sum of its products. -/
structure ExactLines (items : Multiset OrderItemRow) (orders : Multiset SilverOrder)
    (silver : Multiset SilverOrderItem) : Prop where
  lineTotals : silver.map (fun r => (r.itemId, r.orderId, r.lineTotal.map fun d => d.val)) =
    items.map fun a => (some a.itemId.toInt.repr, some a.orderId.toInt.repr, some a.cents)
  amounts : ∀ r ∈ orderRevenues (revenueOrders orders) silver,
    itemsWithId items r.orderId ≠ 0 →
      r.lineRevenue.map (fun d => d.val) = some (orderCents items r.orderId)

/-- No product and no sum of a revenue order exceeds `DECIMAL(18,2)`. -/
def LinesFit (items : Multiset OrderItemRow) (orders : Multiset SilverOrder) : Prop :=
  (∀ a ∈ items, a.cents < 10 ^ 18) ∧
    ∀ o ∈ revenueOrders orders, orderCents items o.orderId < 10 ^ 18

instance (items : Multiset OrderItemRow) (orders : Multiset SilverOrder) :
    Decidable (LinesFit items orders) :=
  inferInstanceAs (Decidable ((∀ a ∈ items, _) ∧ ∀ o ∈ revenueOrders orders, _))

/-! ## Silver items -/

section Items

variable {items : Multiset OrderItemRow} {now : Int}

/-- The mirror of the items in terms of the live rows. -/
theorem mirror_orderItems (history : List (ChangeEvent OrderItemRow)) :
    (orderItems.mirror now history : Multiset LineItem) =
      (liveItems history).map (orderItems.silverRow "c" now) := by
  rw [Captured.mirror, liveItems, Multiset.map_coe, List.map_filterMap]
  rfl

theorem cents_nonneg {a : OrderItemRow} (h : Admitted a) : 0 ≤ a.cents :=
  Int.mul_nonneg (by have := h.1; omega) h.2

theorem orderCents_nonneg (h : ∀ a ∈ items, Admitted a) (orderId : Option String) :
    0 ≤ orderCents items orderId := by
  apply Multiset.sum_nonneg
  intro n hn
  obtain ⟨a, ha, rfl⟩ := Multiset.mem_map.1 hn
  exact cents_nonneg (h a (Multiset.mem_filter.1 ha).1)

/-- The product of a source row is a `DECIMAL(29,2)`, cast to the column. -/
theorem lineTotal_silverRow (a : OrderItemRow) :
    (orderItems.silverRow "c" now a).lineTotal = castPrecision 18 a.cents := rfl

/-- A product that fits is kept by the cast. -/
theorem castPrecision_cents {a : OrderItemRow} (h : Admitted a)
    (hfits : a.cents < 10 ^ 18) :
    (castPrecision 18 a.cents).map (fun d => d.val) = some a.cents := by
  have hnat : a.cents.natAbs < 10 ^ 18 := by
    have hpos := cents_nonneg h
    omega
  rw [castPrecision_of_lt hnat]
  rfl

variable {orders : Multiset SilverOrder} {silver : Multiset SilverOrderItem}

/-- The line totals of the Silver items of an order. -/
theorem lineTotals_itemsOf (hsilver : silver.map SilverOrderItem.toLineItem =
      items.map (orderItems.silverRow "c" now)) (o : SilverOrder) :
    (itemsOf silver o).map (fun i => i.lineTotal) =
      (itemsWithId items o.orderId).map fun a => castPrecision 18 a.cents := by
  calc (itemsOf silver o).map (fun i => i.lineTotal)
      = ((silver.map SilverOrderItem.toLineItem).filter fun i => i.orderId = o.orderId).map
          LineItem.lineTotal := by
        rw [Multiset.filter_map, Multiset.map_map]
        rfl
    _ = (itemsWithId items o.orderId).map fun a => castPrecision 18 a.cents := by
        rw [hsilver, Multiset.filter_map, Multiset.map_map]
        rfl

/-- The line totals of an order add up to its products where these fit. -/
theorem units_lineTotals (hadmitted : ∀ a ∈ items, Admitted a)
    (hlines : ∀ a ∈ items, a.cents < 10 ^ 18) (orderId : Option String) :
    (((itemsWithId items orderId).map fun a => castPrecision 18 a.cents).map units).sum =
      orderCents items orderId := by
  rw [Multiset.map_map, orderCents]
  refine congrArg Multiset.sum (Multiset.map_congr rfl fun a ha => ?_)
  have hmem := (Multiset.mem_filter.1 ha).1
  rw [Function.comp_apply, units, castPrecision_cents (hadmitted a hmem) (hlines a hmem)]
  rfl

/-- The revenue of an order with items is the sum of its products where nothing overflows. -/
theorem lineRevenue_eq_orderCents (hadmitted : ∀ a ∈ items, Admitted a)
    (hsilver : silver.map SilverOrderItem.toLineItem = items.map (orderItems.silverRow "c" now))
    (hlines : ∀ a ∈ items, a.cents < 10 ^ 18) {o : SilverOrder}
    (hsum : orderCents items o.orderId < 10 ^ 18) (hne : itemsWithId items o.orderId ≠ 0) :
    (orderRevenue (o, itemsRow silver o)).lineRevenue.map (fun d => d.val) =
      some (orderCents items o.orderId) := by
  have htotals := lineTotals_itemsOf hsilver o
  have hvalues := units_lineTotals hadmitted hlines o.orderId
  rw [← htotals] at hvalues
  obtain ⟨a, ha⟩ := Multiset.exists_mem_of_ne_zero hne
  have hmem := (Multiset.mem_filter.1 ha).1
  have hx : castPrecision 18 a.cents ∈ (itemsOf silver o).map fun i => i.lineTotal := by
    rw [htotals]
    exact Multiset.mem_map_of_mem _ ha
  have hsome : (castPrecision 18 a.cents).isSome = true := by
    rw [← Option.isSome_map (f := fun d : Dec 18 => d.val),
      castPrecision_cents (hadmitted a hmem) (hlines a hmem)]
    rfl
  have hsql := sqlSum_decimals hx hsome
  rw [hvalues] at hsql
  have hfits : SumFits ((itemsOf silver o).map fun i => i.lineTotal) := by
    intro n hn
    rw [hsql] at hn
    obtain rfl := Option.some.inj hn
    have hpos := orderCents_nonneg hadmitted o.orderId
    omega
  have hgross := val_castTo_sparkSum hfits
  rw [hsql] at hgross
  obtain ⟨d, hd, hval⟩ := Option.map_eq_some_iff.1 hgross
  rw [← lineRevenue_eq, Dbt.lineRevenue, gross_itemsRow, hd]
  exact congrArg some hval

/-- Nothing overflows when the products of all items together do not. -/
theorem linesFit_of_total (hadmitted : ∀ a ∈ items, Admitted a)
    (htotal : (items.map OrderItemRow.cents).sum < 10 ^ 18) : LinesFit items orders := by
  have hnonneg : ∀ s ≤ items, ∀ n ∈ s.map OrderItemRow.cents, 0 ≤ n := by
    intro s hs n hn
    obtain ⟨a, ha, rfl⟩ := Multiset.mem_map.1 hn
    exact cents_nonneg (hadmitted a (Multiset.mem_of_le hs ha))
  have horder : ∀ orderId, orderCents items orderId < 10 ^ 18 := by
    intro orderId
    have hrest := Multiset.sum_nonneg
      (hnonneg _ (Multiset.filter_le (fun a => ¬ some a.orderId.toInt.repr = orderId) items))
    rw [← Multiset.filter_add_not (fun a => some a.orderId.toInt.repr = orderId) items,
      Multiset.map_add, Multiset.sum_add] at htotal
    unfold orderCents itemsWithId
    omega
  refine ⟨fun a ha => ?_, fun o _ => horder o.orderId⟩
  have hle := Multiset.single_le_sum (hnonneg items le_rfl) _
    (Multiset.mem_map_of_mem OrderItemRow.cents ha)
  omega

/-- **Exactness is the absence of overflows**, whatever the orders are. -/
theorem exactLines_iff (hadmitted : ∀ a ∈ items, Admitted a)
    (hid : ∀ o ∈ orders, o.orderId.isSome = true)
    (hsilver : silver.map SilverOrderItem.toLineItem = items.map (orderItems.silverRow "c" now)) :
    ExactLines items orders silver ↔ LinesFit items orders := by
  have hid' := forall_revenueOrders hid
  constructor
  · intro hexact
    constructor
    · intro a ha
      have hmem := Multiset.mem_map_of_mem (fun a => (some a.itemId.toInt.repr,
        some a.orderId.toInt.repr, some a.cents)) ha
      rw [← hexact.lineTotals] at hmem
      obtain ⟨r, -, heq⟩ := Multiset.mem_map.1 hmem
      obtain ⟨d, -, hd⟩ := Option.map_eq_some_iff.1 (Prod.mk.inj (Prod.mk.inj heq).2).2
      have hlt := d.property
      omega
    · intro o ho
      by_cases hnone : itemsWithId items o.orderId = 0
      · rw [orderCents, hnone]
        decide
      · have hr : orderRevenue (o, itemsRow silver o) ∈
            orderRevenues (revenueOrders orders) silver := by
          rw [orderRevenues_eq hid']
          exact Multiset.mem_map_of_mem _ ho
        obtain ⟨d, -, hd⟩ := Option.map_eq_some_iff.1 (hexact.amounts _ hr hnone)
        have hlt := d.property
        change d.val = orderCents items o.orderId at hd
        omega
  · rintro ⟨hlines, hsums⟩
    constructor
    · have hcolumns := congrArg (Multiset.map fun r : LineItem =>
        (r.itemId, r.orderId, r.lineTotal.map fun d => d.val)) hsilver
      rw [Multiset.map_map, Multiset.map_map] at hcolumns
      refine hcolumns.trans (Multiset.map_congr rfl fun a ha => ?_)
      rw [Function.comp_apply, lineTotal_silverRow,
        castPrecision_cents (hadmitted a ha) (hlines a ha)]
      rfl
    · intro r hr
      rw [orderRevenues_eq hid'] at hr
      obtain ⟨o, ho, rfl⟩ := Multiset.mem_map.1 hr
      exact lineRevenue_eq_orderCents hadmitted hsilver hlines (hsums o ho)

end Items

/-! ## From the source to Gold -/

section Pipeline

variable {env : String → IngestEnv} {topics : Topics} {raw : Presentation}
  {orderHistory : List (ChangeEvent OrderRow)} {customerHistory : List (ChangeEvent CustomerRow)}
  {itemHistory : List (ChangeEvent OrderItemRow)}

/-- One ingest and one transform fill Silver with the live items of the history. -/
theorem silverTransform_liveItems (bucketHash : String → Nat)
    (ho : Carries orders.table orders.fields (readTopic (topics "debezium.public.orders"))
      orderHistory)
    (hc : Carries customers.table customers.fields (readTopic (topics "debezium.public.customers"))
      customerHistory)
    (hi : Carries orderItems.table orderItems.fields
      (readTopic (topics "debezium.public.order_items")) itemHistory)
    (hdi : orderItems.DistinctTimes itemHistory) (hdel : orderItems.DeletedKeysUnseen itemHistory)
    (hraw : raw.Of (bronzeIngest env topics Bronze.empty).1) :
    ∃ s : Silver bucketHash, silverTransform raw Silver.empty = some s ∧
      s.orders.rows = latestOrders (raw .cdcOrders) ∧
      s.orderItems.rows.map SilverOrderItem.toLineItem = (liveItems itemHistory).map
        (orderItems.silverRow "c" (env "debezium.public.order_items").now) := by
  obtain ⟨s, hs, hor, -, hir⟩ := silverTransform_ingest bucketHash ho hc hi hraw
  have hpi := presented_perm orderItems (.tail _ (.tail _ (.head _))) hi (hraw _)
  have hmirror := (Captured.latest_eq_mirror_iff hpi hdi).2 hdel
  exact ⟨s, hs, hor, hir.trans (hmirror.trans (mirror_orderItems itemHistory))⟩

/-- The initial snapshot of a table. -/
def snapshot (rows : List OrderItemRow) : List (ChangeEvent OrderItemRow) :=
  rows.map fun a => ⟨.read a, 0, none⟩

/-- Every set of rows is what some history leaves in the table. -/
theorem leaves_snapshot {rows : List OrderItemRow}
    (hunique : (rows.map OrderItemRow.itemId).Nodup) :
    Leaves (snapshot rows) rows := by
  have hread : ∀ e ∈ snapshot rows, e.change.isDelete = false ∧ e.tsMs = 0 := by
    intro e he
    obtain ⟨a, -, rfl⟩ := List.mem_map.1 he
    exact ⟨rfl, rfl⟩
  constructor
  · refine List.pairwise_map.2 ((List.pairwise_map.1 hunique).imp ?_)
    intro a b hne hk
    exact absurd hk hne
  · intro e he _ hdel
    rw [(hread e he).1] at hdel
    cases hdel
  · have hnewest : (snapshot rows).filter (fun e => orderItems.Newest (snapshot rows) e) =
        snapshot rows := by
      apply List.filter_eq_self.2
      intro e he
      apply decide_eq_true
      intro e' he' _
      rw [(hread e he).2, (hread e' he').2]
    rw [liveItems, hnewest, snapshot, List.filterMap_map]
    exact congrArg _ (List.filterMap_some)

end Pipeline

/-- **Item revenue is exact where nothing overflows.** For every set of admitted rows, which some
history leaves in `order_items`, every history that leaves it, and any orders: the line totals are
the products and every revenue order with an item counts with the sum of its products if and only if
no product and no sum of a revenue order reaches `10 ^ 18` cents. -/
theorem lineRevenue_exact_iff (bucketHash : String → Nat) {items : Multiset OrderItemRow}
    (hadmitted : ∀ a ∈ items, Admitted a) :
    ((items.map OrderItemRow.itemId).Nodup → ∃ itemHistory, Leaves itemHistory items) ∧
    ∀ (env : String → IngestEnv) (topics : Topics) (raw : Presentation)
      (orderHistory : List (ChangeEvent OrderRow))
      (customerHistory : List (ChangeEvent CustomerRow))
      (itemHistory : List (ChangeEvent OrderItemRow)),
      Carries orders.table orders.fields (readTopic (topics "debezium.public.orders"))
        orderHistory →
      Carries customers.table customers.fields (readTopic (topics "debezium.public.customers"))
        customerHistory →
      Carries orderItems.table orderItems.fields
        (readTopic (topics "debezium.public.order_items")) itemHistory →
      Leaves itemHistory items → raw.Of (bronzeIngest env topics Bronze.empty).1 →
      ∃ s : Silver bucketHash, silverTransform raw Silver.empty = some s ∧
        (ExactLines items s.orders.rows s.orderItems.rows ↔
          LinesFit items (latestOrders (raw .cdcOrders))) := by
  constructor
  · intro hunique
    rw [← items.coe_toList] at hunique ⊢
    exact ⟨_, leaves_snapshot (Multiset.coe_nodup.1 hunique)⟩
  · intro env topics raw orderHistory customerHistory itemHistory ho hc hi hleaves hraw
    obtain ⟨s, hs, hor, hir⟩ :=
      silverTransform_liveItems bucketHash ho hc hi hleaves.times hleaves.deletes hraw
    rw [hleaves.live] at hir
    have hid := (ordersSpec_keys s.orders).1
    refine ⟨s, hs, ?_⟩
    rw [← hor]
    exact exactLines_iff hadmitted hid hir

/-! ## Given rows -/

/-- A confirmed order with a total of zero. -/
def confirmedOrder : List (ChangeEvent OrderRow) := [⟨.create (order 1 "confirmed" 0), 1, none⟩]

/-- Two items of the order and one of another. -/
theorem lineRevenue_exact_iff_snapshot : ∃ itemHistory,
    Leaves itemHistory {item 1 1, item 2 1, item 3 2} ∧ ∃ s : Silver murmurText,
      silverTransform (Presentation.ofIngest anEnv (topicsOf confirmedOrder [] itemHistory))
        Silver.empty = some s ∧
      ExactLines {item 1 1, item 2 1, item 3 2} s.orders.rows s.orderItems.rows := by
  have hadmitted : ∀ a ∈ ({item 1 1, item 2 1, item 3 2} : Multiset OrderItemRow), Admitted a := by
    decide
  obtain ⟨hexists, hexact⟩ := lineRevenue_exact_iff murmurText hadmitted
  obtain ⟨itemHistory, hleaves⟩ := hexists (by decide)
  have hcarries := carries_topicsOf confirmedOrder [] itemHistory
  obtain ⟨s, hs, hiff⟩ := hexact _ _ _ _ _ _ hcarries.1 hcarries.2.1 hcarries.2.2 hleaves
    (Presentation.ofIngest_of anEnv _)
  exact ⟨itemHistory, hleaves, s, hs, hiff.2 (linesFit_of_total hadmitted (by decide))⟩

/-- The largest quantity at the largest price. -/
def largestItem : OrderItemRow where
  itemId := 1
  orderId := 1
  productId := 101
  quantity := 2147483647
  unitPrice := .ofNat 9999999999

/-- Its line total is null. -/
theorem lineTotal_overflows : Admitted largestItem ∧
    ∃ s : Silver murmurText, silverTransform (Presentation.ofIngest anEnv
        (topicsOf confirmedOrder [] (snapshot [largestItem]))) Silver.empty = some s ∧
      s.orderItems.rows.map (fun r => r.lineTotal) = {none} ∧
      ¬ ExactLines (liveItems (snapshot [largestItem])) s.orders.rows s.orderItems.rows := by
  have hcarries := carries_topicsOf confirmedOrder [] (snapshot [largestItem])
  obtain ⟨s, hs, -, hrows⟩ := silverTransform_liveItems murmurText hcarries.1 hcarries.2.1
    hcarries.2.2 (by decide) (by decide) (Presentation.ofIngest_of anEnv _)
  have hid := (ordersSpec_keys s.orders).1
  refine ⟨by decide, s, hs, ?_, fun hexact => ?_⟩
  · have htotals := congrArg (Multiset.map LineItem.lineTotal) hrows
    rw [Multiset.map_map] at htotals
    exact htotals.trans (by decide)
  · have hlines := ((exactLines_iff (by decide) hid hrows).1 hexact).1
    exact absurd (hlines largestItem (by decide)) (by decide)

end Lakehouse.Verify
