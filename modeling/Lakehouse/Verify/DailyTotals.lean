import Lakehouse.Verify.Reconcile

/-!
# What daily revenue counts

The rows of `gold_daily_revenue` against the revenue orders and the items they are made of. Each
order is looked up once among the sums of its items (`orderRevenues_eq`), the groups of a day and a
currency share the orders out, and the new customers of a day only add a column to its rows: no
order or item is lost or counted twice (`dailyRevenue_conserves`).
-/

namespace Lakehouse.Verify

open Lib Batch

/-! ## The revenue of an order -/

/-- The items of an order. -/
def itemsOf (items : Multiset SilverOrderItem) (o : SilverOrder) : Multiset SilverOrderItem :=
  items.filter fun i => i.orderId = o.orderId

/-- The total amount of an order when none of its items has a line total, else their sum. -/
def orderAmount (items : Multiset SilverOrderItem) (o : SilverOrder) : Int :=
  if ∀ i ∈ itemsOf items o, i.lineTotal = none then units o.totalAmount
  else ((itemsOf items o).map fun i => units i.lineTotal).sum

/-- The row of `order_items` that is joined to an order. -/
def itemsRow (items : Multiset SilverOrderItem) (o : SilverOrder) : Option OrderItems :=
  if (itemsOf items o).card = 0 then none
  else some
    { orderId := o.orderId
      itemCount := (itemsOf items o).card
      grossRevenue := castTo 18 (sparkSum ((itemsOf items o).map fun i => i.lineTotal)) }

section Orders

variable {orders : Multiset SilverOrder} {items : Multiset SilverOrderItem}

/-- **Each order once**, with the row of its items. -/
theorem orderRevenues_eq (hid : ∀ o ∈ orders, o.orderId.isSome = true) :
    orderRevenues orders items = orders.map fun o => orderRevenue (o, itemsRow items o) := by
  have hjoin : leftJoin SilverOrder.orderId OrderItems.orderId orders (orderItemsOf items) =
      orders.map fun o => (o, itemsRow items o) := by
    unfold orderItemsOf
    refine leftJoin_groups SilverOrder.orderId (fun i : SilverOrderItem => i.orderId) ?_ hid items
    rfl
  rw [orderRevenues, hjoin, Multiset.map_map]
  rfl

theorem gross_itemsRow (o : SilverOrder) : (itemsRow items o).bind OrderItems.grossRevenue =
    castTo 18 (sparkSum ((itemsOf items o).map fun i => i.lineTotal)) := by
  unfold itemsRow
  by_cases hnone : (itemsOf items o).card = 0
  · rw [if_pos hnone, Multiset.card_eq_zero.1 hnone]
    rfl
  · rw [if_neg hnone]
    rfl

/-- **The line revenue of an order** is its amount. -/
theorem lineRevenue_eq_amount {o : SilverOrder} (htotal : o.totalAmount.isSome = true)
    (hfits : SumFits ((itemsOf items o).map fun i => i.lineTotal)) :
    ∃ d, (orderRevenue (o, itemsRow items o)).lineRevenue = some d ∧
      d.val = orderAmount items o := by
  have hval := val_castTo_sparkSum hfits
  have hunits := units_castTo_sparkSum hfits
  have hsome : (castTo 18 (sparkSum ((itemsOf items o).map fun i => i.lineTotal))).isSome = true ↔
      ¬ ∀ i ∈ itemsOf items o, i.lineTotal = none := by
    rw [← Option.isSome_map (f := fun d : Dec 18 => d.val), hval, sqlSum, aggregate_isSome]
    simp [decimals, Option.isSome_iff_ne_none]
  rw [← lineRevenue_eq, Dbt.lineRevenue, gross_itemsRow, orderAmount]
  cases hgross : castTo 18 (sparkSum ((itemsOf items o).map fun i => i.lineTotal)) with
  | none =>
    rw [hgross] at hsome
    obtain ⟨d, hd⟩ := Option.isSome_iff_exists.1 htotal
    rw [if_pos (not_not.1 fun h => Bool.false_ne_true (hsome.2 h)), hd]
    exact ⟨d, rfl, rfl⟩
  | some d =>
    rw [hgross] at hsome
    rw [hgross, Multiset.map_map] at hunits
    rw [if_neg (hsome.1 rfl)]
    exact ⟨d, rfl, hunits⟩

end Orders

/-! ## Conservation -/

/-- No sum the job computes for a revenue order or for a day exceeds `DECIMAL(18,2)`. -/
structure DailySumsFit (orders : Multiset SilverOrder) (items : Multiset SilverOrderItem) :
    Prop where
  perOrder : ∀ o ∈ revenueOrders orders, SumFits ((itemsOf items o).map fun i => i.lineTotal)
  perDay : ∀ g ∈ groupBy (fun r => (r.reportDate, r.currency))
    (orderRevenues (revenueOrders orders) items), SumFits (g.2.map OrderRevenue.lineRevenue)

/-- The day and the currency an order counts for. -/
def dayAndCurrency (o : SilverOrder) : Option Int × Option String :=
  (days o.createdAt, some (o.currency.getD "USD"))

/-- Rows that lose and duplicate nothing of the revenue orders and their items. -/
structure Conserves (orders : Multiset SilverOrder) (items : Multiset SilverOrderItem)
    (rows : Multiset DailyRevenue) : Prop where
  grain : (rows.map fun r => (r.reportDate, r.currency)).Nodup
  pairs : ∀ k, k ∈ rows.map (fun r => (r.reportDate, r.currency)) ↔
    ∃ o ∈ revenueOrders orders, dayAndCurrency o = k
  orderCount : (rows.map DailyRevenue.orderCount).sum = (revenueOrders orders).card
  itemCount : (orders.map SilverOrder.orderId).Nodup → (rows.map DailyRevenue.itemCount).sum =
    (items.filter fun i => i.orderId ∈ (revenueOrders orders).map SilverOrder.orderId).card
  revenue : DailySumsFit orders items →
    (∀ r ∈ rows, r.grossRevenue = r.netRevenue ∧ r.netRevenue.isSome = true) ∧
      (rows.map fun r => units r.netRevenue).sum =
        ((revenueOrders orders).map (orderAmount items)).sum

section Conservation

variable {orders : Multiset SilverOrder} {items : Multiset SilverOrderItem}

/-- The rows are keyed by the days and currencies of the orders. -/
theorem orderRevenues_keys (hid : ∀ o ∈ orders, o.orderId.isSome = true) :
    (orderRevenues orders items).map (fun r => (r.reportDate, r.currency)) =
      orders.map dayAndCurrency := by
  rw [orderRevenues_eq hid, Multiset.map_map]
  rfl

/-- The rows count the items of the orders. -/
theorem sum_itemCount (hid : ∀ o ∈ orders, o.orderId.isSome = true)
    (hunique : (orders.map SilverOrder.orderId).Nodup) (computedAt : Int) :
    ((dailyRows orders items computedAt).map DailyRevenue.itemCount).sum =
      (items.filter fun i => i.orderId ∈ orders.map SilverOrder.orderId).card := by
  have hcount : ∀ o, ((itemsRow items o).map fun oi => (oi.itemCount : Int)).getD 0 =
      ((itemsOf items o).map fun _ => (1 : Int)).sum := by
    intro o
    unfold itemsRow
    split
    · next hnone => simp [Multiset.card_eq_zero.1 hnone]
    · simp
  calc ((dailyRows orders items computedAt).map DailyRevenue.itemCount).sum
      = ((orderRevenues orders items).map fun r => r.itemCount.getD 0).sum := by
        apply sum_dailyRows
        intro g _
        rw [dailyRow, getD_sqlSum, Multiset.map_map]
        rfl
    _ = (orders.map fun o => ((itemsOf items o).map fun _ => (1 : Int)).sum).sum := by
        rw [orderRevenues_eq hid, Multiset.map_map]
        exact congrArg Multiset.sum (Multiset.map_congr rfl fun o _ => hcount o)
    _ = ((items.filter fun i => i.orderId ∈ orders.map SilverOrder.orderId).map
          fun _ => (1 : Int)).sum :=
        sum_matching SilverOrder.orderId (fun i : SilverOrderItem => i.orderId) _ hunique items
    _ = (items.filter fun i => i.orderId ∈ orders.map SilverOrder.orderId).card := by simp

/-- The rows count the orders. -/
theorem sum_orderCount (hid : ∀ o ∈ orders, o.orderId.isSome = true) (computedAt : Int) :
    ((dailyRows orders items computedAt).map DailyRevenue.orderCount).sum = orders.card := by
  calc ((dailyRows orders items computedAt).map DailyRevenue.orderCount).sum
      = ((orderRevenues orders items).map fun _ => 1).sum := by
        apply sum_dailyRows
        rintro g hg
        have hcount : sqlCount (g.2.map OrderRevenue.orderId) = g.2.card :=
          sqlCount_orderId fun x hx =>
            orderId_of_mem_orderRevenues hid (mem_of_mem_group _ hg hx).1
        rw [dailyRow, hcount]
        simp
    _ = orders.card := by
        rw [orderRevenues_eq hid]
        simp

/-- A row has an amount, and one for both columns. -/
theorem dailyRow_revenue (hid : ∀ o ∈ revenueOrders orders, o.orderId.isSome = true)
    (htotal : ∀ o ∈ revenueOrders orders, o.totalAmount.isSome = true)
    (hfits : DailySumsFit orders items) {computedAt : Int} {r : DailyRevenue}
    (hr : r ∈ dailyRows (revenueOrders orders) items computedAt) :
    r.grossRevenue = r.netRevenue ∧ r.netRevenue.isSome = true := by
  obtain ⟨⟨k, g⟩, hg, rfl⟩ := Multiset.mem_map.1 hr
  refine ⟨rfl, ?_⟩
  change (castTo 18 (sparkSum (g.map OrderRevenue.lineRevenue))).isSome = true
  rw [← Option.isSome_map (f := fun d : Dec 18 => d.val), val_castTo_sparkSum (hfits.perDay _ hg),
    sqlSum, aggregate_isSome]
  -- the group has an order, and the revenue of an order is not null
  obtain ⟨⟨x, hx, hk⟩, rfl⟩ := (mem_groupBy _).1 hg
  rw [orderRevenues_eq hid] at hx
  obtain ⟨o, ho, rfl⟩ := Multiset.mem_map.1 hx
  obtain ⟨d, hd, -⟩ := lineRevenue_eq_amount (htotal o ho) (hfits.perOrder o ho)
  refine ⟨some d.val, Multiset.mem_map.2 ⟨some d, Multiset.mem_map.2 ⟨_, ?_, hd⟩, rfl⟩, rfl⟩
  rw [orderRevenues_eq hid]
  exact Multiset.mem_filter.2 ⟨Multiset.mem_map_of_mem _ ho, hk⟩

/-- The rows sum the amounts of the orders. -/
theorem sum_netRevenue (hid : ∀ o ∈ revenueOrders orders, o.orderId.isSome = true)
    (htotal : ∀ o ∈ revenueOrders orders, o.totalAmount.isSome = true)
    (hfits : DailySumsFit orders items) (computedAt : Int) :
    ((dailyRows (revenueOrders orders) items computedAt).map fun r => units r.netRevenue).sum =
      ((revenueOrders orders).map (orderAmount items)).sum := by
  calc ((dailyRows (revenueOrders orders) items computedAt).map fun r => units r.netRevenue).sum
      = ((orderRevenues (revenueOrders orders) items).map fun x => units x.lineRevenue).sum := by
        apply sum_dailyRows
        intro g hg
        have hsum := units_castTo_sparkSum (hfits.perDay g hg)
        rwa [Multiset.map_map] at hsum
    _ = ((revenueOrders orders).map (orderAmount items)).sum := by
        rw [orderRevenues_eq hid, Multiset.map_map]
        refine congrArg Multiset.sum (Multiset.map_congr rfl fun o ho => ?_)
        obtain ⟨d, hd, hval⟩ := lineRevenue_eq_amount (htotal o ho) (hfits.perOrder o ho)
        rw [Function.comp_apply, hd, ← hval]
        rfl

/-- **Daily revenue conserves the revenue orders.** For every state of Silver in which the orders
have an `order_id` and a `total_amount`, whatever their statuses, ops, currencies and customers and
whatever the items. -/
theorem dailyRevenue_conserves (hid : ∀ o ∈ orders, o.orderId.isSome = true)
    (htotal : ∀ o ∈ orders, o.totalAmount.isSome = true) (computedAt : Int) :
    Conserves orders items (dailyRevenueRows orders items computedAt) := by
  have hid' := forall_revenueOrders hid
  have hkeys := dailyRevenueRows_keys orders items computedAt
  rw [orderRevenues_keys hid'] at hkeys
  constructor
  · rw [hkeys]
    exact Multiset.nodup_dedup _
  · intro k
    rw [hkeys, Multiset.mem_dedup, Multiset.mem_map]
  · rw [dailyRevenueRows_view fun _ _ => rfl]
    exact sum_orderCount hid' computedAt
  · intro hunique
    rw [dailyRevenueRows_view fun _ _ => rfl]
    have hle := Multiset.map_le_map (f := SilverOrder.orderId)
      (Multiset.filter_le (fun o => isRevenueOrder o = true) orders)
    exact sum_itemCount hid' (Multiset.nodup_of_le hle hunique) computedAt
  · intro hfits
    have htotal' := forall_revenueOrders htotal
    refine ⟨fun r hr => ?_, ?_⟩
    · have hview := Multiset.mem_map_of_mem (fun r => (r.grossRevenue, r.netRevenue)) hr
      rw [dailyRevenueRows_view fun _ _ => rfl] at hview
      obtain ⟨d, hd, heq⟩ := Multiset.mem_map.1 hview
      obtain ⟨hgross, hnet⟩ := Prod.mk.inj heq
      rw [← hgross, ← hnet]
      exact dailyRow_revenue hid' htotal' hfits hd
    · rw [dailyRevenueRows_view fun _ _ => rfl]
      exact sum_netRevenue hid' htotal' hfits computedAt

/-- Two of the orders are counted, with the three items of the first. -/
theorem dailyRevenue_conserves_threeOrders :
    Conserves threeOrders.rows threeItems.rows
        (dailyRevenueRows threeOrders.rows threeItems.rows 0) ∧
      ((dailyRevenueRows threeOrders.rows threeItems.rows 0).map DailyRevenue.orderCount).sum = 2 ∧
      ((dailyRevenueRows threeOrders.rows threeItems.rows 0).map DailyRevenue.itemCount).sum = 3 ∧
      ((dailyRevenueRows threeOrders.rows threeItems.rows 0).map
        fun r => units r.netRevenue).sum = 4950 + 4950 := by
  have h : Conserves threeOrders.rows threeItems.rows
      (dailyRevenueRows threeOrders.rows threeItems.rows 0) :=
    dailyRevenue_conserves (by decide) (by decide) 0
  refine ⟨h, ?_, ?_, ?_⟩
  · rw [h.orderCount]
    decide
  · rw [h.itemCount (by decide)]
    decide
  · rw [(h.revenue ⟨by decide +kernel, by decide +kernel⟩).2]
    decide +kernel

end Conservation

end Lakehouse.Verify
