import Lakehouse.Verify.LineTotals
import Lakehouse.Verify.NewCustomers
import Lakehouse.Verify.SourceMetrics
import Lakehouse.Verify.TrafficRuns

/-!
# Daily revenue of the source

What `gold_daily_revenue` computes once Silver shows the orders and the items of one state of the
source: one row for each day with a revenue order, with the orders, the items, the totals and the
new customers of the day (`showsRevenue_rows`). The source keeps the total of an order at the sum of
its items, so no sum of an order leaves its column.
-/

namespace Lakehouse.Verify

open Lib Source Batch Demo

/-! ## Days of the source -/

/-- The revenue orders of a day. -/
def placedOn (db : Database) (day : Int) : Multiset OrderRow :=
  (revenueRows db).filter fun o => dateOf o.createdAt = day

theorem placedOn_le (db : Database) (day : Int) :
    placedOn db day ≤ (db.orders : Multiset OrderRow) :=
  (Multiset.filter_le _ _).trans (revenueRows_le db)

/-- The day of a revenue order has one. -/
theorem placedOn_ne_zero {db : Database} {o : OrderRow} (ho : o ∈ revenueRows db) :
    placedOn db (dateOf o.createdAt) ≠ 0 := by
  intro hnone
  have hmem : o ∈ placedOn db (dateOf o.createdAt) := Multiset.mem_filter.2 ⟨ho, rfl⟩
  rw [hnone] at hmem
  exact Multiset.notMem_zero o hmem

/-- The day of the first revenue order of a customer. -/
def firstPlaced (db : Database) (customerId : Int64) : Option Int :=
  sqlMin ((placed db customerId).map fun o => some (dateOf o.createdAt))

/-- The figures of a day, the amounts as long as they fit their columns. -/
structure RevenueOf (db : Database) (day : Int) (r : DailyRevenue) : Prop where
  currency : r.currency = some "USD"
  orderCount : r.orderCount = (placedOn db day).card
  itemCount : r.itemCount =
    ((placedOn db day).map fun o => ((db.itemsOf o.orderId).length : Int)).sum
  newCustomers : r.newCustomers =
    (db.customers.filter fun c => firstPlaced db c.customerId = some day).length
  amounts : (cents (placedOn db day)).natAbs < 10 ^ 18 → (placedOn db day).card < 10 ^ 10 →
    r.grossRevenue.map (fun d => d.val) = some (cents (placedOn db day)) ∧
      r.netRevenue = r.grossRevenue ∧
      r.avgOrderValue.map (fun d => d.val) =
        some (roundDiv (cents (placedOn db day)) (placedOn db day).card)

/-- One row for each day with a revenue order. -/
structure ShowsRevenue (rows : Multiset DailyRevenue) (db : Database) : Prop where
  nodup : (rows.map DailyRevenue.reportDate).Nodup
  days : ∀ day, some day ∈ rows.map DailyRevenue.reportDate ↔ placedOn db day ≠ 0
  figures : ∀ r ∈ rows, ∃ day, r.reportDate = some day ∧ RevenueOf db day r

/-! ## The revenue of an order -/

section Orders

variable {db : Database} {items : Multiset SilverOrderItem}

theorem itemsWithId_eq (db : Database) (orderId : Int64) :
    itemsWithId db.items (some orderId.toInt.repr) = db.itemsOf orderId := by
  rw [itemsWithId, Database.itemsOf, ← Multiset.filter_coe]
  refine Multiset.filter_congr fun i _ => ?_
  rw [Option.some.injEq, repr_int64_inj]

/-- The products of the items of an order are its total. -/
theorem orderCents_eq_total (hsound : Sound db) {o : OrderRow} (ho : o ∈ db.orders) :
    orderCents db.items (some o.orderId.toInt.repr) = o.totalAmount.val := by
  rw [(hsound.consistent o ho).total, orderCents, itemsWithId_eq, Multiset.map_coe,
    Multiset.sum_coe]

/-- No item costs more than the total of its order. -/
theorem cents_lt (hsound : Sound db) (hadmitted : ∀ i ∈ db.items, Admitted i) :
    ∀ i ∈ db.items, i.cents < 10 ^ 18 := by
  intro i hi
  obtain ⟨o, ho, hid⟩ := hsound.itemOrder i hi
  have hmem : i.cents ∈
      (itemsWithId db.items (some o.orderId.toInt.repr)).map OrderItemRow.cents := by
    refine Multiset.mem_map_of_mem _ ?_
    rw [itemsWithId_eq, Multiset.mem_coe, Database.itemsOf, List.mem_filter]
    exact ⟨hi, decide_eq_true hid.symm⟩
  have hle : i.cents ≤ orderCents db.items (some o.orderId.toInt.repr) := by
    refine Multiset.single_le_sum (fun n hn => ?_) _ hmem
    obtain ⟨x, hx, rfl⟩ := Multiset.mem_map.1 hn
    exact cents_nonneg (hadmitted x (Multiset.mem_coe.1 (Multiset.mem_filter.1 hx).1))
  rw [orderCents_eq_total hsound ho] at hle
  have hlt := o.totalAmount.property
  omega

variable (hitems : orderItems.Shows (items.map SilverOrderItem.toLineItem) db.items)
include hitems

/-- The Silver items of an order are its items in the source. -/
theorem itemsOf_shown {β : Type} {f : LineItem → β} {g : OrderItemRow → β}
    (hf : ∀ op now i, f (orderItems.silverRow op now i) = g i) (op : String) (now : Int)
    (o : OrderRow) : (itemsOf items (orders.silverRow op now o)).map (fun i => f i.toLineItem) =
      ((db.itemsOf o.orderId : Multiset OrderItemRow).map g) := by
  obtain ⟨tag, -, hrows⟩ := hitems
  calc (itemsOf items (orders.silverRow op now o)).map (fun i => f i.toLineItem)
      = ((items.map SilverOrderItem.toLineItem).filter fun i =>
          i.orderId = some o.orderId.toInt.repr).map f := by
        rw [Multiset.filter_map, Multiset.map_map]
        rfl
    _ = (itemsWithId db.items (some o.orderId.toInt.repr)).map g := by
        rw [hrows, Multiset.filter_map, Multiset.map_map]
        exact Multiset.map_congr rfl fun i _ => hf _ _ i
    _ = ((db.itemsOf o.orderId : Multiset OrderItemRow).map g) := by rw [itemsWithId_eq]

/-- The items of an order are counted as they are in the source. -/
theorem itemCount_shown (op : String) (now : Int) (o : OrderRow) :
    (orderRevenue (orders.silverRow op now o,
      itemsRow items (orders.silverRow op now o))).itemCount.getD 0 =
        (db.itemsOf o.orderId).length := by
  have hcard := congrArg Multiset.card <|
    itemsOf_shown hitems (f := fun _ => ()) (g := fun _ => ()) (fun _ _ _ => rfl) op now o
  simp only [Multiset.card_map, Multiset.coe_card] at hcard
  rw [orderRevenue, itemsRow]
  split
  · next hnone => simp [← hcard, hnone]
  · simp [hcard]

/-- **The revenue of an order is its total.** -/
theorem lineRevenue_shown (hsound : Sound db) (hadmitted : ∀ i ∈ db.items, Admitted i)
    {o : OrderRow} (ho : o ∈ db.orders) (op : String) (now : Int) :
    ∃ d, (orderRevenue (orders.silverRow op now o,
      itemsRow items (orders.silverRow op now o))).lineRevenue = some d ∧
        d.val = o.totalAmount.val := by
  have htotals : (itemsOf items (orders.silverRow op now o)).map (fun i => i.lineTotal) =
      (itemsWithId db.items (some o.orderId.toInt.repr)).map fun i => castPrecision 18 i.cents := by
    rw [itemsWithId_eq]
    exact itemsOf_shown hitems (f := fun i => i.lineTotal) (fun _ _ _ => rfl) op now o
  have hunits : (((itemsOf items (orders.silverRow op now o)).map fun i => i.lineTotal).map
      units).sum = o.totalAmount.val := by
    rw [htotals, units_lineTotals hadmitted (cents_lt hsound hadmitted),
      orderCents_eq_total hsound ho]
  have hfits : SumFits ((itemsOf items (orders.silverRow op now o)).map fun i => i.lineTotal) := by
    intro n hn
    have hval := getD_sqlSum (decimals
      ((itemsOf items (orders.silverRow op now o)).map fun i => i.lineTotal))
    rw [Option.mem_def.1 hn, decimals, Multiset.map_map] at hval
    have hlt := o.totalAmount.property
    have heq : n = o.totalAmount.val := hval.trans hunits
    omega
  obtain ⟨d, hd, hval⟩ := lineRevenue_eq_amount (o := orders.silverRow op now o) rfl hfits
  refine ⟨d, hd, hval.trans ?_⟩
  rw [orderAmount]
  split
  · rfl
  · rw [← hunits, Multiset.map_map]
    rfl

end Orders

/-! ## The rows of a day -/

section Days

variable {db : Database} {silverOrders : Multiset SilverOrder} {items : Multiset SilverOrderItem}
  {computedAt : Int}

/-- The row of a revenue order before the days are added up. -/
def revenueRow (items : Multiset SilverOrderItem) (tag : OrderRow → String × Int) (o : OrderRow) :
    OrderRevenue :=
  orderRevenue (orders.silverRow (tag o).1 (tag o).2 o,
    itemsRow items (orders.silverRow (tag o).1 (tag o).2 o))

/-- The figures of the orders of a day, but for the new customers. -/
theorem dailyRow_shown (hitems : orderItems.Shows (items.map SilverOrderItem.toLineItem) db.items)
    (hsound : Sound db) (hadmitted : ∀ i ∈ db.items, Admitted i) (tag : OrderRow → String × Int)
    {day : Int} (hne : placedOn db day ≠ 0) {r : DailyRevenue}
    (hr : r = dailyRow computedAt (some day, some "USD")
      ((placedOn db day).map (revenueRow items tag))) :
    r.orderCount = (placedOn db day).card ∧
      r.itemCount = ((placedOn db day).map fun o => ((db.itemsOf o.orderId).length : Int)).sum ∧
      ((cents (placedOn db day)).natAbs < 10 ^ 18 → (placedOn db day).card < 10 ^ 10 →
        r.grossRevenue.map (fun d => d.val) = some (cents (placedOn db day)) ∧
          r.netRevenue = r.grossRevenue ∧
          r.avgOrderValue.map (fun d => d.val) =
            some (roundDiv (cents (placedOn db day)) (placedOn db day).card)) := by
  subst hr
  have hcount : sqlCount (((placedOn db day).map (revenueRow items tag)).map
      OrderRevenue.orderId) = (placedOn db day).card :=
    (sqlCount_orderId (Multiset.forall_mem_map_iff.2 fun _ _ => rfl)).trans (Multiset.card_map _ _)
  refine ⟨hcount, ?_, fun hfits hfew => ?_⟩
  · refine (getD_sqlSum _).trans ?_
    rw [Multiset.map_map, Multiset.map_map]
    exact congrArg Multiset.sum <| Multiset.map_congr rfl fun o _ => itemCount_shown hitems _ _ o
  · have hrevenue : ∀ o ∈ placedOn db day, ∃ d, (revenueRow items tag o).lineRevenue = some d ∧
        d.val = o.totalAmount.val := by
      intro o ho
      have hmem := Multiset.mem_coe.1 (Multiset.mem_filter.1 ho).1
      exact lineRevenue_shown hitems hsound hadmitted (List.mem_filter.1 hmem).1 _ _
    have hsum : ((((placedOn db day).map (revenueRow items tag)).map
        OrderRevenue.lineRevenue).map units).sum = cents (placedOn db day) := by
      rw [Multiset.map_map, Multiset.map_map]
      refine congrArg Multiset.sum (Multiset.map_congr rfl fun o ho => ?_)
      obtain ⟨d, hd, hval⟩ := hrevenue o ho
      rw [Function.comp_apply, Function.comp_apply, hd]
      exact hval
    obtain ⟨o, ho⟩ := Multiset.exists_mem_of_ne_zero hne
    obtain ⟨d, hd, -⟩ := hrevenue o ho
    rw [← hsum] at hfits ⊢
    obtain ⟨revenue, avg, hgross, havg, hrevenueVal, havgVal⟩ := sparkSum_amounts
      (Multiset.mem_map_of_mem OrderRevenue.lineRevenue
        (Multiset.mem_map_of_mem (revenueRow items tag) ho))
      (by rw [hd]; rfl) hfits (Multiset.card_pos.2 hne) hfew
    refine ⟨?_, rfl, ?_⟩
    · simp only [dailyRow, hgross, Option.map_some, hrevenueVal]
    · simp only [dailyRow, hcount, havg, Option.map_some, havgVal]

/-- The new customers of a day. -/
theorem newCustomersOn_shown (horders : orders.Shows silverOrders db.orders) (hsound : Sound db)
    (hunique : (db.customers.map CustomerRow.customerId).Nodup) (day : Int) :
    newCustomersOn silverOrders (some day) =
      (db.customers.filter fun c => firstPlaced db c.customerId = some day).length := by
  have hfirst : ∀ customerId : Int64,
      firstOrderDate silverOrders (some customerId.toInt.repr) = firstPlaced db customerId := by
    intro customerId
    obtain ⟨tag, htag⟩ := horders.revenueOrdersOf
    have hdays : firstOrderDate silverOrders (some customerId.toInt.repr) =
        sqlMin ((revenueOrdersOf silverOrders (some customerId.toInt.repr)).map fun o =>
          days o.createdAt) := rfl
    rw [hdays, htag, Multiset.map_map]
    rfl
  let customerKey : CustomerRow → Option String := fun c => some c.customerId.toInt.repr
  have hnodup : (db.customers.map customerKey).Nodup := by
    rw [show customerKey = (fun id : Int64 => some id.toInt.repr) ∘ CustomerRow.customerId from rfl,
      ← List.map_map]
    exact hunique.map fun _ _ h => repr_int64_inj.1 (Option.some.inj h)
  have hkeys : ((db.customers.filter fun c => firstPlaced db c.customerId = some day :
      List CustomerRow) : Multiset CustomerRow).map customerKey =
        (revenueCustomers silverOrders).filter fun c => firstOrderDate silverOrders c = some day := by
    refine (Multiset.Nodup.ext (Multiset.coe_nodup.2 (hnodup.sublist (List.filter_sublist.map _)))
      ((Multiset.nodup_dedup _).filter _)).2 fun k => ?_
    obtain ⟨tag, htag⟩ := horders.revenueOrders
    rw [Multiset.mem_coe, List.mem_map, Multiset.mem_filter, Multiset.mem_dedup, htag,
      Multiset.map_map, Multiset.mem_map]
    constructor
    · rintro ⟨c, hc, rfl⟩
      have hday : firstPlaced db c.customerId = some day :=
        of_decide_eq_true (List.mem_filter.1 hc).2
      refine ⟨?_, (hfirst c.customerId).trans hday⟩
      -- a customer with a first day has a revenue order
      rcases sqlMin_spec ((placed db c.customerId).map fun o => some (dateOf o.createdAt)) with
        ⟨hnone, -⟩ | ⟨m, -, hm, -⟩
      · rw [firstPlaced, hnone] at hday
        cases hday
      · obtain ⟨o, ho, -⟩ := Multiset.mem_map.1 hm
        obtain ⟨hrow, hcustomer⟩ := Multiset.mem_filter.1 ho
        exact ⟨o, hrow, congrArg (fun id : Int64 => some id.toInt.repr) hcustomer⟩
    · rintro ⟨⟨o, ho, rfl⟩, hday⟩
      have hdb := (List.mem_filter.1 (Multiset.mem_coe.1 ho)).1
      obtain ⟨c, hc, hk⟩ := (hsound.consistent o hdb).knownCustomer
      have hkey : customerKey c = some o.customerId.toInt.repr := by rw [← hk]
      refine ⟨c, List.mem_filter.2 ⟨hc, decide_eq_true ?_⟩, hkey⟩
      rw [hk, ← hfirst]
      exact hday
  rw [newCustomersOn, ← hkeys, Multiset.card_map, Multiset.coe_card]

/-- The rows with their new customers. -/
theorem dailyRevenueRows_eq {os : Multiset SilverOrder}
    (hcustomer : ∀ o ∈ os, o.customerId.isSome = true)
    (hdated : ∀ d ∈ dailyRows (revenueOrders os) items computedAt, d.reportDate.isSome = true) :
    dailyRevenueRows os items computedAt = (dailyRows (revenueOrders os) items computedAt).map
      fun d => { d with newCustomers := newCustomersOn os d.reportDate } := by
  have hjoin := congrArg
    (Multiset.map fun p : DailyRevenue × Nat => { p.1 with newCustomers := p.2 })
    (leftJoin_firstOrders hdated hcustomer)
  rw [Multiset.map_map, Multiset.map_map] at hjoin
  exact hjoin

/-- **What the job computes shows the source.** -/
theorem showsRevenue_rows (horders : orders.Shows silverOrders db.orders)
    (hitems : orderItems.Shows (items.map SilverOrderItem.toLineItem) db.items) (hsound : Sound db)
    (hadmitted : ∀ i ∈ db.items, Admitted i)
    (hunique : (db.customers.map CustomerRow.customerId).Nodup) (computedAt : Int) :
    ShowsRevenue (dailyRevenueRows silverOrders items computedAt) db := by
  obtain ⟨tag, htag⟩ := horders.revenueOrders
  have hcustomer : ∀ o ∈ silverOrders, o.customerId.isSome = true := by
    obtain ⟨tag, -, rfl⟩ := horders
    rw [Multiset.forall_mem_map_iff]
    exact fun _ _ => rfl
  have hrevenues : orderRevenues (revenueOrders silverOrders) items =
      (revenueRows db).map (revenueRow items tag) := by
    rw [htag, orderRevenues_eq (Multiset.forall_mem_map_iff.2 fun _ _ => rfl), Multiset.map_map]
    rfl
  have hkey : ∀ o, ((revenueRow items tag o).reportDate, (revenueRow items tag o).currency) =
      (some (dateOf o.createdAt), some "USD") := fun _ => rfl
  -- the groups are the days
  have hdaily : ∀ d ∈ dailyRows (revenueOrders silverOrders) items computedAt, ∃ day,
      placedOn db day ≠ 0 ∧ d = dailyRow computedAt (some day, some "USD")
        ((placedOn db day).map (revenueRow items tag)) := by
    intro d hd
    obtain ⟨⟨k, g⟩, hg, rfl⟩ := Multiset.mem_map.1 hd
    rw [hrevenues] at hg
    obtain ⟨⟨x, hx, rfl⟩, rfl⟩ := (mem_groupBy _).1 hg
    obtain ⟨o, ho, rfl⟩ := Multiset.mem_map.1 hx
    have hgroup : ((revenueRows db).map (revenueRow items tag)).filter (fun r =>
        (r.reportDate, r.currency) = ((revenueRow items tag o).reportDate,
          (revenueRow items tag o).currency)) =
        (placedOn db (dateOf o.createdAt)).map (revenueRow items tag) := by
      rw [Multiset.filter_map, placedOn]
      refine congrArg _ (Multiset.filter_congr fun o' _ => ?_)
      rw [Function.comp_apply, hkey, hkey, Prod.mk.injEq, Option.some.injEq]
      exact and_iff_left rfl
    exact ⟨dateOf o.createdAt, placedOn_ne_zero ho,
      congrArg (dailyRow computedAt (some (dateOf o.createdAt), some "USD")) hgroup⟩
  have hdated : ∀ d ∈ dailyRows (revenueOrders silverOrders) items computedAt,
      d.reportDate.isSome = true := by
    intro d hd
    obtain ⟨day, -, rfl⟩ := hdaily d hd
    rfl
  have hrows := dailyRevenueRows_eq hcustomer hdated
  have hfigures : ∀ r ∈ dailyRevenueRows silverOrders items computedAt, ∃ day,
      r.reportDate = some day ∧ RevenueOf db day r := by
    rw [hrows, Multiset.forall_mem_map_iff]
    intro d hd
    obtain ⟨day, hne, hrow⟩ := hdaily d hd
    obtain ⟨hcount, hitemCount, hamounts⟩ := dailyRow_shown hitems hsound hadmitted tag hne hrow
    subst hrow
    exact ⟨day, rfl, rfl, hcount, hitemCount, newCustomersOn_shown horders hsound hunique day,
      hamounts⟩
  refine ⟨?_, fun day => ?_, hfigures⟩
  · have hpairs : ((dailyRevenueRows silverOrders items computedAt).map fun r =>
        (r.reportDate, r.currency)).Nodup := by
      rw [dailyRevenueRows_keys]
      exact Multiset.nodup_dedup _
    have hsplit : ((dailyRevenueRows silverOrders items computedAt).map fun r =>
        (r.reportDate, r.currency)) =
        ((dailyRevenueRows silverOrders items computedAt).map DailyRevenue.reportDate).map
          fun d => (d, some "USD") := by
      rw [Multiset.map_map]
      refine Multiset.map_congr rfl fun r hr => ?_
      obtain ⟨day, -, hday⟩ := hfigures r hr
      exact congrArg (Prod.mk r.reportDate) hday.currency
    rw [hsplit] at hpairs
    exact hpairs.of_map
  · have hdates : some day ∈ (dailyRevenueRows silverOrders items computedAt).map
        DailyRevenue.reportDate ↔ some day ∈ (revenueOrders silverOrders).map fun o =>
          days o.createdAt :=
      @reportDates_iff ⟨⟨silverOrders, items⟩, computedAt⟩ (some day)
    rw [hdates, htag, Multiset.map_map, Multiset.mem_map, placedOn, Ne, Multiset.filter_eq_nil]
    simp [days, orders]

end Days

end Lakehouse.Verify
