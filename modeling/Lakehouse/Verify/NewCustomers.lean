import Lakehouse.Verify.DailyTotals

/-!
# New customers of a day

`new_customers` is counted for each day and joined to every row of the day, in the Spark job and in
the dbt model. Over the days it adds up to the customers with a revenue order; over the rows, which
are one for each day and currency, it does so exactly when no day on which a customer orders first
has two currencies (`newCustomers_counted_once_iff`).
-/

namespace Lakehouse.Verify

open Lib Batch

/-! ## First orders -/

/-- The customers with a revenue order. -/
def revenueCustomers (orders : Multiset SilverOrder) : Multiset (Option String) :=
  ((revenueOrders orders).map SilverOrder.customerId).dedup

/-- The day of the first revenue order of a customer. -/
def firstOrderDate (orders : Multiset SilverOrder) (customerId : Option String) : Option Int :=
  sqlMin (((revenueOrders orders).filter fun o => o.customerId = customerId).map fun o =>
    days o.createdAt)

/-- The customers whose first revenue order is on a day. -/
def newCustomersOn (orders : Multiset SilverOrder) (day : Option Int) : Nat :=
  ((revenueCustomers orders).filter fun c => firstOrderDate orders c = day).card

/-- All revenue orders of a day have one currency. -/
def OneCurrencyOn (orders : Multiset SilverOrder) (day : Option Int) : Prop :=
  ∀ o ∈ revenueOrders orders, ∀ o' ∈ revenueOrders orders, days o.createdAt = day →
    days o'.createdAt = day → o.currency.getD "USD" = o'.currency.getD "USD"

instance (orders : Multiset SilverOrder) (day : Option Int) :
    Decidable (OneCurrencyOn orders day) :=
  inferInstanceAs (Decidable (∀ o ∈ revenueOrders orders, ∀ o' ∈ revenueOrders orders, _ → _ → _))

/-- Rows that have the new customers of their day. -/
structure CountsNewCustomers (orders : Multiset SilverOrder) (rows : Multiset DailyRevenue) :
    Prop where
  perDay : ∀ r ∈ rows, r.newCustomers = newCustomersOn orders r.reportDate
  overDays : ((rows.map DailyRevenue.reportDate).dedup.map (newCustomersOn orders)).sum =
    (revenueCustomers orders).card
  overRows : (rows.map DailyRevenue.newCustomers).sum = (revenueCustomers orders).card ↔
    ∀ c ∈ revenueCustomers orders, OneCurrencyOn orders (firstOrderDate orders c)

section FirstOrders

variable {orders : Multiset SilverOrder}

/-- The first revenue order of a customer is one of the revenue orders. -/
theorem exists_firstOrder (hdated : ∀ o ∈ orders, o.createdAt.isSome = true) {c : Option String}
    (hc : c ∈ revenueCustomers orders) :
    ∃ o ∈ revenueOrders orders, days o.createdAt = firstOrderDate orders c := by
  obtain ⟨o, ho, rfl⟩ := Multiset.mem_map.1 (Multiset.mem_dedup.1 hc)
  have hmem : days o.createdAt ∈ ((revenueOrders orders).filter fun o' =>
      o'.customerId = o.customerId).map fun o' => days o'.createdAt :=
    Multiset.mem_map_of_mem _ (Multiset.mem_filter.2 ⟨ho, rfl⟩)
  rcases sqlMin_spec (((revenueOrders orders).filter fun o' =>
      o'.customerId = o.customerId).map fun o' => days o'.createdAt) with
    ⟨-, hnone⟩ | ⟨m, hm, hmin, -⟩
  · have hsome := forall_revenueOrders hdated o ho
    have hday : (days o.createdAt).isSome = true := by rwa [days, Option.isSome_map]
    rw [hnone _ hmem] at hday
    cases hday
  · obtain ⟨o', ho', hday⟩ := Multiset.mem_map.1 hmin
    exact ⟨o', (Multiset.mem_filter.1 ho').1, hday.trans hm.symm⟩

/-- The customers by the date of their first order, each once. -/
theorem firstOrdersOf_eq (orders : Multiset SilverOrder) :
    firstOrdersOf (revenueOrders orders) =
      (groupBy Prod.snd ((revenueCustomers orders).map fun c => (c, firstOrderDate orders c))).map
        fun g => { reportDate := g.1, newCustomers := sqlCount (g.2.map Prod.fst) } := by
  have hdates : (groupBy SilverOrder.customerId (revenueOrders orders)).map
      (fun p => (p.1, sqlMin (p.2.map fun o => days o.createdAt))) =
        (revenueCustomers orders).map fun c => (c, firstOrderDate orders c) :=
    Multiset.map_map _ _ _
  rw [← hdates]
  rfl

/-- The customers that are counted for a day. -/
theorem sqlCount_newCustomers (hcustomer : ∀ o ∈ orders, o.customerId.isSome = true)
    (day : Option Int) :
    sqlCount ((((revenueCustomers orders).map fun c => (c, firstOrderDate orders c)).filter
      fun p => p.2 = day).map Prod.fst) = newCustomersOn orders day := by
  have hhits : ((revenueCustomers orders).map fun c => (c, firstOrderDate orders c)).filter
      (fun p => p.2 = day) = ((revenueCustomers orders).filter fun c =>
        firstOrderDate orders c = day).map fun c => (c, firstOrderDate orders c) :=
    Multiset.filter_map _ _ _
  have hsome : ∀ c ∈ (revenueCustomers orders).filter fun c => firstOrderDate orders c = day,
      c.isSome = true := by
    intro c hc
    obtain ⟨o, ho, rfl⟩ :=
      Multiset.mem_map.1 (Multiset.mem_dedup.1 (Multiset.mem_filter.1 hc).1)
    exact forall_revenueOrders hcustomer o ho
  rw [hhits, Multiset.map_map, Function.comp_def, Multiset.map_id', sqlCount_eq_card hsome]
  rfl

/-- **New customers are looked up by day.** -/
theorem leftJoin_firstOrders {ρ : Type} {lkey : ρ → Option Int} {l : Multiset ρ}
    (hdays : ∀ x ∈ l, (lkey x).isSome = true)
    (hcustomer : ∀ o ∈ orders, o.customerId.isSome = true) :
    (leftJoin lkey FirstOrders.reportDate l (firstOrdersOf (revenueOrders orders))).map
        (fun p => (p.1, (p.2.map FirstOrders.newCustomers).getD 0)) =
      l.map fun x => (x, newCustomersOn orders (lkey x)) := by
  rw [firstOrdersOf_eq, leftJoin_groups lkey Prod.snd ?_ hdays, Multiset.map_map]
  · apply Multiset.map_congr rfl
    intro x _
    rw [← sqlCount_newCustomers hcustomer (lkey x), Function.comp_apply]
    split
    · next hnone =>
      rw [Multiset.card_eq_zero.1 hnone]
      rfl
    · rfl
  · rfl

/-! ## Days and currencies -/

/-- The days and currencies of the revenue orders. -/
def revenueKeys (orders : Multiset SilverOrder) : Multiset (Option Int × Option String) :=
  ((revenueOrders orders).map dayAndCurrency).dedup

theorem mem_revenueKeys {k : Option Int × Option String} :
    k ∈ revenueKeys orders ↔ ∃ o ∈ revenueOrders orders, dayAndCurrency o = k := by
  rw [revenueKeys, Multiset.mem_dedup, Multiset.mem_map]

/-- A day with an order has one row exactly when its orders have one currency. -/
theorem card_day_eq_one_iff {o : SilverOrder} (ho : o ∈ revenueOrders orders) :
    ((revenueKeys orders).filter fun k => days o.createdAt = k.1).card = 1 ↔
      OneCurrencyOn orders (days o.createdAt) := by
  have hmem : ∀ {p : SilverOrder}, p ∈ revenueOrders orders → days o.createdAt = days p.createdAt →
      dayAndCurrency p ∈ (revenueKeys orders).filter fun k => days o.createdAt = k.1 :=
    fun hp hday => Multiset.mem_filter.2 ⟨mem_revenueKeys.2 ⟨_, hp, rfl⟩, hday⟩
  have hnodup : ((revenueKeys orders).filter fun k => days o.createdAt = k.1).Nodup :=
    (Multiset.nodup_dedup _).filter _
  rw [card_eq_one_iff hnodup (hmem ho rfl)]
  constructor
  · intro hall p hp p' hp' hday hday'
    have hpo := hall _ (hmem hp hday.symm)
    have hpo' := hall _ (hmem hp' hday'.symm)
    exact Option.some.inj (congrArg Prod.snd (hpo.trans hpo'.symm))
  · intro hone k hk
    obtain ⟨hkey, hday⟩ := Multiset.mem_filter.1 hk
    obtain ⟨p, hp, rfl⟩ := mem_revenueKeys.1 hkey
    exact Prod.ext hday.symm (congrArg some (hone p hp o ho hday.symm rfl))

/-- What the new customers of the rows of all days and currencies add up to. -/
theorem countsNewCustomers_of_columns {rows : Multiset DailyRevenue}
    (hdated : ∀ o ∈ orders, o.createdAt.isSome = true)
    (h : rows.map (fun r => (r.reportDate, r.currency, r.newCustomers)) =
      (revenueKeys orders).map fun k => (k.1, k.2, newCustomersOn orders k.1)) :
    CountsNewCustomers orders rows := by
  have hdays : rows.map DailyRevenue.reportDate = (revenueKeys orders).map Prod.fst := by
    have hfst := congrArg (Multiset.map Prod.fst) h
    rwa [Multiset.map_map, Multiset.map_map] at hfst
  have hcounts : rows.map DailyRevenue.newCustomers =
      (revenueKeys orders).map fun k => newCustomersOn orders k.1 := by
    have hlast := congrArg (Multiset.map fun c => c.2.2) h
    rwa [Multiset.map_map, Multiset.map_map] at hlast
  constructor
  · intro r hr
    have hcols := Multiset.mem_map_of_mem (fun r => (r.reportDate, r.currency, r.newCustomers)) hr
    rw [h] at hcols
    obtain ⟨k, -, heq⟩ := Multiset.mem_map.1 hcols
    obtain ⟨hday, hrest⟩ := Prod.mk.inj heq
    rw [← (Prod.mk.inj hrest).2, hday]
  · rw [hdays]
    unfold newCustomersOn
    have hone : ∀ c ∈ revenueCustomers orders, (((revenueKeys orders).map Prod.fst).dedup.filter
        fun d => firstOrderDate orders c = d).card = 1 := by
      intro c hc
      obtain ⟨o, ho, hday⟩ := exists_firstOrder hdated hc
      rw [← hday]
      exact card_filter_eq_one (Multiset.nodup_dedup _)
        (Multiset.mem_dedup.2 (Multiset.mem_map_of_mem Prod.fst (mem_revenueKeys.2 ⟨o, ho, rfl⟩)))
    rw [sum_card_filter fun d c => firstOrderDate orders c = d]
    exact (sum_eq_card_iff fun c hc => (hone c hc).ge).2 hone
  · rw [hcounts]
    unfold newCustomersOn
    rw [sum_card_filter fun (k : Option Int × Option String) c => firstOrderDate orders c = k.1,
      sum_eq_card_iff]
    · refine forall₂_congr fun c hc => ?_
      obtain ⟨o, ho, hday⟩ := exists_firstOrder hdated hc
      rw [← hday]
      exact card_day_eq_one_iff ho
    · intro c hc
      obtain ⟨o, ho, hday⟩ := exists_firstOrder hdated hc
      exact Multiset.card_pos_iff_exists_mem.2
        ⟨_, Multiset.mem_filter.2 ⟨mem_revenueKeys.2 ⟨o, ho, rfl⟩, hday.symm⟩⟩

/-! ## Both paths -/

section Paths

variable {items : Multiset SilverOrderItem}

/-- The rows of all days and currencies, joined to the new customers of their day. -/
theorem columns_of_join {ρ : Type} {lkey : ρ → Option Int} {ckey : ρ → Option String}
    {l : Multiset ρ} (hkeys : l.map (fun x => (lkey x, ckey x)) = revenueKeys orders)
    (hcustomer : ∀ o ∈ orders, o.customerId.isSome = true)
    (hdated : ∀ o ∈ orders, o.createdAt.isSome = true) :
    (leftJoin lkey FirstOrders.reportDate l (firstOrdersOf (revenueOrders orders))).map
        (fun p => (lkey p.1, ckey p.1, (p.2.map FirstOrders.newCustomers).getD 0)) =
      (revenueKeys orders).map fun k => (k.1, k.2, newCustomersOn orders k.1) := by
  have hdays : ∀ x ∈ l, (lkey x).isSome = true := by
    intro x hx
    have hmem := Multiset.mem_map_of_mem (fun x => (lkey x, ckey x)) hx
    rw [hkeys, mem_revenueKeys] at hmem
    obtain ⟨o, ho, heq⟩ := hmem
    rw [← (Prod.mk.inj heq).1, days, Option.isSome_map]
    exact forall_revenueOrders hdated o ho
  have hjoin := congrArg (Multiset.map fun p : ρ × Nat => (lkey p.1, ckey p.1, p.2))
    (leftJoin_firstOrders hdays hcustomer)
  rw [Multiset.map_map, Multiset.map_map] at hjoin
  rw [← hkeys, Multiset.map_map]
  exact hjoin

/-- The keys and the new customers of the rows of the Spark job. -/
theorem dailyRevenueRows_columns (hid : ∀ o ∈ orders, o.orderId.isSome = true)
    (hcustomer : ∀ o ∈ orders, o.customerId.isSome = true)
    (hdated : ∀ o ∈ orders, o.createdAt.isSome = true) (computedAt : Int) :
    (dailyRevenueRows orders items computedAt).map
        (fun r => (r.reportDate, r.currency, r.newCustomers)) =
      (revenueKeys orders).map fun k => (k.1, k.2, newCustomersOn orders k.1) := by
  have hid' := forall_revenueOrders hid
  have hkeys : (dailyRows (revenueOrders orders) items computedAt).map
      (fun r => (r.reportDate, r.currency)) = revenueKeys orders := by
    rw [dailyRows, Multiset.map_map, revenueKeys, ← orderRevenues_keys hid', ← keys_groupBy]
    rfl
  rw [← columns_of_join hkeys hcustomer hdated, dailyRevenueRows, Multiset.map_map]
  rfl

/-- The sums of the items have one row for each order. -/
theorem dbt_orderItems_keys {orderItems : Multiset OrderItems}
    (h : Dbt.orderItems items = some orderItems) : (orderItems.map OrderItems.orderId).Nodup := by
  have hkeys : orderItems.map OrderItems.orderId =
      (groupBy (fun i : SilverOrderItem => i.orderId) items).map Prod.fst := by
    apply map_of_collect h
    rintro ⟨k, g⟩ - row hrow
    obtain ⟨sum, -, hrow⟩ := Option.bind_eq_some_iff.1 hrow
    obtain ⟨gross, -, rfl⟩ := Option.map_eq_some_iff.1 hrow
    rfl
  rw [hkeys]
  exact keys_groupBy_nodup _ _

/-- The days and currencies of the model are those of its orders. -/
theorem dbt_daily_keys {revenue : Multiset SilverOrder} {orderItems : Multiset OrderItems}
    (hunique : (orderItems.map OrderItems.orderId).Nodup) {daily : Multiset Dbt.Daily}
    (h : Dbt.daily revenue orderItems = some daily) :
    daily.map (fun d => (d.reportDate, d.currency)) = (revenue.map dayAndCurrency).dedup := by
  have hgroups : daily.map (fun d => (d.reportDate, d.currency)) =
      (groupBy (fun r => (days r.1.createdAt, some (r.1.currency.getD "USD")))
        (leftJoin SilverOrder.orderId OrderItems.orderId revenue orderItems)).map Prod.fst := by
    apply map_of_collect h
    rintro ⟨k, g⟩ - row hrow
    obtain ⟨sum, -, hrow⟩ := Option.bind_eq_some_iff.1 hrow
    obtain ⟨gross, -, hrow⟩ := Option.bind_eq_some_iff.1 hrow
    obtain ⟨quotient, -, hrow⟩ := Option.bind_eq_some_iff.1 hrow
    obtain ⟨avg, -, rfl⟩ := Option.map_eq_some_iff.1 hrow
    rfl
  rw [hgroups, keys_groupBy]
  conv_rhs => rw [← map_fst_leftJoin SilverOrder.orderId OrderItems.orderId hunique revenue]
  rw [Multiset.map_map]
  rfl

/-- And of the rows of the dbt model. -/
theorem dbt_dailyRevenue_columns (hcustomer : ∀ o ∈ orders, o.customerId.isSome = true)
    (hdated : ∀ o ∈ orders, o.createdAt.isSome = true) {now : Int} {rows : Multiset DailyRevenue}
    (h : Dbt.dailyRevenue orders items now = some rows) :
    rows.map (fun r => (r.reportDate, r.currency, r.newCustomers)) =
      (revenueKeys orders).map fun k => (k.1, k.2, newCustomersOn orders k.1) := by
  unfold Dbt.dailyRevenue at h
  rw [orders_eq] at h
  obtain ⟨orderItems, hitems, h⟩ := Option.bind_eq_some_iff.1 h
  obtain ⟨daily, hdaily, rfl⟩ := Option.map_eq_some_iff.1 h
  have hkeys := dbt_daily_keys (dbt_orderItems_keys hitems) hdaily
  rw [← columns_of_join hkeys hcustomer hdated, Multiset.map_map]
  rfl

end Paths

end FirstOrders

/-- **New customers are counted once a day.** For every state of Silver that its table definitions
admit and in which the orders have a `created_at`, the rows of the Spark job, and those of the dbt
model where its query succeeds, have the customers whose first revenue order is on their day. Over
the days these are the customers with a revenue order; over the rows they add up to as many exactly
when all revenue orders of every day on which a customer orders first have one currency. -/
theorem newCustomers_counted_once_iff {bucketHash : String → Nat} {orders : Table ordersSpec}
    (items : Table (orderItemsSpec bucketHash))
    (hdated : ∀ o ∈ orders.rows, o.createdAt.isSome = true) (computedAt now : Int) :
    CountsNewCustomers orders.rows (dailyRevenueRows orders.rows items.rows computedAt) ∧
      ∀ rows, Dbt.dailyRevenue orders.rows items.rows now = some rows →
        CountsNewCustomers orders.rows rows := by
  obtain ⟨hid, hcustomer⟩ := ordersSpec_keys orders
  constructor
  · apply countsNewCustomers_of_columns hdated
    exact dailyRevenueRows_columns hid hcustomer hdated computedAt
  · intro rows hrows
    apply countsNewCustomers_of_columns hdated
    exact dbt_dailyRevenue_columns hcustomer hdated hrows

theorem newCustomers_counted_once_iff_threeOrders :
    CountsNewCustomers threeOrders.rows (dailyRevenueRows threeOrders.rows oneItem.rows 0) ∧
      ∀ rows, Dbt.dailyRevenue threeOrders.rows oneItem.rows 1 = some rows →
        CountsNewCustomers threeOrders.rows rows :=
  newCustomers_counted_once_iff oneItem (by decide) 0 1

/-- Two orders of one customer on one day, in two currencies. -/
def twoCurrencies : Table ordersSpec where
  rows :=
    let order (id currency : String) : SilverOrder :=
      { orderId := some id, customerId := some "7", status := some "confirmed"
        totalAmount := some 0, currency := some currency, createdAt := some 0
        updatedAt := some 0, sourceOp := some "c", ingestedAt := 0 }
    {order "1" "USD", order "2" "EUR"}
  valid := by decide

/-- The one new customer of the day is in both of its rows. -/
theorem newCustomers_counted_twice : (revenueCustomers twoCurrencies.rows).card = 1 ∧
    ((dailyRevenueRows twoCurrencies.rows 0 0).map DailyRevenue.newCustomers).sum = 2 ∧
    (Dbt.dailyRevenue twoCurrencies.rows 0 0).map
      (fun rows => (rows.map DailyRevenue.newCustomers).sum) = some 2 :=
  ⟨by decide +kernel, by decide +kernel, by decide +kernel⟩

end Lakehouse.Verify
