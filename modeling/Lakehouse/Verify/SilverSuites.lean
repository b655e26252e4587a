import Lakehouse.Verify.ClockedTraffic
import Lakehouse.Verify.DbtRuns
import Lakehouse.Verify.SuiteSuccess

/-!
# Silver suites

The three suites of Silver succeed on tables that show a source whose rows fit.
-/

namespace Lakehouse.Verify

open Lib Source Batch Demo

theorem length_repr_int64 (n : Int64) : 1 ≤ n.toInt.repr.length ∧ n.toInt.repr.length ≤ 128 := by
  have hnat : ∀ k : Nat, k < 10 ^ 20 → 1 ≤ k.repr.length ∧ k.repr.length ≤ 20 := fun k hk =>
    ⟨Nat.length_repr_pos, (Nat.length_repr_le_iff (by decide)).2 hk⟩
  have hlow := n.le_toInt
  have hhigh := n.toInt_lt
  cases hcase : n.toInt with
  | ofNat k =>
    rw [hcase] at hhigh
    obtain ⟨hpos, hlen⟩ := hnat k (by
      have hk : (k : Int) < 2 ^ 63 := hhigh
      omega)
    exact ⟨hpos, hlen.trans (by decide)⟩
  | negSucc k =>
    rw [hcase] at hlow
    obtain ⟨hpos, hlen⟩ := hnat (k + 1) (by omega)
    have hsign : (Int.negSucc k).repr.length = (k + 1).repr.length + 1 := by
      rw [Int.repr, String.length_append, Nat.add_comm]
      rfl
    omega

/-- An identifier as a text of the length that is asked for. -/
theorem id_length (n : Int64) {v : Quality.Value} (hv : v ∈ some (Quality.Value.text n.toInt.repr)) :
    ∃ s, v = .text s ∧ (∀ k ∈ some 1, k ≤ s.length) ∧ ∀ k ∈ some 128, s.length ≤ k := by
  obtain ⟨hmin, hmax⟩ := length_repr_int64 n
  obtain rfl := Option.some.inj hv
  refine ⟨_, rfl, fun k hk => ?_, fun k hk => ?_⟩
  · obtain rfl := Option.some.inj hk
    exact hmin
  · obtain rfl := Option.some.inj hk
    exact hmax

theorem sourceOp_in_set {op : String} (hop : op ∈ upsertOps) {v : Quality.Value}
    (hv : v ∈ some (Quality.Value.text op)) :
    v ∈ [Quality.Value.text "c", .text "u", .text "r"] := by
  obtain rfl := Option.some.inj hv
  simpa [upsertOps] using hop

/-- An update is not before the creation. -/
theorem updated_after {t created updated : Int} (h : DatedBy t created updated) :
    Quality.pairAGreaterThanB true (some (.timestamp updated)) (some (.timestamp created)) = true := by
  have hle : (Quality.Value.timestamp created).le (.timestamp updated) = true :=
    decide_eq_true h.2.1
  simp only [Quality.pairAGreaterThanB, hle, Bool.true_or, Bool.and_self]

section Suites

variable {t : Int} {db : Database} (hfit : RowsFit t db)
include hfit

theorem orders_ne_nil : db.orders ≠ [] := by
  obtain ⟨o, ho, -⟩ := hfit.completed
  exact List.ne_nil_of_mem ho

variable (hsound : Sound db)
include hsound

theorem customers_ne_nil : db.customers ≠ [] := by
  obtain ⟨o, ho, -⟩ := hfit.completed
  obtain ⟨c, hc, -⟩ := (hsound.consistent o ho).knownCustomer
  exact List.ne_nil_of_mem hc

theorem items_ne_nil : db.items ≠ [] := by
  obtain ⟨o, ho, -⟩ := hfit.completed
  intro hnil
  apply (hsound.consistent o ho).hasItem
  rw [Database.itemsOf, hnil]
  rfl

section Tables

variable (hadmitted : ∀ i ∈ db.items, Admitted i)

include hadmitted in
/-- The suite of `silver.orders` holds of rows that show a source. -/
theorem silverOrders_success {rows : Multiset SilverOrder} (h : orders.Shows rows db.orders) :
    (Quality.silverOrders.validate (Quality.ordersFrame rows)).success = true := by
  have hne := h.ne_zero (orders_ne_nil hfit)
  have hkeys : (rows.map SilverOrder.orderId).Nodup := h.keys_nodup hsound.orderIds
  have hmostly : (999 / 1000 : ℚ) ≤ 1 := by norm_num
  rw [validate_success]
  simp only [Quality.silverOrders, List.forall_mem_cons]
  refine ⟨rowCount_success hne, rfl,
    notBeNull_success rfl le_rfl (h.forall_rows fun _ _ _ _ _ => rfl),
    beUnique_success rfl le_rfl (values_text_nodup hkeys),
    valueLengths_success rfl le_rfl (h.forall_rows fun o _ _ _ _ v hv => id_length o.orderId hv),
    notBeNull_success rfl le_rfl (h.forall_rows fun _ _ _ _ _ => rfl),
    valueLengths_success rfl le_rfl (h.forall_rows fun o _ _ _ _ v hv => id_length o.customerId hv),
    beInSet_success rfl hmostly (h.forall_rows fun o ho _ _ _ v hv => ?_),
    beBetween_success rfl hmostly (h.forall_rows fun o ho _ _ _ v hv => ?_),
    matchRegex_success rfl hmostly
      (h.forall_rows fun _ _ _ _ _ v hv => absurd hv (Option.not_mem_none v)),
    notBeNull_success rfl le_rfl (h.forall_rows fun _ _ _ _ _ => rfl),
    columnMax_success (fun _ _ => rfl) rfl ?_,
    pair_success rfl rfl hmostly
      (h.forall_rows fun o ho _ _ _ => .inr (updated_after (hfit.orders o ho))),
    beInSet_success rfl le_rfl (h.forall_rows fun _ _ _ hop _ _ hv => sourceOp_in_set hop hv),
    notBeNull_success rfl le_rfl (h.forall_rows fun _ _ _ _ _ => rfl), List.forall_mem_nil _⟩
  · obtain rfl := Option.some.inj hv
    simpa [lifecycle] using (hsound.consistent o ho).status
  · obtain rfl := Option.some.inj hv
    exact amount_within (totalAmount_nonneg hsound hadmitted o ho)
  · obtain ⟨r, hr⟩ := Multiset.exists_mem_of_ne_zero hne
    exact ⟨r, hr, h.forall_rows (P := fun r => ∃ t ∈ r.createdAt, dataStart ≤ t)
      (fun o ho _ _ _ => ⟨o.createdAt, rfl, (hfit.orders o ho).1⟩) r hr⟩

/-- So does the suite of `silver.customers`. -/
theorem silverCustomers_success {rows : Multiset SilverCustomer}
    (h : customers.Shows rows db.customers)
    (hids : (db.customers.map CustomerRow.customerId).Nodup) :
    (Quality.silverCustomers.validate (Quality.customersFrame rows)).success = true := by
  have hkeys : (rows.map SilverCustomer.customerId).Nodup := h.keys_nodup hids
  have hmostly : (99 / 100 : ℚ) ≤ 1 := by norm_num
  have hmostlyPair : (999 / 1000 : ℚ) ≤ 1 := by norm_num
  have hlength : ∀ {s : String} {min max : Nat}, min ≤ s.length ∧ s.length ≤ max →
      ∀ v ∈ some (Quality.Value.text s), ∃ s, v = .text s ∧ (∀ n ∈ some min, n ≤ s.length) ∧
        ∀ n ∈ some max, s.length ≤ n := by
    rintro s min max ⟨hmin, hmax⟩ v hv
    obtain rfl := Option.some.inj hv
    exact ⟨s, rfl, fun n hn => (Option.some.inj hn) ▸ hmin, fun n hn => (Option.some.inj hn) ▸ hmax⟩
  rw [validate_success]
  simp only [Quality.silverCustomers, List.forall_mem_cons]
  refine ⟨rowCount_success (h.ne_zero (customers_ne_nil hfit hsound)), rfl,
    notBeNull_success rfl le_rfl (h.forall_rows fun _ _ _ _ _ => rfl),
    beUnique_success rfl le_rfl (values_text_nodup hkeys),
    valueLengths_success rfl hmostly
      (h.forall_rows fun c hc _ _ _ => hlength (hfit.customers c hc).2.name),
    matchRegex_success rfl hmostly (h.forall_rows fun c hc _ _ _ v hv => ?_),
    valueLengths_success rfl le_rfl
      (h.forall_rows fun c hc _ _ _ => hlength (hfit.customers c hc).2.emailLength),
    notBeNull_success rfl le_rfl (h.forall_rows fun _ _ _ _ _ => rfl),
    pair_success rfl rfl hmostlyPair
      (h.forall_rows fun c hc _ _ _ => .inr (updated_after (hfit.customers c hc).1)),
    beInSet_success rfl le_rfl (h.forall_rows fun _ _ _ hop _ _ hv => sourceOp_in_set hop hv),
    notBeNull_success rfl le_rfl (h.forall_rows fun _ _ _ _ _ => rfl), List.forall_mem_nil _⟩
  obtain rfl := Option.some.inj hv
  exact ⟨c.email, rfl, (hfit.customers c hc).2.email⟩

include hadmitted in
/-- The items have the time of their order. -/
theorem silverOrderItems_success {rows : Multiset SilverOrderItem}
    (h : orderItems.Shows (rows.map SilverOrderItem.toLineItem) db.items)
    (hdated : ∀ r ∈ rows, r.orderCreatedAt.isSome = true) :
    (Quality.silverOrderItems.validate (Quality.orderItemsFrame rows)).success = true := by
  have hne : rows ≠ 0 := by
    rintro rfl
    exact h.ne_zero (items_ne_nil hfit hsound) rfl
  have hkeys : (rows.map fun r => r.itemId).Nodup := by
    have hnodup := h.keys_nodup hsound.itemIds
    rwa [Multiset.map_map] at hnodup
  have hall : ∀ {P : SilverOrderItem → Prop}, (∀ i ∈ db.items, ∀ op now dated,
      P ⟨orderItems.silverRow op now i, dated⟩) → ∀ r ∈ rows, P r := by
    rintro P hP ⟨line, dated⟩ hr
    obtain ⟨i, hi, op, -, now, rfl⟩ := h.source_row _ (Multiset.mem_map_of_mem _ hr)
    exact hP i hi op now dated
  have hmostly : (999 / 1000 : ℚ) ≤ 1 := by norm_num
  have htotal : ∀ i ∈ db.items, ∃ d : Dec 18, castPrecision 18 i.cents = some d ∧ 0 ≤ d.val := by
    intro i hi
    have hcents := castPrecision_cents (hadmitted i hi) (cents_lt hsound hadmitted i hi)
    obtain ⟨d, hd, hval⟩ := Option.map_eq_some_iff.1 hcents
    exact ⟨d, hd, hval ▸ cents_nonneg (hadmitted i hi)⟩
  rw [validate_success]
  simp only [Quality.silverOrderItems, List.forall_mem_cons]
  refine ⟨rowCount_success hne, rfl,
    notBeNull_success rfl le_rfl (hall fun _ _ _ _ _ => rfl),
    beUnique_success rfl le_rfl (values_text_nodup hkeys),
    notBeNull_success rfl le_rfl (hall fun _ _ _ _ _ => rfl),
    notBeNull_success rfl le_rfl (hall fun _ _ _ _ _ => rfl),
    notBeNull_success rfl le_rfl (hall fun _ _ _ _ _ => rfl),
    beBetween_success rfl le_rfl (hall fun i hi _ _ _ v hv => ?_),
    notBeNull_success rfl le_rfl (hall fun _ _ _ _ _ => rfl),
    beBetween_success rfl hmostly (hall fun i hi _ _ _ v hv => ?_),
    notBeNull_success rfl le_rfl (hall fun i hi _ _ _ => ?_),
    beBetween_success rfl hmostly (hall fun i hi _ _ _ v hv => ?_),
    notBeNull_success rfl (by norm_num) fun r hr => (Option.isSome_map ..).trans (hdated r hr),
    notBeNull_success rfl le_rfl (hall fun _ _ _ _ _ => rfl), List.forall_mem_nil _⟩
  · obtain rfl := Option.some.inj hv
    have hmin : (1 : ℚ) ≤ i.quantity.toInt := by exact_mod_cast (hadmitted i hi).1
    have hmax : (i.quantity.toInt : ℚ) ≤ 5 := by exact_mod_cast hfit.quantities i hi
    exact Bool.and_eq_true_iff.2 ⟨decide_eq_true hmin, decide_eq_true (by linarith)⟩
  · obtain rfl := Option.some.inj hv
    exact amount_within (hadmitted i hi).2
  · obtain ⟨d, hd, -⟩ := htotal i hi
    exact (Option.isSome_map ..).trans (Option.isSome_of_eq_some hd)
  · obtain ⟨d, hd, hpos⟩ := htotal i hi
    obtain ⟨d', hd', rfl⟩ := Option.map_eq_some_iff.1 hv
    obtain rfl := Option.some.inj (hd.symm.trans hd')
    exact amount_within hpos

end Tables

end Suites

end Lakehouse.Verify
