import Lakehouse.Demo.GenerateTraffic
import Lakehouse.Lib.Runs
import Lakehouse.Verify.GoldRefresh
import Mathlib.Data.List.Nodup

/-!
# Traffic keeps the source consistent

Every transaction of the traffic generator is one of four changes of the tables
(`Action.exec_cases`). Each of them keeps what the source promises, with the keys and references
that the constraints of the tables check (`Change.sound`), and leaves an order that is not pending
its total and its items, a terminal one its whole row (`Change.frozen`). So the source is consistent
after every run from the sample data, and nothing that was frozen ever changes
(`traffic_consistent`).
-/

namespace Lakehouse.Verify

open Lib Source Demo

/-! ## What the source promises -/

/-- The statuses of the lifecycle. -/
def lifecycle : List String :=
  ["pending", "confirmed", "shipped", "delivered", "completed", "cancelled"]

/-- The order has an item, a known customer, the sum of its items as its total, and a status of the
lifecycle. -/
structure ConsistentOrder (db : Database) (o : OrderRow) : Prop where
  hasItem : db.itemsOf o.orderId ≠ []
  knownCustomer : ∃ c ∈ db.customers, c.customerId = o.customerId
  total : o.totalAmount.val = ((db.itemsOf o.orderId).map OrderItemRow.cents).sum
  status : o.status ∈ lifecycle

/-- Every order of the source is consistent. -/
def Consistent (db : Database) : Prop := ∀ o ∈ db.orders, ConsistentOrder db o

/-- What the constraints of the tables keep besides. -/
structure Sound (db : Database) : Prop where
  consistent : Consistent db
  orderIds : (db.orders.map OrderRow.orderId).Nodup
  itemIds : (db.items.map OrderItemRow.itemId).Nodup
  itemOrder : ∀ i ∈ db.items, ∃ o ∈ db.orders, o.orderId = i.orderId

/-- An order that is not pending keeps its total and its items and does not become pending, and a
terminal order keeps its row. -/
def Frozen (db db' : Database) : Prop :=
  ∀ o ∈ db.orders, o.status ≠ "pending" → ∃ o' ∈ db'.orders, o'.orderId = o.orderId ∧
    o'.status ≠ "pending" ∧ o'.totalAmount = o.totalAmount ∧
    db'.itemsOf o.orderId = db.itemsOf o.orderId ∧ (o.status ∈ terminalStatuses → o' = o)

theorem Frozen.refl (db : Database) : Frozen db db :=
  fun o ho hleft => ⟨o, ho, rfl, hleft, rfl, rfl, fun _ => rfl⟩

theorem Frozen.trans {db₁ db₂ db₃ : Database} (h : Frozen db₁ db₂) (h' : Frozen db₂ db₃) :
    Frozen db₁ db₃ := by
  intro o ho hleft
  obtain ⟨o₂, ho₂, hid₂, hleft₂, htotal₂, hitems₂, hrow₂⟩ := h o ho hleft
  obtain ⟨o₃, ho₃, hid₃, hleft₃, htotal₃, hitems₃, hrow₃⟩ := h' o₂ ho₂ hleft₂
  refine ⟨o₃, ho₃, hid₃.trans hid₂, hleft₃, htotal₃.trans htotal₂, ?_, fun hterminal => ?_⟩
  · rw [← hitems₂, ← hid₂]
    exact hitems₃
  · obtain rfl := hrow₂ hterminal
    exact hrow₃ hterminal

/-! ## What a transaction does -/

/-- The change a transaction makes of the tables; the sequences may advance. -/
inductive Change (db db' : Database) : Prop
  | none (hcustomers : db.customers ⊆ db'.customers) (horders : db'.orders = db.orders)
    (hitems : db'.items = db.items)
  | newOrder (o : OrderRow) (new : List OrderItemRow) (hcustomers : db.customers ⊆ db'.customers)
    (horders : db'.orders = db.orders ++ [o]) (hitems : db'.items = db.items ++ new)
    (hfresh : ∀ o' ∈ db.orders, o'.orderId ≠ o.orderId) (hstatus : o.status = "pending")
    (hknown : ∃ c ∈ db'.customers, c.customerId = o.customerId)
    (hne : new ≠ []) (hnew : ∀ i ∈ new, i.orderId = o.orderId)
    (htotal : o.totalAmount.val = (new.map OrderItemRow.cents).sum)
    (hids : (db.items.map OrderItemRow.itemId).Nodup → (db'.items.map OrderItemRow.itemId).Nodup)
  | progress (o : OrderRow) (ho : o ∈ db.orders) (hopen : o.status ∉ terminalStatuses)
    (draw : Nat) (status : String) (hstatus : nextStatus o.status draw = some status) (now : Int)
    (hdb : db' = db.updateOrder o.orderId (setStatus status now))
  | quantity (i : OrderItemRow) (hi : i ∈ db.items) (o : OrderRow) (ho : o ∈ db.orders)
    (hid : o.orderId = i.orderId) (hpending : o.status = "pending") (q : Int32)
    (total : Dec 12) (now : Int)
    (htotal : (db.updateItem i.itemId (setQuantity q)).sumItems i.orderId = some total.val)
    (hdb : db' =
      (db.updateItem i.itemId (setQuantity q)).updateOrder i.orderId (setTotal total now))

theorem pick_mem {α : Type} {n : Nat} {rows : List α} {x : α} (h : pick n rows = some x) :
    x ∈ rows := List.mem_of_getElem? h

theorem insertCustomer_spec {db db' : Database} {name email : String} {now : Int}
    (h : db.insertCustomer name email now = some db') :
    db.customers ⊆ db'.customers ∧ db'.orders = db.orders ∧ db'.items = db.items := by
  obtain ⟨customerId, -, h⟩ := Option.bind_eq_some_iff.1 h
  split at h
  · cases h
  · obtain rfl := Option.some.inj h
    exact ⟨List.subset_append_left _ _, rfl, rfl⟩

theorem insertItem_spec {db db' : Database} {orderId productId : Int64} {quantity : Int32}
    {unitPrice : Dec 10} (h : db.insertItem orderId productId quantity unitPrice = some db') :
    ∃ i : OrderItemRow, db'.items = db.items ++ [i] ∧ i.orderId = orderId ∧
      i.cents = quantity.toInt * unitPrice.val ∧ (∀ x ∈ db.items, x.itemId ≠ i.itemId) ∧
      db'.orders = db.orders ∧ db'.customers = db.customers := by
  obtain ⟨itemId, -, h⟩ := Option.bind_eq_some_iff.1 h
  split at h
  · cases h
  · next hfresh =>
    split at h
    · obtain rfl := Option.some.inj h
      refine ⟨_, rfl, rfl, rfl, fun x hx heq => hfresh ?_, rfl, rfl⟩
      exact List.any_eq_true.2 ⟨x, hx, decide_eq_true heq⟩
    · cases h

theorem nodup_append_fresh {α κ : Type} {key : α → κ} {rows : List α} {x : α}
    (h : (rows.map key).Nodup) (hfresh : ∀ y ∈ rows, key y ≠ key x) :
    ((rows ++ [x]).map key).Nodup := by
  rw [List.map_append, List.map_singleton, ← List.concat_eq_append]
  refine h.concat fun hmem => ?_
  obtain ⟨y, hy, hkey⟩ := List.mem_map.1 hmem
  exact hfresh y hy hkey

/-- The loop inserts one item for each line and adds its amount to the total. -/
theorem insertLines_spec {orderId : Int64} {lines : List (Product × Int32)} {db db' : Database}
    {total total' : Int} (h : insertLines orderId lines (db, total) = some (db', total')) :
    ∃ new : List OrderItemRow, db'.items = db.items ++ new ∧ new.length = lines.length ∧
      (∀ i ∈ new, i.orderId = orderId) ∧ total' = total + (new.map OrderItemRow.cents).sum ∧
      ((db.items.map OrderItemRow.itemId).Nodup → (db'.items.map OrderItemRow.itemId).Nodup) ∧
      db'.orders = db.orders ∧ db'.customers = db.customers := by
  induction lines generalizing db total with
  | nil =>
    obtain ⟨rfl, rfl⟩ := Prod.mk.inj (Option.some.inj h)
    exact ⟨[], by simp, rfl, nofun, by simp, id, rfl, rfl⟩
  | cons line lines ih =>
    obtain ⟨product, quantity⟩ := line
    obtain ⟨db₁, hinsert, h⟩ := Option.bind_eq_some_iff.1 h
    obtain ⟨i, hitems, hid, hcents, hfresh, horders, hcustomers⟩ := insertItem_spec hinsert
    obtain ⟨new, hitems', hlen, hids, htotal, hnodup, horders', hcustomers'⟩ := ih h
    refine ⟨i :: new, ?_, congrArg (· + 1) hlen, List.forall_mem_cons.2 ⟨hid, hids⟩, ?_,
      fun hunique => hnodup ?_, horders'.trans horders, hcustomers'.trans hcustomers⟩
    · rw [hitems', hitems, List.append_assoc]
      rfl
    · rw [htotal, List.map_cons, List.sum_cons, hcents, Int.add_assoc]
    · rw [hitems]
      exact nodup_append_fresh hunique hfresh

theorem insertOrder_spec {db db' : Database} {customerId orderId : Int64} {status : String}
    {totalAmount : Dec 12} {now : Int}
    (h : db.insertOrder customerId status totalAmount now = some (db', orderId)) :
    ∃ o : OrderRow, db'.orders = db.orders ++ [o] ∧ o.orderId = orderId ∧ o.status = status ∧
      (∀ o' ∈ db.orders, o'.orderId ≠ orderId) ∧
      (∃ c ∈ db.customers, c.customerId = o.customerId) ∧
      db'.items = db.items ∧ db'.customers = db.customers := by
  obtain ⟨id, -, h⟩ := Option.bind_eq_some_iff.1 h
  split at h
  · cases h
  · next hfresh =>
    split at h
    · next hcustomer =>
      obtain ⟨rfl, rfl⟩ := Prod.mk.inj (Option.some.inj h)
      refine ⟨_, rfl, rfl, rfl, fun o ho heq => hfresh ?_, ?_, rfl, rfl⟩
      · exact List.any_eq_true.2 ⟨o, ho, decide_eq_true heq⟩
      · obtain ⟨c, hc, hid⟩ := List.any_eq_true.1 hcustomer
        exact ⟨c, hc, of_decide_eq_true hid⟩
    · cases h

/-- The total of a new order is set when its items are there. -/
theorem insertOrderOf_change {db db₁ db' : Database} {customerId : Int64} {basket : Basket}
    {now : Int} (hcustomers : db.customers ⊆ db₁.customers) (horders : db₁.orders = db.orders)
    (hitems : db₁.items = db.items) (h : insertOrderOf customerId basket now db₁ = some db') :
    Change db db' := by
  obtain ⟨⟨db₂, orderId⟩, hinsert, h⟩ := Option.bind_eq_some_iff.1 h
  obtain ⟨⟨db₃, total⟩, hlines, h⟩ := Option.bind_eq_some_iff.1 h
  obtain ⟨totalAmount, hcast, rfl⟩ := Option.map_eq_some_iff.1 h
  obtain ⟨o, ho₂, rfl, hstatus, hfresh, hknown, hi₂, hc₂⟩ := insertOrder_spec hinsert
  obtain ⟨new, hi₃, hlen, hids, htotal, hnodup, ho₃, hc₃⟩ := insertLines_spec hlines
  have hrow : db.orders.map (fun o' =>
      if o'.orderId = o.orderId then setTotal totalAmount now o' else o') = db.orders := by
    refine (List.map_congr_left fun o' ho' => ?_).trans (List.map_id _)
    exact if_neg (hfresh o' (horders ▸ ho'))
  refine .newOrder (setTotal totalAmount now o) new ?_ ?_ ?_ ?_ hstatus ?_ ?_ hids ?_ ?_
  · rw [Database.updateOrder, hc₃, hc₂]
    exact hcustomers
  · rw [Database.updateOrder, ho₃, ho₂, horders, List.map_append, hrow, List.map_singleton,
      if_pos rfl]
  · rw [Database.updateOrder, hi₃, hi₂, hitems]
  · exact fun o' ho' => hfresh o' (horders ▸ ho')
  · rw [Database.updateOrder, hc₃, hc₂]
    exact hknown
  · intro hnil
    have hsize := basket.size.1
    rw [← hlen, hnil] at hsize
    cases hsize
  · change totalAmount.val = _
    rw [castPrecision_eq_some hcast, htotal, Int.zero_add]
  · intro hunique
    exact hnodup (by rw [hi₂, hitems]; exact hunique)

/-- **Every transaction is one of four changes.** -/
theorem Action.exec_cases {a : Action} {now : Int} {db db' : Database}
    (h : a.exec now db = some db') : Change db db' := by
  cases a with
  | createCustomer draw =>
    obtain ⟨hcustomers, horders, hitems⟩ := insertCustomer_spec h
    exact .none hcustomers horders hitems
  | createOrder customer draw basket =>
    change Demo.createOrder customer draw basket now db = some db' at h
    unfold Demo.createOrder at h
    split at h
    · exact insertOrderOf_change (List.Subset.refl _) rfl rfl h
    · obtain ⟨db₁, hcreate, h⟩ := Option.bind_eq_some_iff.1 h
      obtain ⟨row, -, h⟩ := Option.bind_eq_some_iff.1 h
      obtain ⟨hcustomers, horders, hitems⟩ := insertCustomer_spec hcreate
      exact insertOrderOf_change hcustomers horders hitems h
  | progressOrder order draw =>
    change progressOrder order draw now db = some db' at h
    unfold progressOrder at h
    split at h
    · obtain rfl := Option.some.inj h
      exact .none (List.Subset.refl _) rfl rfl
    · next row hpick =>
      obtain ⟨ho, hopen⟩ := List.mem_filter.1 (pick_mem hpick)
      split at h
      · obtain rfl := Option.some.inj h
        exact .none (List.Subset.refl _) rfl rfl
      · next status hstatus =>
        obtain rfl := Option.some.inj h
        exact .progress row ho (of_decide_eq_true hopen) draw status hstatus now rfl
  | updateItemQuantity item quantity =>
    change updateItemQuantity item quantity now db = some db' at h
    unfold updateItemQuantity at h
    split at h
    · obtain rfl := Option.some.inj h
      exact .none (List.Subset.refl _) rfl rfl
    · next i o hpick =>
      obtain ⟨total, hsum, rfl⟩ := Option.map_eq_some_iff.1 h
      obtain ⟨n, hn, hcast⟩ := Option.bind_eq_some_iff.1 hsum
      obtain ⟨i', hi', hpair⟩ := List.mem_flatMap.1 (pick_mem hpick)
      obtain ⟨o', ho', heq⟩ := List.mem_map.1 hpair
      obtain ⟨rfl, rfl⟩ := Prod.mk.inj heq
      obtain ⟨horder, hmatch⟩ := List.mem_filter.1 ho'
      obtain ⟨hid, hpending⟩ := of_decide_eq_true hmatch
      refine .quantity i' hi' o' horder hid hpending _ total now ?_ rfl
      rw [castPrecision_eq_some hcast]
      exact hn

/-! ## Statuses -/

theorem mem_of_choose {α : Type} {choices : List (α × Nat)} {draw : Nat} {c : α}
    (h : choose choices draw = some c) : c ∈ choices.map Prod.fst := by
  induction choices generalizing draw with
  | nil => cases h
  | cons choice choices ih =>
    obtain ⟨c', weight⟩ := choice
    unfold choose at h
    split at h
    · exact List.mem_cons.2 (.inl (Option.some.inj h).symm)
    · exact List.mem_cons_of_mem _ (ih h)

/-- A transition follows the lifecycle, and none leads back to pending. -/
theorem nextStatus_spec {status new : String} {draw : Nat} (h : nextStatus status draw = some new) :
    new ∈ statusFlow status ∧ new ∈ lifecycle ∧ new ≠ "pending" := by
  obtain ⟨transitions, hlookup, hchoose⟩ := Option.bind_eq_some_iff.1 h
  obtain ⟨before, after, hflow, -⟩ := List.lookup_eq_some_iff.1 hlookup
  have htable : ∀ e ∈ Demo.statusFlow, ∀ c ∈ e.2.map Prod.fst,
      c ∈ statusFlow e.1 ∧ c ∈ lifecycle ∧ c ≠ "pending" := by decide
  refine htable (status, transitions) ?_ new (mem_of_choose hchoose)
  rw [hflow]
  exact List.mem_append_right _ (.head _)

/-! ## Tables after a change -/

section Tables

variable {db db' : Database}

theorem itemsOf_congr (h : db'.items = db.items) (orderId : Int64) :
    db'.itemsOf orderId = db.itemsOf orderId := by
  unfold Database.itemsOf
  rw [h]

theorem mem_updateOrder {orderId : Int64} {set : OrderRow → OrderRow} {o' : OrderRow} :
    o' ∈ (db.updateOrder orderId set).orders ↔
      ∃ o ∈ db.orders, (if o.orderId = orderId then set o else o) = o' := List.mem_map

theorem itemsOf_append_other {new : List OrderItemRow} {orderId k : Int64}
    (hitems : db'.items = db.items ++ new) (hnew : ∀ i ∈ new, i.orderId = orderId)
    (hne : k ≠ orderId) : db'.itemsOf k = db.itemsOf k := by
  have hnone : new.filter (fun i => i.orderId = k) = [] := by
    rw [List.filter_eq_nil_iff]
    intro i hi hk
    exact hne ((of_decide_eq_true hk).symm.trans (hnew i hi))
  unfold Database.itemsOf
  rw [hitems, List.filter_append, hnone, List.append_nil]

theorem itemsOf_append_self {new : List OrderItemRow} {orderId : Int64}
    (hitems : db'.items = db.items ++ new) (hnew : ∀ i ∈ new, i.orderId = orderId)
    (hnone : ∀ i ∈ db.items, i.orderId ≠ orderId) : db'.itemsOf orderId = new := by
  have hold : db.items.filter (fun i => i.orderId = orderId) = [] := by
    rw [List.filter_eq_nil_iff]
    intro i hi hk
    exact hnone i hi (of_decide_eq_true hk)
  have hall : new.filter (fun i => i.orderId = orderId) = new :=
    List.filter_eq_self.2 fun i hi => decide_eq_true (hnew i hi)
  unfold Database.itemsOf
  rw [hitems, List.filter_append, hold, hall, List.nil_append]

/-- An update that does not set the key keeps the keys. -/
theorem map_key_update {α κ : Type} {key : α → κ} {p : α → Prop} [DecidablePred p] {set : α → α}
    (hset : ∀ x, key (set x) = key x) (rows : List α) :
    (rows.map fun x => if p x then set x else x).map key = rows.map key := by
  rw [List.map_map]
  apply List.map_congr_left
  intro x _
  rw [Function.comp_apply]
  split
  · exact hset x
  · rfl

theorem updateOrder_ids (orderId : Int64) (set : OrderRow → OrderRow)
    (hset : ∀ o, (set o).orderId = o.orderId) :
    (db.updateOrder orderId set).orders.map OrderRow.orderId = db.orders.map OrderRow.orderId :=
  map_key_update hset db.orders

theorem updateItem_ids (itemId : Int64) (q : Int32) :
    (db.updateItem itemId (setQuantity q)).items.map OrderItemRow.itemId =
      db.items.map OrderItemRow.itemId := by
  have hset : ∀ i, (setQuantity q i).itemId = i.itemId := fun _ => rfl
  exact map_key_update hset db.items

/-- The items of other orders do not change with an item. -/
theorem itemsOf_setQuantity (hunique : (db.items.map OrderItemRow.itemId).Nodup) {i : OrderItemRow}
    (hi : i ∈ db.items) (q : Int32) {k : Int64} (hne : k ≠ i.orderId) :
    (db.updateItem i.itemId (setQuantity q)).itemsOf k = db.itemsOf k := by
  have horder : ((fun x : OrderItemRow => decide (x.orderId = k)) ∘
      fun x => if x.itemId = i.itemId then setQuantity q x else x) =
        fun x => decide (x.orderId = k) := by
    funext x
    rw [Function.comp_apply]
    split <;> rfl
  unfold Database.itemsOf Database.updateItem
  rw [List.filter_map, horder]
  refine (List.map_congr_left fun x hx => ?_).trans (List.map_id _)
  obtain ⟨hmem, hk⟩ := List.mem_filter.1 hx
  refine if_neg fun hid => hne ?_
  obtain rfl := List.inj_on_of_nodup_map hunique hmem hi hid
  exact (of_decide_eq_true hk).symm

theorem itemsOf_setQuantity_ne_nil (itemId : Int64) (q : Int32) {k : Int64}
    (h : db.itemsOf k ≠ []) : (db.updateItem itemId (setQuantity q)).itemsOf k ≠ [] := by
  obtain ⟨x, hx⟩ := List.exists_mem_of_ne_nil _ h
  obtain ⟨hmem, hk⟩ := List.mem_filter.1 hx
  refine List.ne_nil_of_mem (List.mem_filter.2 ⟨List.mem_map_of_mem hmem, ?_⟩)
  split <;> exact hk

end Tables

/-! ## Invariants -/

section Steps

variable {db db' : Database}

theorem ConsistentOrder.congr {o : OrderRow} (h : ConsistentOrder db o)
    (hitems : db'.itemsOf o.orderId = db.itemsOf o.orderId)
    (hcustomers : db.customers ⊆ db'.customers) : ConsistentOrder db' o where
  hasItem := hitems ▸ h.hasItem
  knownCustomer :=
    let ⟨c, hc, hid⟩ := h.knownCustomer
    ⟨c, hcustomers hc, hid⟩
  total := hitems ▸ h.total
  status := h.status

/-- The total that is set is the sum of the items. -/
theorem sumItems_eq_some {orderId : Int64} {n : Int} (h : db.sumItems orderId = some n) :
    n = ((db.itemsOf orderId).map OrderItemRow.cents).sum := by
  unfold Database.sumItems at h
  by_cases hnone : db.itemsOf orderId = []
  · rw [if_pos hnone] at h
    cases h
  · rw [if_neg hnone] at h
    exact (Option.some.inj h).symm

/-- **Every change keeps the source consistent.** -/
theorem Change.sound (h : Change db db') (hs : Sound db) : Sound db' := by
  cases h with
  | none hcustomers horders hitems =>
    constructor
    · intro o ho
      exact (hs.consistent o (horders ▸ ho)).congr (itemsOf_congr hitems _) hcustomers
    · rw [horders]
      exact hs.orderIds
    · rw [hitems]
      exact hs.itemIds
    · rw [horders, hitems]
      exact hs.itemOrder
  | newOrder o new hcustomers horders hitems hfresh hstatus hknown hne hnew htotal hids =>
    have hnone : ∀ i ∈ db.items, i.orderId ≠ o.orderId := by
      intro i hi heq
      obtain ⟨o', ho', hid⟩ := hs.itemOrder i hi
      exact hfresh o' ho' (hid.trans heq)
    have hself := itemsOf_append_self hitems hnew hnone
    constructor
    · intro o' ho'
      rw [horders, List.mem_append, List.mem_singleton] at ho'
      rcases ho' with ho' | rfl
      · exact (hs.consistent o' ho').congr
          (itemsOf_append_other hitems hnew (hfresh o' ho')) hcustomers
      · refine ⟨hself.symm ▸ hne, hknown, hself.symm ▸ htotal, ?_⟩
        rw [hstatus]
        decide
    · rw [horders]
      exact nodup_append_fresh hs.orderIds hfresh
    · exact hids hs.itemIds
    · intro i hi
      rw [horders]
      rw [hitems, List.mem_append] at hi
      rcases hi with hi | hi
      · obtain ⟨o', ho', hid⟩ := hs.itemOrder i hi
        exact ⟨o', List.mem_append_left _ ho', hid⟩
      · exact ⟨o, List.mem_append_right _ (.head _), (hnew i hi).symm⟩
  | progress o ho hopen draw status hstatus now hdb =>
    subst hdb
    constructor
    · intro o' ho'
      obtain ⟨o₁, ho₁, rfl⟩ := mem_updateOrder.1 ho'
      have hold : ConsistentOrder (db.updateOrder o.orderId (setStatus status now)) o₁ :=
        (hs.consistent o₁ ho₁).congr rfl (List.Subset.refl _)
      split
      · exact { hold with status := (nextStatus_spec hstatus).2.1 }
      · exact hold
    · rw [updateOrder_ids _ (setStatus status now) fun _ => rfl]
      exact hs.orderIds
    · exact hs.itemIds
    · intro i hi
      obtain ⟨o₁, ho₁, hid⟩ := hs.itemOrder i hi
      refine ⟨_, mem_updateOrder.2 ⟨o₁, ho₁, rfl⟩, ?_⟩
      split
      · exact hid
      · exact hid
  | quantity i hi o ho hid hpending q total now htotal hdb =>
    subst hdb
    constructor
    · intro o' ho'
      obtain ⟨o₁, ho₁, rfl⟩ := mem_updateOrder.1 ho'
      have hold := hs.consistent o₁ ho₁
      split
      · next hk =>
        refine ⟨itemsOf_setQuantity_ne_nil i.itemId q hold.hasItem, hold.knownCustomer, ?_,
          hold.status⟩
        rw [← hk] at htotal
        exact sumItems_eq_some htotal
      · next hk =>
        exact hold.congr (itemsOf_setQuantity hs.itemIds hi q hk) (List.Subset.refl _)
    · rw [updateOrder_ids _ (setTotal total now) fun _ => rfl]
      exact hs.orderIds
    · exact (updateItem_ids i.itemId q).symm ▸ hs.itemIds
    · intro i' hi'
      obtain ⟨x, hx, rfl⟩ := List.mem_map.1 hi'
      obtain ⟨o₁, ho₁, hid₁⟩ := hs.itemOrder x hx
      refine ⟨_, mem_updateOrder.2 ⟨o₁, ho₁, rfl⟩, ?_⟩
      split <;> split <;> exact hid₁

/-- **No change touches a frozen order.** -/
theorem Change.frozen (h : Change db db') (hs : Sound db) : Frozen db db' := by
  intro o' ho' hleft
  cases h with
  | none hcustomers horders hitems =>
    exact ⟨o', horders ▸ ho', rfl, hleft, rfl, itemsOf_congr hitems _, fun _ => rfl⟩
  | newOrder o new hcustomers horders hitems hfresh hstatus hknown hne hnew htotal hids =>
    refine ⟨o', ?_, rfl, hleft, rfl, itemsOf_append_other hitems hnew (hfresh o' ho'), fun _ => rfl⟩
    rw [horders]
    exact List.mem_append_left _ ho'
  | progress o ho hopen draw status hstatus now hdb =>
    subst hdb
    refine ⟨_, mem_updateOrder.2 ⟨o', ho', rfl⟩, ?_⟩
    by_cases heq : o' = o
    · subst heq
      rw [if_pos rfl]
      exact ⟨rfl, (nextStatus_spec hstatus).2.2, rfl, rfl,
        fun hterminal => absurd hterminal hopen⟩
    · rw [if_neg fun hk => heq (List.inj_on_of_nodup_map hs.orderIds ho' ho hk)]
      exact ⟨rfl, hleft, rfl, rfl, fun _ => rfl⟩
  | quantity i hi o ho hid hpending q total now htotal hdb =>
    subst hdb
    have hne : o'.orderId ≠ i.orderId := by
      intro hk
      obtain rfl := List.inj_on_of_nodup_map hs.orderIds ho' ho (hk.trans hid.symm)
      exact hleft hpending
    refine ⟨o', mem_updateOrder.2 ⟨o', ho', if_neg hne⟩, rfl, hleft, rfl, ?_, fun _ => rfl⟩
    exact itemsOf_setQuantity hs.itemIds hi q hne

/-- **Every change follows the lifecycle** along which the runs of the Gold job are proved: an order
keeps its key, its customer and its time, and its status stays or moves along the flow. -/
theorem Change.statusMoves (h : Change db db') (hs : Sound db) : ∀ o ∈ db.orders,
    ∃ o' ∈ db'.orders, o'.orderId = o.orderId ∧ o'.customerId = o.customerId ∧
      o'.createdAt = o.createdAt ∧ StatusMoves (some o.status) (some o'.status) := by
  intro o' ho'
  cases h with
  | none hcustomers horders hitems => exact ⟨o', horders ▸ ho', rfl, rfl, rfl, .inl rfl⟩
  | newOrder o new hcustomers horders =>
    refine ⟨o', ?_, rfl, rfl, rfl, .inl rfl⟩
    rw [horders]
    exact List.mem_append_left _ ho'
  | progress o ho hopen draw status hstatus now hdb =>
    subst hdb
    refine ⟨_, mem_updateOrder.2 ⟨o', ho', rfl⟩, ?_⟩
    split
    · next hk =>
      obtain rfl := List.inj_on_of_nodup_map hs.orderIds ho' ho hk
      exact ⟨rfl, rfl, rfl, .inr (.inr ⟨_, _, rfl, rfl, (nextStatus_spec hstatus).1⟩)⟩
    · exact ⟨rfl, rfl, rfl, .inl rfl⟩
  | quantity i hi o ho hid hpending q total now htotal hdb =>
    subst hdb
    refine ⟨_, mem_updateOrder.2 ⟨o', ho', rfl⟩, ?_⟩
    split
    · exact ⟨rfl, rfl, rfl, .inl rfl⟩
    · exact ⟨rfl, rfl, rfl, .inl rfl⟩

end Steps

/-! ## Runs -/

/-- A transaction that commits, or one that is rolled back and leaves gaps in the sequences. -/
inductive TrafficEvent where
  | commit (a : Action) (now : Int)
  | rollback (customers orders items : Nat)

/-- The database after a transaction. -/
def trafficStep (db : Database) : TrafficEvent → Database
  | .commit a now => (a.exec now db).getD db
  | .rollback customers orders items =>
    { db with
      customerSeq := db.customerSeq + customers
      orderSeq := db.orderSeq + orders
      itemSeq := db.itemSeq + items }

/-- The database after some transactions. -/
def trafficRun (db : Database) (events : List TrafficEvent) : Database :=
  events.foldl trafficStep db

theorem trafficStep_change (db : Database) (e : TrafficEvent) : Change db (trafficStep db e) := by
  cases e with
  | commit a now =>
    change Change db ((a.exec now db).getD db)
    cases hexec : a.exec now db with
    | none => exact .none (List.Subset.refl _) rfl rfl
    | some db' => exact Action.exec_cases hexec
  | rollback customers orders items => exact .none (List.Subset.refl _) rfl rfl

theorem sound_trafficRun {db : Database} (hs : Sound db) (events : List TrafficEvent) :
    Sound (trafficRun db events) :=
  List.foldlRecOn events trafficStep hs fun db hs e _ => (trafficStep_change db e).sound hs

theorem frozen_trafficRun {db : Database} (hs : Sound db) (events : List TrafficEvent) :
    Frozen db (trafficRun db events) :=
  related_run (fun db e hs => (trafficStep_change db e).sound hs) Frozen.refl
    (fun _ _ _ => Frozen.trans) (fun db e hs => (trafficStep_change db e).frozen hs) hs events

theorem sound_sampleData (now : Int) : Sound (sampleData now) where
  consistent o ho := by
    rcases List.mem_cons.1 ho with rfl | ho
    · exact ⟨List.cons_ne_nil _ _, ⟨_, .head _, rfl⟩, rfl, show "completed" ∈ lifecycle by decide⟩
    · obtain rfl := List.mem_singleton.1 ho
      exact ⟨List.cons_ne_nil _ _, ⟨_, .tail _ (.head _), rfl⟩, rfl,
        show "pending" ∈ lifecycle by decide⟩
  orderIds := show [(1 : Int64), 2].Nodup by decide
  itemIds := show [(1 : Int64), 2, 3].Nodup by decide
  itemOrder i hi := by
    rcases List.mem_cons.1 hi with rfl | hi
    · exact ⟨_, .head _, rfl⟩
    rcases List.mem_cons.1 hi with rfl | hi
    · exact ⟨_, .head _, rfl⟩
    · obtain rfl := List.mem_singleton.1 hi
      exact ⟨_, .tail _ (.head _), rfl⟩

/-- **The source stays consistent under any traffic.** After every sequence of transactions from the
sample data, with any random choices, every order has an item, a known customer, the sum of its
items as its total and a status of the lifecycle; and whatever follows, an order that is not pending
keeps its total and its items and never becomes pending, and a completed or cancelled order keeps
its row. -/
theorem traffic_consistent (now : Int) (events later : List TrafficEvent) :
    Sound (trafficRun (sampleData now) events) ∧
      Frozen (trafficRun (sampleData now) events)
        (trafficRun (sampleData now) (events ++ later)) := by
  have hs := sound_trafficRun (sound_sampleData now) events
  have hrun : trafficRun (sampleData now) (events ++ later) =
      trafficRun (trafficRun (sampleData now) events) later := List.foldl_append
  rw [hrun]
  exact ⟨hs, frozen_trafficRun hs later⟩

/-- A new order of two products is confirmed after one of its quantities has changed. -/
example :
    let keyboard : Product := ⟨101, "Mechanical keyboard", .ofNat 8990⟩
    let cable : Product := ⟨109, "HDMI cable", .ofNat 990⟩
    let basket : Basket :=
      ⟨[(keyboard, 2), (cable, 1)], by decide, by decide, by decide, by decide⟩
    let draw : NewCustomer := ⟨⟨0, by decide⟩, ⟨0, by decide⟩, "01234567"⟩
    let db := trafficRun (sampleData 0)
      [.commit (.createOrder 1 draw basket) 1, .commit (.updateItemQuantity 2 4) 2,
        .commit (.progressOrder 1 50) 3]
    db.orders.map (fun o => (o.orderId, o.customerId, o.status, o.totalAmount.val)) =
      [(1, 1, "completed", 12999), (2, 2, "pending", 4950), (3, 2, "confirmed", 22930)] := by
  decide +kernel

end Lakehouse.Verify
