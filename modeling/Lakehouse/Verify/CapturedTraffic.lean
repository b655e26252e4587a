import Lakehouse.Demo.Capture
import Lakehouse.Lib.TableLog
import Lakehouse.Verify.ItemRuns
import Lakehouse.Verify.LineTotals
import Lakehouse.Verify.TrafficRuns

/-!
# Traffic as it is captured

Traffic with what the connector publishes of it: the changes of each committed transaction, in the
order of its statements, and a read of every row at each start. Every statement writes its row and
its change together (`Statement.tracked`), so after any traffic the three tables are what their
published changes leave, with nothing deleted, and the rows promise what Gold relies on
(`Segment.inv`).
-/

namespace Lakehouse.Verify

open Lib Source Demo

/-! ## Tables and their changes -/

/-- The tables follow from their changes, and no change moves a creation time or the order of an
item. -/
structure Tracked (cs : List (Source.Change CustomerRow)) (os : List (Source.Change OrderRow))
    (is : List (Source.Change OrderItemRow)) (db : Database) : Prop where
  customers : Tracks (fun c => c.row.customerId) Source.Change.after CustomerRow.customerId
    CustomerRow.createdAt cs db.customers
  orders : Tracks (fun c => c.row.orderId) Source.Change.after OrderRow.orderId
    OrderRow.createdAt os db.orders
  items : Tracks (fun c => c.row.itemId) Source.Change.after OrderItemRow.itemId
    OrderItemRow.orderId is db.items

section Statements

variable {cs : List (Source.Change CustomerRow)} {os : List (Source.Change OrderRow)}
  {is : List (Source.Change OrderItemRow)} {db db' : Database} {log : List RowChange}

/-- A new customer has a new id. -/
theorem insertCustomer_fresh {name email : String} {now : Int} {row : CustomerRow}
    (h : db.insertCustomer name email now = some db')
    (hrow : db'.customers = db.customers ++ [row]) :
    (∀ c ∈ db.customers, c.customerId ≠ row.customerId) ∧ db'.orders = db.orders ∧
      db'.items = db.items := by
  obtain ⟨customerId, -, h⟩ := Option.bind_eq_some_iff.1 h
  split at h
  · cases h
  · next hfresh =>
    obtain rfl := Option.some.inj h
    obtain rfl := List.singleton_inj.1 (List.append_cancel_left hrow)
    refine ⟨fun c hc heq => hfresh ?_, rfl, rfl⟩
    exact List.any_eq_true.2 ⟨c, hc, decide_eq_true (.inl heq)⟩

/-- A new order has a new id. -/
theorem insertOrder_fresh {customerId orderId : Int64} {status : String} {totalAmount : Dec 12}
    {now : Int} {row : OrderRow}
    (h : db.insertOrder customerId status totalAmount now = some (db', orderId))
    (hrow : db'.orders = db.orders ++ [row]) :
    (∀ o ∈ db.orders, o.orderId ≠ row.orderId) ∧ db'.customers = db.customers ∧
      db'.items = db.items := by
  obtain ⟨o, horders, hid, -, hfresh, -, hitems, hcustomers⟩ := insertOrder_spec h
  obtain rfl := List.singleton_inj.1 (List.append_cancel_left (horders.symm.trans hrow))
  exact ⟨fun o' ho' heq => hfresh o' ho' (heq.trans hid), hcustomers, hitems⟩

/-- A new item has a new id. -/
theorem insertItem_fresh {orderId productId : Int64} {quantity : Int32} {unitPrice : Dec 10}
    {row : OrderItemRow} (h : db.insertItem orderId productId quantity unitPrice = some db')
    (hrow : db'.items = db.items ++ [row]) :
    (∀ i ∈ db.items, i.itemId ≠ row.itemId) ∧ db'.customers = db.customers ∧
      db'.orders = db.orders := by
  obtain ⟨i, hitems, -, -, hfresh, horders, hcustomers⟩ := insertItem_spec h
  obtain rfl := List.singleton_inj.1 (List.append_cancel_left (hitems.symm.trans hrow))
  exact ⟨hfresh, hcustomers, horders⟩

/-- The log keeps up with an update of an order. -/
theorem Tracked.updateOrder (ht : Tracked cs os is db) (orderId : Int64) {set : OrderRow → OrderRow}
    (hid : ∀ o, (set o).orderId = o.orderId) (hcreated : ∀ o, (set o).createdAt = o.createdAt) :
    Tracked (cs ++ customerChanges (updatedOrders db orderId set))
      (os ++ Demo.orderChanges (updatedOrders db orderId set))
      (is ++ itemChanges (updatedOrders db orderId set)) (db.updateOrder orderId set) := by
  obtain ⟨hcustomers, horders, hitems⟩ := changes_updatedOrders db orderId set
  rw [hcustomers, horders, hitems, List.append_nil, List.append_nil]
  exact ⟨ht.customers, ht.orders.modifyKey orderId hid hcreated hid fun _ => rfl, ht.items⟩

/-- **A statement writes a row and its change together.** -/
theorem Statement.tracked (h : Statement db log db') (ht : Tracked cs os is db) :
    Tracked (cs ++ customerChanges log) (os ++ Demo.orderChanges log) (is ++ itemChanges log)
      db' := by
  cases h with
  | insertCustomer h hrow =>
    obtain ⟨hfresh, horders, hitems⟩ := insertCustomer_fresh h hrow
    constructor
    · rw [hrow]
      exact ht.customers.insert rfl rfl hfresh
    · rw [horders, show Demo.orderChanges _ = [] from rfl, List.append_nil]
      exact ht.orders
    · rw [hitems, show itemChanges _ = [] from rfl, List.append_nil]
      exact ht.items
  | insertOrder h hrow =>
    obtain ⟨hfresh, hcustomers, hitems⟩ := insertOrder_fresh h hrow
    constructor
    · rw [hcustomers, show customerChanges _ = [] from rfl, List.append_nil]
      exact ht.customers
    · rw [hrow]
      exact ht.orders.insert rfl rfl hfresh
    · rw [hitems, show itemChanges _ = [] from rfl, List.append_nil]
      exact ht.items
  | insertItem h hrow =>
    obtain ⟨hfresh, hcustomers, horders⟩ := insertItem_fresh h hrow
    constructor
    · rw [hcustomers, show customerChanges _ = [] from rfl, List.append_nil]
      exact ht.customers
    · rw [horders, show Demo.orderChanges _ = [] from rfl, List.append_nil]
      exact ht.orders
    · rw [hrow]
      exact ht.items.insert rfl rfl hfresh
  | setTotal orderId totalAmount now =>
    exact ht.updateOrder orderId (fun _ => rfl) fun _ => rfl
  | setStatus orderId status now => exact ht.updateOrder orderId (fun _ => rfl) fun _ => rfl
  | setQuantity itemId quantity =>
    obtain ⟨hcustomers, horders, hitems⟩ := changes_updatedItems db itemId (setQuantity quantity)
    constructor
    · rw [hcustomers, List.append_nil]
      exact ht.customers
    · rw [horders, List.append_nil]
      exact ht.orders
    · rw [hitems]
      exact ht.items.modifyKey itemId (fun _ => rfl) (fun _ => rfl) (fun _ => rfl) fun _ => rfl

/-- The log keeps up with a transaction. -/
theorem Transaction.tracked (h : Transaction db log db') (ht : Tracked cs os is db) :
    Tracked (cs ++ customerChanges log) (os ++ Demo.orderChanges log) (is ++ itemChanges log)
      db' := by
  induction h generalizing cs os is with
  | nil =>
    rw [show customerChanges [] = [] from rfl, show Demo.orderChanges [] = [] from rfl,
      show itemChanges [] = [] from rfl, List.append_nil, List.append_nil, List.append_nil]
    exact ht
  | cons hfirst _ ih =>
    obtain ⟨hcustomers, horders, hitems⟩ := rowChanges_append _ _
    rw [hcustomers, horders, hitems, ← List.append_assoc, ← List.append_assoc, ← List.append_assoc]
    exact ih (Statement.tracked hfirst ht)

/-- A start of the connector repeats the rows as they are. -/
theorem Tracked.restart (ht : Tracked cs os is db) :
    Tracked (cs ++ customerChanges (snapshotOf db)) (os ++ Demo.orderChanges (snapshotOf db))
      (is ++ itemChanges (snapshotOf db)) db := by
  obtain ⟨hcustomers, horders, hitems⟩ := changes_snapshotOf db
  rw [hcustomers, horders, hitems]
  exact ⟨ht.customers.touch (fun _ h => h) (fun _ => rfl) fun _ => rfl,
    ht.orders.touch (fun _ h => h) (fun _ => rfl) fun _ => rfl,
    ht.items.touch (fun _ h => h) (fun _ => rfl) fun _ => rfl⟩

/-- The first start of the connector reads all there is. -/
theorem tracked_snapshot (hcustomers : (db.customers.map CustomerRow.customerId).Nodup)
    (horders : (db.orders.map OrderRow.orderId).Nodup)
    (hitems : (db.items.map OrderItemRow.itemId).Nodup) :
    Tracked (customerChanges (snapshotOf db)) (Demo.orderChanges (snapshotOf db))
      (itemChanges (snapshotOf db)) db := by
  obtain ⟨hc, ho, hi⟩ := changes_snapshotOf db
  rw [hc, ho, hi]
  exact ⟨tracks_snapshot hcustomers (fun _ => rfl) fun _ => rfl,
    tracks_snapshot horders (fun _ => rfl) fun _ => rfl,
    tracks_snapshot hitems (fun _ => rfl) fun _ => rfl⟩

end Statements

/-! ## Quantities and prices -/

theorem insertItem_columns {db db' : Database} {orderId productId : Int64} {quantity : Int32}
    {unitPrice : Dec 10} (h : db.insertItem orderId productId quantity unitPrice = some db') :
    ∃ i : OrderItemRow, db'.items = db.items ++ [i] ∧ i.quantity = quantity ∧
      i.unitPrice = unitPrice := by
  obtain ⟨itemId, -, h⟩ := Option.bind_eq_some_iff.1 h
  split at h
  · cases h
  · split at h
    · obtain rfl := Option.some.inj h
      exact ⟨_, rfl, rfl, rfl⟩
    · cases h

section Items

-- what holds of the quantity and the price of every item
variable {P : Int32 → Dec 10 → Prop}

/-- What holds of the lines of a basket holds of the items. -/
theorem insertLines_items {orderId : Int64} {lines : List (Product × Int32)} {db db' : Database}
    {total total' : Int} (h : insertLines orderId lines (db, total) = some (db', total'))
    (hlines : ∀ line ∈ lines, P line.2 line.1.price)
    (hitems : ∀ i ∈ db.items, P i.quantity i.unitPrice) :
    ∀ i ∈ db'.items, P i.quantity i.unitPrice := by
  induction lines generalizing db total with
  | nil =>
    obtain ⟨rfl, -⟩ := Prod.mk.inj (Option.some.inj h)
    exact hitems
  | cons line lines ih =>
    obtain ⟨hline, hlines⟩ := List.forall_mem_cons.1 hlines
    obtain ⟨db₁, hinsert, hrest⟩ := Option.bind_eq_some_iff.1 h
    obtain ⟨i, hi, hquantity, hprice⟩ := insertItem_columns hinsert
    refine ih hrest hlines fun x hx => ?_
    rw [hi, List.mem_append, List.mem_singleton] at hx
    rcases hx with hx | rfl
    · exact hitems x hx
    · rw [hquantity, hprice]
      exact hline

theorem insertOrderOf_items {customerId : Int64} {basket : Basket} {now : Int}
    {db db' : Database} (h : insertOrderOf customerId basket now db = some db')
    (hlines : ∀ line ∈ basket.lines, P line.2 line.1.price)
    (hitems : ∀ i ∈ db.items, P i.quantity i.unitPrice) :
    ∀ i ∈ db'.items, P i.quantity i.unitPrice := by
  obtain ⟨⟨db₁, orderId⟩, hinsert, h⟩ := Option.bind_eq_some_iff.1 h
  obtain ⟨⟨db₂, total⟩, hlast, h⟩ := Option.bind_eq_some_iff.1 h
  obtain ⟨totalAmount, -, rfl⟩ := Option.map_eq_some_iff.1 h
  obtain ⟨-, -, -, -, -, -, hsame, -⟩ := insertOrder_spec hinsert
  have hnew : ∀ i ∈ db₂.items, P i.quantity i.unitPrice :=
    insertLines_items hlast hlines (hsame ▸ hitems)
  exact hnew

/-- **Every action keeps what holds** of the lines of a basket and of an item whose quantity is set.
-/
theorem Action.exec_items {a : Action} {now : Int} {db db' : Database}
    (h : a.exec now db = some db')
    (hlines : ∀ basket : Basket, ∀ line ∈ basket.lines, P line.2 line.1.price)
    (hset : ∀ (quantity : Fin 5) (i : OrderItemRow), P i.quantity i.unitPrice →
      P (Int32.ofNat (quantity.val + 1)) i.unitPrice)
    (hitems : ∀ i ∈ db.items, P i.quantity i.unitPrice) :
    ∀ i ∈ db'.items, P i.quantity i.unitPrice := by
  cases a with
  | createCustomer draw =>
    obtain ⟨-, -, hsame⟩ := insertCustomer_spec h
    exact hsame ▸ hitems
  | createOrder customer draw basket =>
    change Demo.createOrder customer draw basket now db = some db' at h
    unfold Demo.createOrder at h
    split at h
    · exact insertOrderOf_items h (hlines basket) hitems
    · obtain ⟨db₁, hcreate, h⟩ := Option.bind_eq_some_iff.1 h
      obtain ⟨row, -, h⟩ := Option.bind_eq_some_iff.1 h
      obtain ⟨-, -, hsame⟩ := insertCustomer_spec hcreate
      exact insertOrderOf_items h (hlines basket) (hsame ▸ hitems)
  | progressOrder order draw =>
    change progressOrder order draw now db = some db' at h
    unfold progressOrder at h
    split at h
    · obtain rfl := Option.some.inj h
      exact hitems
    · split at h
      · obtain rfl := Option.some.inj h
        exact hitems
      · obtain rfl := Option.some.inj h
        exact hitems
  | updateItemQuantity item quantity =>
    change updateItemQuantity item quantity now db = some db' at h
    unfold updateItemQuantity at h
    split at h
    · obtain rfl := Option.some.inj h
      exact hitems
    · obtain ⟨total, -, rfl⟩ := Option.map_eq_some_iff.1 h
      intro i hi
      obtain ⟨x, hx, rfl⟩ := List.mem_map.1 hi
      split
      · exact hset quantity x (hitems x hx)
      · exact hitems x hx

end Items

/-- Every action keeps quantities of at least one and prices that are not negative. -/
theorem Action.exec_admitted {a : Action} {now : Int} {db db' : Database}
    (h : a.exec now db = some db') (hitems : ∀ i ∈ db.items, Admitted i) :
    ∀ i ∈ db'.items, Admitted i := by
  have hprices : ∀ p ∈ products, 0 ≤ p.price.val := by decide
  have hquantity : ∀ q : Fin 5, 1 ≤ (Int32.ofNat (q.val + 1)).toInt := by decide
  refine @Action.exec_items (fun q p => 1 ≤ q.toInt ∧ 0 ≤ p.val) _ _ _ _ h
    (fun basket line hline => ?_) (fun quantity i hi => ⟨hquantity quantity, hi.2⟩) hitems
  exact ⟨Int32.le_iff_toInt_le.1 (basket.quantities line hline).1,
    hprices _ (basket.fromTable line hline)⟩

/-! ## Segments of traffic -/

/-- The events of a commit carry the changes of a log, whatever their times. -/
structure Publishes (c : Commit) (log : List RowChange) : Prop where
  customers : c.customers.map (fun e => e.change) = customerChanges log
  orders : c.orders.map (fun e => e.change) = Demo.orderChanges log
  items : c.items.map (fun e => e.change) = itemChanges log

/-- Traffic from one state of the source to another, with what is published of it. -/
inductive Segment : Database → List Commit → Database → Prop
  | nil (db : Database) : Segment db [] db
  | commit {db db₁ db' : Database} {a : Action} {now : Int} {log : List RowChange} {c : Commit}
    {commits : List Commit} (hexec : a.exec now db = some db₁) (hlog : Transaction db log db₁)
    (hpublishes : Publishes c log) (hrest : Segment db₁ commits db') :
      Segment db (c :: commits) db'
  | rollback {db db' : Database} {commits : List Commit} (customers orders items : Nat)
    (hrest : Segment (trafficStep db (.rollback customers orders items)) commits db') :
      Segment db commits db'
  | restart {db db' : Database} {c : Commit} {commits : List Commit}
    (hpublishes : Publishes c (snapshotOf db)) (hrest : Segment db commits db') :
      Segment db (c :: commits) db'

/-- The source at the end of what is published. -/
structure SourceInv (commits : List Commit) (db : Database) : Prop where
  tracked : Tracked ((customerEvents commits).map fun e => e.change)
    ((orderEvents commits).map fun e => e.change) ((itemEvents commits).map fun e => e.change) db
  sound : Sound db
  admitted : ∀ i ∈ db.items, Admitted i

/-- The events of the topics keep up with the log when a transaction is published. -/
theorem Tracked.publish {commits : List Commit} {c : Commit} {log : List RowChange} {db : Database}
    (hpublishes : Publishes c log)
    (h : Tracked ((customerEvents commits).map (fun e => e.change) ++ customerChanges log)
      ((orderEvents commits).map (fun e => e.change) ++ Demo.orderChanges log)
      ((itemEvents commits).map (fun e => e.change) ++ itemChanges log) db) :
    Tracked ((customerEvents (commits ++ [c])).map fun e => e.change)
      ((orderEvents (commits ++ [c])).map fun e => e.change)
      ((itemEvents (commits ++ [c])).map fun e => e.change) db := by
  rw [← hpublishes.customers, ← hpublishes.orders, ← hpublishes.items, ← List.map_append,
    ← List.map_append, ← List.map_append] at h
  simpa only [customerEvents, orderEvents, itemEvents, List.flatMap_append, List.flatMap_singleton]
    using h

/-- **Traffic keeps the source and what is published of it together.** -/
theorem Segment.inv {db db' : Database} {before commits : List Commit}
    (h : Segment db commits db') (hinv : SourceInv before db) :
    SourceInv (before ++ commits) db' := by
  induction h generalizing before with
  | nil =>
    rw [List.append_nil]
    exact hinv
  | @commit db db₁ db' a now log c commits hexec hlog hpublishes _ ih =>
    have hnext : SourceInv (before ++ [c]) db₁ :=
      ⟨(Transaction.tracked hlog hinv.tracked).publish hpublishes,
        (Action.exec_cases hexec).sound hinv.sound, Action.exec_admitted hexec hinv.admitted⟩
    have hrest := ih hnext
    rwa [List.append_assoc] at hrest
  | rollback customers orders items _ ih =>
    exact ih ⟨⟨hinv.tracked.customers, hinv.tracked.orders, hinv.tracked.items⟩,
      (trafficStep_change _ (.rollback customers orders items)).sound hinv.sound, hinv.admitted⟩
  | @restart db db' c commits hpublishes _ ih =>
    have hnext : SourceInv (before ++ [c]) db :=
      ⟨hinv.tracked.restart.publish hpublishes, hinv.sound, hinv.admitted⟩
    have hrest := ih hnext
    rwa [List.append_assoc] at hrest

/-- The first snapshot of the sample data. -/
theorem sourceInv_sampleData {c : Commit} {now : Int}
    (hpublishes : Publishes c (snapshotOf (sampleData now))) :
    SourceInv [c] (sampleData now) where
  tracked := @Tracked.publish [] c _ _ hpublishes <|
    tracked_snapshot (show [(1 : Int64), 2].Nodup by decide) (sound_sampleData now).orderIds
      (sound_sampleData now).itemIds
  sound := sound_sampleData now
  admitted := by
    intro i hi
    simp only [sampleData, List.mem_cons, List.not_mem_nil, or_false] at hi
    rcases hi with rfl | rfl | rfl <;> decide

end Lakehouse.Verify
