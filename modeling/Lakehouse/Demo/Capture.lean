import Lakehouse.Demo.GenerateTraffic
import Lakehouse.Source.Debezium

/-!
# What is captured of the traffic

The row changes of the transactions of `demo/generate_traffic.py` in the order of their statements,
as the connector takes them from the log of the database
(`pipelines/streaming/kafka-connect/debezium-postgres.yaml`): an `INSERT` is one new row, and an
`UPDATE` one change of each row it matches, with the row before it. With `snapshot.mode: always`
every start of the connector reads all rows first.
-/

namespace Lakehouse.Demo

open Lib Source

/-- A change of a row of one of the captured tables. -/
inductive RowChange where
  | customer (c : Change CustomerRow)
  | order (c : Change OrderRow)
  | item (c : Change OrderItemRow)
deriving DecidableEq

/-- The changes of `public.customers` in a log. -/
def customerChanges (log : List RowChange) : List (Change CustomerRow) :=
  log.filterMap fun
    | .customer c => some c
    | _ => none

/-- The changes of `public.orders` in a log. -/
def orderChanges (log : List RowChange) : List (Change OrderRow) :=
  log.filterMap fun
    | .order c => some c
    | _ => none

/-- The changes of `public.order_items` in a log. -/
def itemChanges (log : List RowChange) : List (Change OrderItemRow) :=
  log.filterMap fun
    | .item c => some c
    | _ => none

/-- The changes of the orders that an `UPDATE` matches. -/
def updatedOrders (db : Database) (orderId : Int64) (set : OrderRow → OrderRow) : List RowChange :=
  (db.orders.filter fun o => o.orderId = orderId).map fun o => .order (.update o (set o))

/-- The changes of an update of an item. -/
def updatedItems (db : Database) (itemId : Int64) (set : OrderItemRow → OrderItemRow) :
    List RowChange :=
  (db.items.filter fun i => i.itemId = itemId).map fun i => .item (.update i (set i))

/-- One statement of a transaction, and what the log has of it. -/
inductive Statement : Database → List RowChange → Database → Prop
  | insertCustomer {db db' : Database} {name email : String} {now : Int} {row : CustomerRow}
    (h : db.insertCustomer name email now = some db') (hrow : db'.customers = db.customers ++ [row]) :
      Statement db [.customer (.create row)] db'
  | insertOrder {db db' : Database} {customerId orderId : Int64} {status : String}
    {totalAmount : Dec 12} {now : Int} {row : OrderRow}
    (h : db.insertOrder customerId status totalAmount now = some (db', orderId))
    (hrow : db'.orders = db.orders ++ [row]) : Statement db [.order (.create row)] db'
  | insertItem {db db' : Database} {orderId productId : Int64} {quantity : Int32}
    {unitPrice : Dec 10} {row : OrderItemRow}
    (h : db.insertItem orderId productId quantity unitPrice = some db')
    (hrow : db'.items = db.items ++ [row]) : Statement db [.item (.create row)] db'
  | setTotal (db : Database) (orderId : Int64) (totalAmount : Dec 12) (now : Int) :
      Statement db (updatedOrders db orderId (setTotal totalAmount now))
        (db.updateOrder orderId (setTotal totalAmount now))
  | setStatus (db : Database) (orderId : Int64) (status : String) (now : Int) :
      Statement db (updatedOrders db orderId (setStatus status now))
        (db.updateOrder orderId (setStatus status now))
  | setQuantity (db : Database) (itemId : Int64) (quantity : Int32) :
      Statement db (updatedItems db itemId (setQuantity quantity))
        (db.updateItem itemId (setQuantity quantity))

/-- The statements of a transaction, one after the other. -/
inductive Transaction : Database → List RowChange → Database → Prop
  | nil (db : Database) : Transaction db [] db
  | cons {db db' db'' : Database} {log log' : List RowChange} (h : Statement db log db')
    (hrest : Transaction db' log' db'') : Transaction db (log ++ log') db''

/-- What a start of the connector reads. -/
def snapshotOf (db : Database) : List RowChange :=
  db.customers.map (fun c => .customer (.read c)) ++ db.orders.map (fun o => .order (.read o)) ++
    db.items.map fun i => .item (.read i)

section Changes

variable (db : Database)

theorem changes_updatedOrders (orderId : Int64) (set : OrderRow → OrderRow) :
    customerChanges (updatedOrders db orderId set) = [] ∧
      orderChanges (updatedOrders db orderId set) =
        ((db.orders.filter fun o => o.orderId = orderId).map fun o => .update o (set o)) ∧
      itemChanges (updatedOrders db orderId set) = [] := by
  simp [customerChanges, orderChanges, itemChanges, updatedOrders, List.filterMap_map]

theorem changes_updatedItems (itemId : Int64) (set : OrderItemRow → OrderItemRow) :
    customerChanges (updatedItems db itemId set) = [] ∧
      orderChanges (updatedItems db itemId set) = [] ∧
      itemChanges (updatedItems db itemId set) =
        (db.items.filter fun i => i.itemId = itemId).map fun i => .update i (set i) := by
  simp [customerChanges, orderChanges, itemChanges, updatedItems, List.filterMap_map]

theorem changes_snapshotOf : customerChanges (snapshotOf db) = db.customers.map .read ∧
    orderChanges (snapshotOf db) = db.orders.map .read ∧
      itemChanges (snapshotOf db) = db.items.map .read := by
  simp [customerChanges, orderChanges, itemChanges, snapshotOf, List.filterMap_map]

theorem rowChanges_append (log log' : List RowChange) :
    customerChanges (log ++ log') = customerChanges log ++ customerChanges log' ∧
      orderChanges (log ++ log') = orderChanges log ++ orderChanges log' ∧
      itemChanges (log ++ log') = itemChanges log ++ itemChanges log' :=
  ⟨List.filterMap_append, List.filterMap_append, List.filterMap_append⟩

end Changes

/-! ## The statements of an action -/

theorem Transaction.append {db db' db'' : Database} {log log' : List RowChange}
    (h : Transaction db log db') (h' : Transaction db' log' db'') :
    Transaction db (log ++ log') db'' := by
  induction h with
  | nil => exact h'
  | cons hfirst _ ih =>
    rw [List.append_assoc]
    exact .cons hfirst (ih h')

theorem Statement.transaction {db db' : Database} {log : List RowChange}
    (h : Statement db log db') : ∃ log, Transaction db log db' := ⟨_, .cons h (.nil _)⟩

theorem insertCustomer_transaction {db db' : Database} {name email : String} {now : Int}
    (h : db.insertCustomer name email now = some db') : ∃ log, Transaction db log db' := by
  have hrun := h
  obtain ⟨customerId, -, hrun⟩ := Option.bind_eq_some_iff.1 hrun
  split at hrun
  · cases hrun
  · obtain rfl := Option.some.inj hrun
    exact Statement.transaction (.insertCustomer h rfl)

theorem insertOrder_transaction {db db' : Database} {customerId orderId : Int64} {status : String}
    {totalAmount : Dec 12} {now : Int}
    (h : db.insertOrder customerId status totalAmount now = some (db', orderId)) :
    ∃ log, Transaction db log db' := by
  have hrun := h
  obtain ⟨id, -, hrun⟩ := Option.bind_eq_some_iff.1 hrun
  split at hrun
  · cases hrun
  · split at hrun
    · obtain ⟨rfl, rfl⟩ := Prod.mk.inj (Option.some.inj hrun)
      exact Statement.transaction (.insertOrder h rfl)
    · cases hrun

theorem insertItem_transaction {db db' : Database} {orderId productId : Int64} {quantity : Int32}
    {unitPrice : Dec 10} (h : db.insertItem orderId productId quantity unitPrice = some db') :
    ∃ log, Transaction db log db' := by
  have hrun := h
  obtain ⟨itemId, -, hrun⟩ := Option.bind_eq_some_iff.1 hrun
  split at hrun
  · cases hrun
  · split at hrun
    · obtain rfl := Option.some.inj hrun
      exact Statement.transaction (.insertItem h rfl)
    · cases hrun

theorem insertLines_transaction {orderId : Int64} {lines : List (Product × Int32)}
    {db db' : Database} {total total' : Int}
    (h : insertLines orderId lines (db, total) = some (db', total')) :
    ∃ log, Transaction db log db' := by
  induction lines generalizing db total with
  | nil =>
    obtain ⟨rfl, rfl⟩ := Prod.mk.inj (Option.some.inj h)
    exact ⟨[], .nil db⟩
  | cons line lines ih =>
    obtain ⟨db₁, hinsert, hrest⟩ := Option.bind_eq_some_iff.1 h
    obtain ⟨log, hlog⟩ := insertItem_transaction hinsert
    obtain ⟨log', hlog'⟩ := ih hrest
    exact ⟨log ++ log', hlog.append hlog'⟩

theorem insertOrderOf_transaction {customerId : Int64} {basket : Basket} {now : Int}
    {db db' : Database} (h : insertOrderOf customerId basket now db = some db') :
    ∃ log, Transaction db log db' := by
  obtain ⟨⟨db₁, orderId⟩, hinsert, h⟩ := Option.bind_eq_some_iff.1 h
  obtain ⟨⟨db₂, total⟩, hlines, h⟩ := Option.bind_eq_some_iff.1 h
  obtain ⟨totalAmount, -, rfl⟩ := Option.map_eq_some_iff.1 h
  obtain ⟨log, hlog⟩ := insertOrder_transaction hinsert
  obtain ⟨log', hlog'⟩ := insertLines_transaction hlines
  exact ⟨_, (hlog.append hlog').append (.cons (.setTotal db₂ orderId totalAmount now) (.nil _))⟩

/-- **Every action is a transaction of statements.** -/
theorem Action.exec_transaction {a : Action} {now : Int} {db db' : Database}
    (h : a.exec now db = some db') : ∃ log, Transaction db log db' := by
  cases a with
  | createCustomer draw => exact insertCustomer_transaction h
  | createOrder customer draw basket =>
    change Demo.createOrder customer draw basket now db = some db' at h
    unfold Demo.createOrder at h
    split at h
    · exact insertOrderOf_transaction h
    · obtain ⟨db₁, hcreate, h⟩ := Option.bind_eq_some_iff.1 h
      obtain ⟨row, -, h⟩ := Option.bind_eq_some_iff.1 h
      obtain ⟨log, hlog⟩ := insertCustomer_transaction hcreate
      obtain ⟨log', hlog'⟩ := insertOrderOf_transaction h
      exact ⟨log ++ log', hlog.append hlog'⟩
  | progressOrder order draw =>
    change Demo.progressOrder order draw now db = some db' at h
    unfold Demo.progressOrder at h
    split at h
    · obtain rfl := Option.some.inj h
      exact ⟨[], .nil db⟩
    · split at h
      · obtain rfl := Option.some.inj h
        exact ⟨[], .nil db⟩
      · obtain rfl := Option.some.inj h
        exact Statement.transaction (.setStatus db _ _ now)
  | updateItemQuantity item quantity =>
    change Demo.updateItemQuantity item quantity now db = some db' at h
    unfold Demo.updateItemQuantity at h
    split at h
    · obtain rfl := Option.some.inj h
      exact ⟨[], .nil db⟩
    · next i o hpick =>
      obtain ⟨total, -, rfl⟩ := Option.map_eq_some_iff.1 h
      exact ⟨_, .cons (.setQuantity db i.itemId _) (.cons (.setTotal _ i.orderId total now)
        (.nil _))⟩

end Lakehouse.Demo
