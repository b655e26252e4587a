import Lakehouse.Source.Rows

/-!
# Traffic generator

`demo/generate_traffic.py` on the tables and the sample data of
`infra/kubernetes/base/postgres/init.sql`. An action is one transaction: it gives the tables it
commits, or nothing where a statement fails and the transaction is rolled back. Random choices and
the clock are arguments, and amounts are in cents.
-/

namespace Lakehouse.Demo

open Lib Source

/-! ## The source database -/

/-- The captured tables and the next numbers of their `BIGSERIAL` columns. -/
structure Database where
  customers : List CustomerRow
  orders : List OrderRow
  items : List OrderItemRow
  customerSeq : Nat
  orderSeq : Nat
  itemSeq : Nat
deriving DecidableEq

/-- `nextval`: a sequence ends at the largest `BIGINT`. -/
def nextval (seq : Nat) : Option Int64 := if seq < 2 ^ 63 then some (Int64.ofNat seq) else none

namespace Database

/-- `INSERT INTO customers`: the key and the email are unique. -/
def insertCustomer (db : Database) (name email : String) (now : Int) : Option Database :=
  (nextval db.customerSeq).bind fun customerId =>
    if db.customers.any fun c => c.customerId = customerId ∨ c.email = email then none
    else
      let row : CustomerRow :=
        { customerId := customerId, name := name, email := email
          createdAt := now, updatedAt := now }
      some { db with customers := db.customers ++ [row], customerSeq := db.customerSeq + 1 }

/-- `INSERT INTO orders … RETURNING order_id`: the key is unique and the customer exists. -/
def insertOrder (db : Database) (customerId : Int64) (status : String) (totalAmount : Dec 12)
    (now : Int) : Option (Database × Int64) :=
  (nextval db.orderSeq).bind fun orderId =>
    if db.orders.any fun o => o.orderId = orderId then none
    else if db.customers.any fun c => c.customerId = customerId then
      let row : OrderRow :=
        { orderId := orderId, customerId := customerId, status := status
          totalAmount := totalAmount, createdAt := now, updatedAt := now }
      some ({ db with orders := db.orders ++ [row], orderSeq := db.orderSeq + 1 }, orderId)
    else none

/-- `INSERT INTO order_items`: the key is unique and the order exists. -/
def insertItem (db : Database) (orderId productId : Int64) (quantity : Int32) (unitPrice : Dec 10) :
    Option Database :=
  (nextval db.itemSeq).bind fun itemId =>
    if db.items.any fun i => i.itemId = itemId then none
    else if db.orders.any fun o => o.orderId = orderId then
      let row : OrderItemRow :=
        { itemId := itemId, orderId := orderId, productId := productId, quantity := quantity
          unitPrice := unitPrice }
      some { db with items := db.items ++ [row], itemSeq := db.itemSeq + 1 }
    else none

/-- `UPDATE orders … WHERE order_id = …`. -/
def updateOrder (db : Database) (orderId : Int64) (set : OrderRow → OrderRow) : Database :=
  { db with orders := db.orders.map fun o => if o.orderId = orderId then set o else o }

/-- `UPDATE order_items … WHERE item_id = …`. -/
def updateItem (db : Database) (itemId : Int64) (set : OrderItemRow → OrderItemRow) : Database :=
  { db with items := db.items.map fun i => if i.itemId = itemId then set i else i }

/-- The items of an order. -/
def itemsOf (db : Database) (orderId : Int64) : List OrderItemRow :=
  db.items.filter fun i => i.orderId = orderId

/-- `SELECT SUM(quantity * unit_price) FROM order_items WHERE order_id = …`. -/
def sumItems (db : Database) (orderId : Int64) : Option Int :=
  let items := db.itemsOf orderId
  if items = [] then none else some (items.map OrderItemRow.cents).sum

end Database

/-- `ORDER BY random() LIMIT 1`. -/
def pick {α : Type} (n : Nat) (rows : List α) : Option α := rows[n % rows.length]?

/-! ## Statuses -/

/-- `STATUS_FLOW`, with the weights in hundredths. -/
def statusFlow : List (String × List (String × Nat)) :=
  [("pending", [("confirmed", 90), ("cancelled", 10)]),
    ("confirmed", [("shipped", 95), ("cancelled", 5)]),
    ("shipped", [("delivered", 100)]),
    ("delivered", [("completed", 100)])]

/-- The statuses in which `progress_order` picks no order. -/
def terminalStatuses : List String := ["completed", "cancelled"]

/-- `rng.choices` with `k=1`: the choice whose share of the total weight the draw falls in. -/
def choose {α : Type} : List (α × Nat) → Nat → Option α
  | [], _ => none
  | (choice, weight) :: rest, draw =>
    if draw < weight then some choice else choose rest (draw - weight)

/-- The status an order moves on to, if any. -/
def nextStatus (status : String) (draw : Nat) : Option String :=
  (statusFlow.lookup status).bind fun transitions =>
    choose transitions (draw % (transitions.map Prod.snd).sum)

/-! ## Products and names -/

/-- A product of the catalogue. -/
structure Product where
  productId : Int64
  name : String
  price : Dec 10
deriving DecidableEq

/-- `PRODUCTS`. -/
def products : List Product :=
  [⟨101, "Mechanical keyboard", .ofNat 8990⟩,
    ⟨102, "4K monitor", .ofNat 34900⟩,
    ⟨103, "USB-C dock", .ofNat 12950⟩,
    ⟨104, "Noise-cancelling headset", .ofNat 19999⟩,
    ⟨105, "Webcam", .ofNat 5990⟩,
    ⟨106, "Laptop stand", .ofNat 3900⟩,
    ⟨107, "Ergonomic mouse", .ofNat 4990⟩,
    ⟨108, "Desk mat", .ofNat 1990⟩,
    ⟨109, "HDMI cable", .ofNat 990⟩,
    ⟨110, "External SSD 1TB", .ofNat 10900⟩]

/-- `FIRST_NAMES`. -/
def firstNames : List String :=
  ["Alice", "Bob", "Chloe", "David", "Emma", "Felix", "Grace", "Hugo", "Ines", "Jules"]

/-- `LAST_NAMES`. -/
def lastNames : List String :=
  ["Martin", "Dupont", "Bernard", "Petit", "Durand", "Leroy", "Moreau", "Simon", "Laurent"]

/-- What `rng.sample(PRODUCTS, k=rng.randint(1, 4))` draws, with a quantity of one to three for each
product. -/
structure Basket where
  lines : List (Product × Int32)
  fromTable : ∀ line ∈ lines, line.1 ∈ products
  distinct : (lines.map Prod.fst).Nodup
  size : 1 ≤ lines.length ∧ lines.length ≤ 4
  quantities : ∀ line ∈ lines, 1 ≤ line.2 ∧ line.2 ≤ 3

/-- The random choices of a new customer; `hex` is the start of a UUID. -/
structure NewCustomer where
  firstName : Fin firstNames.length
  lastName : Fin lastNames.length
  hex : String

/-! ## Actions -/

/-- `create_customer`. -/
def createCustomer (draw : NewCustomer) (now : Int) (db : Database) : Option Database :=
  let first := firstNames.get draw.firstName
  let name := first ++ " " ++ lastNames.get draw.lastName
  let email := first.toLower ++ "." ++ draw.hex ++ "@example.com"
  db.insertCustomer name email now

/-- The loop over the sample, with the running total. -/
def insertLines (orderId : Int64) :
    List (Product × Int32) → Database × Int → Option (Database × Int)
  | [], s => some s
  | (product, quantity) :: lines, (db, total) =>
    (db.insertItem orderId product.productId quantity product.price).bind fun db =>
      insertLines orderId lines (db, total + quantity.toInt * product.price.val)

/-- The update of the total of an order. -/
def setTotal (totalAmount : Dec 12) (now : Int) (o : OrderRow) : OrderRow :=
  { o with totalAmount := totalAmount, updatedAt := now }

/-- The update of the status of an order. -/
def setStatus (status : String) (now : Int) (o : OrderRow) : OrderRow :=
  { o with status := status, updatedAt := now }

/-- The update of the quantity of an item. -/
def setQuantity (quantity : Int32) (i : OrderItemRow) : OrderItemRow :=
  { i with quantity := quantity }

/-- The order of a customer that was selected. -/
def insertOrderOf (customerId : Int64) (basket : Basket) (now : Int) (db : Database) :
    Option Database :=
  (db.insertOrder customerId "pending" 0 now).bind fun (db, orderId) =>
    (insertLines orderId basket.lines (db, 0)).bind fun (db, total) =>
      (castPrecision 12 total).map fun totalAmount =>
        db.updateOrder orderId (setTotal totalAmount now)

/-- `create_order`: without a customer one is created first. -/
def createOrder (customer : Nat) (draw : NewCustomer) (basket : Basket) (now : Int)
    (db : Database) : Option Database :=
  match pick customer db.customers with
  | some row => insertOrderOf row.customerId basket now db
  | none =>
    (createCustomer draw now db).bind fun db =>
      (pick customer db.customers).bind fun row => insertOrderOf row.customerId basket now db

/-- `progress_order`. -/
def progressOrder (order : Nat) (draw : Nat) (now : Int) (db : Database) : Option Database :=
  match pick order (db.orders.filter fun o => o.status ∉ terminalStatuses) with
  | none => some db
  | some row =>
    match nextStatus row.status draw with
    | none => some db
    | some new => some (db.updateOrder row.orderId (setStatus new now))

/-- The items of pending orders, with their orders. -/
def pendingItems (db : Database) : List (OrderItemRow × OrderRow) :=
  db.items.flatMap fun i =>
    (db.orders.filter fun o => o.orderId = i.orderId ∧ o.status = "pending").map fun o => (i, o)

/-- The quantity is one to five. -/
def updateItemQuantity (item : Nat) (quantity : Fin 5) (now : Int) (db : Database) :
    Option Database :=
  match pick item (pendingItems db) with
  | none => some db
  | some (row, _) =>
    let db := db.updateItem row.itemId (setQuantity (Int32.ofNat (quantity.val + 1)))
    ((db.sumItems row.orderId).bind (castPrecision 12)).map fun totalAmount =>
      db.updateOrder row.orderId (setTotal totalAmount now)

/-- `ACTIONS`, with the random choices of each. -/
inductive Action where
  | createCustomer (draw : NewCustomer)
  | createOrder (customer : Nat) (draw : NewCustomer) (basket : Basket)
  | progressOrder (order : Nat) (draw : Nat)
  | updateItemQuantity (item : Nat) (quantity : Fin 5)

/-- The transaction of an action: nothing where one of its statements fails. -/
def Action.exec (a : Action) (now : Int) (db : Database) : Option Database :=
  match a with
  | .createCustomer draw => Demo.createCustomer draw now db
  | .createOrder customer draw basket => Demo.createOrder customer draw basket now db
  | .progressOrder order draw => Demo.progressOrder order draw now db
  | .updateItemQuantity item quantity => Demo.updateItemQuantity item quantity now db

/-! ## Sample data -/

/-- The rows `init.sql` inserts. -/
def sampleData (now : Int) : Database where
  customers :=
    [⟨1, "Alice Martin", "alice@example.com", now, now⟩,
      ⟨2, "Bob Dupont", "bob@example.com", now, now⟩]
  orders :=
    [⟨1, 1, "completed", .ofNat 12999, now, now⟩,
      ⟨2, 2, "pending", .ofNat 4950, now, now⟩]
  items :=
    [⟨1, 1, 101, 2, .ofNat 4999⟩, ⟨2, 1, 202, 1, .ofNat 3001⟩,
      ⟨3, 2, 303, 1, .ofNat 4950⟩]
  customerSeq := 3
  orderSeq := 3
  itemSeq := 4

end Lakehouse.Demo
