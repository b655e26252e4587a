import Lakehouse.Lib.Calendar
import Lakehouse.Lib.Decimal
import Lakehouse.Lib.Json

/-!
# Rows of the source database

The three captured tables of the source database (`infra/kubernetes/base/postgres/init.sql`) and the
JSON images of their rows as Debezium writes them: identifiers and quantities as numbers, amounts as
strings (`decimal.handling.mode: string`), timestamps as ISO-8601 strings. The columns of
`order_items.created_at` and the like that no job reads are left out.
-/

namespace Lakehouse.Source

open Lib

/-- A row of `public.orders`. -/
structure OrderRow where
  orderId : Int64
  customerId : Int64
  status : String
  totalAmount : Dec 12
  /-- Microseconds since the epoch, as `updatedAt`. -/
  createdAt : Int
  updatedAt : Int
deriving DecidableEq

/-- A row of `public.customers`. -/
structure CustomerRow where
  customerId : Int64
  name : String
  email : String
  createdAt : Int
  updatedAt : Int
deriving DecidableEq

/-- A row of `public.order_items`. -/
structure OrderItemRow where
  itemId : Int64
  orderId : Int64
  productId : Int64
  quantity : Int32
  unitPrice : Dec 10
deriving DecidableEq

/-- `quantity * unit_price`, in cents. -/
def OrderItemRow.cents (r : OrderItemRow) : Int := r.quantity.toInt * r.unitPrice.val

/-- A `NUMERIC` under `decimal.handling.mode: string`. -/
def jsonAmount {p : Nat} (n : Dec p) : Json := .str (String.ofList (decimalText n.val))

/-- A `TIMESTAMPTZ` of the envelope. -/
def jsonTimestamp (t : Int) : Json := .str (String.ofList (formatTimestamp t))

/-- The columns of `public.orders`. -/
def OrderRow.fields (r : OrderRow) : List (String × Json) :=
  [("order_id", .ofInt r.orderId.toInt), ("customer_id", .ofInt r.customerId.toInt),
    ("status", .str r.status), ("total_amount", jsonAmount r.totalAmount),
    ("created_at", jsonTimestamp r.createdAt), ("updated_at", jsonTimestamp r.updatedAt)]

/-- The columns of `public.customers`. -/
def CustomerRow.fields (r : CustomerRow) : List (String × Json) :=
  [("customer_id", .ofInt r.customerId.toInt), ("name", .str r.name), ("email", .str r.email),
    ("created_at", jsonTimestamp r.createdAt), ("updated_at", jsonTimestamp r.updatedAt)]

/-- The columns of `public.order_items`. -/
def OrderItemRow.fields (r : OrderItemRow) : List (String × Json) :=
  [("item_id", .ofInt r.itemId.toInt), ("order_id", .ofInt r.orderId.toInt),
    ("product_id", .ofInt r.productId.toInt), ("quantity", .ofInt r.quantity.toInt),
    ("unit_price", jsonAmount r.unitPrice)]

/-! ## Reading the images back -/

@[simp] theorem text_str (s : String) : (Json.str s).text = some s := rfl

@[simp] theorem text_jsonAmount {p : Nat} (n : Dec p) :
    (jsonAmount n).text = some (String.ofList (decimalText n.val)) := rfl

@[simp] theorem text_jsonTimestamp (t : Int) :
    (jsonTimestamp t).text = some (String.ofList (formatTimestamp t)) := rfl

/-- A decimal in a column with more digits. -/
def widen {p : Nat} (q : Nat) (h : p ≤ q) (n : Dec p) : Dec q :=
  ⟨n.val, n.property.trans_le (Nat.pow_le_pow_right (by decide) h)⟩

theorem widen_inj {p q : Nat} {h : p ≤ q} {n m : Dec p} (he : widen q h n = widen q h m) : n = m := by
  have hval : n.val = m.val := congrArg (fun d : Dec q => d.val) he
  exact Subtype.ext hval

@[simp] theorem castDecimal_amount {p q : Nat} (h : p ≤ q) (n : Dec p) :
    castDecimal q 2 (String.ofList (decimalText n.val)) = some (widen q h n) :=
  castDecimal_decimalText (widen q h n).property

@[simp] theorem castInt_int64 (n : Int64) : castInt 64 n.toInt.repr = some n.toInt :=
  castInt_toString n.le_toInt n.toInt_lt

@[simp] theorem castInt_int32 (n : Int32) : castInt 32 n.toInt.repr = some n.toInt :=
  castInt_toString n.le_toInt n.toInt_lt

theorem repr_int64_inj {n m : Int64} : n.toInt.repr = m.toInt.repr ↔ n = m := by
  constructor
  · intro h
    have hcast := congrArg (castInt 64) h
    rw [castInt_int64, castInt_int64] at hcast
    exact Int64.toInt_inj.1 (Option.some.inj hcast)
  · rintro rfl; rfl

end Lakehouse.Source
