import Lakehouse.Lib.KeyedLog
import Lakehouse.Source.Debezium

/-!
# Histories of orders

A log interleaves the histories of the orders in any way. The live orders are those whose latest
change is not a delete, and whatever is added up over the images of a log telescopes to them
(`sum_net_liveOrders`).
-/

namespace Lakehouse.Verify

open Lib Source

/-! ## Histories -/

/-- The changes follow from the row that is there now. -/
def FollowsRow : Option OrderRow → List (Change OrderRow) → Prop
  | _, [] => True
  | current, c :: history => c.before = current ∧ FollowsRow c.after history

instance : ∀ current history, Decidable (FollowsRow current history)
  | _, [] => isTrue trivial
  | current, c :: history =>
    have := instDecidableFollowsRow c.after history
    inferInstanceAs (Decidable (c.before = current ∧ FollowsRow c.after history))

/-- The changes of an order. -/
def historyOf (log : List (Change OrderRow)) (id : Int64) : List (Change OrderRow) :=
  log.filter fun c => c.row.orderId = id

/-- The changes of each order, in their order, start with its insert or its snapshot read. -/
def IsHistory (log : List (Change OrderRow)) : Prop := ∀ id, FollowsRow none (historyOf log id)

theorem isHistory_iff {log : List (Change OrderRow)} :
    IsHistory log ↔ ∀ c ∈ log, FollowsRow none (historyOf log c.row.orderId) := by
  refine ⟨fun h c _ => h _, fun h id => ?_⟩
  cases hid : historyOf log id with
  | nil => trivial
  | cons c history =>
    obtain ⟨hc, heq⟩ := List.mem_filter.1 (hid ▸ List.mem_cons_self : c ∈ historyOf log id)
    rw [← hid, ← of_decide_eq_true heq]
    exact h c hc

instance (log : List (Change OrderRow)) : Decidable (IsHistory log) :=
  decidable_of_iff _ isHistory_iff.symm

/-- The image of an order after its latest change: none if that is a delete. -/
def latestImage (log : List (Change OrderRow)) (id : Int64) : Option OrderRow :=
  (historyOf log id).getLast?.bind Change.after

/-- The orders whose latest change is not a delete, as they are now. -/
def liveOrders (log : List (Change OrderRow)) : Multiset OrderRow :=
  ((log.map fun c => c.row.orderId).dedup.filterMap (latestImage log) : List OrderRow)

theorem latestImage_eq (log : List (Change OrderRow)) (id : Int64) :
    latestImage log id =
      latestOf (fun c : Change OrderRow => c.row.orderId) Change.after log id := rfl

theorem liveOrders_eq (log : List (Change OrderRow)) :
    liveOrders log = liveImages (fun c : Change OrderRow => c.row.orderId) Change.after log := rfl

/-! ## One more change -/

theorem historyOf_snoc (log : List (Change OrderRow)) (c : Change OrderRow) (id : Int64) :
    historyOf (log ++ [c]) id = historyOf log id ++ if c.row.orderId = id then [c] else [] :=
  changesOf_snoc _ _ _ _

theorem followsRow_snoc {current : Option OrderRow} {history : List (Change OrderRow)}
    {c : Change OrderRow} (h : FollowsRow current (history ++ [c])) :
    FollowsRow current history ∧ c.before = history.getLast?.elim current Change.after := by
  induction history generalizing current with
  | nil => exact ⟨trivial, h.1⟩
  | cons d history ih =>
    obtain ⟨hd, h⟩ := h
    obtain ⟨hfollows, hbefore⟩ := ih h
    refine ⟨⟨hd, hfollows⟩, ?_⟩
    rw [hbefore, List.getLast?_cons]
    cases history.getLast? with
    | none => rfl
    | some e => rfl

theorem IsHistory.snoc {log : List (Change OrderRow)} {c : Change OrderRow}
    (h : IsHistory (log ++ [c])) : IsHistory log ∧ c.before = latestImage log c.row.orderId := by
  refine ⟨fun id => ?_, ?_⟩
  · have hid := h id
    rw [historyOf_snoc] at hid
    by_cases heq : c.row.orderId = id
    · rw [if_pos heq] at hid
      exact (followsRow_snoc hid).1
    · rwa [if_neg heq, List.append_nil] at hid
  · have hid := h c.row.orderId
    rw [historyOf_snoc, if_pos rfl] at hid
    rw [(followsRow_snoc hid).2, latestImage]
    cases (historyOf log c.row.orderId).getLast? with
    | none => rfl
    | some d => rfl

theorem IsHistory.of_append {log log' : List (Change OrderRow)} (h : IsHistory (log ++ log')) :
    IsHistory log := by
  induction log' using List.reverseRecOn with
  | nil => rwa [List.append_nil] at h
  | append_singleton log' c ih =>
    rw [← List.append_assoc] at h
    exact ih h.snoc.1

/-! ## Telescoping -/

section Sums

variable {M : Type} [AddCommGroup M] (f : OrderRow → M)

/-- The value of an image, zero for none. -/
def imageValue (image : Option OrderRow) : M := image.elim 0 f

/-- What a change adds to a sum over the live orders. -/
def net (c : Change OrderRow) : M := imageValue f c.after - imageValue f c.before

/-- One change moves the live orders by what it adds. -/
theorem sum_liveOrders_snoc {log : List (Change OrderRow)} {c : Change OrderRow}
    (h : IsHistory (log ++ [c])) :
    ((liveOrders (log ++ [c])).map f).sum = ((liveOrders log).map f).sum + net f c := by
  have hsnoc := sum_liveImages_snoc (fun c : Change OrderRow => c.row.orderId) Change.after f log c
  rw [← liveOrders_eq, ← liveOrders_eq, ← latestImage_eq, ← h.snoc.2] at hsnoc
  rw [eq_sub_of_add_eq hsnoc, add_sub_assoc]
  rfl

/-- **The changes telescope**: what they add up to is the live orders. -/
theorem sum_net_liveOrders {log : List (Change OrderRow)} (h : IsHistory log) :
    (log.map (net f)).sum = ((liveOrders log).map f).sum := by
  induction log using List.reverseRecOn with
  | nil => rfl
  | append_singleton log c ih =>
    rw [List.map_append, List.sum_append, ih h.snoc.1, sum_liveOrders_snoc f h, List.map_singleton,
      List.sum_singleton]

end Sums

end Lakehouse.Verify
