import Mathlib.Data.List.Chain

/-!
# Where the values of a history come from

A history is a list, its newest entry first, and `f` and `g` are two columns of its entries. Where
every entry that changes `f` takes the value that `g` has in the entry before it (`Takes`), every
value that `f` ever has was a value of `g` before, as long as it was so at the start
(`Inherits.append`).
-/

namespace Lakehouse.Lib

section Lineage

variable {α β : Type*} (f g : α → β)

/-- A new entry keeps `f`, or takes it from `g` in the entry before. -/
def Takes (new old : α) : Prop := f new = f old ∨ f new = g old

/-- Every value of `f` was the value of `g` in the same entry or an earlier one. -/
def Inherits : List α → Prop
  | [] => True
  | a :: history => (∃ b ∈ a :: history, g b = f a) ∧ Inherits history

variable {f g}

theorem Inherits.cons {new old : α} {history : List α} (h : Inherits f g (old :: history))
    (htakes : Takes f g new old) : Inherits f g (new :: old :: history) := by
  refine ⟨?_, h⟩
  rcases htakes with hkeep | htake
  · obtain ⟨b, hb, he⟩ := h.1
    exact ⟨b, List.mem_cons_of_mem _ hb, he.trans hkeep.symm⟩
  · exact ⟨old, List.mem_cons_of_mem _ List.mem_cons_self, htake.symm⟩

/-- **The lineage of `f`** goes through `g` as long as every new entry takes it there. -/
theorem Inherits.append {added history : List α} (h : Inherits f g history)
    (htakes : (added ++ history.take 1).IsChain (Takes f g)) (hne : history ≠ []) :
    Inherits f g (added ++ history) := by
  obtain ⟨tip, history, rfl⟩ := List.exists_cons_of_ne_nil hne
  induction added with
  | nil => exact h
  | cons new added ih =>
    rw [List.cons_append, List.isChain_cons] at htakes
    obtain ⟨hnew, hadded⟩ := htakes
    have hrest := ih hadded
    cases added with
    | nil => exact hrest.cons (hnew tip rfl)
    | cons old added => exact hrest.cons (hnew old rfl)

end Lineage

end Lakehouse.Lib
