import Mathlib.Data.List.Range
import Mathlib.Data.Nat.Find

/-!
# Bounded attempts

A loop over a list of attempts that its body may leave with a result. The loop leaves with what the
first body gave that does so (`attempts_leaves`); where the last attempt leaves in any case, there
is one (`exists_leaving`).
-/

namespace Lakehouse.Lib

section Attempts

variable {σ β : Type*}

/-- The attempts in turn, until one leaves with a result; none where a body does not end. -/
def attempts (body : Nat → σ → Option (Option β × σ)) : List Nat → σ → Option (Option β × σ)
  | [], s => some (none, s)
  | i :: is, s =>
    match body i s with
    | none => none
    | some (some result, s) => some (some result, s)
    | some (none, s) => attempts body is s

variable {body : Nat → σ → Option (Option β × σ)} {st : Nat → σ}

theorem attempts_leaves_from {i k n : Nat} (hk : k < n) {result : β} {s : σ}
    (hpass : ∀ m < k, body (i + m) (st (i + m)) = some (none, st (i + m + 1)))
    (hleave : body (i + k) (st (i + k)) = some (some result, s)) :
    attempts body (List.range' i n) (st i) = some (some result, s) := by
  obtain ⟨n, rfl⟩ := Nat.exists_eq_add_one.2 (Nat.zero_lt_of_lt hk)
  induction k generalizing i n with
  | zero => rw [List.range'_succ, attempts, show body i (st i) = _ from hleave]
  | succ k ih =>
    obtain ⟨n, rfl⟩ := Nat.exists_eq_add_one.2 (Nat.zero_lt_of_lt (Nat.lt_of_succ_lt_succ hk))
    have hfirst : body i (st i) = some (none, st (i + 1)) := hpass 0 (Nat.succ_pos k)
    have hrest : attempts body (List.range' (i + 1) (n + 1)) (st (i + 1)) =
        some (some result, s) := by
      have hshift : ∀ m, i + 1 + m = i + (m + 1) := fun m => by omega
      apply ih
      · intro m hm
        rw [hshift]
        exact hpass (m + 1) (Nat.succ_lt_succ hm)
      · rw [hshift]
        exact hleave
      · exact Nat.lt_of_succ_lt_succ hk
    rw [List.range'_succ, attempts, hfirst]
    exact hrest

/-- The first body that leaves gives the result; `st` follows the states of those before it. -/
theorem attempts_leaves {k n : Nat} (hk : k < n) {result : β} {s : σ}
    (hpass : ∀ m < k, body m (st m) = some (none, st (m + 1)))
    (hleave : body k (st k) = some (some result, s)) :
    attempts body (List.range n) (st 0) = some (some result, s) := by
  rw [List.range_eq_range']
  apply attempts_leaves_from hk
  · simpa only [Nat.zero_add] using hpass
  · simpa only [Nat.zero_add] using hleave

/-- The first attempt that leaves, where the last one does so in any case. -/
theorem exists_leaving (leaves : Nat → Prop) (last : Nat) :
    ∃ k < last + 1, (leaves k ∨ k = last) ∧ ∀ m < k, ¬ leaves m ∧ m ≠ last := by
  classical
  have hlast : ∃ k, leaves k ∨ k = last := ⟨last, .inr rfl⟩
  have hle : Nat.find hlast ≤ last := Nat.find_min' hlast (.inr rfl)
  refine ⟨Nat.find hlast, Nat.lt_succ_of_le hle, Nat.find_spec hlast, ?_⟩
  intro m hm
  simpa only [not_or] using Nat.find_min hlast hm

end Attempts

end Lakehouse.Lib
