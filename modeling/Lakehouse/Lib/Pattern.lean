import Mathlib.Data.Bool.AllAny
import Mathlib.Data.List.TakeDrop

/-!
# Patterns of repeated characters

The regular expressions that are a sequence of character classes, each with a number of repetitions,
between `^` and `$`. A text is accepted when it splits into runs of the classes
(`Pattern.accepts_exactly`, `Pattern.accepts_oneOrMore`).
-/

namespace Lakehouse.Lib

/-- The characters in some ranges, or those that are not. -/
structure CharClass where
  ranges : List (Char × Char)
  negated : Bool

namespace CharClass

/-- `[a-z…]`. -/
def oneOf (ranges : List (Char × Char)) : CharClass := ⟨ranges, false⟩

/-- `[^a-z…]`. -/
def noneOf (ranges : List (Char × Char)) : CharClass := ⟨ranges, true⟩

/-- One character. -/
def literal (c : Char) : CharClass := ⟨[(c, c)], false⟩

/-- A character is in the class. -/
def has (cls : CharClass) (c : Char) : Bool :=
  (cls.ranges.any fun r => decide (r.1 ≤ c) && decide (c ≤ r.2)) != cls.negated

end CharClass

/-- How often a class is matched. -/
inductive Repetition where
  /-- A number of times, as `{n}`. -/
  | exactly (n : Nat)
  /-- Once or more, as `+`. -/
  | oneOrMore

/-- Classes that are matched one after the other. -/
abbrev Pattern := List (CharClass × Repetition)

namespace Pattern

/-- Whether a text splits into the runs of a pattern. -/
def accepts : Pattern → List Char → Bool
  | [], text => text.isEmpty
  | (cls, .exactly n) :: rest, text =>
    decide (n ≤ text.length) && (text.take n).all cls.has && accepts rest (text.drop n)
  | (cls, .oneOrMore) :: rest, text =>
    (List.range text.length).any fun k =>
      (text.take (k + 1)).all cls.has && accepts rest (text.drop (k + 1))

variable {cls : CharClass} {rest : Pattern} {run text : List Char}

theorem accepts_exactly (hrun : ∀ c ∈ run, cls.has c = true) (hrest : accepts rest text = true) :
    accepts ((cls, .exactly run.length) :: rest) (run ++ text) = true := by
  rw [accepts, List.take_left, List.drop_left, hrest, List.length_append, Bool.and_true,
    Bool.and_eq_true]
  exact ⟨decide_eq_true (Nat.le_add_right _ _), List.all_eq_true.2 hrun⟩

theorem accepts_oneOrMore (hne : run ≠ []) (hrun : ∀ c ∈ run, cls.has c = true)
    (hrest : accepts rest text = true) :
    accepts ((cls, .oneOrMore) :: rest) (run ++ text) = true := by
  have hpos : 0 < run.length := List.length_pos_iff.2 hne
  have hlen : run.length - 1 + 1 = run.length := Nat.succ_pred_eq_of_pos hpos
  rw [accepts, List.any_eq_true]
  refine ⟨run.length - 1, List.mem_range.2 ?_, ?_⟩
  · rw [List.length_append]
    omega
  · rw [hlen, List.take_left, List.drop_left, hrest, Bool.and_true]
    exact List.all_eq_true.2 hrun

theorem accepts_literal {c : Char} (hrest : accepts rest text = true) :
    accepts ((.literal c, .exactly 1) :: rest) (c :: text) = true := by
  have hrun : ∀ x ∈ [c], (CharClass.literal c).has x = true := by
    intro x hx
    obtain rfl := List.mem_singleton.1 hx
    simp [CharClass.has, CharClass.literal]
  exact accepts_exactly hrun hrest

end Pattern

end Lakehouse.Lib
