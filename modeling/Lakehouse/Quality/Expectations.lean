import Lakehouse.Lib.Pattern
import Lakehouse.Quality.Runner

/-!
# Expectations

The kinds of expectations that the suites of `quality/great-expectations/expectations` are made of,
as Great Expectations documents them. An expectation on the values of a column leaves nulls out,
counts the values that it does not admit and succeeds when the share of the others is at least
`mostly`; one that names a column the table does not have fails.
-/

namespace Lakehouse.Quality

open Lib

/-! ## Tables -/

/-- A value of a column. -/
inductive Value where
  | text (s : String)
  | number (q : ℚ)
  | boolean (b : Bool)
  /-- Microseconds since the epoch. -/
  | timestamp (t : Int)
  /-- Days since the epoch. -/
  | date (d : Int)
deriving DecidableEq

/-- Values of one type are compared. -/
def Value.le : Value → Value → Bool
  | .number x, .number y => decide (x ≤ y)
  | .timestamp t, .timestamp u => decide (t ≤ u)
  | .date d, .date e => decide (d ≤ e)
  | _, _ => false

/-- Between two bounds, where they are given. -/
def Value.within (minValue maxValue : Option Value) (v : Value) : Bool :=
  minValue.all (·.le v) && maxValue.all (v.le ·)

/-- A table: the columns in their order, and the rows. -/
structure Frame (ρ : Type) where
  columns : List (String × (ρ → Option Value))
  rows : Multiset ρ

namespace Frame

variable {ρ : Type} (f : Frame ρ)

/-- The column of a frame, if it has it. -/
def column (name : String) : Option (ρ → Option Value) := f.columns.lookup name

/-- The values of a column that are not null. -/
def values (column : ρ → Option Value) : Multiset Value := f.rows.filterMap column

end Frame

/-! ## Conditions -/

/-- What is asked of the values of a column. -/
inductive Condition where
  | notBeNull
  | beUnique
  | matchRegex (regex : Pattern)
  | beInSet (valueSet : List Value)
  | beBetween (minValue maxValue : Option Value)
  | valueLengthsBeBetween (minValue maxValue : Option Nat)

/-- Whether a value among those of its column is as asked. -/
def Condition.admits (values : Multiset Value) (v : Value) : Condition → Bool
  | .notBeNull => true
  | .beUnique => decide (values.count v = 1)
  | .matchRegex regex => match v with
    | .text s => regex.accepts s.toList
    | _ => false
  | .beInSet valueSet => decide (v ∈ valueSet)
  | .beBetween minValue maxValue => v.within minValue maxValue
  | .valueLengthsBeBetween minValue maxValue => match v with
    | .text s => minValue.all (decide <| · ≤ s.length) && maxValue.all (decide <| s.length ≤ ·)
    | _ => false

/-- How many rows are considered, and how many of them are not as asked. -/
structure Evaluation where
  considered : Nat
  unexpected : Nat
deriving DecidableEq

/-- Enough of the values are as expected; without values nothing is unexpected. -/
def Evaluation.success (mostly : ℚ) (e : Evaluation) : Bool :=
  decide (e.considered = 0 ∨ mostly * e.considered ≤ e.considered - e.unexpected)

section Evaluate

variable {ρ : Type} (f : Frame ρ)

/-- The evaluation of a condition, which skips nulls unless it is about them. -/
def evaluateColumn (column : ρ → Option Value) : Condition → Evaluation
  | .notBeNull => ⟨f.rows.card, (f.rows.filter fun r => column r = none).card⟩
  | condition =>
    let values := f.values column
    ⟨values.card, (values.filter fun v => condition.admits values v = false).card⟩

/-- Of a pair with one value missing the comparison does not hold. -/
def pairAGreaterThanB (orEqual : Bool) : Option Value → Option Value → Bool
  | some a, some b => b.le a && (orEqual || !a.le b)
  | _, _ => false

/-- Rows with both values missing are left out. -/
def evaluatePair (columnA columnB : ρ → Option Value) (orEqual : Bool) : Evaluation :=
  let rows := f.rows.filter fun r => ¬ (columnA r = none ∧ columnB r = none)
  ⟨rows.card, (rows.filter fun r => pairAGreaterThanB orEqual (columnA r) (columnB r) = false).card⟩

/-- Rows with all values missing are left out. -/
def evaluateCompound (columns : List (ρ → Option Value)) : Evaluation :=
  let keys := (f.rows.map fun r => columns.map (· r)).filter fun k => ∃ v ∈ k, v ≠ none
  ⟨keys.card, (keys.filter fun k => keys.count k ≠ 1).card⟩

/-- The largest value of a column, as often as it is there. -/
def largest (column : ρ → Option Value) : Multiset Value :=
  (f.values column).filter fun v => ∀ u ∈ f.values column, u.le v = true

/-- A column without values has no largest one. -/
def maxWithin (column : ρ → Option Value) (minValue maxValue : Option Value) : Bool :=
  decide (0 < ((largest f column).filter fun v => v.within minValue maxValue = true).card)

/-- The share of the values of a column that are left when each is taken once. -/
def uniqueProportion (column : ρ → Option Value) : ℚ :=
  (f.values column).dedup.card / (f.values column).card

end Evaluate

/-! ## Expectations -/

/-- The expectations that the suites use. -/
inductive Expectation where
  | tableRowCountToBeBetween (minValue maxValue : Option Nat)
  | tableColumnsToMatchOrderedList (columnList : List String)
  | columnValues (column : String) (condition : Condition) (mostly : ℚ)
  | columnMaxToBeBetween (column : String) (minValue maxValue : Option Value)
  | columnProportionOfUniqueValuesToBeBetween (column : String) (minValue maxValue : Option ℚ)
  | columnPairValuesAToBeGreaterThanB (columnA columnB : String) (orEqual : Bool) (mostly : ℚ)
  | compoundColumnsToBeUnique (columnList : List String)

namespace Expectation

/-- `expectation_type`. -/
def expectationType : Expectation → String
  | .tableRowCountToBeBetween .. => "expect_table_row_count_to_be_between"
  | .tableColumnsToMatchOrderedList .. => "expect_table_columns_to_match_ordered_list"
  | .columnValues _ .notBeNull _ => "expect_column_values_to_not_be_null"
  | .columnValues _ .beUnique _ => "expect_column_values_to_be_unique"
  | .columnValues _ (.matchRegex _) _ => "expect_column_values_to_match_regex"
  | .columnValues _ (.beInSet _) _ => "expect_column_values_to_be_in_set"
  | .columnValues _ (.beBetween ..) _ => "expect_column_values_to_be_between"
  | .columnValues _ (.valueLengthsBeBetween ..) _ => "expect_column_value_lengths_to_be_between"
  | .columnMaxToBeBetween .. => "expect_column_max_to_be_between"
  | .columnProportionOfUniqueValuesToBeBetween .. =>
    "expect_column_proportion_of_unique_values_to_be_between"
  | .columnPairValuesAToBeGreaterThanB .. => "expect_column_pair_values_a_to_be_greater_than_b"
  | .compoundColumnsToBeUnique .. => "expect_compound_columns_to_be_unique"

/-- The `column` among the arguments. -/
def column : Expectation → Option String
  | .columnValues column .. => some column
  | .columnMaxToBeBetween column .. => some column
  | .columnProportionOfUniqueValuesToBeBetween column .. => some column
  | _ => none

/-- Whether the expectation succeeds on a table. -/
def success {ρ : Type} (f : Frame ρ) : Expectation → Bool
  | .tableRowCountToBeBetween minValue maxValue =>
    minValue.all (decide <| · ≤ f.rows.card) && maxValue.all (decide <| f.rows.card ≤ ·)
  | .tableColumnsToMatchOrderedList columnList => decide (f.columns.map Prod.fst = columnList)
  | .columnValues column condition mostly =>
    (f.column column).any fun column => (evaluateColumn f column condition).success mostly
  | .columnMaxToBeBetween column minValue maxValue =>
    (f.column column).any fun column => maxWithin f column minValue maxValue
  | .columnProportionOfUniqueValuesToBeBetween column minValue maxValue =>
    (f.column column).any fun column =>
      minValue.all (decide <| · ≤ uniqueProportion f column) &&
        maxValue.all (decide <| uniqueProportion f column ≤ ·)
  | .columnPairValuesAToBeGreaterThanB columnA columnB orEqual mostly =>
    (f.column columnA).any fun columnA => (f.column columnB).any fun columnB =>
      (evaluatePair f columnA columnB orEqual).success mostly
  | .compoundColumnsToBeUnique columnList =>
    (columnList.mapM f.column).any fun columns => (evaluateCompound f columns).success 1

end Expectation

/-! ## Suites -/

/-- An expectation suite. -/
structure Suite where
  expectationSuiteName : String
  expectations : List Expectation

/-- The validation of a suite on its table. -/
def Suite.validate {ρ : Type} (suite : Suite) (f : Frame ρ) : ValidationResult :=
  let results := suite.expectations.map fun e =>
    ({ success := e.success f, expectationType := e.expectationType, column := e.column } :
      ExpectationResult)
  { suiteName := suite.expectationSuiteName
    success := results.all (·.success)
    evaluatedExpectations := some results.length
    successfulExpectations := some (results.countP (·.success))
    results := results }

/-- `run_checkpoint`: it succeeds when all its validations do. -/
def CheckpointResult.ofValidations (runResults : List ValidationResult) : CheckpointResult where
  success := runResults.all (·.success)
  runResults := runResults

end Lakehouse.Quality
