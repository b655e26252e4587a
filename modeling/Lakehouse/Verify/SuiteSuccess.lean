import Lakehouse.Quality.Suites

/-!
# When a suite succeeds

A suite succeeds when each of its expectations does (`validate_success`), and an expectation does
when every row is as asked: the rules of this module, one for each kind, turn it into a property of
the rows of the table.
-/

namespace Lakehouse.Verify

open Lib Quality

variable {ρ : Type} {f : Frame ρ} {name : String} {column : ρ → Option Value} {mostly : ℚ}

/-- A suite succeeds when all its expectations do. -/
theorem validate_success {suite : Suite} :
    (suite.validate f).success = true ↔ ∀ e ∈ suite.expectations, e.success f = true := by
  simp only [Suite.validate, List.all_map, List.all_eq_true, Function.comp_apply]

theorem ofValidations_success {runResults : List ValidationResult} :
    (CheckpointResult.ofValidations runResults).success = true ↔
      ∀ r ∈ runResults, r.success = true := List.all_eq_true

/-! ## Columns -/

/-- Nothing unexpected is enough, whatever the share that is asked for. -/
theorem success_of_none_unexpected {e : Evaluation} (h : e.unexpected = 0) (hmostly : mostly ≤ 1) :
    e.success mostly = true := by
  have hcount : (0 : ℚ) ≤ e.considered := Nat.cast_nonneg _
  refine decide_eq_true (.inr ?_)
  rw [h, Nat.cast_zero, sub_zero]
  exact mul_le_of_le_one_left hcount hmostly

theorem mem_values {v : Value} : v ∈ f.values column ↔ ∃ r ∈ f.rows, column r = some v :=
  Multiset.mem_filterMap _ _

/-- An expectation on the values of a column succeeds when it holds of each of them. -/
theorem columnValues_success {condition : Condition} (hcolumn : f.column name = some column)
    (hmostly : mostly ≤ 1) (hnull : condition = .notBeNull → ∀ r ∈ f.rows, (column r).isSome = true)
    (hvalues : ∀ v ∈ f.values column, condition.admits (f.values column) v = true) :
    (Expectation.columnValues name condition mostly).success f = true := by
  have hnone : (evaluateColumn f column condition).unexpected = 0 := by
    cases condition with
    | notBeNull =>
      refine Multiset.card_eq_zero.2 (Multiset.filter_eq_nil.2 fun r hr hnone => ?_)
      have hsome := hnull rfl r hr
      rw [hnone] at hsome
      cases hsome
    | beUnique | matchRegex | beInSet | beBetween | valueLengthsBeBetween =>
      refine Multiset.card_eq_zero.2 (Multiset.filter_eq_nil.2 fun v hv hfails => ?_)
      exact absurd ((hvalues v hv).symm.trans hfails) (by decide)
  simp only [Expectation.success, hcolumn, Option.any_some]
  exact success_of_none_unexpected hnone hmostly

theorem notBeNull_success (hcolumn : f.column name = some column) (hmostly : mostly ≤ 1)
    (h : ∀ r ∈ f.rows, (column r).isSome = true) :
    (Expectation.columnValues name .notBeNull mostly).success f = true :=
  columnValues_success hcolumn hmostly (fun _ => h) fun _ _ => rfl

theorem beUnique_success (hcolumn : f.column name = some column) (hmostly : mostly ≤ 1)
    (h : (f.values column).Nodup) :
    (Expectation.columnValues name .beUnique mostly).success f = true :=
  columnValues_success hcolumn hmostly (by simp) fun _ hv =>
    decide_eq_true (Multiset.count_eq_one_of_mem h hv)

theorem matchRegex_success {regex : Pattern} (hcolumn : f.column name = some column)
    (hmostly : mostly ≤ 1)
    (h : ∀ r ∈ f.rows, ∀ v ∈ column r, ∃ s, v = .text s ∧ regex.accepts s.toList = true) :
    (Expectation.columnValues name (.matchRegex regex) mostly).success f = true := by
  refine columnValues_success hcolumn hmostly (by simp) fun v hv => ?_
  obtain ⟨r, hr, hvalue⟩ := mem_values.1 hv
  obtain ⟨s, rfl, hs⟩ := h r hr v hvalue
  exact hs

theorem beInSet_success {valueSet : List Value} (hcolumn : f.column name = some column)
    (hmostly : mostly ≤ 1) (h : ∀ r ∈ f.rows, ∀ v ∈ column r, v ∈ valueSet) :
    (Expectation.columnValues name (.beInSet valueSet) mostly).success f = true := by
  refine columnValues_success hcolumn hmostly (by simp) fun v hv => ?_
  obtain ⟨r, hr, hvalue⟩ := mem_values.1 hv
  exact decide_eq_true (h r hr v hvalue)

theorem beBetween_success {minValue maxValue : Option Value}
    (hcolumn : f.column name = some column) (hmostly : mostly ≤ 1)
    (h : ∀ r ∈ f.rows, ∀ v ∈ column r, v.within minValue maxValue = true) :
    (Expectation.columnValues name (.beBetween minValue maxValue) mostly).success f = true := by
  refine columnValues_success hcolumn hmostly (by simp) fun v hv => ?_
  obtain ⟨r, hr, hvalue⟩ := mem_values.1 hv
  exact h r hr v hvalue

theorem valueLengths_success {minValue maxValue : Option Nat}
    (hcolumn : f.column name = some column) (hmostly : mostly ≤ 1)
    (h : ∀ r ∈ f.rows, ∀ v ∈ column r, ∃ s, v = .text s ∧ (∀ n ∈ minValue, n ≤ s.length) ∧
      ∀ n ∈ maxValue, s.length ≤ n) :
    (Expectation.columnValues name (.valueLengthsBeBetween minValue maxValue) mostly).success f =
      true := by
  refine columnValues_success hcolumn hmostly (by simp) fun v hv => ?_
  obtain ⟨r, hr, hvalue⟩ := mem_values.1 hv
  obtain ⟨s, rfl, hmin, hmax⟩ := h r hr v hvalue
  simp only [Condition.admits, Bool.and_eq_true, Option.all_eq_true, decide_eq_true_eq]
  exact ⟨fun n hn => hmin n hn, fun n hn => hmax n hn⟩

/-! ## Numbers -/

theorem amount_within {p : Nat} {d : Dec p} (h : 0 ≤ d.val) :
    (Value.number (d.val / 100)).within (some (.number 0)) none = true := by
  have hcast : (0 : ℚ) ≤ d.val := Int.cast_nonneg h
  rw [Value.within, Option.all_some, Option.all_none, Bool.and_true]
  exact decide_eq_true (by positivity)

section Numbers

variable {r : ρ}

/-- The amount is there and not negative. -/
def AmountFits (column : ρ → Option (Dec 18)) (r : ρ) : Prop :=
  (amount column r).isSome = true ∧
    ∀ v ∈ amount column r, v.within (some (.number 0)) none = true

theorem amountFits_of_some {column : ρ → Option (Dec 18)} {d : Dec 18} (h : column r = some d)
    (hpos : 0 ≤ d.val) : AmountFits column r := by
  rw [AmountFits, amount, h]
  refine ⟨rfl, fun v hv => ?_⟩
  obtain rfl := Option.some.inj hv
  exact amount_within hpos

theorem integer_column {column : ρ → Option Int} {n : Int} (h : column r = some n) (lo hi : Int)
    (hlo : lo ≤ n) (hhi : n ≤ hi) : ∀ v ∈ integer column r,
      v.within (some (.number lo)) none = true ∧
        v.within (some (.number lo)) (some (.number hi)) = true := by
  have hmin : (lo : ℚ) ≤ n := Int.cast_le.2 hlo
  have hmax : (n : ℚ) ≤ hi := Int.cast_le.2 hhi
  rw [integer, h]
  intro v hv
  obtain rfl := Option.some.inj hv
  exact ⟨Bool.and_eq_true_iff.2 ⟨decide_eq_true hmin, rfl⟩,
    Bool.and_eq_true_iff.2 ⟨decide_eq_true hmin, decide_eq_true hmax⟩⟩

theorem count_column (column : ρ → Nat) : ∀ v ∈ count column r,
    v.within (some (.number 0)) none = true := by
  intro v hv
  obtain rfl := Option.some.inj hv
  have hcast : (0 : ℚ) ≤ column r := Nat.cast_nonneg _
  exact Bool.and_eq_true_iff.2 ⟨decide_eq_true hcast, rfl⟩

end Numbers

/-! ## Tables -/

/-- There is at least one row. -/
theorem rowCount_success (h : f.rows ≠ 0) :
    (Expectation.tableRowCountToBeBetween (some 1) none).success f = true := by
  simp only [Expectation.success, Option.all_some, Option.all_none, Bool.and_true,
    decide_eq_true_eq]
  exact Multiset.card_pos.2 h

/-- An expectation on a pair of columns succeeds when it holds of every row. -/
theorem pair_success {nameA nameB : String} {columnA columnB : ρ → Option Value} {orEqual : Bool}
    (hA : f.column nameA = some columnA) (hB : f.column nameB = some columnB) (hmostly : mostly ≤ 1)
    (h : ∀ r ∈ f.rows, columnA r = none ∧ columnB r = none ∨
      pairAGreaterThanB orEqual (columnA r) (columnB r) = true) :
    (Expectation.columnPairValuesAToBeGreaterThanB nameA nameB orEqual mostly).success f = true := by
  have hnone : (evaluatePair f columnA columnB orEqual).unexpected = 0 := by
    refine Multiset.card_eq_zero.2 (Multiset.filter_eq_nil.2 fun r hr hfails => ?_)
    obtain ⟨hr, hpresent⟩ := Multiset.mem_filter.1 hr
    rcases h r hr with hmissing | hgreater
    · exact hpresent hmissing
    · exact absurd (hgreater.symm.trans hfails) (by decide)
  simp only [Expectation.success, hA, hB, Option.any_some]
  exact success_of_none_unexpected hnone hmostly

/-- The columns together are unique. -/
theorem compound_success {columnList : List String} {columns : List (ρ → Option Value)}
    (hcolumns : columnList.mapM f.column = some columns)
    (h : (f.rows.map fun r => columns.map (· r)).Nodup) :
    (Expectation.compoundColumnsToBeUnique columnList).success f = true := by
  have hnone : (evaluateCompound f columns).unexpected = 0 := by
    refine Multiset.card_eq_zero.2 (Multiset.filter_eq_nil.2 fun k hk hfails => hfails ?_)
    exact Multiset.count_eq_one_of_mem (h.filter _) hk
  simp only [Expectation.success, hcolumns, Option.any_some]
  exact success_of_none_unexpected hnone le_rfl

/-- The largest value is not below any value of the column. -/
theorem columnMax_success {wrap : Int → Value}
    (hle : ∀ t u, (wrap t).le (wrap u) = decide (t ≤ u)) {key : ρ → Option Int}
    (hcolumn : f.column name = some fun r => (key r).map wrap) {minValue : Int}
    (h : ∃ r ∈ f.rows, ∃ t ∈ key r, minValue ≤ t) :
    (Expectation.columnMaxToBeBetween name (some (wrap minValue)) none).success f = true := by
  obtain ⟨r, hr, t, ht, hmin⟩ := h
  have hvalue : ∀ {v}, v ∈ f.values (fun r => (key r).map wrap) ↔
      ∃ t ∈ f.rows.filterMap key, wrap t = v := by
    intro v
    simp only [mem_values, Multiset.mem_filterMap, Option.map_eq_some_iff]
    constructor
    · rintro ⟨r, hr, t, ht, rfl⟩
      exact ⟨t, ⟨r, hr, ht⟩, rfl⟩
    · rintro ⟨t, ⟨r, hr, ht⟩, rfl⟩
      exact ⟨r, hr, t, ht, rfl⟩
  have hmem : t ∈ (f.rows.filterMap key).toFinset :=
    Multiset.mem_toFinset.2 ((Multiset.mem_filterMap _ _).2 ⟨r, hr, ht⟩)
  obtain ⟨top, htop, hmax⟩ := Finset.exists_max_image _ id ⟨t, hmem⟩
  simp only [Expectation.success, hcolumn, Option.any_some]
  refine decide_eq_true (Multiset.card_pos_iff_exists_mem.2 ⟨wrap top, ?_⟩)
  simp only [largest, Multiset.mem_filter, hvalue]
  refine ⟨⟨⟨top, Multiset.mem_toFinset.1 htop, rfl⟩, ?_⟩, ?_⟩
  · rintro u ⟨t', ht', rfl⟩
    rw [hle]
    exact decide_eq_true (hmax t' (Multiset.mem_toFinset.2 ht'))
  · rw [Value.within, Option.all_some, Option.all_none, Bool.and_true, hle]
    exact decide_eq_true (hmin.trans (hmax t hmem))

/-- All values are unique, and there are some. -/
theorem uniqueProportion_success (hcolumn : f.column name = some column)
    (h : (f.values column).Nodup) (hne : f.values column ≠ 0) :
    (Expectation.columnProportionOfUniqueValuesToBeBetween name (some 1) (some 1)).success f =
      true := by
  have hcard : ((f.values column).card : ℚ) ≠ 0 :=
    Nat.cast_ne_zero.2 (Multiset.card_eq_zero.not.2 hne)
  have hone : uniqueProportion f column = 1 := by
    rw [uniqueProportion, Multiset.dedup_eq_self.2 h, div_self hcard]
  simp only [Expectation.success, hcolumn, Option.any_some, Option.all_some, hone, le_refl,
    decide_true, Bool.and_self]

/-! ## Keys -/

/-- Texts are as many values as they are texts. -/
theorem values_text_nodup {key : ρ → Option String} (h : (f.rows.map key).Nodup) :
    (f.values (text key)).Nodup := by
  have hvalues : f.values (text key) = (f.rows.map key).filterMap (Option.map Value.text) := by
    rw [Multiset.filterMap_map]
    rfl
  rw [hvalues]
  refine Multiset.Nodup.filterMap _ (fun x y v hx hy => ?_) h
  obtain ⟨s, rfl, rfl⟩ := Option.map_eq_some_iff.1 hx
  obtain ⟨s', rfl, hs⟩ := Option.map_eq_some_iff.1 hy
  rw [Value.text.inj hs]

end Lakehouse.Verify
