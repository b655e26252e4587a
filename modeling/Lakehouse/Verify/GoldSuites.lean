import Lakehouse.Verify.SilverSuites

/-!
# Gold suites

The two suites of Gold succeed on tables that show the source, built on a day after its last order
and within a hundred years of the first date the suites accept.
-/

namespace Lakehouse.Verify

open Lib Source Batch Demo

theorem roundDiv_nonneg {n : Int} (h : 0 ≤ n) (d : Nat) : 0 ≤ roundDiv n d :=
  mul_nonneg (Int.sign_nonneg_iff.2 h) (Int.natCast_nonneg _)

theorem dateOf_mono {t u : Int} (h : t ≤ u) : dateOf t ≤ dateOf u :=
  Int.ediv_le_ediv (by decide) h

theorem firstDate_le {t : Int} (h : dataStart ≤ t) : Quality.firstDate ≤ dateOf t := by
  have hstart : dateOf dataStart = Quality.firstDate :=
    Int.mul_ediv_cancel _ (by decide)
  exact hstart ▸ dateOf_mono h

theorem usd_fits : (Quality.upperRegex 3).accepts "USD".toList = true := by
  simp [Quality.upperRegex, Pattern.accepts, CharClass.has, CharClass.oneOf]

section Suites

variable {t : Int} {db : Database} (hfit : RowsFit t db) (hsound : Sound db)
  (hadmitted : ∀ i ∈ db.items, Admitted i) (hfits : OrdersFit db)

include hsound hadmitted in
/-- What some orders come to is not negative. -/
theorem cents_nonneg_of_le {os : Multiset OrderRow} (h : os ≤ (db.orders : Multiset OrderRow)) :
    0 ≤ cents os := by
  refine Multiset.sum_nonneg fun n hn => ?_
  obtain ⟨o, ho, rfl⟩ := Multiset.mem_map.1 hn
  exact totalAmount_nonneg hsound hadmitted o (Multiset.mem_coe.1 (Multiset.mem_of_le h ho))

include hfit in
/-- The completed order of the sample data is a revenue order. -/
theorem exists_placedOn : ∃ day, placedOn db day ≠ 0 := by
  obtain ⟨o, ho, hcompleted⟩ := hfit.completed
  have hrevenue : o ∈ revenueRows db :=
    mem_revenueRows.2 ⟨ho, by simp [hcompleted, revenueStatuses]⟩
  exact ⟨dateOf o.createdAt, placedOn_ne_zero hrevenue⟩

include hfit in
/-- Rows that show the source have one in the time of the suites. -/
theorem ShowsRevenue.recent {rows : Multiset DailyRevenue} (h : ShowsRevenue rows db) :
    ∃ r ∈ rows, ∃ day, r.reportDate = some day ∧ Quality.firstDate ≤ day := by
  obtain ⟨first, hfirst⟩ := exists_placedOn hfit
  obtain ⟨r, hr, hday⟩ := Multiset.mem_map.1 ((h.days first).2 hfirst)
  obtain ⟨o, ho⟩ := Multiset.exists_mem_of_ne_zero hfirst
  obtain ⟨-, hdate⟩ := Multiset.mem_filter.1 ho
  have hmem := Multiset.mem_coe.1 (Multiset.mem_of_le (placedOn_le db first) ho)
  exact ⟨r, hr, first, hday, hdate ▸ firstDate_le (hfit.orders o hmem).1⟩

/-- A row that the suite of `daily_revenue` accepts. -/
structure DailyFits (r : DailyRevenue) : Prop where
  dated : r.reportDate.isSome = true
  currency : r.currency = some "USD"
  itemCount : 0 ≤ r.itemCount
  revenue : ∃ d : Dec 18, 0 ≤ d.val ∧ r.grossRevenue = some d ∧ r.netRevenue = some d
  avgOrderValue : ∃ d : Dec 18, 0 ≤ d.val ∧ r.avgOrderValue = some d

/-- The row of a day whose orders fit. -/
theorem RevenueOf.dailyFits {day : Int} {r : DailyRevenue} (h : RevenueOf db day r)
    (hday : r.reportDate = some day) (hpos : 0 ≤ cents (placedOn db day))
    (hcents : (cents (placedOn db day)).natAbs < 10 ^ 18)
    (hfew : (placedOn db day).card < 10 ^ 10) : DailyFits r := by
  obtain ⟨hgross, hnet, havg⟩ := h.amounts hcents hfew
  obtain ⟨gross, hgross, hgrossVal⟩ := Option.map_eq_some_iff.1 hgross
  obtain ⟨avg, havg, havgVal⟩ := Option.map_eq_some_iff.1 havg
  refine ⟨Option.isSome_of_eq_some hday, h.currency, ?_,
    ⟨gross, hgrossVal ▸ hpos, hgross, hnet.trans hgross⟩,
    ⟨avg, havgVal ▸ roundDiv_nonneg hpos _, havg⟩⟩
  rw [h.itemCount]
  refine Multiset.sum_nonneg fun n hn => ?_
  obtain ⟨o, -, rfl⟩ := Multiset.mem_map.1 hn
  exact Int.natCast_nonneg _

/-- The suite succeeds on rows that fit, one for a date and one of them in the time of the suites.
-/
theorem goldDailyRevenue_success_of_fits {rows : Multiset DailyRevenue}
    (hrows : ∀ r ∈ rows, DailyFits r) (hnodup : (rows.map DailyRevenue.reportDate).Nodup)
    (hrecent : ∃ r ∈ rows, ∃ day, r.reportDate = some day ∧ Quality.firstDate ≤ day) :
    (Quality.goldDailyRevenue.validate (Quality.dailyRevenueFrame rows)).success = true := by
  obtain ⟨recent, hmem, first, hfirst, hstart⟩ := hrecent
  have hne : rows ≠ 0 := by
    rintro rfl
    exact Multiset.notMem_zero _ hmem
  have hamounts : ∀ r ∈ rows, AmountFits DailyRevenue.grossRevenue r ∧
      AmountFits DailyRevenue.netRevenue r ∧ AmountFits DailyRevenue.avgOrderValue r := by
    intro r hr
    obtain ⟨gross, hgrossPos, hgross, hnet⟩ := (hrows r hr).revenue
    obtain ⟨avg, havgPos, havg⟩ := (hrows r hr).avgOrderValue
    exact ⟨amountFits_of_some hgross hgrossPos, amountFits_of_some hnet hgrossPos,
      amountFits_of_some havg havgPos⟩
  have hgrain : (rows.map fun r =>
      [Quality.date DailyRevenue.reportDate r, Quality.text DailyRevenue.currency r]).Nodup := by
    refine hnodup.of_map.map_on fun r hr r' hr' heq => ?_
    refine Multiset.inj_on_of_nodup_map hnodup r hr r' hr' ?_
    exact Option.map_injective (fun _ _ h => Quality.Value.date.inj h) (List.cons.inj heq).1
  rw [validate_success]
  simp only [Quality.goldDailyRevenue, List.forall_mem_cons]
  refine ⟨rowCount_success hne, rfl,
    notBeNull_success rfl le_rfl fun r hr => ?_,
    columnMax_success (fun _ _ => rfl) rfl ⟨recent, hmem, first, hfirst, hstart⟩,
    notBeNull_success rfl le_rfl fun r hr => ?_,
    matchRegex_success rfl le_rfl fun r hr v hv => ?_,
    compound_success rfl hgrain,
    notBeNull_success rfl le_rfl fun _ _ => rfl,
    beBetween_success rfl le_rfl fun _ _ => count_column _,
    beBetween_success rfl le_rfl fun r hr v hv => ?_,
    notBeNull_success rfl le_rfl fun r hr => (hamounts r hr).1.1,
    beBetween_success rfl le_rfl fun r hr => (hamounts r hr).1.2,
    notBeNull_success rfl le_rfl fun r hr => (hamounts r hr).2.1.1,
    beBetween_success rfl le_rfl fun r hr => (hamounts r hr).2.1.2,
    pair_success rfl rfl (by norm_num) fun r hr => ?_,
    beBetween_success rfl le_rfl fun r hr => (hamounts r hr).2.2.2,
    beBetween_success rfl le_rfl fun _ _ => count_column _,
    notBeNull_success rfl le_rfl fun _ _ => rfl, List.forall_mem_nil _⟩
  · exact (Option.isSome_map ..).trans (hrows r hr).dated
  · exact (Option.isSome_map ..).trans (Option.isSome_of_eq_some (hrows r hr).currency)
  · obtain ⟨s, hs, rfl⟩ := Option.map_eq_some_iff.1 hv
    obtain rfl := Option.some.inj ((hrows r hr).currency.symm.trans hs)
    exact ⟨_, rfl, usd_fits⟩
  · exact_mod_cast (integer_column rfl 0 r.itemCount (hrows r hr).itemCount le_rfl v hv).1
  · obtain ⟨d, -, hgross, hnet⟩ := (hrows r hr).revenue
    right
    rw [Quality.amount, Quality.amount, hgross, hnet]
    have hle : ∀ q : ℚ, (Quality.Value.number q).le (.number q) = true := fun _ =>
      decide_eq_true le_rfl
    exact Bool.and_eq_true_iff.2 ⟨hle _, rfl⟩

include hfit hsound hadmitted hfits in
/-- The suite of `daily_revenue` holds of rows that show a source. -/
theorem goldDailyRevenue_success {rows : Multiset DailyRevenue} (h : ShowsRevenue rows db) :
    (Quality.goldDailyRevenue.validate (Quality.dailyRevenueFrame rows)).success = true := by
  refine goldDailyRevenue_success_of_fits (fun r hr => ?_) h.nodup (h.recent hfit)
  obtain ⟨day, hday, hof⟩ := h.figures r hr
  obtain ⟨hcents, hfew⟩ := hfits.subset hsound hadmitted (placedOn_le db day)
  exact hof.dailyFits hday (cents_nonneg_of_le hsound hadmitted (placedOn_le db day)) hcents hfew

/-- What the suite of `customer_metrics` asks of the day of the build. -/
structure BuiltOn (t today : Int) : Prop where
  after : dateOf t ≤ today
  before : today ≤ Quality.firstDate + 36500

include hfit hsound hadmitted hfits in
/-- So does the suite of `customer_metrics`. -/
theorem goldCustomerMetrics_success {rows : Multiset CustomerMetrics} {today : Int}
    (h : ShowsMetrics rows db db today) (hbuilt : BuiltOn t today)
    (hids : (db.customers.map CustomerRow.customerId).Nodup)
    (hcodes : ∀ m ∈ rows, m.countryCode = none ∧ m.segment = none) :
    (Quality.goldCustomerMetrics.validate (Quality.customerMetricsFrame rows)).success = true := by
  have hne : rows ≠ 0 := by
    rintro rfl
    have hcustomers := h.customers.symm
    rw [Multiset.map_zero, Multiset.map_eq_zero, Multiset.coe_eq_zero] at hcustomers
    exact customers_ne_nil hfit hsound hcustomers
  have hkeys : (rows.map CustomerMetrics.customerId).Nodup := by
    rw [h.customers, Multiset.map_coe, Multiset.coe_nodup]
    have hnodup := hids.map fun _ _ h => repr_int64_inj.1 (Option.some.inj h)
    rwa [List.map_map] at hnodup
  have hamounts : ∀ m ∈ rows, 0 ≤ m.totalRevenue.val ∧ 0 ≤ m.avgOrderValue.val := by
    intro m hm
    obtain ⟨c, -, -, hof⟩ := h.figures m hm
    obtain ⟨hcents, hfew⟩ := hfits.subset hsound hadmitted (placed_le db c.customerId)
    obtain ⟨htotal, havg⟩ := hof.amounts hcents hfew
    have hpos := cents_nonneg_of_le hsound hadmitted (placed_le db c.customerId)
    exact ⟨htotal ▸ hpos, havg ▸ roundDiv_nonneg hpos _⟩
  have hdates : ∀ m ∈ rows, m.firstOrderDate = none ∧ m.lastOrderDate = none ∨
      ∃ first last, m.firstOrderDate = some first ∧ m.lastOrderDate = some last ∧ first ≤ last ∧
        Quality.firstDate ≤ last ∧ last ≤ dateOf t := by
    intro m hm
    obtain ⟨c, -, -, hof⟩ := h.figures m hm
    rw [hof.firstOrderDate, hof.lastOrderDate]
    rcases Multiset.empty_or_exists_mem (placed db c.customerId) with hnone | ⟨o, ho⟩
    · rw [hnone]
      exact .inl ⟨rfl, rfl⟩
    · obtain ⟨first, last, hfirst, hlast, hle, hmem⟩ := exists_min_max
        (Multiset.mem_map_of_mem (fun o : OrderRow => some (dateOf o.createdAt)) ho) rfl
      obtain ⟨o', ho', hdate⟩ := Multiset.mem_map.1 hmem
      obtain rfl := Option.some.inj hdate
      have hdated := hfit.orders o' (Multiset.mem_coe.1 (Multiset.mem_of_le (placed_le db _) ho'))
      exact .inr ⟨first, _, hfirst, hlast, hle, firstDate_le hdated.1,
        dateOf_mono (hdated.2.1.trans hdated.2.2)⟩
  rw [validate_success]
  simp only [Quality.goldCustomerMetrics, List.forall_mem_cons]
  refine ⟨rowCount_success hne, rfl,
    notBeNull_success rfl le_rfl fun m hm => ?_,
    beUnique_success rfl le_rfl (values_text_nodup hkeys),
    matchRegex_success rfl (by norm_num) fun m hm v hv => ?_,
    beInSet_success rfl (by norm_num) fun m hm v hv => ?_,
    pair_success rfl rfl (by norm_num) fun m hm => ?_,
    notBeNull_success rfl le_rfl fun _ _ => rfl,
    beBetween_success rfl le_rfl fun _ _ => count_column _,
    notBeNull_success rfl le_rfl fun _ _ => rfl,
    beBetween_success rfl le_rfl fun m hm => (amountFits_of_some rfl (hamounts m hm).1).2,
    beBetween_success rfl le_rfl fun m hm => (amountFits_of_some rfl (hamounts m hm).2).2,
    beBetween_success rfl le_rfl fun m hm v hv => ?_,
    beInSet_success rfl le_rfl fun m _ v hv => ?_,
    notBeNull_success rfl le_rfl fun _ _ => rfl, List.forall_mem_nil _⟩
  · obtain ⟨c, -, hid, -⟩ := h.figures m hm
    exact (Option.isSome_map ..).trans (Option.isSome_of_eq_some hid)
  · rw [Quality.text, (hcodes m hm).1] at hv
    exact absurd hv (Option.not_mem_none v)
  · rw [Quality.text, (hcodes m hm).2] at hv
    exact absurd hv (Option.not_mem_none v)
  · rcases hdates m hm with ⟨hfirst, hlast⟩ | ⟨first, last, hfirst, hlast, hle, -⟩
    · left
      rw [Quality.date, Quality.date, hfirst, hlast]
      exact ⟨rfl, rfl⟩
    · right
      rw [Quality.date, Quality.date, hfirst, hlast]
      have hge : (Quality.Value.date first).le (.date last) = true := decide_eq_true hle
      exact Bool.and_eq_true_iff.2 ⟨hge, rfl⟩
  · obtain ⟨c, -, -, hof⟩ := h.figures m hm
    have hdays := hof.daysSinceLastOrder
    rcases hdates m hm with ⟨-, hlast⟩ | ⟨-, last, -, hlast, -, hmin, hmax⟩
    · rw [hlast] at hdays
      rw [Quality.integer, hdays] at hv
      exact absurd hv (Option.not_mem_none v)
    · replace hdays : m.daysSinceLastOrder = some (today - last) := by rw [hdays, hlast]; rfl
      have hafter := hbuilt.after
      have hbefore := hbuilt.before
      exact_mod_cast (integer_column hdays 0 36500 (by omega) (by omega) v hv).2
  · obtain rfl := Option.some.inj hv
    cases m.isChurned <;> simp

end Suites

end Lakehouse.Verify
