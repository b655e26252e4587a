import Lakehouse.Verify.SourceRows
import Lakehouse.Verify.SuiteSuccess

/-!
# Bronze suites

The suites of the CDC tables succeed on rows that present a history without deletes, published in
the time the suites accept; the suite of `raw.kafka_events` on whole records of the topic. Both ask
for identifiers that are distinct and have the form of a UUID.
-/

namespace Lakehouse.Verify

open Lib Source Batch

/-- Identifiers as `uuid()` makes them. -/
structure UuidsFit {ρ : Type} (id : ρ → String) (rows : Multiset ρ) : Prop where
  nodup : (rows.map id).Nodup
  regex : ∀ r ∈ rows, Quality.uuidRegex.accepts (id r).toList = true

theorem UuidsFit.nodup_some {ρ : Type} {id : ρ → String} {rows : Multiset ρ}
    (h : UuidsFit id rows) : (rows.map fun r => some (id r)).Nodup := by
  have hnodup := h.nodup.map (Option.some_injective String)
  rwa [Multiset.map_map] at hnodup

section Cdc

variable {α ρ : Type} {T : Captured α ρ} {history : List (ChangeEvent α)} {rows : Multiset CdcRow}

/-- The expectations that the CDC suites share hold of what a history presents. -/
theorem cdcExpectations_success (h : T.Presents history rows) (hne : history ≠ [])
    (hafter : ∀ e ∈ history, e.change.after.isSome = true)
    (htimes : ∀ e ∈ history, 1000000000000 ≤ e.tsMs.toInt) (hids : UuidsFit CdcRow.cdcId rows) :
    ∀ e ∈ Quality.cdcExpectations, e.success (Quality.cdcFrame rows) = true := by
  have hrows : rows ≠ 0 := by
    obtain ⟨e, he⟩ := List.exists_mem_of_ne_nil _ hne
    obtain ⟨now, cdcId, hmem⟩ := h.complete e he
    rintro rfl
    exact Multiset.notMem_zero _ hmem
  have hall : ∀ {P : CdcRow → Prop}, (∀ e ∈ history, ∀ now cdcId,
      P (cdcRow T.table T.fields now cdcId e)) → ∀ r ∈ rows, P r := by
    intro P hP r hr
    obtain ⟨now, cdcId, e, he, rfl⟩ := h.sound r hr
    exact hP e he now cdcId
  simp only [Quality.cdcExpectations, List.forall_mem_cons]
  refine ⟨rowCount_success hrows, rfl,
    notBeNull_success rfl le_rfl fun _ _ => rfl,
    beUnique_success rfl le_rfl (values_text_nodup hids.nodup_some),
    matchRegex_success rfl le_rfl fun r hr v hv => ?_,
    notBeNull_success rfl le_rfl (hall fun _ _ _ _ => rfl),
    beInSet_success rfl le_rfl (hall fun e he _ _ v hv => ?_),
    notBeNull_success rfl le_rfl (hall fun _ _ _ _ => rfl),
    beBetween_success rfl le_rfl (hall fun e he _ _ v hv => ?_),
    notBeNull_success rfl le_rfl (hall fun _ _ _ _ => rfl),
    notBeNull_success rfl le_rfl (hall fun _ _ _ _ => rfl),
    notBeNull_success rfl (by norm_num) (hall fun e he _ _ => ?_),
    notBeNull_success rfl le_rfl fun _ _ => rfl, List.forall_mem_nil _⟩
  · obtain rfl := Option.some.inj hv
    exact ⟨_, rfl, hids.regex r hr⟩
  · obtain rfl := Option.some.inj hv
    cases e.change <;> simp [Change.op]
  · obtain rfl := Option.some.inj hv
    have hle : (1000000000000 : ℚ) ≤ e.tsMs.toInt := by exact_mod_cast htimes e he
    exact Bool.and_eq_true_iff.2 ⟨decide_eq_true hle, rfl⟩
  · obtain ⟨a, ha⟩ := Option.isSome_iff_exists.1 (hafter e he)
    change ((imageText T.fields e.change.after).map Quality.Value.text).isSome = true
    rw [ha]
    rfl

/-- So does the suite of the orders, with its own expectation on the ids. -/
theorem bronzeCdcOrders_success (h : ∀ e ∈ Quality.cdcExpectations,
    e.success (Quality.cdcFrame rows) = true) (hrows : rows ≠ 0)
    (hids : UuidsFit CdcRow.cdcId rows) :
    (Quality.bronzeCdcOrders.validate (Quality.cdcFrame rows)).success = true := by
  rw [validate_success]
  intro e he
  rcases List.mem_append.1 he with he | he
  · exact h e he
  · obtain rfl := List.mem_singleton.1 he
    refine uniqueProportion_success rfl (values_text_nodup hids.nodup_some) fun hnone => ?_
    obtain ⟨r, hr⟩ := Multiset.exists_mem_of_ne_zero hrows
    exact Multiset.eq_zero_iff_forall_notMem.1 hnone (.text r.cdcId) (mem_values.2 ⟨r, hr, rfl⟩)

end Cdc

/-! ## Events -/

/-- A row of a record of `raw.events` that was published in the time the suites accept. -/
structure EventFits (r : EventRow) : Prop where
  topic : r.topic = rawEventsTopic
  eventTs : Quality.firstDate * microsPerDay ≤ r.eventTs
  payload : ∃ payload, r.payload = some payload ∧ 2 ≤ payload.length

theorem rawEventsTopic_fits : Quality.topicRegex.accepts rawEventsTopic.toList = true := by
  rw [← List.append_nil rawEventsTopic.toList]
  refine Pattern.accepts_oneOrMore ?_ ?_ rfl
  · simp [rawEventsTopic]
  · simp [rawEventsTopic, CharClass.has, CharClass.oneOf]

/-- The suite of `raw.kafka_events` holds once it has rows that fit. -/
theorem bronzeKafkaEvents_success {rows : Multiset EventRow} (hne : rows ≠ 0)
    (hfits : ∀ r ∈ rows, EventFits r) (hids : UuidsFit EventRow.eventId rows) :
    (Quality.bronzeKafkaEvents.validate (Quality.kafkaEventsFrame rows)).success = true := by
  have hpayload : ∀ r ∈ rows, (Quality.text EventRow.payload r).isSome = true ∧
      ∀ v ∈ Quality.text EventRow.payload r, ∃ s, v = .text s ∧ (∀ n ∈ some 2, n ≤ s.length) ∧
        ∀ n ∈ (none : Option Nat), s.length ≤ n := by
    intro r hr
    obtain ⟨payload, hpayload, hlen⟩ := (hfits r hr).payload
    rw [Quality.text, hpayload]
    refine ⟨rfl, fun v hv => ?_⟩
    obtain rfl := Option.some.inj hv
    exact ⟨payload, rfl, fun n hn => Option.some.inj hn ▸ hlen, fun n hn =>
      absurd hn (Option.not_mem_none n)⟩
  rw [validate_success]
  simp only [Quality.bronzeKafkaEvents, List.forall_mem_cons]
  refine ⟨rowCount_success hne, rfl,
    notBeNull_success rfl le_rfl fun _ _ => rfl,
    beUnique_success rfl le_rfl (values_text_nodup hids.nodup_some),
    matchRegex_success rfl le_rfl fun r hr v hv => ?_,
    notBeNull_success rfl le_rfl fun _ _ => rfl,
    matchRegex_success rfl le_rfl fun r hr v hv => ?_,
    notBeNull_success rfl le_rfl fun _ _ => rfl,
    beBetween_success rfl le_rfl fun _ _ => count_column _,
    notBeNull_success rfl le_rfl fun _ _ => rfl,
    beBetween_success rfl le_rfl fun _ _ => count_column _,
    notBeNull_success rfl le_rfl fun _ _ => rfl,
    columnMax_success (fun _ _ => rfl) rfl ?_,
    notBeNull_success rfl le_rfl fun _ _ => rfl,
    notBeNull_success rfl le_rfl fun r hr => (hpayload r hr).1,
    valueLengths_success rfl le_rfl fun r hr => (hpayload r hr).2, List.forall_mem_nil _⟩
  · obtain rfl := Option.some.inj hv
    exact ⟨_, rfl, hids.regex r hr⟩
  · obtain rfl := Option.some.inj hv
    exact ⟨_, rfl, (hfits r hr).topic ▸ rawEventsTopic_fits⟩
  · obtain ⟨r, hr⟩ := Multiset.exists_mem_of_ne_zero hne
    exact ⟨r, hr, r.eventTs, rfl, (hfits r hr).eventTs⟩

end Lakehouse.Verify
