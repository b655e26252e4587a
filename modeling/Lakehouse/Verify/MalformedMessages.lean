import Lakehouse.Verify.Dedup

/-!
# Malformed messages

What arbitrary values on the orders topic do to one Bronze ingest and one run of `silver_orders`.
Nothing between the topic and the table checks a payload: a value without an op of an upsert is
dropped, and an upsert without its keys becomes a row like any other, on which the write fails
unless a newer row of its order is kept. The batch and the well-formed values alone give the same
tables exactly when every such row is superseded (`malformed_harmless_iff`).
-/

namespace Lakehouse.Verify

open Lib Source Batch

/-- The topic of the orders. -/
def ordersTopic : String := "debezium.public.orders"

/-- The row `silver_orders` selects from a text, where it does. -/
def selectedText (now : Int) (rawJson : String) : Option (Staged SilverOrder) :=
  let r := parseEnvelope "" now rawJson
  if IsUpsert r then some (selectOrder r) else none

/-- The rows that the messages of the topic come to, before they are deduplicated. -/
def orderChanges (now : Int) (values : List (Option String)) : List (Staged SilverOrder) :=
  values.filterMap fun value => (nonEmpty value).bind (selectedText now)

/-- An envelope with a known op, and with the keys of its row when it is an upsert. -/
def isWellFormed (value : Option String) : Bool :=
  (nonEmpty value).any fun rawJson =>
    let r := parseEnvelope "" 0 rawJson
    isIn r.op ["c", "u", "d", "r"] &&
      (!isIn r.op upsertOps || ordersSpec.required (selectOrder r).row)

/-- The topics with the well-formed values of the orders topic only. -/
def wellFormedOnly (topics : Topics) : Topics := fun topic =>
  if topic = ordersTopic then (topics topic).filter fun r => isWellFormed r.value else topics topic

/-- The results of `silver_orders` after one ingest into empty tables, for every presentation of the
rows: nothing where the write is rejected. -/
def silverResults (env : String → IngestEnv) (topics : Topics) (target : Table ordersSpec) :
    Set (Option (Table ordersSpec)) :=
  {t | ∃ raw : Presentation, raw.Of (bronzeIngest env topics Bronze.empty).1 ∧
    silverOrders (raw .cdcOrders) target = t}

/-- Every write succeeds, and the tables are those of the well-formed values alone. -/
structure Harmless (env : String → IngestEnv) (topics : Topics) (target : Table ordersSpec) :
    Prop where
  succeeds : ∀ t ∈ silverResults env topics target, t.isSome = true
  sameTables : silverResults env topics target = silverResults env (wellFormedOnly topics) target

/-- Every selected row without its keys has an `order_id`, and a row with its keys and a higher
`ts_ms` for it. -/
def Superseded (changes : List (Staged SilverOrder)) : Prop :=
  ∀ s ∈ changes, ordersSpec.required s.row = false → s.row.orderId.isSome = true ∧
    ∃ s' ∈ changes, ordersSpec.required s'.row = true ∧ s'.row.orderId = s.row.orderId ∧
      orderValue s < orderValue s'

instance (changes : List (Staged SilverOrder)) : Decidable (Superseded changes) :=
  inferInstanceAs (Decidable (∀ s ∈ changes, _ → _ ∧ ∃ s' ∈ changes, _))

/-! ## From values to rows -/

theorem isIn_ops {op : Option String} (h : isIn op upsertOps = true) :
    isIn op ["c", "u", "d", "r"] = true := by
  cases op with
  | none => cases h
  | some op =>
    simp only [isIn, upsertOps, Option.any_some, List.contains_iff_mem, List.mem_cons,
      List.not_mem_nil, or_false] at h ⊢
    tauto

section Values

variable (uuid : Nat → String) (now : Int)

/-- The uuid of a row is not read. -/
theorem select_parsed (values : List (Option String)) :
    (upserts (parseDebeziumEnvelope uuid now values)).map selectOrder =
      orderChanges now values := by
  have hrows : ∀ (texts : List String) (uuid : Nat → String),
      (upserts (texts.mapIdx fun i rawJson => parseEnvelope (uuid i) now rawJson)).map selectOrder =
        texts.filterMap (selectedText now) := by
    intro texts
    induction texts with
    | nil => exact fun _ => rfl
    | cons rawJson texts ih =>
      intro uuid
      rw [List.mapIdx_cons]
      by_cases hup : IsUpsert (parseEnvelope (uuid 0) now rawJson)
      · have hsel : selectedText now rawJson =
            some (selectOrder (parseEnvelope (uuid 0) now rawJson)) := if_pos hup
        rw [upserts_cons_of_pos hup, List.map_cons, ih fun i => uuid (i + 1),
          List.filterMap_cons_some hsel]
      · have hsel : selectedText now rawJson = none := if_neg hup
        rw [upserts_cons_of_neg hup, ih fun i => uuid (i + 1), List.filterMap_cons_none hsel]
  rw [parseDebeziumEnvelope, hrows, List.filterMap_filterMap]
  rfl

/-- Dropping the malformed values drops the selected rows without keys. -/
theorem orderChanges_wellFormed (values : List (Option String)) :
    orderChanges now (values.filter isWellFormed) =
      (orderChanges now values).filter fun s => ordersSpec.required s.row := by
  unfold orderChanges
  rw [List.filterMap_filter, List.filter_filterMap]
  apply List.filterMap_congr
  intro value _
  unfold isWellFormed
  cases nonEmpty value with
  | none => rfl
  | some rawJson =>
    rw [Option.any_some, Option.bind_some]
    by_cases hup : IsUpsert (parseEnvelope "" now rawJson)
    · have hsel : selectedText now rawJson = some (selectOrder (parseEnvelope "" now rawJson)) :=
        if_pos hup
      have hop : isIn (parseEnvelope "" 0 rawJson).op upsertOps = true := hup
      have hknown : isIn (parseEnvelope "" 0 rawJson).op ["c", "u", "d", "r"] = true :=
        isIn_ops hop
      rw [hsel, Option.filter_some]
      simp only [hop, hknown]
      rfl
    · have hsel : selectedText now rawJson = none := if_neg hup
      rw [hsel]
      exact ite_self none

end Values

/-! ## Presentations -/

section Presentations

variable {env : String → IngestEnv} {topics : Topics} {target : Table ordersSpec}

theorem filter_filter_not {α : Type} (p : α → Bool) (l : List α) :
    (l.filter fun x => !p x).filter p = [] := by
  rw [List.filter_filter, List.filter_eq_nil_iff]
  intro x _
  cases p x <;> decide

/-- Every order of the selected rows is that of some presentation of the table. -/
theorem exists_presentation {rows : List CdcRow} {selected : List (Staged SilverOrder)}
    (h : selected.Perm ((upserts rows).map selectOrder)) :
    ∃ raw : List CdcRow, raw.Perm rows ∧ (upserts raw).map selectOrder = selected := by
  obtain ⟨ups, hsel, hups⟩ : ∃ ups : List CdcRow,
      selected = ups.map selectOrder ∧ ups.Perm (upserts rows) := by
    have hcomp := congrFun (congrFun (List.eq_map_comp_perm selectOrder) selected) (upserts rows)
    exact hcomp.mpr h
  have hall : ∀ r ∈ ups, IsUpsert r := fun r hr =>
    (List.mem_filter.1 (hups.mem_iff.1 hr)).2
  refine ⟨ups ++ rows.filter fun r => !isIn r.op upsertOps, ?_, ?_⟩
  · exact (hups.append_right _).trans (List.filter_append_perm _ _)
  · rw [upserts, List.filter_append, List.filter_eq_self.2 hall, filter_filter_not,
      List.append_nil, hsel]

/-- The rows one job keeps of the selected ones. -/
def latestSelected (selected : List (Staged SilverOrder)) : List SilverOrder :=
  (latestPerKey (fun s => s.row.orderId) Staged.tsMs selected).map Staged.row

/-- **The results** are those of the selected rows in every order. -/
theorem mem_silverResults {t : Option (Table ordersSpec)} :
    t ∈ silverResults env topics target ↔ ∃ selected,
      selected.Perm (orderChanges (env ordersTopic).now (readTopic (topics ordersTopic))) ∧
        target.overwritePartitions (latestSelected selected) = t := by
  have hbronze : (bronzeIngest env topics Bronze.empty).1.cdc .cdcOrders =
      parseDebeziumEnvelope (env ordersTopic).uuid (env ordersTopic).now
        (readTopic (topics ordersTopic)) :=
    (bronzeIngest_cdc env topics Bronze.empty _ (.head _)).trans (zero_add _)
  have hparsed := select_parsed (env ordersTopic).uuid (env ordersTopic).now
    (readTopic (topics ordersTopic))
  constructor
  · rintro ⟨raw, hraw, rfl⟩
    refine ⟨(upserts (raw .cdcOrders)).map selectOrder, ?_, rfl⟩
    rw [← hparsed]
    have hperm := Multiset.coe_eq_coe.1 ((hraw .cdcOrders).trans hbronze)
    exact (hperm.filter _).map _
  · rintro ⟨selected, hselected, rfl⟩
    rw [← hparsed] at hselected
    obtain ⟨raw, hraw, hsel⟩ := exists_presentation hselected
    have hrows := (Multiset.coe_eq_coe.2 hraw).trans hbronze.symm
    refine ⟨fun table => if table = .cdcOrders then raw
      else ((bronzeIngest env topics Bronze.empty).1.cdc table).toList, fun table => ?_, ?_⟩
    · by_cases htable : table = .cdcOrders
      · subst htable
        exact hrows
      · simp only [htable, if_false, Multiset.coe_toList]
    · rw [silverOrders, latestSelected, ← hsel]
      rfl

end Presentations

/-! ## Rows without keys -/

section Keys

variable {changes selected : List (Staged SilverOrder)}

/-- The condition does not depend on the order of the rows. -/
theorem Superseded.perm (h : Superseded changes) (hperm : selected.Perm changes) :
    Superseded selected := by
  intro s hs hkeys
  obtain ⟨hid, s', hs', hrest⟩ := h s (hperm.mem_iff.1 hs) hkeys
  exact ⟨hid, s', hperm.mem_iff.2 hs', hrest⟩

/-- Superseded rows do not compete for their orders. -/
theorem Superseded.latestSelected_filter (h : Superseded selected) :
    (latestSelected (selected.filter fun s => ordersSpec.required s.row)).Perm
      (latestSelected selected) := by
  refine List.Perm.map _ (firstPerKey_filter_perm _ (orderValue (ρ := SilverOrder)) ?_)
  intro s hs hkeys
  exact (h s hs hkeys).2

/-- Under the condition every row that is kept has its required columns. -/
theorem Superseded.required (h : Superseded selected) :
    ∀ row ∈ latestSelected selected, ordersSpec.required row = true := by
  intro row hrow
  obtain ⟨s, hs, rfl⟩ := List.mem_map.1 (h.latestSelected_filter.mem_iff.2 hrow)
  exact (List.mem_filter.1 (mem_of_mem_firstPerKey _ _ hs)).2

/-- When no order of the selected rows keeps a row without keys, such rows are superseded. -/
theorem superseded_of_required (h : ∀ selected : List (Staged SilverOrder), selected.Perm changes →
    ∀ row ∈ latestSelected selected, ordersSpec.required row = true) : Superseded changes := by
  intro s hs hkeys
  -- presented first, the row is kept unless a row of its key is higher
  have hhigher : ∃ s' ∈ changes, s'.row.orderId = s.row.orderId ∧ orderValue s < orderValue s' := by
    by_contra hnone
    have hkept : s.row ∈ latestSelected (s :: changes.erase s) := by
      refine List.mem_map_of_mem (head_mem_firstPerKey _ (orderValue (ρ := SilverOrder)) ?_)
      intro x hx hk
      exact le_of_not_gt fun hlt => hnone ⟨x, List.mem_of_mem_erase hx, hk, hlt⟩
    have hrow := h _ (List.perm_cons_erase hs).symm s.row hkept
    rw [hkeys] at hrow
    cases hrow
  obtain ⟨s', hs', hk', hlt⟩ := hhigher
  obtain ⟨m, hm, hmk⟩ := exists_firstPerKey (fun s : Staged SilverOrder => s.row.orderId)
    (orderValue (ρ := SilverOrder)) ⟨s', hs', hk'⟩
  have hrow := h changes (List.Perm.refl _) m.row (List.mem_map_of_mem hm)
  refine ⟨?_, m, mem_of_mem_firstPerKey _ _ hm, hrow, hmk, ?_⟩
  · rw [← hmk]
    exact (Bool.and_eq_true_iff.1 hrow).1
  · exact hlt.trans_le (le_of_mem_firstPerKey _ _ hm hs' (hk'.trans hmk.symm))

end Keys

/-! ## Harmless topics -/

section Harm

variable (env : String → IngestEnv) (topics : Topics) (target : Table ordersSpec)

/-- The values of the well-formed messages. -/
theorem readTopic_wellFormedOnly : readTopic (wellFormedOnly topics ordersTopic) =
    (readTopic (topics ordersTopic)).filter isWellFormed := by
  rw [wellFormedOnly, if_pos rfl, readTopic, readTopic, List.filter_map]
  rfl

/-- The rows of the well-formed messages are those with the required columns. -/
theorem orderChanges_wellFormedOnly :
    orderChanges (env ordersTopic).now (readTopic (wellFormedOnly topics ordersTopic)) =
      (orderChanges (env ordersTopic).now (readTopic (topics ordersTopic))).filter
        fun s => ordersSpec.required s.row := by
  rw [readTopic_wellFormedOnly, orderChanges_wellFormed]

variable {env topics target}

/-- The condition is necessary. -/
theorem Harmless.superseded (h : Harmless env topics target) :
    Superseded (orderChanges (env ordersTopic).now (readTopic (topics ordersTopic))) := by
  apply superseded_of_required
  intro selected hselected row hrow
  have hsome := h.succeeds _ (mem_silverResults.2 ⟨selected, hselected, rfl⟩)
  obtain ⟨t, ht⟩ := Option.isSome_iff_exists.1 hsome
  exact (Table.overwritePartitions_eq_some.1 ht).1 row (Multiset.mem_coe.2 hrow)

/-- The condition is sufficient. -/
theorem harmless_of_superseded
    (h : Superseded (orderChanges (env ordersTopic).now (readTopic (topics ordersTopic)))) :
    Harmless env topics target := by
  have hsame : ∀ selected : List (Staged SilverOrder), Superseded selected →
      target.overwritePartitions
          (latestSelected (selected.filter fun s => ordersSpec.required s.row)) =
        target.overwritePartitions (latestSelected selected) := fun selected hselected =>
    congrArg _ (Multiset.coe_eq_coe.2 hselected.latestSelected_filter)
  constructor
  · intro t ht
    obtain ⟨selected, hselected, rfl⟩ := mem_silverResults.1 ht
    obtain ⟨t, ht⟩ := target.exists_overwritePartitions
      fun row hrow => (h.perm hselected).required row (Multiset.mem_coe.1 hrow)
    rw [ht]
    rfl
  · ext t
    rw [mem_silverResults, mem_silverResults, orderChanges_wellFormedOnly]
    constructor
    · rintro ⟨selected, hselected, rfl⟩
      exact ⟨_, hselected.filter _, hsame selected (h.perm hselected)⟩
    · rintro ⟨selected, hselected, rfl⟩
      -- the dropped rows may be presented after the others
      have hall : (selected ++ (orderChanges (env ordersTopic).now
          (readTopic (topics ordersTopic))).filter fun s => !ordersSpec.required s.row).Perm
            (orderChanges (env ordersTopic).now (readTopic (topics ordersTopic))) :=
        (hselected.append_right _).trans (List.filter_append_perm _ _)
      have hkept : selected.filter (fun s => ordersSpec.required s.row) = selected :=
        List.filter_eq_self.2 fun s hs => (List.mem_filter.1 (hselected.mem_iff.1 hs)).2
      refine ⟨_, hall, ?_⟩
      rw [← hsame _ (h.perm hall), List.filter_append, hkept, filter_filter_not, List.append_nil]

/-- **Malformed messages are harmless exactly when they are superseded.** For all values on the
orders topic, in every presentation of their rows: the write succeeds and the table is that of the
well-formed values alone if and only if every upsert without its keys has an `order_id` for which a
well-formed upsert has a higher `ts_ms`. -/
theorem malformed_harmless_iff (env : String → IngestEnv) (topics : Topics)
    (target : Table ordersSpec) : Harmless env topics target ↔
      Superseded (orderChanges (env ordersTopic).now (readTopic (topics ordersTopic))) :=
  ⟨Harmless.superseded, harmless_of_superseded⟩

/-- One creation without an image of a row. -/
def emptyImage : Topics := fun topic =>
  recordsOf topic
    (if topic = ordersTopic then [some "\x7b\"op\":\"c\",\"after\":\x7b\x7d\x7d"] else [])

theorem malformed_rejects_batch : ¬ Harmless anEnv emptyImage .empty := by
  intro h
  exact absurd h.superseded (by decide +kernel)

end Harm

end Lakehouse.Verify
