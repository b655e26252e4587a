import Lakehouse.Verify.CapturedTraffic
import Lakehouse.Verify.KnownCustomers
import Lakehouse.Verify.LastWrite

/-!
# Source rows in Silver

What the deduplication makes of a tracked table: however often the log has been ingested and in
whatever order its rows are presented, it keeps one row for each row of the source, with the columns
of that row (`Captured.latest_shows_rows`), as long as `ts_ms` tells the last change of each row.
-/

namespace Lakehouse.Verify

open Lib Source Batch

namespace Captured

variable {α ρ γ : Type} {T : Captured α ρ} {fixed : α → γ} {history : List (ChangeEvent α)}
  {rows : List α} {raw : List CdcRow}

/-- The source table of a history. -/
abbrev Mirrors (T : Captured α ρ) (fixed : α → γ) (history : List (ChangeEvent α))
    (rows : List α) : Prop :=
  Tracks T.keyOf (fun e => e.change.after) T.key fixed history rows

/-- The Bronze rows are those of the changes of a history, of each at least one. -/
structure Presents (T : Captured α ρ) (history : List (ChangeEvent α)) (rows : Multiset CdcRow) :
    Prop where
  sound : ∀ r ∈ rows, FromHistory T history r
  complete : ∀ e ∈ history, ∃ now cdcId, cdcRow T.table T.fields now cdcId e ∈ rows

/-- The Silver rows are those of the source rows, each with the op of one of its changes and the
time of its ingest. -/
def Shows (T : Captured α ρ) (silver : Multiset ρ) (rows : List α) : Prop :=
  ∃ tag : α → String × Int, (∀ a ∈ rows, (tag a).1 ∈ upsertOps) ∧
    silver = (rows : Multiset α).map fun a => T.silverRow (tag a).1 (tag a).2 a

/-- The Silver rows are those of images in a history. -/
def ImagesOf (T : Captured α ρ) (history : List (ChangeEvent α)) (silver : Multiset ρ) : Prop :=
  ∀ r ∈ silver, ∃ a ∈ history.filterMap (·.change.after), ∃ op now, r = T.silverRow op now a

/-- Along the changes of a row `ts_ms` grows, or a change repeats the image before it. -/
def TellsLast (T : Captured α ρ) (history : List (ChangeEvent α)) : Prop :=
  history.Pairwise fun e e' => T.keyOf e = T.keyOf e' →
    e.tsMs.toInt < e'.tsMs.toInt ∨ e.tsMs = e'.tsMs ∧ e.change.after = e'.change.after

instance (T : Captured α ρ) [DecidableEq α] (history : List (ChangeEvent α)) :
    Decidable (T.TellsLast history) := inferInstanceAs (Decidable (history.Pairwise _))

/-- Where times tell the last change, ties agree on its image. -/
theorem TellsLast.tiesAgree (h : T.TellsLast history) : T.TiesAgree history := by
  rintro e he hnew last ⟨before, after, rfl, hafter⟩ hk
  rcases List.mem_append.1 he with hbefore | hrest
  · have hlast : last ∈ before ++ last :: after := List.mem_append_right _ (.head _)
    rcases (List.pairwise_append.1 h).2.2 e hbefore last (.head _) hk.symm with hlt | ⟨-, heq⟩
    · exact absurd (hnew last hlast hk) (Int.not_le.2 hlt)
    · exact heq
  · rcases List.mem_cons.1 hrest with rfl | hrest
    · rfl
    · exact absurd hk.symm (hafter e hrest)

theorem op_mem_upsertOps {e : ChangeEvent α} {a : α} (h : e.change.after = some a) :
    e.change.op ∈ upsertOps := by
  cases hc : e.change with
  | create b => simp [Change.op, upsertOps]
  | read b => simp [Change.op, upsertOps]
  | update b b' => simp [Change.op, upsertOps]
  | delete b => rw [hc] at h; cases h

/-- A row that is kept has the columns of the source row of its key. -/
theorem row_of_latest (hmirrors : T.Mirrors fixed history rows) (hties : T.TiesAgree history)
    (hraw : T.Presents history (raw : Multiset CdcRow)) {row : ρ}
    (hrow : row ∈ latestUpserts T.select T.keyCol raw) :
    ∃ a ∈ rows, ∃ op ∈ upsertOps, ∃ now, row = T.silverRow op now a := by
  obtain ⟨r, hr, hup, rfl, hmax⟩ := mem_latestUpserts hrow
  obtain ⟨now, cdcId, e, he, rfl⟩ := hraw.sound r (Multiset.mem_coe.2 hr)
  obtain ⟨a, ha⟩ := isUpsert_cdcRow.1 hup
  have hsel := T.select_cdcRow now cdcId e a ha
  rw [hsel] at hmax ⊢
  have hnew : T.Newest history e := by
    intro e' he' hk
    obtain ⟨a', ha', -⟩ := hmirrors.images e' he'
    obtain ⟨now', cdcId', hmem⟩ := hraw.complete e' he'
    have hle := hmax _ (Multiset.mem_coe.1 hmem) (isUpsert_cdcRow.2 ⟨a', ha'⟩) (by
      rw [T.select_cdcRow _ _ _ _ ha', keyCol_silverRow_of_after _ _ ha',
        keyCol_silverRow_of_after _ _ ha, hk])
    rw [T.select_cdcRow _ _ _ _ ha'] at hle
    exact WithBot.coe_le_coe.1 hle
  -- the row of the key is the image of the last change, and the newest change agrees with it
  obtain ⟨b, hb, b', hb', hk, -⟩ := hmirrors.images e he
  obtain rfl := Option.some.inj (hb.symm.trans ha)
  obtain ⟨before, last, after, hsplit, hlk, hlast, hafter⟩ :=
    exists_last ((hmirrors.mem_iff b').1 hb')
  have hkey : T.keyOf last = T.keyOf e := by
    rw [hlk, hk, keyOf_of_after hb]
  have hagree := hties e he hnew last ⟨before, after, hsplit, fun e' he' => ?_⟩ hkey
  · rw [hb, hlast] at hagree
    obtain rfl := Option.some.inj hagree
    exact ⟨b, hb', e.change.op, op_mem_upsertOps hb, now, rfl⟩
  · rw [hlk]
    exact hafter e' he'

/-- Every row of the source is kept. -/
theorem exists_latest_row (hmirrors : T.Mirrors fixed history rows) (hties : T.TiesAgree history)
    (hraw : T.Presents history (raw : Multiset CdcRow)) {a : α} (ha : a ∈ rows) :
    ∃ tag : String × Int, tag.1 ∈ upsertOps ∧
      T.silverRow tag.1 tag.2 a ∈ latestUpserts T.select T.keyCol raw := by
  obtain ⟨e, he, -, himage⟩ := mem_of_latestOf T.keyOf _ ((hmirrors.mem_iff a).1 ha)
  obtain ⟨row, hrow, hk⟩ := exists_latest_of_image hraw.complete
    (List.mem_filterMap.2 ⟨e, he, himage⟩)
  obtain ⟨a', ha', op, hop, now, rfl⟩ := row_of_latest hmirrors hties hraw hrow
  rw [T.keyCol_silverRow, Option.some.injEq, repr_int64_inj] at hk
  obtain rfl := hmirrors.eq_of_key ha ha' hk
  exact ⟨(op, now), hop, hrow⟩

/-- **One row for each row of the source**, with its columns, whichever copy of its change is kept.
-/
theorem latest_shows_rows (hmirrors : T.Mirrors fixed history rows) (hties : T.TiesAgree history)
    (hraw : T.Presents history (raw : Multiset CdcRow)) :
    T.Shows (latestUpserts T.select T.keyCol raw : Multiset ρ) rows := by
  have hexists := fun a ha => exists_latest_row hmirrors hties hraw (a := a) ha
  choose! tag htag using hexists
  refine ⟨tag, fun a ha => (htag a ha).1, ?_⟩
  have hkeyed : ∀ a, T.keyCol (T.silverRow (tag a).1 (tag a).2 a) = some (T.key a).toInt.repr :=
    fun a => T.keyCol_silverRow _ _ a
  have hnodup : ((rows : Multiset α).map fun a => T.silverRow (tag a).1 (tag a).2 a).Nodup := by
    rw [Multiset.map_coe, Multiset.coe_nodup]
    refine (List.nodup_map_iff_inj_on hmirrors.nodup.of_map).2 fun a ha b hb heq => ?_
    have hk := congrArg T.keyCol heq
    rw [hkeyed, hkeyed, Option.some.injEq, repr_int64_inj] at hk
    exact hmirrors.eq_of_key hb ha hk
  refine (Multiset.Nodup.ext (Multiset.coe_nodup.2 (latestUpserts_nodup _ _ _)) hnodup).2
    fun row => ?_
  rw [Multiset.mem_coe, Multiset.mem_map]
  constructor
  · intro hrow
    obtain ⟨a, ha, op, -, now, rfl⟩ := row_of_latest hmirrors hties hraw hrow
    refine ⟨a, ha, ?_⟩
    apply List.inj_on_of_nodup_map (latestUpserts_keys_nodup T.select T.keyCol raw)
      (htag a ha).2 hrow
    rw [hkeyed, T.keyCol_silverRow]
  · rintro ⟨a, ha, rfl⟩
    exact (htag a ha).2

/-! ## Writes -/

section Writes

variable {π : Type} {spec : TableSpec ρ π} {silver silver' : Multiset ρ} {rows' : List α}

/-- The keys are those of the source. -/
theorem Shows.keys (h : T.Shows silver rows) :
    silver.map T.keyCol = (rows : Multiset α).map fun a => some (T.key a).toInt.repr := by
  obtain ⟨tag, -, rfl⟩ := h
  rw [Multiset.map_map]
  exact Multiset.map_congr rfl fun a _ => T.keyCol_silverRow _ _ a

/-- Every row is that of a row of the source. -/
theorem Shows.source_row (h : T.Shows silver rows) :
    ∀ r ∈ silver, ∃ a ∈ rows, ∃ op ∈ upsertOps, ∃ now, r = T.silverRow op now a := by
  obtain ⟨tag, htag, rfl⟩ := h
  rw [Multiset.forall_mem_map_iff]
  exact fun a ha => ⟨a, ha, _, htag a ha, _, rfl⟩

/-- What holds of the rows of the source holds of the rows that show them. -/
theorem Shows.forall_rows {P : ρ → Prop} (h : T.Shows silver rows)
    (hP : ∀ a ∈ rows, ∀ op ∈ upsertOps, ∀ now, P (T.silverRow op now a)) : ∀ r ∈ silver, P r := by
  intro r hr
  obtain ⟨a, ha, op, hop, now, rfl⟩ := h.source_row r hr
  exact hP a ha op hop now

theorem Shows.ne_zero (h : T.Shows silver rows) (hne : rows ≠ []) : silver ≠ 0 := by
  obtain ⟨tag, -, rfl⟩ := h
  rw [Ne, Multiset.map_eq_zero, Multiset.coe_eq_zero]
  exact hne

/-- No key is shown twice. -/
theorem Shows.keys_nodup (h : T.Shows silver rows) (hnodup : (rows.map T.key).Nodup) :
    (silver.map T.keyCol).Nodup := by
  have hids := hnodup.map fun _ _ h => repr_int64_inj.1 (Option.some.inj h)
  rw [List.map_map] at hids
  rw [h.keys, Multiset.map_coe]
  exact Multiset.coe_nodup.2 hids

/-- Rows that keep their keys and their fixed columns keep their partitions. -/
theorem Shows.covered (h : T.Shows silver rows) (h' : T.Shows silver' rows')
    (hgrow : ∀ a ∈ rows, ∃ a' ∈ rows', T.key a' = T.key a ∧ fixed a' = fixed a)
    (hpartition : ∀ op now a op' now' a', T.key a' = T.key a → fixed a' = fixed a →
      spec.partition (T.silverRow op' now' a') = spec.partition (T.silverRow op now a)) :
    Table.Covered spec silver silver' := by
  obtain ⟨tag, -, rfl⟩ := h
  obtain ⟨tag', -, rfl⟩ := h'
  intro r hr
  obtain ⟨a, ha, rfl⟩ := Multiset.mem_map.1 hr
  obtain ⟨a', ha', hk, hfixed⟩ := hgrow a (Multiset.mem_coe.1 ha)
  exact ⟨_, Multiset.mem_map_of_mem _ (Multiset.mem_coe.2 ha'), hpartition _ _ _ _ _ _ hk hfixed⟩

variable [DecidableEq π]

/-- **A write of the deduplicated rows refreshes the table.** -/
theorem shows_overwrite {t t' : Table spec} (hmirrors : T.Mirrors fixed history rows)
    (hties : T.TiesAgree history) (hraw : T.Presents history (raw : Multiset CdcRow))
    (hwrite : t.overwritePartitions (latestUpserts T.select T.keyCol raw : Multiset ρ) = some t')
    (hshows : T.Shows t.rows rows')
    (hgrow : ∀ a ∈ rows', ∃ a' ∈ rows, T.key a' = T.key a ∧ fixed a' = fixed a)
    (hpartition : ∀ op now a op' now' a', T.key a' = T.key a → fixed a' = fixed a →
      spec.partition (T.silverRow op' now' a') = spec.partition (T.silverRow op now a)) :
    T.Shows t'.rows rows := by
  have hlatest := latest_shows_rows hmirrors hties hraw
  rw [(Table.overwritePartitions_eq_iff hwrite).2 (hshows.covered hlatest hgrow hpartition)]
  exact hlatest

/-- The rows that are kept are images of the history. -/
theorem latest_imagesOf (hraw : T.Presents history (raw : Multiset CdcRow)) :
    T.ImagesOf history (latestUpserts T.select T.keyCol raw : Multiset ρ) := fun _ hrow =>
  image_of_mem_latest (fun r hr => hraw.sound r (Multiset.mem_coe.2 hr)) (Multiset.mem_coe.1 hrow)

theorem ImagesOf.mono {history' : List (ChangeEvent α)} (h : T.ImagesOf history silver)
    (hsub : history ⊆ history') : T.ImagesOf history' silver := fun r hr => by
  obtain ⟨a, ha, hrow⟩ := h r hr
  obtain ⟨e, he, hafter⟩ := List.mem_filterMap.1 ha
  exact ⟨a, List.mem_filterMap.2 ⟨e, hsub he, hafter⟩, hrow⟩

/-- No deduplicated row of a history is rejected by a table that takes every image. -/
theorem exists_overwrite (t : Table spec) (hraw : T.Presents history (raw : Multiset CdcRow))
    (hrequired : ∀ op now a, spec.required (T.silverRow op now a) = true) :
    ∃ t', t.overwritePartitions (latestUpserts T.select T.keyCol raw : Multiset ρ) = some t' := by
  apply t.exists_overwritePartitions
  intro row hrow
  obtain ⟨a, -, op, now, rfl⟩ := latest_imagesOf hraw row hrow
  exact hrequired op now a

/-- What an ingest appends to a table that presents an earlier part of the history. -/
theorem Presents.ingest {before : List (ChangeEvent α)} {ingested : Multiset CdcRow}
    {records : List KafkaRecord} (h : T.Presents before ingested) (hsub : before ⊆ history)
    (hretains : Retains T history ingested records) (uuid : Nat → String) (now : Int) :
    T.Presents history (ingested + parseDebeziumEnvelope uuid now (readTopic records)) := by
  obtain ⟨hnew, hall⟩ := hretains.append uuid now
  refine ⟨fun r hr => ?_, hall⟩
  rcases Multiset.mem_add.1 hr with hr | hr
  · exact (h.sound r hr).mono fun e he => hsub he
  · exact hnew r hr

end Writes

end Captured

end Lakehouse.Verify
