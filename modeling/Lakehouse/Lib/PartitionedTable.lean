import Mathlib.Algebra.Order.Group.Multiset
import Mathlib.Data.Multiset.Filter
import Mathlib.Data.Multiset.MapFold
import Mathlib.Data.List.Chain

/-!
# Partitioned tables

A table is a bag of rows with a partition for each row and columns that may not be null. A write
that holds a null in such a column is rejected as a whole, so the rows of a table always have them
(`Table.valid`). `overwritePartitions` replaces the partitions that occur in the written rows and
leaves the others: it is a full refresh exactly when every old partition occurs again
(`Table.overwritePartitions_eq_iff`), and a sequence of overwrites is a sequence of full refreshes
exactly when the partitions only grow (`Table.overwrites_refresh_iff`). As long as no key goes
missing, a key is doubled exactly when a partition is left out (`Table.overwrites_nodup_iff`).
-/

namespace Lakehouse.Lib

/-- The part of a table definition a write looks at. -/
structure TableSpec (ρ π : Type*) where
  /-- The columns that are `NOT NULL` hold values. -/
  required : ρ → Bool
  partition : ρ → π

/-- The contents of a table. -/
@[ext]
structure Table {ρ π : Type*} (spec : TableSpec ρ π) where
  rows : Multiset ρ
  valid : ∀ r ∈ rows, spec.required r = true

namespace Table

variable {ρ π : Type*} {spec : TableSpec ρ π}

/-- A table without rows. -/
def empty : Table spec := ⟨0, by simp⟩

@[simp] theorem rows_empty : (empty : Table spec).rows = 0 := rfl

/-! ## Dynamic overwrite -/

/-- Every partition of the first rows occurs in the second. -/
def Covered (spec : TableSpec ρ π) (old new : Multiset ρ) : Prop :=
  ∀ r ∈ old, ∃ x ∈ new, spec.partition x = spec.partition r

/-- Every key of the first rows occurs in the second. -/
def KeysKept {κ : Type*} (key : ρ → κ) (old new : Multiset ρ) : Prop :=
  ∀ r ∈ old, ∃ x ∈ new, key x = key r

theorem covered_zero (spec : TableSpec ρ π) (new : Multiset ρ) : Covered spec 0 new :=
  fun r hr => absurd hr (Multiset.notMem_zero r)

section Overwrite

variable [DecidableEq π]

/-- The rows of partitions that do not occur in the written rows. -/
def untouched (spec : TableSpec ρ π) (old new : Multiset ρ) : Multiset ρ :=
  old.filter fun r => spec.partition r ∉ new.map spec.partition

/-- Replace the partitions that occur in the written rows; a null in a required column rejects the
write. -/
def overwritePartitions (t : Table spec) (new : Multiset ρ) : Option (Table spec) :=
  if h : ∀ r ∈ new, spec.required r = true then
    some ⟨untouched spec t.rows new + new, fun r hr =>
      (Multiset.mem_add.1 hr).elim (fun hr => t.valid r (Multiset.mem_filter.1 hr).1) (h r)⟩
  else none

theorem overwritePartitions_eq_some {t t' : Table spec} {new : Multiset ρ} :
    t.overwritePartitions new = some t' ↔
      (∀ r ∈ new, spec.required r = true) ∧ t'.rows = untouched spec t.rows new + new := by
  unfold overwritePartitions
  split
  · next h =>
    rw [Option.some.injEq, Table.ext_iff, eq_comm]
    exact ⟨fun he => ⟨h, he⟩, fun he => he.2⟩
  · next h => exact ⟨nofun, fun he => absurd he.1 h⟩

theorem exists_overwritePartitions (t : Table spec) {new : Multiset ρ}
    (h : ∀ r ∈ new, spec.required r = true) : ∃ t', t.overwritePartitions new = some t' :=
  ⟨_, dif_pos h⟩

/-- What holds of the rows of a table and of the written rows holds after the write. -/
theorem forall_overwritePartitions {P : ρ → Prop} {t t' : Table spec} {new : Multiset ρ}
    (h : t.overwritePartitions new = some t') (ht : ∀ r ∈ t.rows, P r) (hnew : ∀ r ∈ new, P r) :
    ∀ r ∈ t'.rows, P r := by
  intro r hr
  rw [(overwritePartitions_eq_some.1 h).2] at hr
  rcases Multiset.mem_add.1 hr with hold | hr
  · exact ht r (Multiset.mem_filter.1 hold).1
  · exact hnew r hr

theorem overwritePartitions_empty (spec : TableSpec ρ π) {new : Multiset ρ}
    (h : ∀ r ∈ new, spec.required r = true) :
    ∃ t, (empty : Table spec).overwritePartitions new = some t ∧ t.rows = new :=
  ⟨⟨new, h⟩, overwritePartitions_eq_some.2 ⟨h, by simp [untouched]⟩, rfl⟩

theorem mem_untouched {old new : Multiset ρ} {r : ρ} :
    r ∈ untouched spec old new ↔ r ∈ old ∧ ∀ x ∈ new, spec.partition x ≠ spec.partition r := by
  simp [untouched, Multiset.mem_filter, Multiset.mem_map]

theorem untouched_eq_zero_iff {old new : Multiset ρ} :
    untouched spec old new = 0 ↔ Covered spec old new := by
  rw [Multiset.eq_zero_iff_forall_notMem]
  simp only [mem_untouched, Covered]
  constructor
  · intro h r hr
    by_contra hnot
    exact h r ⟨hr, fun x hx he => hnot ⟨x, hx, he⟩⟩
  · rintro h r ⟨hr, hne⟩
    obtain ⟨x, hx, he⟩ := h r hr
    exact hne x hx he

/-- The partitions that are written hold the written rows. -/
theorem overwritePartitions_filter {t t' : Table spec} {new : Multiset ρ}
    (h : t.overwritePartitions new = some t') :
    t'.rows.filter (fun r => spec.partition r ∈ new.map spec.partition) = new := by
  have hleft : (untouched spec t.rows new).filter
      (fun r => spec.partition r ∈ new.map spec.partition) = 0 :=
    Multiset.filter_eq_nil.2 fun r hr => (Multiset.mem_filter.1 hr).2
  have hnew : new.filter (fun r => spec.partition r ∈ new.map spec.partition) = new :=
    Multiset.filter_eq_self.2 fun r hr => Multiset.mem_map_of_mem _ hr
  rw [(overwritePartitions_eq_some.1 h).2, Multiset.filter_add, hleft, hnew, zero_add]

/-- **An overwrite is a full refresh** exactly when no partition is left out. -/
theorem overwritePartitions_eq_iff {t t' : Table spec} {new : Multiset ρ}
    (h : t.overwritePartitions new = some t') : t'.rows = new ↔ Covered spec t.rows new := by
  rw [(overwritePartitions_eq_some.1 h).2, ← untouched_eq_zero_iff, add_eq_right]

/-- A function of the rows tells a full refresh as well as the rows do. -/
theorem overwritePartitions_map_eq_iff {β : Type*} (f : ρ → β) {t t' : Table spec}
    {new : Multiset ρ} (h : t.overwritePartitions new = some t') :
    t'.rows.map f = new.map f ↔ t'.rows = new := by
  rw [(overwritePartitions_eq_some.1 h).2, Multiset.map_add, add_eq_right, Multiset.map_eq_zero,
    add_eq_right]

/-- The tables after each of a sequence of overwrites; nothing when a write is rejected. -/
def overwrites (t : Table spec) : List (Multiset ρ) → Option (List (Table spec))
  | [] => some []
  | new :: news =>
    (t.overwritePartitions new).bind fun t' => (overwrites t' news).map (t' :: ·)

theorem overwrites_cons_eq_some {t : Table spec} {new : Multiset ρ} {news : List (Multiset ρ)}
    {ts : List (Table spec)} :
    t.overwrites (new :: news) = some ts ↔
      ∃ t' ts', ts = t' :: ts' ∧ t.overwritePartitions new = some t' ∧
        t'.overwrites news = some ts' := by
  simp only [overwrites, Option.bind_eq_some_iff, Option.map_eq_some_iff]
  constructor
  · rintro ⟨t', h, ts', h', rfl⟩
    exact ⟨t', ts', rfl, h, h'⟩
  · rintro ⟨t', ts', rfl, h, h'⟩
    exact ⟨t', h, ts', h', rfl⟩

/-- What holds of the rows of a table and of all written rows holds after every write, and no write
is rejected when the written rows are valid. -/
theorem exists_overwrites {P : ρ → Prop} {t : Table spec} {news : List (Multiset ρ)}
    (ht : ∀ r ∈ t.rows, P r) (hnews : ∀ new ∈ news, ∀ r ∈ new, spec.required r = true ∧ P r) :
    ∃ ts, t.overwrites news = some ts ∧ ts.length = news.length ∧
      ∀ t' ∈ ts, ∀ r ∈ t'.rows, P r := by
  induction news generalizing t with
  | nil => exact ⟨[], rfl, rfl, nofun⟩
  | cons new news ih =>
    obtain ⟨hnew, hrest⟩ := List.forall_mem_cons.1 hnews
    obtain ⟨t', hwrite⟩ := t.exists_overwritePartitions fun r hr => (hnew r hr).1
    have ht' : ∀ r ∈ t'.rows, P r := by
      intro r hr
      rw [(overwritePartitions_eq_some.1 hwrite).2] at hr
      rcases Multiset.mem_add.1 hr with hold | hr
      · exact ht r (mem_untouched.1 hold).1
      · exact (hnew r hr).2
    obtain ⟨ts, hts, hlen, hall⟩ := ih ht' hrest
    exact ⟨t' :: ts, overwrites_cons_eq_some.2 ⟨t', ts, rfl, hwrite, hts⟩,
      congrArg (· + 1) hlen, List.forall_mem_cons.2 ⟨ht', hall⟩⟩

theorem overwrites_map_eq_iff {β : Type*} (f : ρ → β) {t : Table spec} {news : List (Multiset ρ)}
    {ts : List (Table spec)} (h : t.overwrites news = some ts) :
    List.Forall₂ (fun new t' => t'.rows.map f = new.map f) news ts ↔ ts.map Table.rows = news := by
  induction news generalizing t ts with
  | nil =>
    obtain rfl : [] = ts := Option.some.inj h
    simp
  | cons new news ih =>
    obtain ⟨t', ts', rfl, hnew, hnews⟩ := overwrites_cons_eq_some.1 h
    rw [List.forall₂_cons, List.map_cons, List.cons.injEq, ih hnews,
      overwritePartitions_map_eq_iff f hnew]

/-- A sequence of overwrites is a sequence of full refreshes exactly when each write occurs in all
the partitions of the one before it. -/
theorem overwrites_refresh_iff {t : Table spec} {news : List (Multiset ρ)}
    {ts : List (Table spec)} (h : t.overwrites news = some ts) :
    ts.map Table.rows = news ↔ (t.rows :: news).IsChain (Covered spec) := by
  induction news generalizing t ts with
  | nil =>
    obtain rfl : [] = ts := Option.some.inj h
    simp
  | cons new news ih =>
    obtain ⟨t', ts', rfl, hnew, hnews⟩ := overwrites_cons_eq_some.1 h
    rw [List.map_cons, List.cons.injEq, List.isChain_cons_cons, overwritePartitions_eq_iff hnew]
    apply and_congr_right
    intro hcov
    rw [ih hnews, (overwritePartitions_eq_iff hnew).2 hcov]

/-- A row that an overwrite leaves behind doubles the key it shares with a written row. -/
theorem overwritePartitions_nodup_iff {κ : Type*} {key : ρ → κ} {t t' : Table spec}
    {new : Multiset ρ} (h : t.overwritePartitions new = some t') (hnew : (new.map key).Nodup)
    (hkept : KeysKept key t.rows new) :
    (t'.rows.map key).Nodup ↔ Covered spec t.rows new := by
  rw [← overwritePartitions_eq_iff h]
  constructor
  · intro hnodup
    rw [(overwritePartitions_eq_some.1 h).2, Multiset.map_add, Multiset.nodup_add] at hnodup
    have hzero : untouched spec t.rows new = 0 := by
      apply Multiset.eq_zero_of_forall_notMem
      intro r hr
      obtain ⟨x, hx, hk⟩ := hkept r (mem_untouched.1 hr).1
      exact Multiset.disjoint_left.1 hnodup.2.2 (Multiset.mem_map_of_mem key hr)
        (Multiset.mem_map.2 ⟨x, hx, hk⟩)
    rw [(overwritePartitions_eq_some.1 h).2, hzero, zero_add]
  · intro hrows
    rwa [hrows]

/-- **Keys over a sequence of overwrites.** When every write has each key once and no key of the one
before it is missing, the table has each key once after every write exactly when the partitions only
grow. -/
theorem overwrites_nodup_iff {κ : Type*} (key : ρ → κ) {t : Table spec} {news : List (Multiset ρ)}
    {ts : List (Table spec)} (h : t.overwrites news = some ts)
    (hnews : ∀ new ∈ news, (new.map key).Nodup)
    (hkept : (t.rows :: news).IsChain (KeysKept key)) :
    (∀ t' ∈ ts, (t'.rows.map key).Nodup) ↔ (t.rows :: news).IsChain (Covered spec) := by
  induction news generalizing t ts with
  | nil =>
    obtain rfl : [] = ts := Option.some.inj h
    simp
  | cons new news ih =>
    obtain ⟨t', ts', rfl, hnew, hrest⟩ := overwrites_cons_eq_some.1 h
    obtain ⟨hkeep, hkeeps⟩ := List.isChain_cons_cons.1 hkept
    rw [List.forall_mem_cons, List.isChain_cons_cons,
      overwritePartitions_nodup_iff hnew (hnews new (.head _)) hkeep]
    apply and_congr_right
    intro hcov
    have hrows := (overwritePartitions_eq_iff hnew).2 hcov
    rw [← hrows]
    exact ih hrest (fun r hr => hnews r (.tail _ hr)) (by rw [hrows]; exact hkeeps)

end Overwrite

end Table

end Lakehouse.Lib
