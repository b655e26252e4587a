import Mathlib.Algebra.BigOperators.Group.Finset.Basic
import Mathlib.Data.List.Dedup
import Mathlib.Tactic.Abel

/-!
# Logs of keyed changes

Every change of a log is of one key and leaves an image of it, or none. The images that are there
after a log are those of the latest change of each key (`liveImages`), and one more change moves
what is added up over them by its own image and the one it replaces (`sum_liveImages_snoc`). A
change also names an image that it replaces. Where that is not the one its key had, the changes do
not add up to the live images but miss them by the difference (`sum_changes`).
-/

namespace Lakehouse.Lib

section KeyedLog

variable {α β κ : Type*} [DecidableEq κ] (key : α → κ) (image : α → Option β)

/-- The changes of a key. -/
def changesOf (log : List α) (k : κ) : List α := log.filter fun c => key c = k

/-- The image of a key after its latest change. -/
def latestOf (log : List α) (k : κ) : Option β := (changesOf key log k).getLast?.bind image

/-- The images of all keys after a log. -/
def liveImages (log : List α) : Multiset β :=
  ((log.map key).dedup.filterMap (latestOf key image log) : List β)

/-- Each change with the image that its key had before it. -/
def withPrevious (seen : List α) : List α → List (Option β × α)
  | [] => []
  | c :: log => (latestOf key image seen (key c), c) :: withPrevious (seen ++ [c]) log

theorem changesOf_snoc (log : List α) (c : α) (k : κ) :
    changesOf key (log ++ [c]) k = changesOf key log k ++ if key c = k then [c] else [] := by
  unfold changesOf
  rw [List.filter_append]
  by_cases hk : key c = k
  · simp [hk]
  · simp [hk]

theorem latestOf_snoc (log : List α) (c : α) (k : κ) :
    latestOf key image (log ++ [c]) k =
      if key c = k then image c else latestOf key image log k := by
  unfold latestOf
  rw [changesOf_snoc]
  by_cases hk : key c = k
  · simp [hk]
  · simp [hk]

theorem mem_of_latestOf {log : List α} {k : κ} {b : β} (h : latestOf key image log k = some b) :
    ∃ c ∈ log, key c = k ∧ image c = some b := by
  obtain ⟨c, hc, hb⟩ := Option.bind_eq_some_iff.1 h
  obtain ⟨hmem, hk⟩ := List.mem_filter.1 (List.mem_of_getLast? hc)
  exact ⟨c, hmem, of_decide_eq_true hk, hb⟩

theorem withPrevious_snoc (seen log : List α) (c : α) :
    withPrevious key image seen (log ++ [c]) =
      withPrevious key image seen log ++ [(latestOf key image (seen ++ log) (key c), c)] := by
  induction log generalizing seen with
  | nil => simp [withPrevious]
  | cons d log ih => simp [withPrevious, ih]

/-! ## Sums over the live images -/

section Sums

variable {M : Type*} [AddCommGroup M] (f : β → M)

theorem sum_liveImages (log : List α) :
    ((liveImages key image log).map f).sum =
      ∑ k ∈ (log.map key).toFinset, (latestOf key image log k).elim 0 f := by
  unfold liveImages
  rw [Multiset.map_coe, Multiset.sum_coe, Finset.sum, List.toFinset_val, Multiset.map_coe,
    Multiset.sum_coe]
  generalize (log.map key).dedup = keys
  induction keys with
  | nil => rfl
  | cons k keys ih =>
    cases hk : latestOf key image log k with
    | none => simp [hk, ih]
    | some b => simp [hk, ih]

/-- One change replaces the image of its key by its own. -/
theorem sum_liveImages_snoc (log : List α) (c : α) :
    ((liveImages key image (log ++ [c])).map f).sum + (latestOf key image log (key c)).elim 0 f =
      ((liveImages key image log).map f).sum + (image c).elim 0 f := by
  have hkeys : ((log ++ [c]).map key).toFinset = insert (key c) (log.map key).toFinset := by
    ext k
    simp [eq_comm]
  have hold : ((liveImages key image log).map f).sum =
      ∑ k ∈ insert (key c) (log.map key).toFinset, (latestOf key image log k).elim 0 f := by
    rw [sum_liveImages]
    apply Finset.sum_subset (Finset.subset_insert _ _)
    intro k _ hk
    cases hlatest : latestOf key image log k with
    | none => rfl
    | some b =>
      obtain ⟨d, hd, rfl, -⟩ := mem_of_latestOf key image hlatest
      exact absurd (List.mem_toFinset.2 (List.mem_map_of_mem hd)) hk
  have hothers : ∑ k ∈ (insert (key c) (log.map key).toFinset).erase (key c),
        (latestOf key image (log ++ [c]) k).elim 0 f =
      ∑ k ∈ (insert (key c) (log.map key).toFinset).erase (key c),
        (latestOf key image log k).elim 0 f := by
    apply Finset.sum_congr rfl
    intro k hk
    rw [latestOf_snoc, if_neg (Finset.ne_of_mem_erase hk).symm]
  have hmem := Finset.mem_insert_self (key c) (log.map key).toFinset
  rw [sum_liveImages, hkeys, hold, ← Finset.add_sum_erase _ _ hmem,
    ← Finset.add_sum_erase _ (fun k => (latestOf key image log k).elim 0 f) hmem, hothers,
    latestOf_snoc, if_pos rfl]
  abel

/-- **What the changes add up to**: the live images, and for each change the image that its key had
less the one that the change replaces. -/
theorem sum_changes (before : α → Option β) (log : List α) :
    (log.map fun c => (image c).elim 0 f - (before c).elim 0 f).sum =
      ((liveImages key image log).map f).sum +
        ((withPrevious key image [] log).map fun x =>
          x.1.elim 0 f - (before x.2).elim 0 f).sum := by
  induction log using List.reverseRecOn with
  | nil => exact (add_zero 0).symm
  | append_singleton log c ih =>
    have hsnoc := eq_sub_of_add_eq (sum_liveImages_snoc key image f log c)
    rw [List.map_append, List.sum_append, ih, withPrevious_snoc, List.map_append, List.sum_append,
      List.nil_append, List.map_singleton, List.map_singleton, List.sum_singleton,
      List.sum_singleton, hsnoc]
    abel

end Sums

end KeyedLog

end Lakehouse.Lib
