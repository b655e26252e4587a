import Lakehouse.Lib.KeyedLog
import Mathlib.Data.Multiset.ZeroCons

/-!
# Tables and their logs

A log of keyed changes replays a table when the rows of the table, one for each key, are the images
of the latest changes (`Replays`). Writing a row and the change of it together keeps that: an insert
(`Replays.insert`), an update in place (`Replays.modify`) and a change that repeats the row as it is
(`Replays.touch`). A table without deletes also has every key that its log ever had, with a column
that no update changes (`Tracks`).
-/

namespace Lakehouse.Lib

section TableLog

variable {α β κ : Type*} [DecidableEq κ] (key : α → κ) (image : α → Option β) (rowKey : β → κ)

/-- The rows are the images of the latest changes, each under its key. -/
structure Replays (log : List α) (rows : List β) : Prop where
  nodup : (rows.map rowKey).Nodup
  mem_iff : ∀ b, b ∈ rows ↔ latestOf key image log (rowKey b) = some b

/-- An update of the rows with a key. -/
def modifyKey (k : κ) (set : β → β) (rows : List β) : List β :=
  rows.map fun b => if rowKey b = k then set b else b

variable {key image rowKey} {log : List α} {rows : List β} {c : α} {b : β}

theorem mem_modifyKey {k : κ} {set : β → β} {b' : β} :
    b' ∈ modifyKey rowKey k set rows ↔ ∃ b ∈ rows, (if rowKey b = k then set b else b) = b' :=
  List.mem_map

theorem map_modifyKey {γ : Type*} {f : β → γ} {k : κ} {set : β → β} (hset : ∀ b, f (set b) = f b)
    (rows : List β) : (modifyKey rowKey k set rows).map f = rows.map f := by
  rw [modifyKey, List.map_map]
  apply List.map_congr_left
  intro b _
  simp only [Function.comp_apply, apply_ite f, hset, ite_self]

/-- The change that left the latest image of a key. -/
theorem exists_last {k : κ} (h : latestOf key image log k = some b) :
    ∃ before c after, log = before ++ c :: after ∧ key c = k ∧ image c = some b ∧
      ∀ c' ∈ after, key c' ≠ k := by
  induction log using List.reverseRecOn with
  | nil => cases h
  | append_singleton log c ih =>
    rw [latestOf_snoc] at h
    by_cases hk : key c = k
    · rw [if_pos hk] at h
      exact ⟨log, c, [], rfl, hk, h, fun _ hc' => absurd hc' List.not_mem_nil⟩
    · rw [if_neg hk] at h
      obtain ⟨before, c', after, rfl, hk', himage, hafter⟩ := ih h
      refine ⟨before, c', after ++ [c], by simp, hk', himage, fun d hd => ?_⟩
      rcases List.mem_append.1 hd with hd | hd
      · exact hafter d hd
      · rw [List.mem_singleton.1 hd]
        exact hk

theorem replays_nil : Replays key image rowKey ([] : List α) [] :=
  ⟨List.nodup_nil, fun _ => iff_of_false List.not_mem_nil nofun⟩

theorem Replays.eq_of_key (h : Replays key image rowKey log rows) {b' : β} (hb : b ∈ rows)
    (hb' : b' ∈ rows) (hk : rowKey b' = rowKey b) : b' = b := by
  have himage := (h.mem_iff b').1 hb'
  rw [hk, (h.mem_iff b).1 hb] at himage
  exact (Option.some.inj himage).symm

/-- A change of a key that the table does not have inserts its image. -/
theorem Replays.insert (h : Replays key image rowKey log rows) (hkey : key c = rowKey b)
    (himage : image c = some b) (hfresh : ∀ b' ∈ rows, rowKey b' ≠ rowKey b) :
    Replays key image rowKey (log ++ [c]) (rows ++ [b]) := by
  constructor
  · rw [List.map_append, List.map_singleton, ← List.concat_eq_append]
    refine h.nodup.concat fun hmem => ?_
    obtain ⟨b', hb', hk⟩ := List.mem_map.1 hmem
    exact hfresh b' hb' hk
  · intro b'
    rw [List.mem_append, List.mem_singleton, latestOf_snoc, hkey, himage]
    by_cases hk : rowKey b = rowKey b'
    · rw [if_pos hk, Option.some.injEq]
      constructor
      · rintro (hmem | rfl)
        · exact absurd hk.symm (hfresh b' hmem)
        · rfl
      · rintro rfl
        exact .inr rfl
    · rw [if_neg hk, ← h.mem_iff]
      refine ⟨fun hor => hor.resolve_right ?_, .inl⟩
      rintro rfl
      exact hk rfl

/-- A change of a row of the table leaves the image in its place. -/
theorem Replays.modify (h : Replays key image rowKey log rows) (hb : b ∈ rows)
    {set : β → β} (hset : ∀ b, rowKey (set b) = rowKey b) (hkey : key c = rowKey b)
    (himage : image c = some (set b)) :
    Replays key image rowKey (log ++ [c]) (modifyKey rowKey (rowKey b) set rows) := by
  constructor
  · rw [map_modifyKey hset]
    exact h.nodup
  · intro b'
    rw [mem_modifyKey, latestOf_snoc, hkey, himage]
    by_cases hk : rowKey b = rowKey b'
    · rw [if_pos hk, Option.some.injEq]
      constructor
      · rintro ⟨x, hx, rfl⟩
        have hxk : rowKey x = rowKey b := by
          split at hk
          · next hxk => exact hxk
          · exact hk.symm
        rw [if_pos hxk, h.eq_of_key hb hx hxk]
      · rintro rfl
        exact ⟨b, hb, if_pos rfl⟩
    · rw [if_neg hk, ← h.mem_iff]
      constructor
      · rintro ⟨x, hx, rfl⟩
        split at hk
        · next hxk => exact absurd (hxk.symm.trans (hset x).symm) hk
        · next hxk =>
          rw [if_neg hxk]
          exact hx
      · intro hmem
        exact ⟨b', hmem, if_neg fun hk' => hk hk'.symm⟩

/-- A change that repeats a row as it is. -/
theorem Replays.touch (h : Replays key image rowKey log rows) (hb : b ∈ rows)
    (hkey : key c = rowKey b) (himage : image c = some b) :
    Replays key image rowKey (log ++ [c]) rows := by
  refine ⟨h.nodup, fun b' => ?_⟩
  rw [latestOf_snoc, hkey, himage, h.mem_iff]
  by_cases hk : rowKey b = rowKey b'
  · rw [if_pos hk, ← hk, (h.mem_iff b).1 hb]
  · rw [if_neg hk]

/-! ## Tables without deletes -/

variable (key image rowKey) in
/-- Every change leaves an image, whose key is in the table with the same fixed column. -/
structure Tracks {γ : Type*} (fixed : β → γ) (log : List α) (rows : List β) : Prop
    extends Replays key image rowKey log rows where
  images : ∀ c ∈ log, ∃ b, image c = some b ∧ ∃ b' ∈ rows, rowKey b' = rowKey b ∧ fixed b' = fixed b

section Tracks

variable {γ : Type*} {fixed : β → γ}

theorem tracks_nil : Tracks key image rowKey fixed ([] : List α) [] :=
  ⟨replays_nil, fun _ hc => absurd hc List.not_mem_nil⟩

/-- A longer log has the rows of the table, with their keys and their fixed columns. -/
theorem Tracks.grow (h : Tracks key image rowKey fixed log rows) {log' : List α} {rows' : List β}
    (h' : Tracks key image rowKey fixed log' rows') (hsub : log ⊆ log') (hb : b ∈ rows) :
    ∃ b' ∈ rows', rowKey b' = rowKey b ∧ fixed b' = fixed b := by
  obtain ⟨c, hc, -, himage⟩ := mem_of_latestOf key image ((h.mem_iff b).1 hb)
  obtain ⟨x, hx, b', hb', hcols⟩ := h'.images c (hsub hc)
  obtain rfl := Option.some.inj (hx.symm.trans himage)
  exact ⟨b', hb', hcols⟩

theorem Tracks.insert (h : Tracks key image rowKey fixed log rows) (hkey : key c = rowKey b)
    (himage : image c = some b) (hfresh : ∀ b' ∈ rows, rowKey b' ≠ rowKey b) :
    Tracks key image rowKey fixed (log ++ [c]) (rows ++ [b]) := by
  refine ⟨h.toReplays.insert hkey himage hfresh, fun d hd => ?_⟩
  rcases List.mem_append.1 hd with hd | hd
  · obtain ⟨x, hx, r, hr, hcols⟩ := h.images d hd
    exact ⟨x, hx, r, List.mem_append_left _ hr, hcols⟩
  · obtain rfl := List.mem_singleton.1 hd
    exact ⟨b, himage, b, List.mem_append_right _ (.head _), rfl, rfl⟩

theorem Tracks.modify (h : Tracks key image rowKey fixed log rows) (hb : b ∈ rows) {set : β → β}
    (hset : ∀ b, rowKey (set b) = rowKey b) (hfixed : ∀ b, fixed (set b) = fixed b)
    (hkey : key c = rowKey b) (himage : image c = some (set b)) :
    Tracks key image rowKey fixed (log ++ [c]) (modifyKey rowKey (rowKey b) set rows) := by
  have hkept : ∀ r ∈ rows, ∃ r' ∈ modifyKey rowKey (rowKey b) set rows,
      rowKey r' = rowKey r ∧ fixed r' = fixed r := by
    intro r hr
    refine ⟨_, mem_modifyKey.2 ⟨r, hr, rfl⟩, ?_⟩
    split
    · exact ⟨hset r, hfixed r⟩
    · exact ⟨rfl, rfl⟩
  refine ⟨h.toReplays.modify hb hset hkey himage, fun d hd => ?_⟩
  rcases List.mem_append.1 hd with hd | hd
  · obtain ⟨x, hx, r, hr, hrk, hrf⟩ := h.images d hd
    obtain ⟨r', hr', hrk', hrf'⟩ := hkept r hr
    exact ⟨x, hx, r', hr', hrk'.trans hrk, hrf'.trans hrf⟩
  · obtain rfl := List.mem_singleton.1 hd
    obtain ⟨r', hr', hrk', hrf'⟩ := hkept b hb
    exact ⟨set b, himage, r', hr', hrk'.trans (hset b).symm, hrf'.trans (hfixed b).symm⟩

/-- An update of the rows with a key, with one change for each of them. -/
theorem Tracks.modifyKey (h : Tracks key image rowKey fixed log rows) (k : κ) {set : β → β}
    {change : β → α} (hset : ∀ b, rowKey (set b) = rowKey b) (hfixed : ∀ b, fixed (set b) = fixed b)
    (hkey : ∀ b, key (change b) = rowKey b) (himage : ∀ b, image (change b) = some (set b)) :
    Tracks key image rowKey fixed (log ++ (rows.filter fun b => rowKey b = k).map change)
      (modifyKey rowKey k set rows) := by
  by_cases hmem : ∃ b ∈ rows, rowKey b = k
  · obtain ⟨b, hb, rfl⟩ := hmem
    have honly : rows.filter (fun b' => rowKey b' = rowKey b) = [b] := by
      obtain ⟨before, after, rfl⟩ := List.append_of_mem hb
      have hother : ∀ b' ∈ before ++ after, rowKey b' ≠ rowKey b := by
        have hnodup := h.nodup
        rw [List.map_append, List.map_cons, List.nodup_middle, ← List.map_append,
          List.nodup_cons] at hnodup
        exact fun b' hb' hk => hnodup.1 (List.mem_map.2 ⟨b', hb', hk⟩)
      have hnone : ∀ l : List β, (∀ b' ∈ l, rowKey b' ≠ rowKey b) →
          l.filter (fun b' => rowKey b' = rowKey b) = [] := fun l hl =>
        List.filter_eq_nil_iff.2 fun b' hb' => by simpa using hl b' hb'
      rw [List.filter_append, List.filter_cons_of_pos (by simp),
        hnone before fun b' hb' => hother b' (List.mem_append_left _ hb'),
        hnone after fun b' hb' => hother b' (List.mem_append_right _ hb')]
      rfl
    rw [honly]
    exact h.modify hb hset hfixed (hkey b) (himage b)
  · have hnone : ∀ b ∈ rows, rowKey b ≠ k := fun b hb hk => hmem ⟨b, hb, hk⟩
    have hrows : Lib.modifyKey rowKey k set rows = rows := by
      refine (List.map_congr_left fun b hb => ?_).trans (List.map_id _)
      exact if_neg (hnone b hb)
    rw [hrows, List.filter_eq_nil_iff.2 fun b hb => by simpa using hnone b hb, List.map_nil,
      List.append_nil]
    exact h

/-- Repeating rows of the table, one change for each. -/
theorem Tracks.touch (h : Tracks key image rowKey fixed log rows) {change : β → α} {seen : List β}
    (hseen : ∀ b ∈ seen, b ∈ rows) (hkey : ∀ b, key (change b) = rowKey b)
    (himage : ∀ b, image (change b) = some b) :
    Tracks key image rowKey fixed (log ++ seen.map change) rows := by
  induction seen generalizing log with
  | nil => simpa using h
  | cons b seen ih =>
    obtain ⟨hb, hseen⟩ := List.forall_mem_cons.1 hseen
    have hnext : Tracks key image rowKey fixed (log ++ [change b]) rows := by
      refine ⟨h.toReplays.touch hb (hkey b) (himage b), fun d hd => ?_⟩
      rcases List.mem_append.1 hd with hd | hd
      · exact h.images d hd
      · obtain rfl := List.mem_singleton.1 hd
        exact ⟨b, himage b, b, hb, rfl, rfl⟩
    have hrest := ih hnext hseen
    rwa [List.append_assoc] at hrest

/-- Reading a table whose keys are unique. -/
theorem tracks_snapshot {change : β → α} (hnodup : (rows.map rowKey).Nodup)
    (hkey : ∀ b, key (change b) = rowKey b) (himage : ∀ b, image (change b) = some b) :
    Tracks key image rowKey fixed (rows.map change) rows := by
  induction rows using List.reverseRecOn with
  | nil => exact tracks_nil
  | append_singleton rows b ih =>
    rw [List.map_append, List.map_singleton] at hnodup
    obtain ⟨hrows, -, hdisjoint⟩ := List.nodup_append.1 hnodup
    rw [List.map_append, List.map_singleton]
    refine (ih hrows).insert (hkey b) (himage b) fun b' hb' => ?_
    exact hdisjoint _ (List.mem_map_of_mem hb') _ (List.mem_singleton_self _)

end Tracks

/-! ## Logs with more than the changes -/

section Entries

variable {ε : Type*} (f : ε → α) {entries : List ε}

theorem latestOf_map (k : κ) : latestOf (key ∘ f) (image ∘ f) entries k =
    latestOf key image (entries.map f) k := by
  unfold latestOf changesOf
  rw [List.filter_map, List.getLast?_map, Option.bind_map]
  rfl

theorem tracks_map {γ : Type*} {fixed : β → γ} (h : Tracks key image rowKey fixed (entries.map f) rows) :
    Tracks (key ∘ f) (image ∘ f) rowKey fixed entries rows := by
  refine ⟨⟨h.nodup, fun b => ?_⟩, fun e he => h.images (f e) (List.mem_map_of_mem he)⟩
  rw [latestOf_map]
  exact h.mem_iff b

end Entries

end TableLog

end Lakehouse.Lib
