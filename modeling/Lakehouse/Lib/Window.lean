import Mathlib

/-!
# Row numbers within a window

`row_number() over (partition by key order by ord desc)` on the rows of a bag in the order in which
an engine presents them: rows that tie on the ordering value are numbered in that order, so every
way of breaking ties is the numbering of some presentation. Keeping the rows numbered one keeps for
each key one row with the highest ordering value (`mem_firstPerKey`, `firstPerKey_keys_nodup`,
`exists_firstPerKey`), and a row with the highest value is kept where it is presented first
(`head_mem_firstPerKey`). Rows below another row of their key do not change which rows are kept
(`firstPerKey_filter_perm`).
-/

namespace Lakehouse.Lib

section Window

variable {ρ κ ο : Type*} [DecidableEq κ] [LinearOrder ο] (key : ρ → κ) (ord : ρ → ο)

/-- The number of a row within its key: one more than the rows numbered before it, those with a
higher ordering value and, of the rows that tie with it, those presented earlier. -/
def rowNumber (pre : List ρ) (r : ρ) (post : List ρ) : Nat :=
  1 + pre.countP (fun x => key x = key r ∧ ord r ≤ ord x)
    + post.countP (fun x => key x = key r ∧ ord r < ord x)

/-- Every row after the rows `pre`, with its number. -/
def rowNumbers (pre : List ρ) : List ρ → List (ρ × Nat)
  | [] => []
  | r :: post => (r, rowNumber key ord pre r post) :: rowNumbers (pre ++ [r]) post

/-- The rows numbered one. -/
def firstPerKey (l : List ρ) : List ρ :=
  ((rowNumbers key ord [] l).filter (·.2 = 1)).map Prod.fst

theorem rowNumber_eq_one_iff {pre post : List ρ} {r : ρ} :
    rowNumber key ord pre r post = 1 ↔
      (∀ x ∈ pre, key x = key r → ord x < ord r) ∧
        ∀ x ∈ post, key x = key r → ord x ≤ ord r := by
  have hpre : pre.countP (fun x => decide (key x = key r ∧ ord r ≤ ord x)) = 0 ↔
      ∀ x ∈ pre, key x = key r → ord x < ord r := by
    simp [List.countP_eq_zero]
  have hpost : post.countP (fun x => decide (key x = key r ∧ ord r < ord x)) = 0 ↔
      ∀ x ∈ post, key x = key r → ord x ≤ ord r := by
    simp [List.countP_eq_zero]
  rw [← hpre, ← hpost]
  unfold rowNumber
  omega

theorem mem_rowNumbers {l pre : List ρ} {r : ρ} {n : Nat} :
    (r, n) ∈ rowNumbers key ord pre l ↔
      ∃ l₁ l₂, l = l₁ ++ r :: l₂ ∧ n = rowNumber key ord (pre ++ l₁) r l₂ := by
  induction l generalizing pre with
  | nil => simp [rowNumbers]
  | cons x l ih =>
    simp only [rowNumbers, List.mem_cons, Prod.mk.injEq, ih]
    constructor
    · rintro (⟨rfl, rfl⟩ | ⟨l₁, l₂, rfl, rfl⟩)
      · exact ⟨[], l, rfl, by simp⟩
      · exact ⟨x :: l₁, l₂, rfl, by simp⟩
    · rintro ⟨l₁, l₂, hl, rfl⟩
      cases l₁ with
      | nil =>
        obtain ⟨rfl, rfl⟩ : x = r ∧ l = l₂ := by simpa using hl
        exact .inl ⟨rfl, by simp⟩
      | cons y l₁ =>
        obtain ⟨rfl, rfl⟩ : x = y ∧ l = l₁ ++ r :: l₂ := by simpa using hl
        exact .inr ⟨l₁, l₂, rfl, by simp⟩

/-- **The rows kept.** A row is kept where it is presented before the rows of its key that tie with
it and no row of its key is higher. -/
theorem mem_firstPerKey {l : List ρ} {r : ρ} :
    r ∈ firstPerKey key ord l ↔ ∃ pre post, l = pre ++ r :: post ∧
      (∀ x ∈ pre, key x = key r → ord x < ord r) ∧ ∀ x ∈ post, key x = key r → ord x ≤ ord r := by
  have hmem : r ∈ firstPerKey key ord l ↔ (r, 1) ∈ rowNumbers key ord [] l := by
    unfold firstPerKey
    rw [List.mem_map]
    constructor
    · rintro ⟨⟨x, n⟩, hx, rfl⟩
      obtain ⟨hx, hn⟩ := List.mem_filter.1 hx
      rwa [← of_decide_eq_true hn]
    · intro h
      exact ⟨(r, 1), List.mem_filter.2 ⟨h, by simp⟩, rfl⟩
  rw [hmem, mem_rowNumbers]
  simp only [List.nil_append, eq_comm (a := 1), rowNumber_eq_one_iff]

theorem mem_of_mem_firstPerKey {l : List ρ} {r : ρ} (h : r ∈ firstPerKey key ord l) : r ∈ l := by
  obtain ⟨pre, post, rfl, -⟩ := (mem_firstPerKey key ord).1 h
  simp

theorem le_of_mem_firstPerKey {l : List ρ} {r x : ρ} (h : r ∈ firstPerKey key ord l) (hx : x ∈ l)
    (hk : key x = key r) : ord x ≤ ord r := by
  obtain ⟨pre, post, rfl, hpre, hpost⟩ := (mem_firstPerKey key ord).1 h
  rcases List.mem_append.1 hx with hx | hx
  · exact (hpre x hx hk).le
  · rcases List.mem_cons.1 hx with rfl | hx
    · exact le_rfl
    · exact hpost x hx hk

theorem exists_firstPerKey {l : List ρ} {k : κ} (h : ∃ x ∈ l, key x = k) :
    ∃ r ∈ firstPerKey key ord l, key r = k := by
  suffices hsplit : ∃ pre r post, l = pre ++ r :: post ∧ key r = k ∧
      (∀ x ∈ pre, key x = key r → ord x < ord r) ∧ ∀ x ∈ post, key x = key r → ord x ≤ ord r by
    obtain ⟨pre, r, post, hl, hk, hmax⟩ := hsplit
    exact ⟨r, (mem_firstPerKey key ord).2 ⟨pre, post, hl, hmax⟩, hk⟩
  induction l with
  | nil => obtain ⟨x, hx, -⟩ := h; cases hx
  | cons y l ih =>
    by_cases hl : ∃ x ∈ l, key x = k
    · obtain ⟨pre, r, post, rfl, hk, hpre, hpost⟩ := ih hl
      by_cases hy : key y = key r ∧ ord r ≤ ord y
      · refine ⟨[], y, pre ++ r :: post, rfl, hy.1.trans hk, by simp, ?_⟩
        intro x hx hxk
        rw [hy.1] at hxk
        refine le_trans ?_ hy.2
        rcases List.mem_append.1 hx with hx | hx
        · exact (hpre x hx hxk).le
        · rcases List.mem_cons.1 hx with rfl | hx
          · exact le_rfl
          · exact hpost x hx hxk
      · refine ⟨y :: pre, r, post, rfl, hk, ?_, hpost⟩
        intro x hx hxk
        rcases List.mem_cons.1 hx with rfl | hx
        · exact lt_of_not_ge fun hle => hy ⟨hxk, hle⟩
        · exact hpre x hx hxk
    · obtain ⟨x, hx, hk⟩ := h
      rcases List.mem_cons.1 hx with rfl | hx
      · refine ⟨[], x, l, rfl, hk, by simp, ?_⟩
        intro z hz hzk
        exact absurd ⟨z, hz, hzk.trans hk⟩ hl
      · exact absurd ⟨x, hx, hk⟩ hl

/-- **One row per key.** -/
theorem firstPerKey_keys_nodup (l : List ρ) : ((firstPerKey key ord l).map key).Nodup := by
  suffices h : ∀ pre : List ρ,
      (((rowNumbers key ord pre l).filter (·.2 = 1)).map fun p => key p.1).Nodup by
    simpa [firstPerKey, Function.comp_def] using h []
  induction l with
  | nil => simp [rowNumbers]
  | cons r post ih =>
    intro pre
    by_cases hr : rowNumber key ord pre r post = 1
    · rw [rowNumbers, List.filter_cons_of_pos (by simpa using hr), List.map_cons, List.nodup_cons]
      refine ⟨?_, ih (pre ++ [r])⟩
      intro hmem
      obtain ⟨⟨x, n⟩, hx, hk⟩ := List.mem_map.1 hmem
      obtain ⟨hx, hn⟩ := List.mem_filter.1 hx
      obtain ⟨l₁, l₂, rfl, hnum⟩ := (mem_rowNumbers key ord).1 hx
      -- the earlier row keeps the later one at or below it, the later one the earlier one below
      have hle : ord x ≤ ord r := ((rowNumber_eq_one_iff key ord).1 hr).2 x (by simp) hk
      have hlt : ord r < ord x := by
        have hone : rowNumber key ord (pre ++ [r] ++ l₁) x l₂ = 1 := by
          rw [← hnum]; exact of_decide_eq_true hn
        exact ((rowNumber_eq_one_iff key ord).1 hone).1 r (by simp) hk.symm
      exact absurd hlt hle.not_gt
    · rw [rowNumbers, List.filter_cons_of_neg (by simpa using hr)]
      exact ih (pre ++ [r])

/-- A row presented first is kept when no row of its key is higher. -/
theorem head_mem_firstPerKey {l : List ρ} {r : ρ}
    (h : ∀ x ∈ l, key x = key r → ord x ≤ ord r) : r ∈ firstPerKey key ord (r :: l) :=
  (mem_firstPerKey key ord).2 ⟨[], l, rfl, by simp, h⟩

theorem firstPerKey_nodup (l : List ρ) : (firstPerKey key ord l).Nodup :=
  List.Nodup.of_map key (firstPerKey_keys_nodup key ord l)

/-- **Rows that do not compete.** Rows of which each is below a row that stays may be dropped before
the rows are numbered. -/
theorem firstPerKey_filter_perm {p : ρ → Bool} {l : List ρ}
    (h : ∀ x ∈ l, p x = false → ∃ y ∈ l, p y = true ∧ key y = key x ∧ ord x < ord y) :
    (firstPerKey key ord (l.filter p)).Perm (firstPerKey key ord l) := by
  rw [List.perm_ext_iff_of_nodup (firstPerKey_nodup key ord _) (firstPerKey_nodup key ord _)]
  intro r
  constructor
  · intro hr
    -- a dropped row of the key is below one that stayed, and that one is not above `r`
    have hdropped : ∀ x ∈ l, p x = false → key x = key r → ord x < ord r := by
      intro x hx hpx hk
      obtain ⟨y, hy, hpy, hky, hlt⟩ := h x hx hpx
      exact hlt.trans_le
        (le_of_mem_firstPerKey key ord hr (List.mem_filter.2 ⟨hy, hpy⟩) (hky.trans hk))
    obtain ⟨pre, post, hl, hpre, hpost⟩ := (mem_firstPerKey key ord).1 hr
    obtain ⟨pre', rest, rfl, rfl, hrest⟩ := List.filter_eq_append_iff.1 hl
    obtain ⟨skipped, post', rfl, hskipped, -, rfl⟩ := List.filter_eq_cons_iff.1 hrest
    refine (mem_firstPerKey key ord).2 ⟨pre' ++ skipped, post', by simp, fun x hx hk => ?_,
      fun x hx hk => ?_⟩
    · cases hpx : p x with
      | false => exact hdropped x (by simp only [List.mem_append] at hx ⊢; tauto) hpx hk
      | true =>
        rcases List.mem_append.1 hx with hx | hx
        · exact hpre x (List.mem_filter.2 ⟨hx, hpx⟩) hk
        · exact absurd hpx (hskipped x hx)
    · cases hpx : p x with
      | false => exact (hdropped x (by simp [hx]) hpx hk).le
      | true => exact hpost x (List.mem_filter.2 ⟨hx, hpx⟩) hk
  · intro hr
    have hkept : p r = true := by
      by_contra hpr
      obtain ⟨y, hy, -, hky, hlt⟩ :=
        h r (mem_of_mem_firstPerKey key ord hr) (Bool.eq_false_of_not_eq_true hpr)
      exact absurd (le_of_mem_firstPerKey key ord hr hy hky) hlt.not_ge
    obtain ⟨pre, post, rfl, hpre, hpost⟩ := (mem_firstPerKey key ord).1 hr
    refine (mem_firstPerKey key ord).2 ⟨pre.filter p, post.filter p, ?_, fun x hx hk => ?_,
      fun x hx hk => ?_⟩
    · rw [List.filter_append, List.filter_cons_of_pos hkept]
    · exact hpre x (List.mem_filter.1 hx).1 hk
    · exact hpost x (List.mem_filter.1 hx).1 hk

end Window

end Lakehouse.Lib
