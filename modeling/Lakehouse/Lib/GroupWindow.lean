import Mathlib.Algebra.BigOperators.Group.List.Basic
import Mathlib.Algebra.Group.Basic
import Mathlib.Algebra.Order.Ring.Int
import Mathlib.Data.List.Basic
import Mathlib.Tactic.Abel

/-!
# Group-window aggregates

A tumbling window aggregate over a stream of rows with an event time, whose values are added up in a
commutative group: a retraction is a row with the negated value. A row whose window has closed is
dropped, and a window fires once, when the watermark reaches its end. The pane of an open window is
the sum of all its rows (`pane_run`), so nothing of it was dropped; what fired, what is still open
and what was dropped is the sum of all rows (`run_balance`). Runs that differ in rows of closed
windows and of windows that never fire have the same output (`WindowState.AgreeOn`).
-/

namespace Lakehouse.Lib

/-! ## Panes -/

/-- The panes of a window aggregate, in the order of their windows. -/
structure Panes (M : Type*) where
  entries : List (Int × M)
  sorted : entries.Pairwise fun a b => a.1 < b.1

namespace Panes

variable {M : Type*} [AddCommGroup M]

/-- No pane. -/
def empty : Panes M := ⟨[], .nil⟩

/-- Add to the entry of a window, which is made if it is missing. -/
def addEntry (w : Int) (v : M) : List (Int × M) → List (Int × M)
  | [] => [(w, v)]
  | (w', x) :: es =>
    if w < w' then (w, v) :: (w', x) :: es
    else if w = w' then (w', x + v) :: es
    else (w', x) :: addEntry w v es

theorem mem_addEntry {w : Int} {v : M} {es : List (Int × M)} {e : Int × M}
    (h : e ∈ addEntry w v es) : e.1 = w ∨ e ∈ es := by
  induction es with
  | nil =>
    rw [addEntry, List.mem_singleton] at h
    exact .inl (congrArg Prod.fst h)
  | cons a es ih =>
    obtain ⟨w', x⟩ := a
    unfold addEntry at h
    split at h
    · rcases List.mem_cons.1 h with rfl | h
      · exact .inl rfl
      · exact .inr h
    · split at h
      · next heq =>
        rcases List.mem_cons.1 h with rfl | h
        · exact .inl heq.symm
        · exact .inr (.tail _ h)
      · rcases List.mem_cons.1 h with rfl | h
        · exact .inr (.head _)
        · exact (ih h).imp_right (.tail _)

theorem addEntry_sorted (w : Int) (v : M) {es : List (Int × M)}
    (h : es.Pairwise fun a b => a.1 < b.1) : (addEntry w v es).Pairwise fun a b => a.1 < b.1 := by
  induction es with
  | nil => exact List.pairwise_singleton _ _
  | cons a es ih =>
    obtain ⟨w', x⟩ := a
    obtain ⟨hhead, htail⟩ := List.pairwise_cons.1 h
    unfold addEntry
    split
    · next hlt =>
      refine List.pairwise_cons.2 ⟨fun e he => ?_, h⟩
      rcases List.mem_cons.1 he with rfl | he
      · exact hlt
      · exact hlt.trans (hhead e he)
    · next hge =>
      split
      · exact List.pairwise_cons.2 ⟨hhead, htail⟩
      · next hne =>
        refine List.pairwise_cons.2 ⟨fun e he => ?_, ih htail⟩
        rcases mem_addEntry he with heq | he
        · rw [heq]
          exact lt_of_le_of_ne (not_lt.1 hge) (Ne.symm hne)
        · exact hhead e he

theorem filter_addEntry_of_keep {keep : Int → Bool} {w : Int} (hw : keep w = true) (v : M)
    {es : List (Int × M)} (h : es.Pairwise fun a b => a.1 < b.1) :
    (addEntry w v es).filter (fun e => keep e.1) = addEntry w v (es.filter fun e => keep e.1) := by
  induction es with
  | nil => simp [addEntry, hw]
  | cons a es ih =>
    obtain ⟨w', x⟩ := a
    obtain ⟨hhead, htail⟩ := List.pairwise_cons.1 h
    by_cases hlt : w < w'
    · -- every entry that is kept comes after the new one
      have hfront : ∀ {l : List (Int × M)}, (∀ e ∈ l, w < e.1) → addEntry w v l = (w, v) :: l := by
        intro l hl
        cases l with
        | nil => rfl
        | cons b l => simp [addEntry, hl b (.head _)]
      have hrest : ∀ e ∈ ((w', x) :: es).filter fun e => keep e.1, w < e.1 := by
        intro e he
        rcases List.mem_cons.1 (List.mem_filter.1 he).1 with rfl | he
        · exact hlt
        · exact hlt.trans (hhead e he)
      rw [hfront hrest, addEntry, if_pos hlt, List.filter_cons_of_pos (by exact hw)]
    · by_cases heq : w = w'
      · subst heq
        simp [addEntry, hw]
      · cases hkeep : keep w' <;> simp [addEntry, hlt, heq, hkeep, ih htail]

theorem filter_addEntry_of_drop {keep : Int → Bool} {w : Int} (hw : keep w = false) (v : M)
    (es : List (Int × M)) :
    (addEntry w v es).filter (fun e => keep e.1) = es.filter fun e => keep e.1 := by
  induction es with
  | nil => simp [addEntry, hw]
  | cons a es ih =>
    obtain ⟨w', x⟩ := a
    unfold addEntry
    split
    · simp [hw]
    · split
      · next heq =>
        subst heq
        simp [hw]
      · cases hkeep : keep w' <;> simp [hkeep, ih]

/-- A value is added to the pane of a window. -/
def add (p : Panes M) (w : Int) (v : M) : Panes M :=
  ⟨addEntry w v p.entries, addEntry_sorted w v p.sorted⟩

/-- The panes of some windows. -/
def select (p : Panes M) (keep : Int → Bool) : Panes M :=
  ⟨p.entries.filter fun e => keep e.1, p.sorted.filter _⟩

/-- The value of one window: zero when it has no entry. -/
def pane (p : Panes M) (w : Int) : M := ((p.entries.filter fun e => e.1 = w).map Prod.snd).sum

/-- What all panes add up to. -/
def total (p : Panes M) : M := (p.entries.map Prod.snd).sum

theorem pane_add (p : Panes M) (w : Int) (v : M) (w' : Int) :
    (p.add w v).pane w' = p.pane w' + if w = w' then v else 0 := by
  unfold pane add
  change ((List.filter _ (addEntry w v p.entries)).map Prod.snd).sum = _
  generalize p.entries = es
  induction es with
  | nil => by_cases heq : w = w' <;> simp [addEntry, heq]
  | cons a es ih =>
    obtain ⟨w'', x⟩ := a
    unfold addEntry
    split
    · by_cases heq : w = w' <;> by_cases heq' : w'' = w' <;> simp [heq, heq', add_comm]
    · split
      · next heq =>
        subst heq
        by_cases heq' : w = w' <;> simp [heq', add_right_comm]
      · by_cases heq' : w'' = w' <;> simp [heq', ih, add_assoc]

theorem total_add (p : Panes M) (w : Int) (v : M) : (p.add w v).total = p.total + v := by
  unfold total add
  change ((addEntry w v p.entries).map Prod.snd).sum = _
  generalize p.entries = es
  induction es with
  | nil => simp [addEntry]
  | cons a es ih =>
    obtain ⟨w', x⟩ := a
    unfold addEntry
    split
    · simp [add_comm v, add_assoc]
    · split
      · simp [add_right_comm]
      · simp [ih, add_assoc]

theorem pane_select_of_keep (p : Panes M) {keep : Int → Bool} {w : Int} (h : keep w = true) :
    (p.select keep).pane w = p.pane w := by
  unfold pane select
  rw [List.filter_filter]
  have hpred : (fun e : Int × M => decide (e.1 = w) && keep e.1) = fun e => decide (e.1 = w) := by
    funext e
    by_cases heq : e.1 = w <;> simp [heq, h]
  rw [hpred]

theorem total_select (p : Panes M) (keep : Int → Bool) :
    (p.select keep).total + (p.select fun w => !keep w).total = p.total := by
  unfold total select
  change ((p.entries.filter _).map Prod.snd).sum + ((p.entries.filter _).map Prod.snd).sum = _
  generalize p.entries = es
  induction es with
  | nil => simp
  | cons a es ih => cases hkeep : keep a.1 <;> simp_all [add_assoc, add_left_comm]

theorem entry_eq (p : Panes M) (w : Int) :
    (p.entries.filter fun e => e.1 = w) = [] ∧ p.pane w = 0 ∨
      (p.entries.filter fun e => e.1 = w) = [(w, p.pane w)] := by
  have hsorted : (p.entries.filter fun e => decide (e.1 = w)).Pairwise fun a b => a.1 < b.1 :=
    p.sorted.filter _
  have hkey : ∀ e ∈ p.entries.filter fun e => decide (e.1 = w), e.1 = w := fun e he =>
    of_decide_eq_true (List.mem_filter.1 he).2
  unfold pane
  cases hes : p.entries.filter fun e => decide (e.1 = w) with
  | nil => exact .inl ⟨rfl, rfl⟩
  | cons a es =>
    rw [hes] at hsorted hkey
    cases es with
    | nil =>
      refine .inr ?_
      rw [List.map_singleton, List.sum_singleton, ← hkey a (.head _)]
    | cons b es =>
      have hlt := (List.pairwise_cons.1 hsorted).1 b (.head _)
      rw [hkey a (.head _), hkey b (.tail _ (.head _))] at hlt
      exact absurd hlt (lt_irrefl w)

theorem eq_pane_of_mem (p : Panes M) {e : Int × M} (h : e ∈ p.entries) : e.2 = p.pane e.1 := by
  have hmem : e ∈ p.entries.filter fun e' => e'.1 = e.1 :=
    List.mem_filter.2 ⟨h, decide_eq_true rfl⟩
  rcases p.entry_eq e.1 with ⟨hnil, -⟩ | hone
  · rw [hnil] at hmem
    cases hmem
  · rw [hone, List.mem_singleton] at hmem
    exact congrArg Prod.snd hmem

end Panes

/-! ## Windows -/

/-- The window of an event time, for windows of a given size. -/
def windowOf (size t : Int) : Int := t / size

/-- Where a window starts. -/
def windowStart (size w : Int) : Int := w * size

/-- Where a window ends, which belongs to the next one. -/
def windowEnd (size w : Int) : Int := (w + 1) * size

theorem lt_windowEnd {size : Int} (hsize : 0 < size) (t : Int) :
    t < windowEnd size (windowOf size t) := Int.lt_ediv_add_one_mul_self t hsize

/-- The watermark has reached the end of the window. -/
def closed (size : Int) (watermark : Option Int) (w : Int) : Bool :=
  watermark.any fun m => decide (windowEnd size w ≤ m)

/-! ## Runs -/

/-- What a window aggregate is given. -/
inductive WindowEvent (M : Type*) where
  | row (t : Int) (v : M)
  | watermark (m : Int)

/-- The watermark, which never goes back, and the panes of the open windows. -/
structure WindowState (M : Type*) where
  watermark : Option Int
  panes : Panes M

/-- A watermark that is not ahead changes nothing. -/
def raise (watermark : Option Int) (m : Int) : Option Int := some (watermark.elim m (max m))

section Runs

variable {M : Type*} [AddCommGroup M] (size : Int)

/-- The state before the first event: no watermark and no pane. -/
def WindowState.init : WindowState M := ⟨none, .empty⟩

/-- One event: the next state, and the windows that fire. -/
def WindowState.step (s : WindowState M) : WindowEvent M → WindowState M × List (Int × M)
  | .row t v =>
    if closed size s.watermark (windowOf size t) then (s, [])
    else ({ s with panes := s.panes.add (windowOf size t) v }, [])
  | .watermark m =>
    let watermark := raise s.watermark m
    (⟨watermark, s.panes.select fun w => !closed size watermark w⟩,
      (s.panes.select fun w => closed size watermark w).entries)

/-- The state after some events, and the panes that were emitted on the way. -/
def WindowState.run (s : WindowState M) : List (WindowEvent M) → WindowState M × List (Int × M)
  | [] => (s, [])
  | e :: es =>
    let next := s.step size e
    let rest := WindowState.run next.1 es
    (rest.1, next.2 ++ rest.2)

/-- What an event adds to a window, late or not. -/
def WindowEvent.valueIn (w : Int) : WindowEvent M → M
  | .row t v => if windowOf size t = w then v else 0
  | .watermark _ => 0

/-- What an event adds to its window, late or not. -/
def WindowEvent.value : WindowEvent M → M
  | .row _ v => v
  | .watermark _ => 0

/-- The value an event loses because its window has closed. -/
def WindowState.lateIn (s : WindowState M) : WindowEvent M → M
  | .row t v => if closed size s.watermark (windowOf size t) then v else 0
  | .watermark _ => 0

/-- The sum of the rows that a run drops. -/
def WindowState.late (s : WindowState M) : List (WindowEvent M) → M
  | [] => 0
  | e :: es => s.lateIn size e + WindowState.late (s.step size e).1 es

theorem run_append (s : WindowState M) (es es' : List (WindowEvent M)) :
    s.run size (es ++ es') = (((s.run size es).1.run size es').1,
      (s.run size es).2 ++ ((s.run size es).1.run size es').2) := by
  induction es generalizing s with
  | nil => rfl
  | cons e es ih => simp only [List.cons_append, WindowState.run, ih, List.append_assoc]

theorem late_append (s : WindowState M) (es es' : List (WindowEvent M)) :
    s.late size (es ++ es') = s.late size es + (s.run size es).1.late size es' := by
  induction es generalizing s with
  | nil => exact (zero_add _).symm
  | cons e es ih => simp only [List.cons_append, WindowState.late, WindowState.run, ih, add_assoc]

theorem closed_raise {watermark : Option Int} {w : Int} (m : Int)
    (h : closed size watermark w = true) : closed size (raise watermark m) w = true := by
  cases watermark with
  | none => cases h
  | some m' => exact decide_eq_true ((of_decide_eq_true h).trans (le_max_right m m'))

theorem closed_raise_self (watermark : Option Int) {w m : Int} (h : windowEnd size w ≤ m) :
    closed size (raise watermark m) w = true := by
  cases watermark with
  | none => exact decide_eq_true h
  | some m' => exact decide_eq_true (h.trans (le_max_left m m'))

@[simp] theorem step_row_watermark (s : WindowState M) (t : Int) (v : M) :
    (s.step size (.row t v)).1.watermark = s.watermark := by
  unfold WindowState.step
  dsimp only
  split <;> rfl

theorem closed_step {s : WindowState M} {w : Int} (e : WindowEvent M)
    (h : closed size s.watermark w = true) :
    closed size (s.step size e).1.watermark w = true := by
  cases e with
  | row t v => rwa [step_row_watermark]
  | watermark m => exact closed_raise size m h

theorem closed_run {s : WindowState M} {w : Int} (es : List (WindowEvent M))
    (h : closed size s.watermark w = true) :
    closed size (s.run size es).1.watermark w = true := by
  induction es generalizing s with
  | nil => exact h
  | cons e es ih => exact ih (closed_step size e h)

/-- One event adds its value to the pane of its window, as long as that is open. -/
theorem pane_step {s : WindowState M} {w : Int} (e : WindowEvent M)
    (h : closed size (s.step size e).1.watermark w = false) :
    (s.step size e).1.panes.pane w = s.panes.pane w + e.valueIn size w := by
  cases e with
  | row t v =>
    by_cases hclosed : closed size s.watermark (windowOf size t) = true
    · simp only [WindowState.step, hclosed, if_true] at h ⊢
      have hne : windowOf size t ≠ w := by
        rintro rfl
        rw [hclosed] at h
        cases h
      simp [WindowEvent.valueIn, hne]
    · simp only [WindowState.step, hclosed, if_false, Bool.false_eq_true]
      exact Panes.pane_add _ _ _ _
  | watermark m =>
    have hopen : closed size (raise s.watermark m) w = false := h
    change (s.panes.select _).pane w = _
    rw [Panes.pane_select_of_keep _ (by simp [hopen])]
    exact (add_zero _).symm

/-- **The pane of an open window is the sum of all its rows.** -/
theorem pane_run {s : WindowState M} {w : Int} (es : List (WindowEvent M))
    (h : closed size (s.run size es).1.watermark w = false) :
    (s.run size es).1.panes.pane w = s.panes.pane w + (es.map (·.valueIn size w)).sum := by
  induction es generalizing s with
  | nil => simp [WindowState.run]
  | cons e es ih =>
    have hstep : closed size (s.step size e).1.watermark w = false := by
      by_contra hclosed
      have hlast := closed_run size es (Bool.not_eq_false _ ▸ hclosed)
      rw [WindowState.run] at h
      rw [hlast] at h
      cases h
    rw [WindowState.run, ih h, pane_step size e hstep, List.map_cons, List.sum_cons, add_assoc]

theorem entries_open {s : WindowState M}
    (h : ∀ e ∈ s.panes.entries, closed size s.watermark e.1 = false) (es : List (WindowEvent M)) :
    ∀ e ∈ (s.run size es).1.panes.entries,
      closed size (s.run size es).1.watermark e.1 = false := by
  induction es generalizing s with
  | nil => exact h
  | cons a es ih =>
    apply ih
    cases a with
    | row t v =>
      rw [step_row_watermark]
      intro e he
      by_cases hclosed : closed size s.watermark (windowOf size t) = true
      · simp only [WindowState.step, hclosed, if_true] at he
        exact h e he
      · simp only [WindowState.step, hclosed, if_false, Bool.false_eq_true] at he
        rcases Panes.mem_addEntry he with heq | he
        · rw [heq]
          exact Bool.not_eq_true _ ▸ hclosed
        · exact h e he
    | watermark m =>
      intro e he
      exact Bool.not_eq_true' _ ▸ (List.mem_filter.1 he).2

theorem closed_of_mem_output {s : WindowState M} (es : List (WindowEvent M)) :
    ∀ e ∈ (s.run size es).2, closed size (s.run size es).1.watermark e.1 = true := by
  induction es generalizing s with
  | nil => nofun
  | cons a es ih =>
    intro e he
    rcases List.mem_append.1 he with he | he
    · apply closed_run size es
      cases a with
      | row t v =>
        unfold WindowState.step at he
        dsimp only at he
        split at he <;> cases he
      | watermark m => exact (List.mem_filter.1 he).2
    · exact ih e he

theorem ne_of_mem_output {s : WindowState M} {w : Int}
    (h : ∀ e ∈ s.panes.entries, closed size s.watermark e.1 = false)
    (hw : closed size s.watermark w = true) (es : List (WindowEvent M)) :
    ∀ e ∈ (s.run size es).2, e.1 ≠ w := by
  induction es generalizing s with
  | nil => nofun
  | cons a es ih =>
    intro e he
    rcases List.mem_append.1 he with he | he
    · cases a with
      | row t v =>
        unfold WindowState.step at he
        dsimp only at he
        split at he <;> cases he
      | watermark m =>
        rintro rfl
        have hopen := h e (List.mem_filter.1 he).1
        rw [hw] at hopen
        cases hopen
    · exact ih (entries_open size h [a]) (closed_step size a hw) e he

/-- **A window fires once**: over a run in which it is open before a watermark and closed after it,
the output for the window is its pane at that point. -/
theorem output_of_window {s : WindowState M} {w m : Int}
    (h : ∀ e ∈ s.panes.entries, closed size s.watermark e.1 = false)
    (es later : List (WindowEvent M))
    (hopen : closed size (s.run size es).1.watermark w = false)
    (hfires : closed size (raise (s.run size es).1.watermark m) w = true) :
    ((s.run size (es ++ .watermark m :: later)).2.filter fun e => e.1 = w) =
      (s.run size es).1.panes.entries.filter fun e => e.1 = w := by
  have hbefore : ((s.run size es).2.filter fun e => decide (e.1 = w)) = [] := by
    apply List.filter_eq_nil_iff.2
    intro e he heq
    have hclosed := closed_of_mem_output size es e he
    rw [of_decide_eq_true heq, hopen] at hclosed
    cases hclosed
  have hlater : ((((s.run size es).1.step size (.watermark m)).1.run size later).2.filter
      fun e => decide (e.1 = w)) = [] :=
    List.filter_eq_nil_iff.2 fun e he heq =>
      ne_of_mem_output size (entries_open size (entries_open size h es) [.watermark m]) hfires later
        e he (of_decide_eq_true heq)
  rw [run_append, List.filter_append, hbefore, List.nil_append, WindowState.run, List.filter_append,
    hlater, List.append_nil]
  change List.filter _ (List.filter _ _) = _
  rw [List.filter_filter]
  apply List.filter_congr
  intro e _
  by_cases heq : e.1 = w
  · simp [heq, hfires]
  · simp [heq]

/-- One event: what it is worth goes to a pane, to the output or is lost. -/
theorem step_balance (s : WindowState M) (e : WindowEvent M) :
    ((s.step size e).2.map Prod.snd).sum + (s.step size e).1.panes.total + s.lateIn size e =
      s.panes.total + e.value := by
  cases e with
  | row t v =>
    by_cases hclosed : closed size s.watermark (windowOf size t) = true
    · simp [WindowState.step, WindowState.lateIn, WindowEvent.value, hclosed]
    · simp [WindowState.step, WindowState.lateIn, WindowEvent.value, hclosed, Panes.total_add]
  | watermark m =>
    have hsplit := Panes.total_select s.panes fun w => closed size (raise s.watermark m) w
    simpa [WindowState.step, WindowState.lateIn, WindowEvent.value, Panes.total] using hsplit

/-- **Nothing is lost or doubled** but the rows of closed windows. -/
theorem run_balance (s : WindowState M) (es : List (WindowEvent M)) :
    ((s.run size es).2.map Prod.snd).sum + (s.run size es).1.panes.total + s.late size es =
      s.panes.total + (es.map WindowEvent.value).sum := by
  induction es generalizing s with
  | nil => simp [WindowState.run, WindowState.late]
  | cons e es ih =>
    have hrest := ih (s.step size e).1
    have hstep := step_balance size s e
    simp only [WindowState.run, WindowState.late, List.map_append, List.sum_append, List.map_cons,
      List.sum_cons]
    calc ((s.step size e).2.map Prod.snd).sum + (((s.step size e).1.run size es).2.map Prod.snd).sum
          + ((s.step size e).1.run size es).1.panes.total
          + (s.lateIn size e + (s.step size e).1.late size es)
        = ((s.step size e).2.map Prod.snd).sum + s.lateIn size e
          + ((((s.step size e).1.run size es).2.map Prod.snd).sum
            + ((s.step size e).1.run size es).1.panes.total + (s.step size e).1.late size es) := by
          abel
      _ = ((s.step size e).2.map Prod.snd).sum + (s.step size e).1.panes.total + s.lateIn size e
          + (es.map WindowEvent.value).sum := by rw [hrest]; abel
      _ = s.panes.total + (e.value + (es.map WindowEvent.value).sum) := by
          rw [hstep, add_assoc]

/-! ## Rows that make no difference -/

/-- Two states with the same watermark and the same panes for some of the windows. -/
def WindowState.AgreeOn (windows : Int → Bool) (s s' : WindowState M) : Prop :=
  s.watermark = s'.watermark ∧
    (s.panes.entries.filter fun e => windows e.1) = s'.panes.entries.filter fun e => windows e.1

variable {size} {windows : Int → Bool} {s s' : WindowState M}

theorem WindowState.AgreeOn.step (h : s.AgreeOn windows s') (e : WindowEvent M) :
    (s.step size e).1.AgreeOn windows (s'.step size e).1 := by
  obtain ⟨hwatermark, hpanes⟩ := h
  cases e with
  | row t v =>
    refine ⟨by rw [step_row_watermark, step_row_watermark, hwatermark], ?_⟩
    simp only [WindowState.step, hwatermark]
    split
    · exact hpanes
    · change List.filter _ (Panes.addEntry _ _ _) = List.filter _ (Panes.addEntry _ _ _)
      by_cases hw : windows (windowOf size t) = true
      · rw [Panes.filter_addEntry_of_keep hw v s.panes.sorted,
          Panes.filter_addEntry_of_keep hw v s'.panes.sorted, hpanes]
      · rw [Panes.filter_addEntry_of_drop (by simpa using hw),
          Panes.filter_addEntry_of_drop (by simpa using hw), hpanes]
  | watermark m =>
    refine ⟨by simp [WindowState.step, hwatermark], ?_⟩
    change List.filter _ (List.filter _ _) = List.filter _ (List.filter _ _)
    rw [List.filter_comm, hpanes, List.filter_comm, hwatermark]

theorem WindowState.AgreeOn.output (h : s.AgreeOn windows s') (e : WindowEvent M)
    (hclosed : ∀ w, closed size (s.step size e).1.watermark w = true → windows w = true) :
    (s.step size e).2 = (s'.step size e).2 := by
  obtain ⟨hwatermark, hpanes⟩ := h
  cases e with
  | row t v =>
    simp only [WindowState.step, hwatermark]
    split <;> rfl
  | watermark m =>
    have hfires : ∀ p : Panes M, (p.entries.filter fun e => closed size (raise s.watermark m) e.1) =
        (p.entries.filter fun e => windows e.1).filter
          fun e => closed size (raise s.watermark m) e.1 := by
      intro p
      rw [List.filter_filter]
      apply List.filter_congr
      intro e _
      cases hfire : closed size (raise s.watermark m) e.1 with
      | false => rfl
      | true => exact (hclosed e.1 hfire).symm
    change (s.panes.entries.filter _) = s'.panes.entries.filter _
    rw [← hwatermark, hfires, hpanes, ← hfires]

theorem WindowState.AgreeOn.run (h : s.AgreeOn windows s') (es : List (WindowEvent M))
    (hclosed : ∀ w, closed size (s.run size es).1.watermark w = true → windows w = true) :
    (s.run size es).1.AgreeOn windows (s'.run size es).1 ∧
      (s.run size es).2 = (s'.run size es).2 := by
  induction es generalizing s s' with
  | nil => exact ⟨h, rfl⟩
  | cons e es ih =>
    obtain ⟨hagree, hout⟩ := ih (h.step e) hclosed
    refine ⟨hagree, congrArg₂ (· ++ ·) (h.output e fun w hw => ?_) hout⟩
    exact hclosed w (closed_run size es hw)

/-- A row makes no difference to windows that have closed or are not among those compared. -/
theorem WindowState.AgreeOn.row (h : s.AgreeOn windows s') {t : Int} (v : M)
    (hrow : closed size s.watermark (windowOf size t) = true ∨ windows (windowOf size t) = false) :
    (s.step size (.row t v)).1.AgreeOn windows s' := by
  refine ⟨by rw [step_row_watermark, h.1], ?_⟩
  rw [← h.2]
  simp only [WindowState.step]
  split
  · rfl
  · next hopen =>
    exact Panes.filter_addEntry_of_drop (hrow.resolve_left hopen) v s.panes.entries

end Runs

end Lakehouse.Lib
