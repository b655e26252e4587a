import Mathlib.Data.List.Basic

/-!
# Chains of tasks

Tasks one after the other on a state. A task runs when the task before it succeeded; when one fails,
those after it do not run and take its failure over. The states of a chain are successes up to the
first failure (`chainStates`), and what the tasks reach one after the other the chain reaches
(`runTasks_rule`).

A task may be a script of writes that ends at the first write that fails; what it has written before
stays. `runWrites_spec` carries an invariant over the writes that are done.
-/

namespace Lakehouse.Lib

/-- How a task ends. -/
inductive TaskState where
  | success
  | failed
  | upstreamFailed
deriving DecidableEq

section TaskChain

variable {σ : Type*}

/-- The states of the tasks, and what the tasks that ran leave. -/
def runTasks : List (σ → Bool × σ) → σ → List TaskState × σ
  | [], s => ([], s)
  | task :: tasks, s =>
    let (succeeded, s) := task s
    if succeeded then
      let (states, s) := runTasks tasks s
      (.success :: states, s)
    else (.failed :: tasks.map fun _ => .upstreamFailed, s)

variable {task : σ → Bool × σ} {tasks : List (σ → Bool × σ)} {s : σ}

theorem runTasks_of_success (h : (task s).1 = true) :
    runTasks (task :: tasks) s =
      (.success :: (runTasks tasks (task s).2).1, (runTasks tasks (task s).2).2) := by
  simp [runTasks, h]

theorem runTasks_of_failure (h : (task s).1 = false) :
    runTasks (task :: tasks) s = (.failed :: tasks.map fun _ => .upstreamFailed, (task s).2) := by
  simp [runTasks, h]

/-- The states of a chain of `n` tasks of which `k` succeed. -/
def chainStates (n k : Nat) : List TaskState :=
  if k < n then List.replicate k .success ++ .failed :: List.replicate (n - k - 1) .upstreamFailed
  else List.replicate n .success

theorem chainStates_succ (n k : Nat) :
    chainStates (n + 1) (k + 1) = .success :: chainStates n k := by
  by_cases hk : k < n
  · simp [chainStates, hk, List.replicate_succ]
  · simp [chainStates, hk, List.replicate_succ]

theorem chainStates_getElem {n k i : Nat} (hi : i < n) :
    (chainStates n k)[i]? = some .success ↔ i < k := by
  unfold chainStates
  split
  · next hk =>
    by_cases hik : i < k
    · rw [List.getElem?_append_left (by simpa using hik)]
      simp [hik]
    · obtain ⟨m, rfl⟩ := Nat.exists_eq_add_of_le (Nat.not_lt.1 hik)
      cases m with
      | zero => simp
      | succ m =>
        have hm : m < n - k - 1 := by omega
        simp [hm]
  · next hk =>
    have hik : i < k := by omega
    simp [hi, hik]

/-- **The rule of a chain.** Every task leads from what is reached before it to what is reached with
it, or fails. -/
theorem runTasks_rule {reached failed : Nat → σ → Prop}
    (hstep : ∀ i task, tasks[i]? = some task → ∀ s, reached i s →
      ((task s).1 = true → reached (i + 1) (task s).2) ∧
        ((task s).1 = false → failed i (task s).2))
    (hs : reached 0 s) :
    ∃ k ≤ tasks.length, (runTasks tasks s).1 = chainStates tasks.length k ∧
      (k < tasks.length → failed k (runTasks tasks s).2) ∧
        (k = tasks.length → reached k (runTasks tasks s).2) := by
  induction tasks generalizing reached failed s with
  | nil => exact ⟨0, Nat.le_refl 0, rfl, fun h => absurd h (Nat.lt_irrefl 0), fun _ => hs⟩
  | cons task tasks ih =>
    obtain ⟨hsuccess, hfailure⟩ := hstep 0 task rfl s hs
    cases hresult : (task s).1 with
    | true =>
      obtain ⟨k, hk, hstates, hfailed, hreached⟩ :=
        @ih (task s).2 (fun i => reached (i + 1)) (fun i => failed (i + 1))
          (fun i => hstep (i + 1)) (hsuccess hresult)
      rw [runTasks_of_success hresult]
      refine ⟨k + 1, Nat.succ_le_succ hk, ?_, fun h => hfailed (Nat.lt_of_succ_lt_succ h),
        fun h => hreached (Nat.succ.inj h)⟩
      rw [hstates, List.length_cons, chainStates_succ]
    | false =>
      rw [runTasks_of_failure hresult]
      refine ⟨0, Nat.zero_le _, ?_, fun _ => hfailure hresult, fun h => absurd h.symm ?_⟩
      · simp [chainStates]
      · exact Nat.succ_ne_zero _

end TaskChain

/-! ## Scripts -/

section Writes

/-- Writes one after the other, from the `i`-th on, until one is broken off or rejected. -/
def runWrites {σ : Type*} (breaks : Nat → Bool) (i : Nat) : List (σ → Option σ) → σ → Bool × σ
  | [], s => (!breaks i, s)
  | write :: writes, s =>
    if breaks i then (false, s)
    else
      match write s with
      | none => (false, s)
      | some s => runWrites breaks (i + 1) writes s

variable {ι σ : Type*} {breaks : Nat → Bool} {write : ι → σ → Option σ}

/-- **Writes that are not rejected.** What holds of the writes that are done and of the state holds
when the run ends, which has done all of them exactly when nothing broke it. -/
theorem runWrites_spec {inv : List ι → σ → Prop} {before todo : List ι} {s : σ}
    (hstep : ∀ done j rest s, before ++ todo = done ++ j :: rest → inv done s →
      ∃ s', write j s = some s' ∧ inv (done ++ [j]) s')
    (hs : inv before s) :
    ∃ done, before <+: done ∧ done <+: before ++ todo ∧
      inv done (runWrites breaks before.length (todo.map write) s).2 ∧
      ((runWrites breaks before.length (todo.map write) s).1 = true ↔
        ∀ i ≤ todo.length, breaks (before.length + i) = false) ∧
      ((runWrites breaks before.length (todo.map write) s).1 = true → done = before ++ todo) := by
  induction todo generalizing before s with
  | nil =>
    refine ⟨before, List.prefix_refl _, List.prefix_append _ _, hs, ?_, fun _ =>
      (List.append_nil _).symm⟩
    simp [runWrites]
  | cons j todo ih =>
    have hshift : before ++ j :: todo = before ++ [j] ++ todo := by simp
    cases hbreaks : breaks before.length with
    | true =>
      refine ⟨before, List.prefix_refl _, List.prefix_append _ _, ?_, ?_, ?_⟩
      · simpa [runWrites, hbreaks] using hs
      · simp only [List.map_cons, runWrites, hbreaks, if_true, Bool.false_eq_true, false_iff]
        intro hall
        exact absurd (hall 0 (Nat.zero_le _)) (by simp [hbreaks])
      · simp [runWrites, hbreaks]
    | false =>
      obtain ⟨s', hwrite, hs'⟩ := hstep before j todo s rfl hs
      have hrun : runWrites breaks before.length ((j :: todo).map write) s =
          runWrites breaks (before ++ [j]).length (todo.map write) s' := by
        simp [runWrites, hbreaks, hwrite]
      obtain ⟨done, hbefore, hdone, hinv, hiff, hall⟩ :=
        ih (fun done j' rest s heq => hstep done j' rest s (hshift.trans heq)) hs'
      rw [hrun, hshift]
      refine ⟨done, (List.prefix_append _ _).trans hbefore, hdone, hinv, hiff.trans ?_, hall⟩
      rw [List.length_append, List.length_singleton, List.length_cons]
      constructor
      · intro h i hi
        cases i with
        | zero => exact hbreaks
        | succ i =>
          rw [show before.length + (i + 1) = before.length + 1 + i by omega]
          exact h i (Nat.le_of_succ_le_succ hi)
      · intro h i hi
        rw [show before.length + 1 + i = before.length + (i + 1) by omega]
        exact h (i + 1) (Nat.succ_le_succ hi)

end Writes

end Lakehouse.Lib
