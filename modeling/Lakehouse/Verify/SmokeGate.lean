import Lakehouse.Verify.QueryPages

/-!
# Verdict of the smoke check

The smoke check ends for every Trino that answers each statement with a chain of pages. It is green
exactly when one of the first twelve probes is delivered and the two statements after it are, each
with a count above zero (`smokeCheck_green_iff`).
-/

namespace Lakehouse.Verify

open Lib Release.SmokeCheck

/-- The result is delivered, and its scalar passes the predicate. -/
structure Chain.Passes (c : Chain) (predicate : Json → Except Exc Bool) : Prop where
  delivered : c.Delivered
  passes : ∃ value, scalar c.rows = .ok value ∧ predicate value = .ok true

/-- None of the `count` results from the `n`-th on has more follow-up pages than there is fuel. -/
def AtMost (results : Nat → Chain) (n count fuel : Nat) : Prop :=
  ∀ i < count, (results (n + i)).followUps.length ≤ fuel

/-- Some fuel is enough for any number of results. -/
theorem exists_atMost (results : Nat → Chain) (n count : Nat) :
    ∃ bound, ∀ fuel, bound ≤ fuel → AtMost results n count fuel := by
  refine ⟨((List.range count).map fun i => (results (n + i)).followUps.length).sum, ?_⟩
  intro fuel hfuel i hi
  have hmem : (results (n + i)).followUps.length ∈
      (List.range count).map fun i => (results (n + i)).followUps.length :=
    List.mem_map.2 ⟨i, List.mem_range.2 hi, rfl⟩
  exact Nat.le_trans (List.le_sum_of_mem hmem) hfuel

variable {results : Nat → Chain} {s : Session}

/-! ## The probes -/

/-- The probes end with the first result that is delivered, or with the twelfth. -/
structure ProbesRun (results : Nat → Chain) (s : Session) (k : Nat) (ready : Bool)
    (s' : Session) : Prop where
  lt : k < 12
  before : ∀ m < k, ¬ (results (s.posts.length + m)).Delivered
  ready_iff : ready = true ↔ (results (s.posts.length + k)).Delivered
  last : ready = false → k = 11
  posts : s'.posts.length = s.posts.length + (k + 1)

/-- A probe that ends the loop. -/
theorem probe_of_run {fuel attempt : Nat} {c : Chain} {r : Except Exc (List Row)} {s' : Session}
    (hrun : runQuery (service results) fuel "SELECT 1" s = some (r, s'))
    (hquery : QueryRun c "SELECT 1" s r s') (hlast : c.Delivered ∨ attempt = 11)
    {ready : Bool} (hready : ready = true ↔ c.Delivered) :
    probe (service results) fuel attempt s = some (some ready, s') := by
  by_cases hdelivered : c.Delivered
  · have hr := hquery.exact_rows.2 hdelivered
    obtain rfl := hready.2 hdelivered
    simp [probe, hrun, hr]
  · obtain ⟨exc, hr⟩ := hquery.raises hdelivered
    have hlast := hlast.resolve_left hdelivered
    obtain rfl : ready = false := by simpa [hdelivered] using hready
    simp [probe, hrun, hr, hlast]

/-- A probe after which the loop goes on. -/
theorem probe_of_raise {fuel attempt : Nat} {c : Chain} {r : Except Exc (List Row)} {s' : Session}
    (hrun : runQuery (service results) fuel "SELECT 1" s = some (r, s'))
    (hquery : QueryRun c "SELECT 1" s r s') (hrefused : ¬ c.Delivered) (hattempt : attempt ≠ 11) :
    probe (service results) fuel attempt s = some (none, s') := by
  obtain ⟨exc, hr⟩ := hquery.raises hrefused
  simp [probe, hrun, hr, hattempt]

/-- A statement that is run again and again: the sessions before each run, and the results. -/
theorem exists_queries (results : Nat → Chain) (sql : String) (s : Session) :
    ∃ (st : Nat → Session) (result : Nat → Except Exc (List Row)), st 0 = s ∧
      (∀ m, (st m).posts.length = s.posts.length + m) ∧
      (∀ m fuel, (results (s.posts.length + m)).followUps.length ≤ fuel →
        runQuery (service results) (fuel + 1) sql (st m) = some (result m, st (m + 1))) ∧
      ∀ m, QueryRun (results (s.posts.length + m)) sql (st m) (result m) (st (m + 1)) := by
  choose result next hrun hquery using runQuery_run results sql
  let st : Nat → Session := fun m => next^[m] s
  have hnext : ∀ m, st (m + 1) = next (st m) := fun m => Function.iterate_succ_apply' next m s
  have hposts : ∀ m, (st m).posts.length = s.posts.length + m := by
    intro m
    induction m with
    | zero => rfl
    | succ m ih =>
      rw [hnext, (hquery (st m)).posts, List.length_append, ih, List.length_singleton]
      rfl
  refine ⟨st, fun m => result (st m), rfl, hposts, ?_, ?_⟩
  · intro m fuel hfuel
    rw [hnext]
    apply hrun
    rwa [hposts]
  · intro m
    rw [hnext, ← hposts]
    exact hquery (st m)

/-- What the loop over the probes comes to. -/
theorem waitForTrino_run (results : Nat → Chain) (s : Session) :
    ∃ k ready s', (∀ fuel, AtMost results s.posts.length 12 fuel →
        waitForTrino (service results) (fuel + 1) s = some (ready, s')) ∧
      ProbesRun results s k ready s' := by
  obtain ⟨st, result, hstart, hposts, hrun, hquery⟩ := exists_queries results "SELECT 1" s
  obtain ⟨k, hk, hlast, hbefore⟩ :=
    exists_leaving (fun m => (results (s.posts.length + m)).Delivered) 11
  obtain ⟨ready, hready⟩ : ∃ ready : Bool,
      ready = true ↔ (results (s.posts.length + k)).Delivered := by
    classical exact ⟨decide _, decide_eq_true_iff⟩
  refine ⟨k, ready, st (k + 1), ?_, ?_⟩
  · intro fuel hfuel
    have hloop : attempts (probe (service results) (fuel + 1)) (List.range 12) (st 0) =
        some (some ready, st (k + 1)) := by
      apply attempts_leaves hk
      · intro m hm
        exact probe_of_raise (hrun m fuel (hfuel m (hm.trans hk))) (hquery m) (hbefore m hm).1
          (hbefore m hm).2
      · exact probe_of_run (hrun k fuel (hfuel k hk)) (hquery k) hlast hready
    unfold waitForTrino
    rw [← hstart, hloop]
    rfl
  · have hkept : ready = false → k = 11 := by
      rintro rfl
      exact hlast.resolve_left fun hdelivered => Bool.false_ne_true (hready.2 hdelivered)
    exact
      { lt := hk
        before := fun m hm => (hbefore m hm).1
        ready_iff := hready
        last := hkept
        posts := hposts (k + 1) }

/-! ## The checks -/

/-- What a check says of the result of its statement; a result without a scalar fails it. -/
def verdict (check : Check) (rows : Except Exc (List Row)) : Except Exc Bool :=
  match rows.bind scalar with
  | .error _ => .ok false
  | .ok value => check.predicate value

/-- The next check is counted by its verdict. -/
theorem runChecks_cons {trino : Trino Session} {fuel : Nat} {check : Check}
    {rows : Except Exc (List Row)} {s₁ : Session}
    (hrun : runQuery trino fuel check.sql s = some (rows, s₁)) (rest : List Check) (failed : Nat) :
    runChecks trino fuel (check :: rest) failed s =
      match verdict check rows with
      | .error exc => some (.error exc, s₁)
      | .ok passed => runChecks trino fuel rest (if passed then failed else failed + 1) s₁ := by
  unfold verdict
  cases hvalue : rows.bind scalar with
  | error exc => simp [runChecks, hrun, hvalue]
  | ok value =>
    cases hpredicate : check.predicate value with
    | error exc => simp only [runChecks, hrun, hvalue, hpredicate]
    | ok passed => simp only [runChecks, hrun, hvalue, hpredicate]

/-- A check passes exactly when its result does. -/
theorem QueryRun.passes_iff {c : Chain} {check : Check} {r : Except Exc (List Row)} {s' : Session}
    (h : QueryRun c check.sql s r s') :
    c.Passes check.predicate ↔ verdict check r = .ok true := by
  constructor
  · rintro ⟨hdelivered, value, hvalue, htrue⟩
    have hscalar : r.bind scalar = .ok value := by
      rw [h.exact_rows.2 hdelivered]
      exact hvalue
    simpa only [verdict, hscalar] using htrue
  · intro htrue
    unfold verdict at htrue
    by_cases hdelivered : c.Delivered
    · rw [h.exact_rows.2 hdelivered] at htrue
      cases hvalue : scalar c.rows with
      | error exc => simp [Except.bind, hvalue] at htrue
      | ok value =>
        refine ⟨hdelivered, value, hvalue, ?_⟩
        simpa [Except.bind, hvalue] using htrue
    · obtain ⟨exc, hexc⟩ := h.raises hdelivered
      simp [hexc, Except.bind] at htrue

/-- The results from the `n`-th on pass the checks. -/
def AllPass (results : Nat → Chain) (n : Nat) : List Check → Prop
  | [] => True
  | check :: rest => (results n).Passes check.predicate ∧ AllPass results (n + 1) rest

/-- The loop over the checks ends without a failure exactly when all pass. -/
theorem runChecks_run (results : Nat → Chain) (list : List Check) (failed : Nat) (s : Session) :
    ∃ r s', (∀ fuel, AtMost results s.posts.length list.length fuel →
        runChecks (service results) (fuel + 1) list failed s = some (r, s')) ∧
      (r = .ok 0 ↔ failed = 0 ∧ AllPass results s.posts.length list) := by
  induction list generalizing failed s with
  | nil => exact ⟨.ok failed, s, fun _ _ => rfl, by simp [AllPass]⟩
  | cons check rest ih =>
    obtain ⟨r, s₁, hrun, hquery⟩ := runQuery_run results check.sql s
    have hposts : s₁.posts.length = s.posts.length + 1 := by simp [hquery.posts]
    have hstep : ∀ fuel, AtMost results s.posts.length (check :: rest).length fuel →
        runQuery (service results) (fuel + 1) check.sql s = some (r, s₁) :=
      fun fuel hfuel => hrun fuel (hfuel 0 (Nat.succ_pos _))
    have htail : ∀ fuel, AtMost results s.posts.length (check :: rest).length fuel →
        AtMost results s₁.posts.length rest.length fuel := by
      intro fuel hfuel i hi
      rw [hposts, Nat.add_assoc, Nat.add_comm 1 i]
      exact hfuel (i + 1) (Nat.succ_lt_succ hi)
    rw [AllPass, hquery.passes_iff]
    cases hverdict : verdict check r with
    | error exc =>
      refine ⟨.error exc, s₁, fun fuel hfuel => ?_, by simp⟩
      rw [runChecks_cons (hstep fuel hfuel), hverdict]
    | ok passed =>
      obtain ⟨r', s', hrest, hiff⟩ := ih (if passed then failed else failed + 1) s₁
      refine ⟨r', s', fun fuel hfuel => ?_, ?_⟩
      · rw [runChecks_cons (hstep fuel hfuel), hverdict]
        exact hrest fuel (htail fuel hfuel)
      · rw [hiff, hposts]
        cases passed with
        | true => simp
        | false => simp

/-! ## The verdict -/

/-- The first probe that is delivered is the one that the loop ended with. -/
theorem ProbesRun.eq_of_delivered {k k' : Nat} {ready : Bool} {s' : Session}
    (h : ProbesRun results s k ready s') (hk : k' < 12)
    (hbefore : ∀ m < k', ¬ (results (s.posts.length + m)).Delivered)
    (hdelivered : (results (s.posts.length + k')).Delivered) : k' = k := by
  rcases Nat.lt_trichotomy k' k with hlt | heq | hgt
  · exact absurd hdelivered (h.before k' hlt)
  · exact heq
  · cases hready : ready with
    | true => exact absurd (h.ready_iff.1 hready) (hbefore k hgt)
    | false => have := h.last hready; omega

theorem exitCode_eq_zero {r : Except Exc Nat} : exitCode r = 0 ↔ r = .ok 0 := by
  cases r with
  | error exc => simp [exitCode]
  | ok failed => simp [exitCode]

/-- **The smoke check is green** exactly when a probe is delivered, and the results of the two
checks are, each with a first cell above zero. -/
theorem smokeCheck_green_iff (results : Nat → Chain) (s : Session) :
    ∃ bound code s', (∀ fuel, bound ≤ fuel →
        main (service results) (fuel + 1) s = some (code, s')) ∧
      (code = 0 ↔ ∃ k < 12, (∀ m < k, ¬ (results (s.posts.length + m)).Delivered) ∧
        (results (s.posts.length + k)).Delivered ∧
        (results (s.posts.length + k + 1)).Passes positive ∧
        (results (s.posts.length + k + 2)).Passes positive) := by
  obtain ⟨k, ready, s₁, hwait, hprobes⟩ := waitForTrino_run results s
  obtain ⟨bound, hbound⟩ := exists_atMost results s.posts.length 14
  have hfuel : ∀ fuel, bound ≤ fuel → AtMost results s.posts.length 12 fuel :=
    fun fuel h i hi => hbound fuel h i (by omega)
  cases ready with
  | false =>
    have hmain : ∀ fuel, bound ≤ fuel → main (service results) (fuel + 1) s = some (1, s₁) := by
      intro fuel h
      simp only [main, hwait fuel (hfuel fuel h)]
    refine ⟨bound, 1, s₁, hmain, ?_⟩
    refine iff_of_false (by simp) ?_
    rintro ⟨k', hk, hbefore, hdelivered, -⟩
    obtain rfl := hprobes.eq_of_delivered hk hbefore hdelivered
    exact Bool.false_ne_true (hprobes.ready_iff.2 hdelivered)
  | true =>
    obtain ⟨r, s₂, hchecks, hr⟩ := runChecks_run results checks 0 s₁
    have hdelivered := hprobes.ready_iff.1 rfl
    have hposts : s₁.posts.length = s.posts.length + k + 1 := hprobes.posts
    have hrest : ∀ fuel, bound ≤ fuel → AtMost results s₁.posts.length checks.length fuel := by
      intro fuel h i hi
      have hlt : k + 1 + i < 14 := Nat.add_lt_add_of_le_of_lt hprobes.lt hi
      rw [hposts, Nat.add_assoc, Nat.add_assoc, ← Nat.add_assoc k]
      exact hbound fuel h (k + 1 + i) hlt
    have hmain : ∀ fuel, bound ≤ fuel →
        main (service results) (fuel + 1) s = some (exitCode r, s₂) := by
      intro fuel h
      simp only [main, hwait fuel (hfuel fuel h), hchecks fuel (hrest fuel h), Option.map_some]
    refine ⟨bound, exitCode r, s₂, hmain, ?_⟩
    rw [exitCode_eq_zero, hr, hposts]
    simp only [checks, AllPass, true_and, and_true]
    constructor
    · intro hpass
      exact ⟨k, hprobes.lt, hprobes.before, hdelivered, hpass⟩
    · rintro ⟨k', hk, hbefore, hdelivered', hpass⟩
      obtain rfl := hprobes.eq_of_delivered hk hbefore hdelivered'
      exact hpass

end Lakehouse.Verify
