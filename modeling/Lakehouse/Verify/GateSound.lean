import Lakehouse.Quality.Runner

/-!
# Verdict of the quality gate

The verdict falls with every checkpoint that does not report success (`runLayers_allPassed`), so
exit code 0 means that all of them did. The churn check only holds where it was evaluated: without a
connection string it is skipped, and an error of the database is a warning (`gate_sound`,
`gate_passes_unreachable`).
-/

namespace Lakehouse.Verify

open Quality

/-- The checkpoint of a layer ran to completion and reported success. -/
def Succeeded (env : Env) (layer : Layer) : Prop :=
  ∃ result, env.runCheckpoint layer = .ok result ∧ result.success = true

/-! ## The loop -/

/-- A layer passes when its checkpoint succeeded, and the verdict so far is kept. -/
theorem runLayer_allPassed (env : Env) (v : Verdict) (layer : Layer) :
    (runLayer env v layer).allPassed = true ↔ v.allPassed = true ∧ Succeeded env layer := by
  unfold runLayer Succeeded
  cases hrun : env.runCheckpoint layer with
  | error exc => simp
  | ok result =>
    cases hsuccess : result.success with
    | false => simp [summarise, hsuccess]
    | true => simp [summarise, hsuccess]

/-- The loop passes when every checkpoint succeeded. -/
theorem runLayers_allPassed (env : Env) (v : Verdict) (ls : List Layer) :
    (ls.foldl (runLayer env) v).allPassed = true ↔
      v.allPassed = true ∧ ∀ layer ∈ ls, Succeeded env layer := by
  induction ls generalizing v with
  | nil => simp
  | cons layer ls ih =>
    rw [List.foldl_cons, ih, runLayer_allPassed, List.forall_mem_cons, and_assoc]

/-- The churn check can only take the verdict back. -/
theorem goldCheck_allPassed (check : ChurnCheck) (v : Verdict) :
    (goldCheck check v).allPassed = true ↔ v.allPassed = true ∧ check.passed = true := by
  unfold goldCheck
  cases check.passed with
  | true => simp
  | false => simp

/-- The churn check passes when it is skipped, when the database fails, or when the query counts no
row. -/
theorem checkChurnConsistency_passed (connStr : Option String)
    (database : String → Except String (Multiset MetricsRow)) :
    (checkChurnConsistency connStr database).passed = true ↔
      nonEmpty connStr = none ∨ ∃ conn, nonEmpty connStr = some conn ∧
        ((∃ exc, database conn = .error exc) ∨
          ∃ table, database conn = .ok table ∧ ∀ r ∈ table, isViolation r = false) := by
  unfold checkChurnConsistency
  cases nonEmpty connStr with
  | none => simp [ChurnCheck.passed]
  | some conn =>
    cases hdb : database conn with
    | error exc => simp [ChurnCheck.passed, hdb]
    | ok table =>
      have hcount : table.countP (fun r => isViolation r = true) = 0 ↔
          ∀ r ∈ table, isViolation r = false := by
        rw [Multiset.countP_eq_zero]
        simp
      by_cases hpos : 0 < table.countP fun r => isViolation r = true
      · simp only [hdb, hpos, if_true, ChurnCheck.passed, Bool.false_eq_true, false_iff]
        rintro (hnone | ⟨conn', hconn, ⟨exc, hexc⟩ | ⟨table', htable, hall⟩⟩)
        · cases hnone
        · cases Option.some.inj hconn
          rw [hdb] at hexc
          cases hexc
        · cases Option.some.inj hconn
          rw [hdb] at htable
          cases Except.ok.inj htable
          exact absurd (hcount.2 hall) hpos.ne'
      · simp only [hdb, hpos, if_false, ChurnCheck.passed, true_iff]
        exact .inr ⟨conn, rfl, .inr ⟨table, hdb, hcount.1 (Nat.eq_zero_of_not_pos hpos)⟩⟩

/-- What the verdict asks of the checkpoints and of the churn check. -/
theorem verdict_allPassed (args : Args) (env : Env) :
    (verdict args env).allPassed = true ↔
      (∀ layer ∈ layersToRun args, Succeeded env layer) ∧ (Layer.gold ∈ layersToRun args →
        (checkChurnConsistency env.connStr env.database).passed = true) := by
  have hloop := runLayers_allPassed env ⟨true, []⟩ (layersToRun args)
  rw [eq_self_iff_true, true_and] at hloop
  rw [← hloop]
  by_cases hgold : Layer.gold ∈ layersToRun args
  · simp [verdict, churnCheck, hgold, goldCheck_allPassed]
  · simp [verdict, churnCheck, hgold]

/-! ## Reports -/

/-- The handler of `push_metrics` takes every exception. -/
theorem pushMetrics_ok (gateway : Option String) (push : String → Metrics → Except String Unit)
    (now : Int) (layerStats : List (Layer × LayerStats)) (allPassed : Bool) :
    ∃ metrics, pushMetrics gateway push now layerStats allPassed = .ok metrics := by
  unfold pushMetrics
  cases nonEmpty gateway with
  | none => exact ⟨none, rfl⟩
  | some gateway =>
    dsimp only
    cases push gateway _ with
    | error exc => exact ⟨none, rfl⟩
    | ok => exact ⟨some _, rfl⟩

/-- And so does the handler of the data docs. -/
theorem buildDataDocs_ok (dataDocs : Except String Unit) :
    ∃ built, buildDataDocs dataDocs = .ok built := by
  cases dataDocs with
  | error exc => exact ⟨false, rfl⟩
  | ok => exact ⟨true, rfl⟩

/-- Whatever becomes of the reports, the run ends with its verdict. -/
theorem gateRun_ok (args : Args) (env : Env) :
    ∃ run, gateRun args env = .ok run ∧ run.verdict = verdict args env ∧
      pushMetrics env.gateway env.push env.now (verdict args env).layerStats
        (verdict args env).allPassed = .ok run.metrics := by
  obtain ⟨metrics, hmetrics⟩ := pushMetrics_ok env.gateway env.push env.now
    (verdict args env).layerStats (verdict args env).allPassed
  obtain ⟨built, hbuilt⟩ := buildDataDocs_ok env.dataDocs
  refine ⟨⟨verdict args env, churnCheck args env, metrics, built⟩, ?_, rfl, hmetrics⟩
  simp only [gateRun, hmetrics, hbuilt]
  rfl

/-- The exit code of a run that gets past configuration is its verdict. -/
theorem main_configured {args : Args} {env : Env} (hconf : configured args env = true) :
    main args env = if (verdict args env).allPassed then 0 else 1 := by
  obtain ⟨run, hrun, hverdict, -⟩ := gateRun_ok args env
  rw [main, if_pos hconf, hrun, ← hverdict]

/-- Exit code 0 is a run that gets past configuration and passes. -/
theorem main_eq_zero {args : Args} {env : Env} :
    main args env = 0 ↔ configured args env = true ∧ (verdict args env).allPassed = true := by
  by_cases hconf : configured args env = true
  · rw [main_configured hconf, and_iff_right hconf]
    cases (verdict args env).allPassed <;> simp
  · simp [main, hconf]

/-! ## Soundness -/

/-- **The gate is sound for what it evaluates.** Exit code 0 means that every selected checkpoint
ran to completion and reported success, and with the gold layer that the churn query was evaluated
and no customer with more than 90 days since the last order is flagged as not churned, unless there
was no connection string or the database raised an error. -/
theorem gate_sound {args : Args} {env : Env} (h : main args env = 0) :
    (∀ layer ∈ layersToRun args, Succeeded env layer) ∧
      (Layer.gold ∈ layersToRun args →
        nonEmpty env.connStr = none ∨ ∃ conn, nonEmpty env.connStr = some conn ∧
          ((∃ exc, env.database conn = .error exc) ∨
            ∃ table, env.database conn = .ok table ∧ ∀ r ∈ table,
              ¬ ((∃ days ∈ r.daysSinceLastOrder, 90 < days) ∧ r.isChurned = some false))) := by
  obtain ⟨hlayers, hchurn⟩ := (verdict_allPassed args env).1 (main_eq_zero.1 h).2
  refine ⟨hlayers, fun hgold => ?_⟩
  rcases (checkChurnConsistency_passed _ _).1 (hchurn hgold) with
    hunset | ⟨conn, hconn, herror | ⟨table, htable, hnone⟩⟩
  · exact .inl hunset
  · exact .inr ⟨conn, hconn, .inl herror⟩
  · refine .inr ⟨conn, hconn, .inr ⟨table, htable, ?_⟩⟩
    rintro r hr ⟨⟨days, hdays, hlate⟩, hflag⟩
    have hviolation : isViolation r = true := by
      simp [isViolation, Option.mem_def.1 hdays, hlate, hflag]
    rw [hnone r hr] at hviolation
    cases hviolation

/-- Every checkpoint passes, and the churn query is given. -/
def greenEnv (database : Except String (Multiset MetricsRow)) : Env where
  connStr := some "trino://admin@localhost:8080/iceberg"
  context := .ok ()
  runCheckpoint _ :=
    .ok ⟨true, [⟨"suite", true, some 1, some 1, [⟨true, "expect_column_to_exist", none⟩]⟩]⟩
  database _ := database
  gateway := none
  push _ _ := .ok ()
  now := 0
  dataDocs := .ok ()

/-- The command line of the DAG and of the Job. -/
def allLayers : Args := ⟨none, .trino⟩

theorem gate_sound_green :
    (∀ layer ∈ layersToRun allLayers, Succeeded (greenEnv (.ok {⟨some 91, some true⟩})) layer) ∧
      (Layer.gold ∈ layersToRun allLayers →
        nonEmpty (greenEnv (.ok {⟨some 91, some true⟩})).connStr = none ∨
          ∃ conn, nonEmpty (greenEnv (.ok {⟨some 91, some true⟩})).connStr = some conn ∧
            ((∃ exc, (greenEnv (.ok {⟨some 91, some true⟩})).database conn = .error exc) ∨
              ∃ table, (greenEnv (.ok {⟨some 91, some true⟩})).database conn = .ok table ∧
                ∀ r ∈ table, ¬ ((∃ days ∈ r.daysSinceLastOrder, 90 < days) ∧
                  r.isChurned = some false))) :=
  gate_sound (by decide)

/-- The checkpoints pass and the churn query raises an error: the gate passes, and the query was not
evaluated. -/
theorem gate_passes_unreachable : main allLayers (greenEnv (.error "connection refused")) = 0 ∧
    Layer.gold ∈ layersToRun allLayers ∧
      ∀ conn table, (greenEnv (.error "connection refused")).database conn ≠ .ok table := by
  refine ⟨by decide, by decide, ?_⟩
  intro conn table htable
  cases htable

end Lakehouse.Verify
