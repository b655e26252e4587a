import Lakehouse.Verify.GateSound

/-!
# Verdict and metrics of the quality gate

The verdict is kept twice: as a flag, and as a table with an entry for each selected layer
(`verdict_layerStats`). The loop and the churn check update both, so they agree, and the exit code
follows them whatever becomes of the metrics and the data docs (`exit_code_matches_metrics`). The
number of failed expectations is a difference of two counters that an exception leaves at zero and
the churn check does not touch: it names the red layers exactly when no checkpoint raised and the
churn check is not alone in failing (`red_gate_names_layer_iff`).
-/

namespace Lakehouse.Verify

open Quality

/-! ## The table -/

/-- What the loop enters for a layer. -/
def loopEntry (env : Env) (layer : Layer) : LayerStats :=
  match env.runCheckpoint layer with
  | .error _ => { passed := 0, evaluated := 0, success := 0 }
  | .ok result =>
    { passed := (summarise result).totalPassed
      evaluated := (summarise result).totalEvaluated
      success := if result.success then 1 else 0 }

/-- The churn check finds violations. -/
def churnFails (env : Env) : Bool := !(checkChurnConsistency env.connStr env.database).passed

/-- What is handed to `push_metrics` for a layer. -/
def finalEntry (env : Env) (layer : Layer) : LayerStats :=
  if layer = .gold ∧ churnFails env = true then { loopEntry env layer with success := 0 }
  else loopEntry env layer

theorem setStats_of_notMem {layerStats : List (Layer × LayerStats)} {layer : Layer}
    (h : layer ∉ layerStats.map Prod.fst) (s : LayerStats) :
    setStats layerStats layer s = layerStats ++ [(layer, s)] := by
  apply if_neg
  rw [List.any_eq_true]
  rintro ⟨e, he, hlayer⟩
  exact h (List.mem_map.2 ⟨e, he, of_decide_eq_true hlayer⟩)

/-- A layer that is new gets an entry at the end. -/
theorem runLayer_layerStats (env : Env) {v : Verdict} {layer : Layer}
    (h : layer ∉ v.layerStats.map Prod.fst) :
    (runLayer env v layer).layerStats = v.layerStats ++ [(layer, loopEntry env layer)] := by
  unfold runLayer loopEntry
  cases env.runCheckpoint layer with
  | error exc => exact setStats_of_notMem h _
  | ok result => exact setStats_of_notMem h _

/-- Over layers that are entered for the first time, the loop appends an entry for each. -/
theorem runLayers_layerStats (env : Env) {v : Verdict} {ls : List Layer}
    (h : (v.layerStats.map Prod.fst ++ ls).Nodup) :
    (ls.foldl (runLayer env) v).layerStats =
      v.layerStats ++ ls.map fun layer => (layer, loopEntry env layer) := by
  induction ls generalizing v with
  | nil => simp
  | cons layer ls ih =>
    have hnew : layer ∉ v.layerStats.map Prod.fst := fun hmem =>
      (List.nodup_append.1 h).2.2 layer hmem layer (.head _) rfl
    have hstats := runLayer_layerStats env hnew
    rw [List.foldl_cons, ih, hstats, List.append_assoc]
    · rfl
    · rw [hstats, List.map_append, List.append_assoc]
      exact h

theorem layersToRun_nodup (args : Args) : (layersToRun args).Nodup := by
  unfold layersToRun
  cases args.layer with
  | none => decide
  | some layer => exact List.nodup_singleton layer

/-- **The table of a run** has one entry for each selected layer. -/
theorem verdict_layerStats (args : Args) (env : Env) :
    (verdict args env).layerStats =
      (layersToRun args).map fun layer => (layer, finalEntry env layer) := by
  have hloop : ((layersToRun args).foldl (runLayer env) ⟨true, []⟩).layerStats =
      (layersToRun args).map fun layer => (layer, loopEntry env layer) :=
    runLayers_layerStats env (layersToRun_nodup args)
  by_cases hgold : Layer.gold ∈ layersToRun args
  · simp only [verdict, churnCheck, hgold, if_true, Option.elim_some, goldCheck]
    split
    · next hpassed =>
      have hfails : churnFails env = false := by simp [churnFails, hpassed]
      simp [hloop, finalEntry, hfails]
    · next hpassed =>
      have hfails : churnFails env = true := by simp [churnFails, hpassed]
      simp only [hloop, List.map_map]
      apply List.map_congr_left
      intro layer _
      simp only [Function.comp_apply, finalEntry, hfails, and_true]
  · simp only [verdict, churnCheck, hgold, if_false, Option.elim_none, hloop]
    apply List.map_congr_left
    intro layer hlayer
    have hother : ¬ (layer = .gold ∧ churnFails env = true) := by
      rintro ⟨rfl, -⟩
      exact hgold hlayer
    rw [finalEntry, if_neg hother]

/-- The entries of the table, layer by layer. -/
theorem mem_layerStats {args : Args} {env : Env} {e : Layer × LayerStats} :
    e ∈ (verdict args env).layerStats ↔
      e.1 ∈ layersToRun args ∧ e.2 = finalEntry env e.1 := by
  rw [verdict_layerStats, List.mem_map]
  constructor
  · rintro ⟨layer, hlayer, rfl⟩
    exact ⟨hlayer, rfl⟩
  · rintro ⟨hlayer, hstats⟩
    exact ⟨e.1, hlayer, Prod.ext rfl hstats.symm⟩

/-! ## Entries -/

/-- The loop enters 1 for a layer whose checkpoint succeeds, and 0 for another. -/
theorem loopEntry_success (env : Env) (layer : Layer) :
    (loopEntry env layer).success = 1 ∧ Succeeded env layer ∨
      (loopEntry env layer).success = 0 ∧ ¬ Succeeded env layer := by
  unfold loopEntry Succeeded
  cases env.runCheckpoint layer with
  | error exc => simp
  | ok result => cases hsuccess : result.success <;> simp [hsuccess]

/-- An entry is green when its checkpoint succeeded and the churn check did not fail on it. -/
theorem finalEntry_success (env : Env) (layer : Layer) :
    (finalEntry env layer).success = 1 ↔
      Succeeded env layer ∧ ¬ (layer = .gold ∧ churnFails env = true) := by
  unfold finalEntry
  split
  · next hred => simp [hred]
  · next hgreen =>
    rcases loopEntry_success env layer with ⟨hone, hok⟩ | ⟨hzero, hfail⟩
    · simp [hone, hok, hgreen]
    · simp [hzero, hfail]

theorem finalEntry_success_zero (env : Env) (layer : Layer) :
    (finalEntry env layer).success = 0 ↔ (finalEntry env layer).success ≠ 1 := by
  unfold finalEntry
  split
  · simp
  · rcases loopEntry_success env layer with ⟨hone, -⟩ | ⟨hzero, -⟩
    · simp [hone]
    · simp [hzero]

/-- The churn check leaves the counters alone. -/
theorem finalEntry_counts (env : Env) (layer : Layer) :
    (finalEntry env layer).passed = (loopEntry env layer).passed ∧
      (finalEntry env layer).evaluated = (loopEntry env layer).evaluated := by
  unfold finalEntry
  split
  · exact ⟨rfl, rfl⟩
  · exact ⟨rfl, rfl⟩

/-- The flag and the table agree. -/
theorem allPassed_iff_success (args : Args) (env : Env) :
    (verdict args env).allPassed = true ↔
      ∀ e ∈ (verdict args env).layerStats, e.2.success = 1 := by
  rw [verdict_allPassed]
  constructor
  · rintro ⟨hlayers, hchurn⟩ e he
    obtain ⟨hlayer, hstats⟩ := mem_layerStats.1 he
    rw [hstats, finalEntry_success]
    refine ⟨hlayers e.1 hlayer, ?_⟩
    rintro ⟨hgold, hfails⟩
    have hpassed := hchurn (hgold ▸ hlayer)
    simp [churnFails, hpassed] at hfails
  · intro hall
    have hentry : ∀ layer ∈ layersToRun args,
        Succeeded env layer ∧ ¬ (layer = .gold ∧ churnFails env = true) := fun layer hlayer =>
      (finalEntry_success env layer).1
        (hall (layer, finalEntry env layer) (mem_layerStats.2 ⟨hlayer, rfl⟩))
    refine ⟨fun layer hlayer => (hentry layer hlayer).1, fun hgold => ?_⟩
    by_contra hfails
    exact (hentry .gold hgold).2 ⟨rfl, by simp [churnFails, hfails]⟩

/-! ## Exit code -/

/-- Great Expectations counts no more successes in a validation than evaluations. -/
def CountsOrdered (env : Env) : Prop :=
  ∀ layer result, env.runCheckpoint layer = .ok result → ∀ v ∈ result.runResults,
    v.successfulExpectations.getD 0 ≤ v.evaluatedExpectations.getD 0

/-- The counters of an entry are the sums over the suites of its checkpoint, or zero when the
checkpoint raised an exception. -/
def CountsSuites (env : Env) (layer : Layer) (s : LayerStats) : Prop :=
  match env.runCheckpoint layer with
  | .error _ => s.passed = 0 ∧ s.evaluated = 0
  | .ok result =>
    s.passed = (result.runResults.map fun v => v.successfulExpectations.getD 0).sum ∧
      s.evaluated = (result.runResults.map fun v => v.evaluatedExpectations.getD 0).sum

theorem countsSuites_finalEntry (env : Env) (layer : Layer) :
    CountsSuites env layer (finalEntry env layer) := by
  obtain ⟨hpassed, hevaluated⟩ := finalEntry_counts env layer
  unfold CountsSuites
  rw [hpassed, hevaluated, loopEntry]
  cases env.runCheckpoint layer with
  | error exc => exact ⟨rfl, rfl⟩
  | ok result => exact ⟨rfl, rfl⟩

/-- No more expectations pass than are evaluated. -/
theorem passed_le_evaluated {env : Env} (hcounts : CountsOrdered env) (layer : Layer) :
    (finalEntry env layer).passed ≤ (finalEntry env layer).evaluated := by
  obtain ⟨hpassed, hevaluated⟩ := finalEntry_counts env layer
  rw [hpassed, hevaluated, loopEntry]
  cases hrun : env.runCheckpoint layer with
  | error exc => exact Nat.le_refl 0
  | ok result => exact List.sum_le_sum fun v hv => hcounts layer result hrun v hv

/-! ## What reaches the gateway -/

/-- The gauges that reach the gateway are those of the verdict. -/
theorem metrics_of_pushed {args : Args} {env : Env} {run : GateRun} {m : Metrics}
    (hrun : gateRun args env = .ok run) (h : run.metrics = some m) :
    m.failed = (verdict args env).layerStats.map
        (fun e => (e.1, (e.2.evaluated : Int) - e.2.passed)) ∧
      m.success = (verdict args env).layerStats.map (fun e => (e.1, e.2.success)) ∧
      m.overall = if (verdict args env).allPassed then 1 else 0 := by
  obtain ⟨run', hrun', -, hpush⟩ := gateRun_ok args env
  obtain rfl := Except.ok.inj (hrun.symm.trans hrun')
  rw [h] at hpush
  unfold pushMetrics at hpush
  cases hgateway : nonEmpty env.gateway with
  | none =>
    rw [hgateway] at hpush
    cases hpush
  | some gateway =>
    simp only [hgateway] at hpush
    cases hreply : env.push gateway _ with
    | error exc =>
      rw [hreply] at hpush
      cases hpush
    | ok =>
      rw [hreply] at hpush
      obtain rfl := Option.some.inj (Except.ok.inj hpush)
      exact ⟨rfl, rfl, rfl⟩

/-- The exit code, the arguments of `push_metrics` and what reaches the gateway tell one verdict,
whatever becomes of the reports. -/
structure OneVerdict (args : Args) (env : Env) : Prop where
  exitCode : main args env = 0 ↔ (verdict args env).allPassed = true
  success : (verdict args env).allPassed = true ↔
    ∀ e ∈ (verdict args env).layerStats, e.2.success = 1
  entries : (verdict args env).layerStats.map Prod.fst = layersToRun args
  counts : ∀ e ∈ (verdict args env).layerStats,
    CountsSuites env e.1 e.2 ∧ e.2.passed ≤ e.2.evaluated
  completes : ∃ run, gateRun args env = .ok run
  pushed : ∀ run m, gateRun args env = .ok run → run.metrics = some m →
    (m.overall = 1 ↔ main args env = 0)
  unaffected : ∀ gateway push now dataDocs, main args { env with
    gateway := gateway, push := push, now := now, dataDocs := dataDocs } = main args env

/-- **Exit code and metrics agree.** In every run that gets past configuration, the exit code is 0
if and only if the flag handed to `push_metrics` is set, if and only if every entry handed to it has
`success` 1. There is one entry for each selected layer, with the sums over its suites as its
counters and no more passed than evaluated. Nothing on the side of the reports changes the exit
code. -/
theorem exit_code_matches_metrics {args : Args} {env : Env} (hconf : configured args env = true)
    (hcounts : CountsOrdered env) : OneVerdict args env := by
  have hexit : main args env = 0 ↔ (verdict args env).allPassed = true := by
    rw [main_eq_zero, and_iff_right hconf]
  obtain ⟨run, hrun, -⟩ := gateRun_ok args env
  refine ⟨hexit, allPassed_iff_success args env, ?_, ?_, ⟨run, hrun⟩, ?_, ?_⟩
  · rw [verdict_layerStats, List.map_map]
    exact List.map_id _
  · intro e he
    obtain ⟨-, hstats⟩ := mem_layerStats.1 he
    rw [hstats]
    exact ⟨countsSuites_finalEntry env e.1, passed_le_evaluated hcounts e.1⟩
  · intro run m hrun hm
    rw [hexit, (metrics_of_pushed hrun hm).2.2]
    cases (verdict args env).allPassed <;> simp
  · -- the reports do not enter the verdict, and their handlers let the run go on to it
    intro gateway push now dataDocs
    rw [main_configured hconf]
    exact main_configured hconf

theorem exit_code_matches_metrics_green : OneVerdict allLayers (greenEnv (.ok 0)) := by
  apply exit_code_matches_metrics (by decide)
  rintro layer _ ⟨⟩ v hv
  obtain rfl := List.mem_singleton.1 hv
  exact Nat.le_refl 1

/-! ## The failed expectations -/

/-- The statistics and the verdicts of a checkpoint are those of its results. -/
structure StatisticsMatch (result : CheckpointResult) : Prop where
  evaluated : ∀ v ∈ result.runResults, v.evaluatedExpectations = some v.results.length
  successful : ∀ v ∈ result.runResults,
    v.successfulExpectations = some (v.results.countP fun e => e.success)
  suite : ∀ v ∈ result.runResults, v.success = v.results.all fun e => e.success
  checkpoint : result.success = result.runResults.all fun v => v.success

/-- The checkpoint of a layer ran to completion, and one of its expectations failed. -/
def ExpectationFailed (env : Env) (layer : Layer) : Prop :=
  ∃ result, env.runCheckpoint layer = .ok result ∧
    ∃ v ∈ result.runResults, ∃ e ∈ v.results, e.success = false

/-- A checkpoint succeeds exactly when no expectation fails. -/
theorem StatisticsMatch.success_iff {result : CheckpointResult} (h : StatisticsMatch result) :
    result.success = true ↔ ∀ v ∈ result.runResults, ∀ e ∈ v.results, e.success = true := by
  rw [h.checkpoint, List.all_eq_true]
  apply forall₂_congr
  intro v hv
  rw [h.suite v hv, List.all_eq_true]

/-- More expectations are evaluated than passed exactly when one failed. -/
theorem StatisticsMatch.passed_lt_iff {result : CheckpointResult} (h : StatisticsMatch result) :
    (summarise result).totalPassed < (summarise result).totalEvaluated ↔
      ∃ v ∈ result.runResults, ∃ e ∈ v.results, e.success = false := by
  have hle : ∀ v ∈ result.runResults,
      v.successfulExpectations.getD 0 ≤ v.evaluatedExpectations.getD 0 := by
    intro v hv
    rw [h.evaluated v hv, h.successful v hv]
    exact List.countP_le_length
  have hlt : ∀ v ∈ result.runResults,
      (v.successfulExpectations.getD 0 < v.evaluatedExpectations.getD 0 ↔
        ∃ e ∈ v.results, e.success = false) := by
    intro v hv
    rw [h.evaluated v hv, h.successful v hv, Option.getD_some, Option.getD_some,
      lt_iff_le_and_ne, and_iff_right List.countP_le_length, ne_eq, List.countP_eq_length]
    simp
  constructor
  · intro hsum
    obtain ⟨v, hv, hvlt⟩ := List.exists_lt_of_sum_lt _ _ hsum
    exact ⟨v, hv, (hlt v hv).1 hvlt⟩
  · rintro ⟨v, hv, hfailed⟩
    exact List.sum_lt_sum _ _ hle ⟨v, hv, (hlt v hv).2 hfailed⟩

/-- The gauge of the failed expectations of a layer is positive exactly when one failed. -/
theorem failed_pos_iff {env : Env} {layer : Layer}
    (hmatch : ∀ result, env.runCheckpoint layer = .ok result → StatisticsMatch result) :
    0 < ((finalEntry env layer).evaluated : Int) - (finalEntry env layer).passed ↔
      ExpectationFailed env layer := by
  obtain ⟨hpassed, hevaluated⟩ := finalEntry_counts env layer
  rw [hpassed, hevaluated, loopEntry, ExpectationFailed]
  cases hrun : env.runCheckpoint layer with
  | error exc => simp
  | ok result =>
    have hlt := (hmatch result hrun).passed_lt_iff
    constructor
    · intro hpos
      dsimp only at hpos
      exact ⟨result, rfl, hlt.1 (by omega)⟩
    · rintro ⟨result', hresult', hfailed⟩
      obtain rfl := Except.ok.inj hresult'
      have := hlt.2 hfailed
      dsimp only
      omega

/-- No selected checkpoint raises an exception, and the churn check fails on the gold layer only
along with one of its expectations. -/
def RedByExpectation (args : Args) (env : Env) : Prop :=
  (∀ layer ∈ layersToRun args, ∃ result, env.runCheckpoint layer = .ok result) ∧
    (Layer.gold ∈ layersToRun args → churnFails env = true → ExpectationFailed env .gold)

/-- A layer that is not green failed an expectation, exactly under the condition. -/
theorem redByExpectation_iff {args : Args} {env : Env}
    (hmatch : ∀ layer result, env.runCheckpoint layer = .ok result → StatisticsMatch result) :
    (∀ layer ∈ layersToRun args, (finalEntry env layer).success = 0 →
        ExpectationFailed env layer) ↔ RedByExpectation args env := by
  simp only [finalEntry_success_zero, ne_eq, finalEntry_success]
  constructor
  · intro hred
    refine ⟨fun layer hlayer => ?_, fun hgold hfails => ?_⟩
    · by_contra hraised
      have hfail : ¬ Succeeded env layer := fun ⟨result, hok, _⟩ => hraised ⟨result, hok⟩
      obtain ⟨result, hok, -⟩ := hred layer hlayer fun hgreen => hfail hgreen.1
      exact hraised ⟨result, hok⟩
    · exact hred .gold hgold fun hgreen => hgreen.2 ⟨rfl, hfails⟩
  · rintro ⟨hran, hchurn⟩ layer hlayer hnot
    by_cases hfailed : layer = .gold ∧ churnFails env = true
    · obtain ⟨rfl, hfails⟩ := hfailed
      exact hchurn hlayer hfails
    · obtain ⟨result, hok⟩ := hran layer hlayer
      by_contra hno
      have hsuccess : result.success = true := by
        apply (hmatch layer result hok).success_iff.2
        intro v hv e he
        by_contra hfalse
        exact hno ⟨result, hok, v, hv, e, he, Bool.eq_false_of_not_eq_true hfalse⟩
      exact hnot ⟨⟨result, hok, hsuccess⟩, hfailed⟩

/-- The layers that are pushed with a positive number of failed expectations. -/
theorem pushed_failed_iff {args : Args} {env : Env} {run : GateRun} {m : Metrics}
    (hmatch : ∀ layer result, env.runCheckpoint layer = .ok result → StatisticsMatch result)
    (hrun : gateRun args env = .ok run) (hpushed : run.metrics = some m) {layer : Layer} {n : Int} :
    ((layer, n) ∈ m.failed ∧ 0 < n) ↔ layer ∈ layersToRun args ∧
      n = ((finalEntry env layer).evaluated : Int) - (finalEntry env layer).passed ∧
        ExpectationFailed env layer := by
  rw [(metrics_of_pushed hrun hpushed).1, List.mem_map, ← failed_pos_iff (hmatch layer)]
  constructor
  · rintro ⟨⟨e, he, heq⟩, hpos⟩
    obtain ⟨hlayer, hstats⟩ := mem_layerStats.1 he
    obtain ⟨rfl, rfl⟩ := Prod.mk.inj heq
    rw [hstats] at hpos ⊢
    exact ⟨hlayer, rfl, hpos⟩
  · rintro ⟨hlayer, rfl, hpos⟩
    exact ⟨⟨(layer, finalEntry env layer), mem_layerStats.2 ⟨hlayer, rfl⟩, rfl⟩, hpos⟩

/-- The layers that are pushed as red. -/
theorem pushed_red_iff {args : Args} {env : Env} {run : GateRun} {m : Metrics}
    (hrun : gateRun args env = .ok run) (hpushed : run.metrics = some m) {layer : Layer} :
    (layer, 0) ∈ m.success ↔
      layer ∈ layersToRun args ∧ (finalEntry env layer).success = 0 := by
  rw [(metrics_of_pushed hrun hpushed).2.1, List.mem_map]
  constructor
  · rintro ⟨e, he, heq⟩
    obtain ⟨hlayer, hstats⟩ := mem_layerStats.1 he
    obtain ⟨rfl, hzero⟩ := Prod.mk.inj heq
    exact ⟨hlayer, hstats ▸ hzero⟩
  · rintro ⟨hlayer, hzero⟩
    exact ⟨(layer, finalEntry env layer), mem_layerStats.2 ⟨hlayer, rfl⟩, by rw [hzero]⟩

/-- **The red layers are named** exactly when an expectation made them red. For every run whose
metrics reach the gateway, whatever the checkpoints report as long as their statistics match their
results: every layer pushed with `gx_validation_success` 0 has a positive `gx_expectations_failed`,
and a red gate has a layer with one, if and only if no selected checkpoint raised an exception and
the churn check did not fail while every expectation of the gold layer passed. -/
theorem red_gate_names_layer_iff {args : Args} {env : Env} {run : GateRun} {m : Metrics}
    (hmatch : ∀ layer result, env.runCheckpoint layer = .ok result → StatisticsMatch result)
    (hrun : gateRun args env = .ok run) (hpushed : run.metrics = some m) :
    ((∀ layer, (layer, 0) ∈ m.success → ∃ n, (layer, n) ∈ m.failed ∧ 0 < n) ∧
        (m.overall = 0 → ∃ layer n, (layer, n) ∈ m.failed ∧ 0 < n)) ↔
      RedByExpectation args env := by
  simp only [pushed_failed_iff hmatch hrun hpushed, pushed_red_iff hrun hpushed]
  rw [← redByExpectation_iff hmatch]
  constructor
  · rintro ⟨hlayers, -⟩ layer hlayer hzero
    obtain ⟨-, -, -, hexp⟩ := hlayers layer ⟨hlayer, hzero⟩
    exact hexp
  · intro hred
    refine ⟨fun layer h => ⟨_, h.1, rfl, hred layer h.1 h.2⟩, fun hzero => ?_⟩
    -- a red gate has a layer that is not green, since the table agrees with the flag
    have hnot : ¬ ∀ e ∈ (verdict args env).layerStats, e.2.success = 1 := by
      rw [← allPassed_iff_success]
      intro hpassed
      rw [(metrics_of_pushed hrun hpushed).2.2, if_pos hpassed] at hzero
      cases hzero
    push Not at hnot
    obtain ⟨e, he, hsucc⟩ := hnot
    obtain ⟨hlayer, hstats⟩ := mem_layerStats.1 he
    rw [hstats, ← finalEntry_success_zero] at hsucc
    exact ⟨e.1, _, hlayer, rfl, hred e.1 hlayer hsucc⟩

/-! ## Given runs -/

/-- A suite with these results. -/
def suiteOf (results : List Bool) : ValidationResult where
  suiteName := "suite"
  success := results.all fun success => success
  evaluatedExpectations := some results.length
  successfulExpectations := some (results.countP fun success => success)
  results := results.map fun success => ⟨success, "expect_column_to_exist", none⟩

/-- A checkpoint over suites with these results. -/
def checkpointOf (suites : List (List Bool)) : CheckpointResult where
  success := suites.all fun results => (suiteOf results).success
  runResults := suites.map suiteOf

theorem checkpointOf_match (suites : List (List Bool)) : StatisticsMatch (checkpointOf suites) := by
  have hsuite : ∀ {p : ValidationResult → Prop}, (∀ results ∈ suites, p (suiteOf results)) →
      ∀ v ∈ (checkpointOf suites).runResults, p v := List.forall_mem_map.2
  refine ⟨hsuite fun results _ => ?_, hsuite fun results _ => ?_, hsuite fun results _ => ?_, ?_⟩
  · simp [suiteOf]
  · simp [suiteOf, List.countP_map, Function.comp_def]
  · simp [suiteOf, List.all_map, Function.comp_def]
  · simp [checkpointOf, List.all_map, Function.comp_def]

/-- Silver and gold pass, bronze and the churn query are given; the gateway takes the metrics. -/
def gateEnv (bronze : Except String CheckpointResult) (table : Multiset MetricsRow) : Env where
  connStr := some "trino://admin@localhost:8080/iceberg"
  context := .ok ()
  runCheckpoint
    | .bronze => bronze
    | _ => .ok (checkpointOf [[true, true], [true]])
  database _ := .ok table
  gateway := some "http://pushgateway:9091"
  push _ _ := .ok ()
  now := 0
  dataDocs := .ok ()

theorem gateEnv_match {bronze : Except String CheckpointResult} (table : Multiset MetricsRow)
    (h : ∀ result, bronze = .ok result → StatisticsMatch result) (layer : Layer)
    (result : CheckpointResult) (hok : (gateEnv bronze table).runCheckpoint layer = .ok result) :
    StatisticsMatch result := by
  cases layer with
  | bronze => exact h result hok
  | silver => exact Except.ok.inj hok ▸ checkpointOf_match _
  | gold => exact Except.ok.inj hok ▸ checkpointOf_match _

/-- An expectation of the bronze layer fails. -/
theorem red_gate_names_layer_iff_bronze : ∃ run m,
    gateRun allLayers (gateEnv (.ok (checkpointOf [[true, false]])) 0) = .ok run ∧
      run.metrics = some m ∧ m.overall = 0 ∧
        (∀ layer, (layer, 0) ∈ m.success → ∃ n, (layer, n) ∈ m.failed ∧ 0 < n) ∧
          ∃ layer n, (layer, n) ∈ m.failed ∧ 0 < n := by
  have hmatch := gateEnv_match 0 fun result (hok : Except.ok (checkpointOf [[true, false]]) = _) =>
    Except.ok.inj hok ▸ checkpointOf_match _
  have hred : RedByExpectation allLayers (gateEnv (.ok (checkpointOf [[true, false]])) 0) := by
    refine ⟨fun layer _ => ?_, fun _ hfails => absurd hfails (by decide)⟩
    cases layer <;> exact ⟨_, rfl⟩
  have hnamed := (red_gate_names_layer_iff hmatch rfl rfl).2 hred
  exact ⟨_, _, rfl, rfl, by decide, hnamed.1, hnamed.2 (by decide)⟩

/-- The checkpoint of the bronze layer raises an exception, or the churn check fails on a gold layer
whose expectations pass: the gate is red, and no layer has a failed expectation. -/
theorem red_gate_names_no_layer :
    (∃ run m, gateRun allLayers (gateEnv (.error "connection refused") 0) = .ok run ∧
      run.metrics = some m ∧ m.overall = 0 ∧ (Layer.bronze, 0) ∈ m.success ∧
        ∀ e ∈ m.failed, e.2 = 0) ∧
    ∃ run m, gateRun allLayers (gateEnv (.ok (checkpointOf [[true]]))
        {⟨some 91, some false⟩}) = .ok run ∧
      run.metrics = some m ∧ m.overall = 0 ∧ (Layer.gold, 0) ∈ m.success ∧
        ∀ e ∈ m.failed, e.2 = 0 :=
  ⟨⟨_, _, rfl, rfl, by decide, by decide, by decide⟩,
    ⟨_, _, rfl, rfl, by decide, by decide, by decide⟩⟩

end Lakehouse.Verify
