import Mathlib

/-!
# Quality gate

`quality/great-expectations/runner.py`: one checkpoint for each selected layer, the churn check on
`gold.customer_metrics`, the metrics pushed to the Pushgateway and the exit code. Everything outside
the script is a field of `Env`, and an exception is an `Except.error`.
-/

namespace Lakehouse.Quality

/-- The layers of the lake. -/
inductive Layer where
  | bronze
  | silver
  | gold
deriving DecidableEq

/-- `LAYERS`. -/
def layers : List Layer := [.bronze, .silver, .gold]

/-- `--datasource`. -/
inductive Datasource where
  | trino
  | pandas
deriving DecidableEq

/-- The command line; no layer is `all`. -/
structure Args where
  layer : Option Layer
  datasource : Datasource

/-! ## Checkpoints -/

/-- The result of one expectation. -/
structure ExpectationResult where
  success : Bool
  expectationType : String
  column : Option String

/-- The validation of one suite, with the statistics that are present. -/
structure ValidationResult where
  suiteName : String
  success : Bool
  evaluatedExpectations : Option Nat
  successfulExpectations : Option Nat
  results : List ExpectationResult

/-- The result of a checkpoint. -/
structure CheckpointResult where
  success : Bool
  runResults : List ValidationResult

/-- What `summarise` returns, and the failures it prints. -/
structure Summary where
  overall : Bool
  totalPassed : Nat
  totalEvaluated : Nat
  failures : List String
deriving DecidableEq

/-- The lines of the failed expectations of a suite. -/
def suiteFailures (r : ValidationResult) : List String :=
  if r.success then []
  else (r.results.filter fun e => !e.success).map fun e =>
    let column := e.column.getD "—"
    "    • " ++ r.suiteName ++ " / " ++ e.expectationType ++ " (column: " ++ column ++ ")"

/-- `summarise`. -/
def summarise (result : CheckpointResult) : Summary where
  overall := result.success
  totalPassed := (result.runResults.map fun r => r.successfulExpectations.getD 0).sum
  totalEvaluated := (result.runResults.map fun r => r.evaluatedExpectations.getD 0).sum
  failures := result.runResults.flatMap suiteFailures

/-! ## The churn check -/

/-- The columns of `gold.customer_metrics` the check reads. -/
structure MetricsRow where
  daysSinceLastOrder : Option Int
  isChurned : Option Bool
deriving DecidableEq

/-- `days_since_last_order > 90 AND is_churned = false`; a comparison with a null does not hold. -/
def isViolation (r : MetricsRow) : Bool :=
  r.daysSinceLastOrder.any (90 < ·) && r.isChurned == some false

/-- The outcomes of the check: skipped, failed with a number of violations, passed, and an
error that is only a warning. -/
inductive ChurnCheck where
  | skip
  | fail (violations : Nat)
  | pass
  | warn (error : String)
deriving DecidableEq

/-- What the check returns: an error does not block. -/
def ChurnCheck.passed : ChurnCheck → Bool
  | .fail _ => false
  | _ => true

/-- A variable that is unset or empty has no value. -/
def nonEmpty (var : Option String) : Option String := var.filter fun s => decide (s ≠ "")

/-- `check_churn_consistency`. -/
def checkChurnConsistency (connStr : Option String)
    (database : String → Except String (Multiset MetricsRow)) : ChurnCheck :=
  match nonEmpty connStr with
  | none => .skip
  | some connStr =>
    match database connStr with
    | .error exc => .warn exc
    | .ok table =>
      let violations := table.countP fun r => isViolation r = true
      if 0 < violations then .fail violations else .pass

/-! ## Metrics -/

/-- The entry of a layer in `layer_stats`. -/
structure LayerStats where
  passed : Nat
  evaluated : Nat
  success : Nat
deriving DecidableEq

/-- The gauges of one push. -/
structure Metrics where
  /-- `gx_expectations_passed` -/
  passed : List (Layer × Nat)
  /-- `gx_expectations_failed` -/
  failed : List (Layer × Int)
  /-- `gx_validation_success` -/
  success : List (Layer × Nat)
  /-- `gx_quality_gate_success` -/
  overall : Nat
  /-- `gx_last_run_timestamp_seconds` -/
  lastRun : Int

/-- `push_metrics`: the gauges that reached the gateway. Whatever the push raises stops at the
handler. -/
def pushMetrics (gateway : Option String) (push : String → Metrics → Except String Unit) (now : Int)
    (layerStats : List (Layer × LayerStats)) (allPassed : Bool) : Except String (Option Metrics) :=
  match nonEmpty gateway with
  | none => return none
  | some gateway =>
    let metrics : Metrics :=
      { passed := layerStats.map fun (layer, s) => (layer, s.passed)
        failed := layerStats.map fun (layer, s) => (layer, (s.evaluated : Int) - s.passed)
        success := layerStats.map fun (layer, s) => (layer, s.success)
        overall := if allPassed then 1 else 0
        lastRun := now }
    tryCatch (do push gateway metrics; return some metrics) fun _ => return none

/-- `context.build_data_docs()` under its handler: whether the pages were built. -/
def buildDataDocs (dataDocs : Except String Unit) : Except String Bool :=
  tryCatch (do dataDocs; return true) fun _ => return false

/-! ## The gate -/

/-- What lies outside the script. -/
structure Env where
  /-- `GX_TRINO_CONNECTION_STRING` -/
  connStr : Option String
  /-- `get_context` -/
  context : Except String Unit
  /-- `run_checkpoint`, with any exception raised until its result is summarised -/
  runCheckpoint : Layer → Except String CheckpointResult
  database : String → Except String (Multiset MetricsRow)
  /-- `PUSHGATEWAY_URL` -/
  gateway : Option String
  push : String → Metrics → Except String Unit
  now : Int
  /-- `build_data_docs` -/
  dataDocs : Except String Unit

/-- `layers_to_run`. -/
def layersToRun (args : Args) : List Layer := args.layer.elim layers fun layer => [layer]

/-- `layer_stats[layer] = …`. -/
def setStats (layerStats : List (Layer × LayerStats)) (layer : Layer) (s : LayerStats) :
    List (Layer × LayerStats) :=
  if layerStats.any fun e => e.1 = layer then
    layerStats.map fun e => if e.1 = layer then (layer, s) else e
  else layerStats ++ [(layer, s)]

/-- The verdict so far, and the statistics of the layers. -/
structure Verdict where
  allPassed : Bool
  layerStats : List (Layer × LayerStats)

/-- The body of the loop over the layers. -/
def runLayer (env : Env) (v : Verdict) (layer : Layer) : Verdict :=
  match env.runCheckpoint layer with
  | .error _ =>
    { allPassed := false
      layerStats := setStats v.layerStats layer { passed := 0, evaluated := 0, success := 0 } }
  | .ok result =>
    let s := summarise result
    { allPassed := if s.overall then v.allPassed else false
      layerStats := setStats v.layerStats layer
        { passed := s.totalPassed, evaluated := s.totalEvaluated
          success := if s.overall then 1 else 0 } }

/-- The custom check of the gold layer. -/
def goldCheck (check : ChurnCheck) (v : Verdict) : Verdict :=
  if check.passed then v
  else
    { allPassed := false
      layerStats := v.layerStats.map fun (layer, s) =>
        (layer, if layer = .gold then { s with success := 0 } else s) }

/-- The churn check, which runs with the gold layer. -/
def churnCheck (args : Args) (env : Env) : Option ChurnCheck :=
  if .gold ∈ layersToRun args then some (checkChurnConsistency env.connStr env.database) else none

/-- `all_passed` and `layer_stats` after the loop and the churn check. -/
def verdict (args : Args) (env : Env) : Verdict :=
  let checked := (layersToRun args).foldl (runLayer env) ⟨true, []⟩
  (churnCheck args env).elim checked fun check => goldCheck check checked

/-- What a run leaves that gets past configuration. -/
structure GateRun where
  verdict : Verdict
  churn : Option ChurnCheck
  metrics : Option Metrics
  docsBuilt : Bool

/-- The body of `main` past configuration: the metrics and then the data docs follow the verdict,
and an exception of either that no handler takes ends the run. -/
def gateRun (args : Args) (env : Env) : Except String GateRun := do
  let verdict := verdict args env
  let metrics ←
    pushMetrics env.gateway env.push env.now verdict.layerStats verdict.allPassed
  let docsBuilt ← buildDataDocs env.dataDocs
  return { verdict, churn := churnCheck args env, metrics, docsBuilt }

/-- The configuration is there and the context loads. -/
def configured (args : Args) (env : Env) : Bool :=
  !(args.datasource = .trino && (nonEmpty env.connStr).isNone) && env.context.isOk

/-- `main`: the exit code, which is 1 after an uncaught exception. -/
def main (args : Args) (env : Env) : Nat :=
  if configured args env then
    match gateRun args env with
    | .error _ => 1
    | .ok run => if run.verdict.allPassed then 0 else 1
  else 2

end Lakehouse.Quality
