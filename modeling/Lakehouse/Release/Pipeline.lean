import Lakehouse.Release.Promote

/-!
# The release pipeline

The workflows around `main`: `.github/workflows/ci.yml`, of which the job `build-push` pushes the
images of a commit, `cd.yml`, which a completed CI run starts and which writes the tag of that run's
commit into the bases, and `promote.yml`, which runs `scripts/promote.sh`. CI runs of one ref cancel
each other. A CD or Promote job works in a clean checkout of `main` as it is when the job starts,
and pushes later.
-/

namespace Lakehouse.Release

open Lib

/-! ## CI -/

/-- What starts a CI run. -/
inductive Trigger where
  | push (branch : String)
  | pullRequest (number : Nat) (headBranch : String)
deriving DecidableEq

/-- The ref a workflow runs for. -/
inductive Ref where
  | head (branch : String)
  | pull (number : Nat)
deriving DecidableEq

/-- `github.ref`, which groups the runs. -/
def Trigger.ref : Trigger → Ref
  | .push branch => .head branch
  | .pullRequest number _ => .pull number

/-- The branch that the filter of a `workflow_run` sees. -/
def Trigger.headBranch : Trigger → String
  | .push branch => branch
  | .pullRequest _ branch => branch

/-- The condition of the job `build-push`. -/
def Trigger.builds : Trigger → Bool
  | .push branch => branch == "main"
  | .pullRequest _ _ => false

/-- The status of a CI run. -/
inductive CiStatus where
  | inProgress | cancelled | failure | success
deriving DecidableEq

/-- A run of the CI workflow. -/
structure CiRun where
  trigger : Trigger
  headSha : Sha
  status : CiStatus
  /-- `build-push` has pushed `spark-batch`. -/
  pushed : Bool
deriving DecidableEq

/-- The tag of `docker/metadata-action`: `type=sha,prefix=sha-,format=short`. -/
def CiRun.tag (r : CiRun) : Line := "sha-".toList ++ r.headSha.val.take 7

/-- A newer run for the same ref cancels the run that is in progress. -/
def CiRun.cancel (ref : Ref) (r : CiRun) : CiRun :=
  if r.trigger.ref = ref ∧ r.status = .inProgress then { r with status := .cancelled } else r

/-- The job `build-push`, of a run that builds. -/
def CiRun.build (r : CiRun) : CiRun :=
  if r.status = .inProgress ∧ r.trigger.builds = true then { r with pushed := true } else r

/-- The run completes; it succeeds only when none of its jobs is left. -/
def CiRun.finish (success : Bool) (r : CiRun) : CiRun :=
  if r.status ≠ .inProgress then r
  else if success = false then { r with status := .failure }
  else if r.trigger.builds = true ∧ r.pushed = false then r
  else { r with status := .success }

/-! ## The jobs that push to `main` -/

section

variable {ρ : Type}

/-- What the workflows call: `kustomize edit set image` for `spark-batch` and for the other images,
and the name under which `build-push` pushes `spark-batch`. -/
structure Workflows (ρ : Type) where
  edit : Line → Line → Kustomization → Option Kustomization
  editOthers : Line → ρ → Option ρ
  sparkImage : Line

/-- The workflows that push to `main`. -/
inductive Workflow where
  /-- CD for a CI run. -/
  | cd (run : Nat)
  | promote (e : Environment)
deriving DecidableEq

/-- A job and the head of `main` it has checked out. -/
structure Job (ρ : Type) where
  workflow : Workflow
  tip : GitCommit (RepoTree ρ)
  past : History (RepoTree ρ)

/-- The history that the job has checked out. -/
def Job.checkout (j : Job ρ) : History (RepoTree ρ) := j.tip :: j.past

/-- The tree with the tag in the bases. -/
def Workflows.bump (wf : Workflows ρ) (tag : Line) (t : RepoTree ρ) : Option (RepoTree ρ) :=
  (wf.editOthers tag t.rest).bind fun rest =>
    (wf.edit wf.sparkImage tag t.spark).map fun spark => { t with spark := spark, rest := rest }

/-- The tools of a runner, which has no `kubectl`. -/
def Workflows.tools (wf : Workflows ρ) (sha : Sha) (accepted : Bool) : Tools where
  kustomize := some wf.edit
  kubectl := false
  commit := some sha
  accepted := accepted

/-- As `Tools.SetsImage`. -/
def Workflows.SetsImage (wf : Workflows ρ) : Prop :=
  ∀ name tag k k', wf.edit name tag k = some k' →
    ∃ i, k'.image = some i ∧ i.newName.val = name ∧ i.newTag.val = tag

theorem Workflows.SetsImage.tools {wf : Workflows ρ} (h : wf.SetsImage) (sha : Sha)
    (accepted : Bool) : (wf.tools sha accepted).SetsImage := by
  rintro _ ⟨⟩
  exact h

variable [DecidableEq ρ]

/-- `update-image-tags` from the edits on: `main` after it. -/
def Workflows.updateImageTags (wf : Workflows ρ) (short : Line) (sha : Sha) (accepted : Bool)
    (j : Job ρ) (main : History (RepoTree ρ)) : History (RepoTree ρ) :=
  match wf.bump ("sha-".toList ++ short) j.tip.tree with
  | none => main
  | some tree =>
    let clone := { Clone.fresh j.tip j.past with index := tree, worktree := tree }
    match clone.commit sha with
    | none => main
    | some clone => (clone.pushMain accepted main).getD main

/-- The step `Promote`: `main` after it. -/
def Workflows.runPromote (wf : Workflows ρ) (e : Environment) (sha : Sha) (accepted : Bool)
    (j : Job ρ) (main : History (RepoTree ρ)) : History (RepoTree ρ) :=
  (promote (wf.tools sha accepted) [e.name] ⟨Clone.fresh j.tip j.past, main⟩).2.origin

/-! ## The pipeline -/

/-- The branch `main`, the CI runs and the CD jobs. -/
structure ReleasePipeline (ρ : Type) where
  main : History (RepoTree ρ)
  runs : List CiRun
  jobs : List (Job ρ)

/-- What happens to them, in any order. -/
inductive PipelineEvent (ρ : Type) where
  /-- A developer pushes a commit to `main`. -/
  | push (c : GitCommit (RepoTree ρ))
  | ciStart (trigger : Trigger) (sha : Sha)
  | ciBuild (run : Nat)
  | ciFinish (run : Nat) (success : Bool)
  | jobStart (workflow : Workflow)
  /-- A CD job pushes; `short` is what `git rev-parse --short` gives for its head commit. -/
  | cdPush (job : Nat) (short : Line) (sha : Sha) (accepted : Bool)
  | promotePush (job : Nat) (sha : Sha) (accepted : Bool)

/-- The kustomizations that pin `spark-batch`. -/
def RepoTree.pins (t : RepoTree ρ) : List Kustomization := [t.spark, t.staging, t.prod]

omit [DecidableEq ρ] in
theorem RepoTree.source_mem_pins (t : RepoTree ρ) (e : Environment) : t.source e ∈ t.pins := by
  cases e <;> simp [pins, source]

omit [DecidableEq ρ] in
theorem RepoTree.mem_pins_setTarget {t : RepoTree ρ} {k k' : Kustomization} {e : Environment}
    (h : k ∈ (t.setTarget k' e).pins) : k = k' ∨ k ∈ t.pins := by
  cases e with
  | staging =>
    simp only [pins, setTarget, List.mem_cons, List.not_mem_nil, or_false] at h ⊢
    tauto
  | prod =>
    simp only [pins, setTarget, List.mem_cons, List.not_mem_nil, or_false] at h ⊢
    tauto

/-- What `git rev-parse --short` may give. -/
def IsAbbrev (short : Line) (sha : Sha) : Prop := short <+: sha.val ∧ 7 ≤ short.length

instance (short : Line) (sha : Sha) : Decidable (IsAbbrev short sha) :=
  inferInstanceAs (Decidable (_ ∧ _))

/-- The triggers of `ci.yml`; a push to `main` is of one of its commits. -/
def Trigger.listed (main : History (RepoTree ρ)) (sha : Sha) : Trigger → Bool
  | .push branch =>
    if branch = "main" then sha ∈ main.map GitCommit.sha else branch == "develop"
  | .pullRequest _ _ => true

/-- The triggers of `cd.yml` and `promote.yml`. -/
def Workflow.triggered (runs : List CiRun) : Workflow → Bool
  | .cd run => runs[run]?.any fun r => r.status == .success && r.trigger.headBranch == "main"
  | .promote _ => true

/-- One event. An event that is not possible changes nothing. -/
def ReleasePipeline.step (wf : Workflows ρ) (s : ReleasePipeline ρ) :
    PipelineEvent ρ → ReleasePipeline ρ
  | .push c => { s with main := c :: s.main }
  | .ciStart trigger sha =>
    if trigger.listed s.main sha = true then
      { s with
        runs := s.runs.map (CiRun.cancel trigger.ref) ++ [⟨trigger, sha, .inProgress, false⟩] }
    else s
  | .ciBuild run => { s with runs := s.runs.modify run CiRun.build }
  | .ciFinish run success => { s with runs := s.runs.modify run (CiRun.finish success) }
  | .jobStart workflow =>
    match s.main with
    | [] => s
    | tip :: past =>
      if workflow.triggered s.runs = true then
        { s with jobs := s.jobs ++ [⟨workflow, tip, past⟩] }
      else s
  | .cdPush job short sha accepted =>
    match s.jobs[job]? with
    | some ⟨.cd run, tip, past⟩ =>
      match s.runs[run]? with
      | some r =>
        if IsAbbrev short r.headSha then
          { s with
            main := wf.updateImageTags short sha accepted ⟨.cd run, tip, past⟩ s.main
            jobs := s.jobs.eraseIdx job }
        else s
      | none => s
    | _ => s
  | .promotePush job sha accepted =>
    match s.jobs[job]? with
    | some ⟨.promote e, tip, past⟩ =>
      { s with
        main := wf.runPromote e sha accepted ⟨.promote e, tip, past⟩ s.main
        jobs := s.jobs.eraseIdx job }
    | _ => s

/-- The state after some events. -/
def ReleasePipeline.run (wf : Workflows ρ) (s : ReleasePipeline ρ)
    (events : List (PipelineEvent ρ)) : ReleasePipeline ρ := events.foldl (ReleasePipeline.step wf) s

end

end Lakehouse.Release
