import Lakehouse.Release.Pipeline
import Lakehouse.Verify.Promotion
import Mathlib.Data.List.Forall2

/-!
# The steps of the release pipeline

What one event does to the pipeline. A CD job publishes its tree only as the next commit of `main`
(`updateImageTags_cases`), and so does a Promote job, with the image of the source in the head it
extends (`runPromote_cases`): a job that has checked out an older head is not let through. So every
step leaves `main` alone or adds one commit (`step_main`). CI runs keep their place and move on
(`step_runs`), and one that has succeeded stays as it is.
-/

namespace Lakehouse.Verify

open Lib Release

variable {ρ : Type} [DecidableEq ρ]

/-! ## One job -/

omit [DecidableEq ρ] in
theorem bump_eq_some {wf : Workflows ρ} {tag : Line} {t t' : RepoTree ρ}
    (h : wf.bump tag t = some t') :
    wf.edit wf.sparkImage tag t.spark = some t'.spark ∧ t'.staging = t.staging ∧
      t'.prod = t.prod := by
  obtain ⟨rest, -, hspark⟩ := Option.bind_eq_some_iff.1 h
  obtain ⟨spark, hedit, rfl⟩ := Option.map_eq_some_iff.1 hspark
  exact ⟨hedit, rfl, rfl⟩

/-- A CD job publishes a tree. -/
structure PublishesTree (wf : Workflows ρ) (short : Line) (accepted : Bool) (j : Job ρ)
    (main : History (RepoTree ρ)) (tree : RepoTree ρ) : Prop where
  bumped : wf.bump ("sha-".toList ++ short) j.tip.tree = some tree
  changed : tree ≠ j.tip.tree
  accepted : accepted = true
  newest : j.checkout = main

theorem updateImageTags_of_publishes {wf : Workflows ρ} {short : Line} {sha : Sha}
    {accepted : Bool} {j : Job ρ} {main : History (RepoTree ρ)} {tree : RepoTree ρ}
    (h : PublishesTree wf short accepted j main tree) :
    wf.updateImageTags short sha accepted j main = ⟨sha, tree⟩ :: main := by
  obtain ⟨hbump, hchanged, rfl, rfl⟩ := h
  have hcommit :
      Clone.commit { Clone.fresh j.tip j.past with index := tree, worktree := tree } sha =
        some { main := ⟨sha, tree⟩ :: j.checkout, other := none
               index := tree, worktree := tree } := by
    unfold Clone.commit
    rw [if_pos]
    · rfl
    · exact fun he => hchanged (Option.some.inj he).symm
  unfold Workflows.updateImageTags
  rw [hbump]
  dsimp only
  rw [hcommit]
  dsimp only
  rw [Clone.pushMain, if_pos ⟨rfl, List.cons_ne_nil _ _, List.suffix_cons _ _⟩]
  rfl

/-- A CD job publishes its tree or leaves `main` alone. -/
theorem updateImageTags_cases (wf : Workflows ρ) (short : Line) (sha : Sha) (accepted : Bool)
    {j : Job ρ} {main : History (RepoTree ρ)} (hgrown : j.checkout <:+ main) :
    wf.updateImageTags short sha accepted j main = main ∨
      ∃ tree, PublishesTree wf short accepted j main tree := by
  unfold Workflows.updateImageTags
  cases hbump : wf.bump ("sha-".toList ++ short) j.tip.tree with
  | none => exact .inl rfl
  | some tree =>
    dsimp only
    cases hcommit : Clone.commit
        { Clone.fresh j.tip j.past with index := tree, worktree := tree } sha with
    | none => exact .inl rfl
    | some clone =>
      dsimp only
      cases hpush : clone.pushMain accepted main with
      | none => exact .inl rfl
      | some main' =>
        rcases Clone.push_commit_cases (r := { Clone.fresh j.tip j.past with
          index := tree, worktree := tree }) rfl rfl hcommit hpush hgrown with hsame | ⟨hnewest, -⟩
        · exact .inl hsame
        · refine .inr ⟨tree, ⟨hbump, ?_, Clone.accepted_of_pushMain hpush, hnewest.symm⟩⟩
          exact fun he => Clone.hasStaged_of_commit hcommit (congrArg some he.symm)

/-- A Promote job leaves `main` alone or takes the image of the source in the head it extends. -/
theorem runPromote_cases {wf : Workflows ρ} (hsets : wf.SetsImage) (e : Environment)
    (sha : Sha) (accepted : Bool) {j : Job ρ} {main : History (RepoTree ρ)}
    (hgrown : j.checkout <:+ main) :
    wf.runPromote e sha accepted j main = main ∨
      ∃ k, main = j.checkout ∧ k.image = (j.tip.tree.source e).image ∧
        wf.runPromote e sha accepted j main = ⟨sha, j.tip.tree.setTarget k e⟩ :: main := by
  unfold Workflows.runPromote
  rw [promote_options _ e rfl]
  change (promoteTo (wf.tools sha accepted) wf.edit ⟨false, false⟩ e _).2.origin = main ∨
    ∃ k, _ ∧ _ ∧ (promoteTo (wf.tools sha accepted) wf.edit ⟨false, false⟩ e _).2.origin = _
  rcases promoteTo_ways (wf.tools sha accepted) wf.edit ⟨false, false⟩ e
    ⟨Clone.fresh j.tip j.past, main⟩ with hruns | ⟨k, hedits⟩ | hrefused
  · rw [promoteTo_of_alreadyRuns hruns]
    exact .inl rfl
  · rw [promoteTo_of_edits hedits]
    dsimp only
    rw [if_neg (by decide)]
    have himage := (image_of_edited (hsets.tools sha accepted) rfl hedits.readable
      hedits.edited).2
    have hsnd : ∀ (p : Bool × World ρ) (out : Outcome),
        (if p.1 = true then (out, p.2) else (.exited 1, p.2)).2 = p.2 := by
      intro p out
      split <;> rfl
    rw [hsnd]
    cases hpublish : publish (wf.tools sha accepted) e
      { clone := { Clone.fresh j.tip j.past with worktree := j.tip.tree.setTarget k e }
        origin := main } with
    | mk ok w' =>
    have horigin : (publish (wf.tools sha accepted) e
        { clone := { Clone.fresh j.tip j.past with worktree := j.tip.tree.setTarget k e }
          origin := main }).2.origin = w'.origin := by rw [hpublish]
    cases ok with
    | false =>
      have hsame := publish_eq_false (congrArg Prod.fst hpublish)
      exact .inl hsame
    | true =>
      obtain ⟨sha', clone', hsha, hcommit, hpush⟩ := publish_eq_true hpublish
      obtain rfl : sha = sha' := Option.some.inj hsha
      rcases Clone.push_commit_cases rfl rfl hcommit hpush hgrown with hsame | ⟨hnewest, hnew⟩
      · exact .inl (horigin.trans hsame)
      · refine .inr ⟨k, hnewest, himage, horigin.trans (hnew.trans ?_)⟩
        dsimp only [Clone.fresh]
        rw [RepoTree.target_setTarget]
  · rw [hrefused]
    exact .inl rfl

/-! ## One step -/

theorem step_ciStart (wf : Workflows ρ) (s : ReleasePipeline ρ) (trigger : Trigger) (sha : Sha) :
    s.step wf (.ciStart trigger sha) = s ∨ s.step wf (.ciStart trigger sha) =
      { s with runs := s.runs.map (CiRun.cancel trigger.ref) ++
        [⟨trigger, sha, .inProgress, false⟩] } := by
  unfold ReleasePipeline.step
  dsimp only
  split
  · exact .inr rfl
  · exact .inl rfl

theorem step_jobStart (wf : Workflows ρ) (s : ReleasePipeline ρ) (workflow : Workflow) :
    s.step wf (.jobStart workflow) = s ∨
      ∃ tip past, s.main = tip :: past ∧ workflow.triggered s.runs = true ∧
        s.step wf (.jobStart workflow) = { s with jobs := s.jobs ++ [⟨workflow, tip, past⟩] } := by
  unfold ReleasePipeline.step
  dsimp only
  split
  · exact .inl rfl
  next tip past hmain =>
    split
    · next htriggered => exact .inr ⟨tip, past, hmain, htriggered, rfl⟩
    · exact .inl rfl

theorem step_cdPush (wf : Workflows ρ) (s : ReleasePipeline ρ) (job : Nat) (short : Line)
    (sha : Sha) (accepted : Bool) :
    s.step wf (.cdPush job short sha accepted) = s ∨
      ∃ j r, s.jobs[job]? = some j ∧ (∃ run, j.workflow = .cd run ∧ s.runs[run]? = some r) ∧
        IsAbbrev short r.headSha ∧ s.step wf (.cdPush job short sha accepted) =
          { s with main := wf.updateImageTags short sha accepted j s.main
                   jobs := s.jobs.eraseIdx job } := by
  unfold ReleasePipeline.step
  dsimp only
  split
  next run tip past hjob =>
    split
    next r hrun =>
      split
      · next habbrev => exact .inr ⟨_, r, hjob, ⟨run, rfl, hrun⟩, habbrev, rfl⟩
      · exact .inl rfl
    · exact .inl rfl
  · exact .inl rfl

theorem step_promotePush (wf : Workflows ρ) (s : ReleasePipeline ρ) (job : Nat) (sha : Sha)
    (accepted : Bool) :
    s.step wf (.promotePush job sha accepted) = s ∨
      ∃ j e, s.jobs[job]? = some j ∧ s.step wf (.promotePush job sha accepted) =
        { s with main := wf.runPromote e sha accepted j s.main
                 jobs := s.jobs.eraseIdx job } := by
  unfold ReleasePipeline.step
  dsimp only
  split
  · next e tip past hjob => exact .inr ⟨_, e, hjob, rfl⟩
  · exact .inl rfl

/-- Every job has checked out a head of `main`. -/
def JobsOnMain (s : ReleasePipeline ρ) : Prop := ∀ j ∈ s.jobs, j.checkout <:+ s.main

/-- What a CD job would push now, for a CI run. -/
structure CdPublishes (wf : Workflows ρ) (s : ReleasePipeline ρ) (job : Nat) (short : Line)
    (accepted : Bool) (r : CiRun) (j : Job ρ) (tree : RepoTree ρ) : Prop where
  job : s.jobs[job]? = some j
  run : ∃ run, j.workflow = .cd run ∧ s.runs[run]? = some r
  shortens : IsAbbrev short r.headSha
  tree : PublishesTree wf short accepted j s.main tree

/-- What a step does to the head of `main`. -/
inductive NewHead (wf : Workflows ρ) (s : ReleasePipeline ρ) :
    PipelineEvent ρ → GitCommit (RepoTree ρ) → Prop
  | push {c} : NewHead wf s (.push c) c
  | cd {job short sha accepted r j tree} : CdPublishes wf s job short accepted r j tree →
      NewHead wf s (.cdPush job short sha accepted) ⟨sha, tree⟩
  | promote {job sha accepted e tip past k} : s.main = tip :: past →
      k.image = (tip.tree.source e).image →
      NewHead wf s (.promotePush job sha accepted) ⟨sha, tip.tree.setTarget k e⟩

/-- **A step leaves `main` alone or adds one commit.** -/
theorem step_main {wf : Workflows ρ} (hsets : wf.SetsImage) {s : ReleasePipeline ρ}
    (hjobs : JobsOnMain s) (e : PipelineEvent ρ) :
    (s.step wf e).main = s.main ∨
      ∃ c, NewHead wf s e c ∧ (s.step wf e).main = c :: s.main := by
  cases e with
  | push c => exact .inr ⟨c, .push, rfl⟩
  | ciStart trigger sha =>
    left
    rcases step_ciStart wf s trigger sha with he | he
    · rw [he]
    · rw [he]
  | ciBuild run => exact .inl rfl
  | ciFinish run success => exact .inl rfl
  | jobStart workflow =>
    left
    rcases step_jobStart wf s workflow with he | ⟨tip, past, -, -, he⟩
    · rw [he]
    · rw [he]
  | cdPush job short sha accepted =>
    rcases step_cdPush wf s job short sha accepted with he | ⟨j, r, hjob, hrun, habbrev, he⟩
    · exact .inl (by rw [he])
    · rw [he]
      have hgrown := hjobs j (List.mem_of_getElem? hjob)
      rcases updateImageTags_cases wf short sha accepted hgrown with hsame | ⟨tree, htree⟩
      · exact .inl hsame
      · exact .inr ⟨_, .cd ⟨hjob, hrun, habbrev, htree⟩, updateImageTags_of_publishes htree⟩
  | promotePush job sha accepted =>
    rcases step_promotePush wf s job sha accepted with he | ⟨j, e, hjob, he⟩
    · exact .inl (by rw [he])
    · rw [he]
      have hgrown := hjobs j (List.mem_of_getElem? hjob)
      rcases runPromote_cases hsets e sha accepted hgrown with hsame | ⟨k, hnewest, himage, hnew⟩
      · exact .inl hsame
      · exact .inr ⟨_, .promote hnewest himage, hnew⟩

theorem main_suffix_step {wf : Workflows ρ} (hsets : wf.SetsImage) {s : ReleasePipeline ρ}
    (hjobs : JobsOnMain s) (e : PipelineEvent ρ) : s.main <:+ (s.step wf e).main := by
  rcases step_main hsets hjobs e with he | ⟨c, -, he⟩
  · exact he ▸ List.suffix_rfl
  · exact he ▸ List.suffix_cons _ _

/-- A job of the next state was there before or starts from the head of `main`. -/
theorem step_jobs (wf : Workflows ρ) (s : ReleasePipeline ρ) (e : PipelineEvent ρ) :
    ∀ j ∈ (s.step wf e).jobs, j ∈ s.jobs ∨
      j.checkout = s.main ∧ j.workflow.triggered s.runs = true := by
  intro j hj
  cases e with
  | push c => exact .inl hj
  | ciStart trigger sha =>
    rcases step_ciStart wf s trigger sha with he | he
    · exact .inl (he ▸ hj)
    · rw [he] at hj
      exact .inl hj
  | ciBuild run => exact .inl hj
  | ciFinish run success => exact .inl hj
  | jobStart workflow =>
    rcases step_jobStart wf s workflow with he | ⟨tip, past, hmain, htriggered, he⟩
    · exact .inl (he ▸ hj)
    · rw [he] at hj
      rcases List.mem_append.1 hj with hj | hj
      · exact .inl hj
      · rw [List.mem_singleton.1 hj]
        exact .inr ⟨hmain.symm, htriggered⟩
  | cdPush job short sha accepted =>
    rcases step_cdPush wf s job short sha accepted with he | ⟨_, _, -, -, -, he⟩
    · exact .inl (he ▸ hj)
    · rw [he] at hj
      exact .inl (List.mem_of_mem_eraseIdx hj)
  | promotePush job sha accepted =>
    rcases step_promotePush wf s job sha accepted with he | ⟨_, _, -, he⟩
    · exact .inl (he ▸ hj)
    · rw [he] at hj
      exact .inl (List.mem_of_mem_eraseIdx hj)

theorem JobsOnMain.step {wf : Workflows ρ} (hsets : wf.SetsImage) {s : ReleasePipeline ρ}
    (h : JobsOnMain s) (e : PipelineEvent ρ) : JobsOnMain (s.step wf e) := by
  intro j hj
  have hsuffix := main_suffix_step hsets h e
  rcases step_jobs wf s e j hj with hj | ⟨hcheckout, -⟩
  · exact (h j hj).trans hsuffix
  · exact hcheckout ▸ hsuffix

/-! ## CI runs -/

/-- What a step makes of a CI run. -/
inductive RunMoves : CiRun → CiRun → Prop
  | stay {r} : RunMoves r r
  | cancel {r} (ref : Ref) : RunMoves r (r.cancel ref)
  | build {r} : RunMoves r r.build
  | finish {r} (success : Bool) : RunMoves r (r.finish success)

theorem RunMoves.kept {r r' : CiRun} (h : RunMoves r r') :
    r'.headSha = r.headSha ∧ (r.pushed = true → r'.pushed = true) := by
  cases h with
  | stay => exact ⟨rfl, id⟩
  | cancel ref =>
    unfold CiRun.cancel
    split <;> exact ⟨rfl, id⟩
  | build =>
    unfold CiRun.build
    split
    · exact ⟨rfl, fun _ => rfl⟩
    · exact ⟨rfl, id⟩
  | finish success =>
    unfold CiRun.finish
    split
    · exact ⟨rfl, id⟩
    split
    · exact ⟨rfl, id⟩
    split <;> exact ⟨rfl, id⟩

/-- A run that has succeeded stays as it is. -/
theorem RunMoves.of_success {r r' : CiRun} (h : RunMoves r r') (hr : r.status = .success) :
    r' = r := by
  cases h with
  | stay => rfl
  | cancel ref => exact if_neg fun hc => by rw [hr] at hc; cases hc.2
  | build => exact if_neg fun hc => by rw [hr] at hc; cases hc.1
  | finish success => exact if_pos (by rw [hr]; decide)

/-- A run of a push to `main` succeeds only after its image is pushed. -/
def SuccessBuilt (r : CiRun) : Prop :=
  r.status = .success → r.trigger.builds = true → r.pushed = true

theorem RunMoves.successBuilt {r r' : CiRun} (h : RunMoves r r') (hr : SuccessBuilt r) :
    SuccessBuilt r' := by
  cases h with
  | stay => exact hr
  | cancel ref =>
    unfold CiRun.cancel
    split
    · nofun
    · exact hr
  | build =>
    unfold CiRun.build
    split
    · exact fun _ _ => rfl
    · exact hr
  | finish success =>
    unfold CiRun.finish
    split
    · exact hr
    split
    · nofun
    split
    · exact hr
    · next hleft =>
      intro _ hbuilds
      by_contra hpushed
      exact hleft ⟨hbuilds, by simpa using hpushed⟩

theorem modify_moves {runs : List CiRun} {f : CiRun → CiRun} (hf : ∀ r, RunMoves r (f r))
    (i : Nat) : List.Forall₂ RunMoves runs (runs.modify i f) := by
  induction runs generalizing i with
  | nil => cases i <;> exact .nil
  | cons r runs ih =>
    cases i with
    | zero => exact .cons (hf r) (List.forall₂_same.2 fun _ _ => .stay)
    | succ i => exact .cons .stay (ih i)

theorem getElem?_of_forall₂ {α β : Type} {R : α → β → Prop} {l : List α} {l' : List β}
    (h : List.Forall₂ R l l') {i : Nat} {a : α} (ha : l[i]? = some a) :
    ∃ b, l'[i]? = some b ∧ R a b := by
  induction h generalizing i with
  | nil => cases ha
  | cons hab _ ih =>
    cases i with
    | zero =>
      cases ha
      exact ⟨_, rfl, hab⟩
    | succ i => exact ih ha

theorem cdPush_runs (wf : Workflows ρ) (s : ReleasePipeline ρ) (job : Nat) (short : Line)
    (sha : Sha) (accepted : Bool) : (s.step wf (.cdPush job short sha accepted)).runs = s.runs := by
  rcases step_cdPush wf s job short sha accepted with he | ⟨_, _, -, -, -, he⟩
  · rw [he]
  · rw [he]

/-- The runs of the next state are those of this one, moved on, and at most one that starts. -/
theorem step_runs (wf : Workflows ρ) (s : ReleasePipeline ρ) (event : PipelineEvent ρ) :
    ∃ moved started, (s.step wf event).runs = moved ++ started ∧
      List.Forall₂ RunMoves s.runs moved ∧ ∀ r ∈ started, r.status = .inProgress := by
  have hsame : List.Forall₂ RunMoves s.runs s.runs := List.forall₂_same.2 fun _ _ => .stay
  have hkept : (s.step wf event).runs = s.runs → ∃ moved started,
      (s.step wf event).runs = moved ++ started ∧ List.Forall₂ RunMoves s.runs moved ∧
        ∀ r ∈ started, r.status = .inProgress := by
    intro he
    exact ⟨s.runs, [], by rw [he, List.append_nil], hsame, nofun⟩
  cases event with
  | push c => exact hkept rfl
  | ciStart trigger sha =>
    rcases step_ciStart wf s trigger sha with he | he
    · exact hkept (by rw [he])
    · refine ⟨_, _, by rw [he], ?_, fun r hr => by rw [List.mem_singleton.1 hr]⟩
      exact List.forall₂_map_right_iff.2 (List.forall₂_same.2 fun _ _ => .cancel trigger.ref)
  | ciBuild run =>
    exact ⟨_, [], (List.append_nil _).symm, modify_moves (fun _ => .build) run, nofun⟩
  | ciFinish run success =>
    exact ⟨_, [], (List.append_nil _).symm, modify_moves (fun _ => .finish success) run, nofun⟩
  | jobStart workflow =>
    apply hkept
    rcases step_jobStart wf s workflow with he | ⟨_, _, -, -, he⟩
    · rw [he]
    · rw [he]
  | cdPush job short sha accepted => exact hkept (cdPush_runs wf s job short sha accepted)
  | promotePush job sha accepted =>
    apply hkept
    rcases step_promotePush wf s job sha accepted with he | ⟨_, _, -, he⟩
    · rw [he]
    · rw [he]

theorem step_run {s : ReleasePipeline ρ} {i : Nat} {r : CiRun} (h : s.runs[i]? = some r)
    (wf : Workflows ρ) (event : PipelineEvent ρ) :
    ∃ r', (s.step wf event).runs[i]? = some r' ∧ RunMoves r r' := by
  obtain ⟨moved, started, hruns, hmoved, -⟩ := step_runs wf s event
  obtain ⟨r', hr', hmoves⟩ := getElem?_of_forall₂ hmoved h
  have hlt := (List.getElem?_eq_some_iff.1 hr').1
  exact ⟨r', by rw [hruns, List.getElem?_append_left hlt, hr'], hmoves⟩

end Lakehouse.Verify
