import Lakehouse.Verify.PromotionChain

/-!
# Tags and images

A CD job writes the tag of a commit whether or not CI has built it. A CI run for a push to `main`
succeeds only after its image is pushed (`RunsInv`), so every tag that `main` pins has an image
exactly when every CD job that publishes is for such a run, or for a commit that shares its seven
digits with one that is built, and git shortens it to seven digits; and when no developer pins
another tag by hand (`pins_built_iff`). A pull request from a branch called `main` is not such a run
(`forked_main_not_built`).
-/

namespace Lakehouse.Verify

open Lib Release

variable {ρ : Type}

/-! ## Which tags have an image -/

/-- A `build-push` job has pushed `spark-batch` under a tag. -/
def Built (s : ReleasePipeline ρ) (tag : Line) : Prop := ∃ r ∈ s.runs, r.pushed = true ∧ r.tag = tag

/-- Where the image has the tag of a build, that has been pushed. -/
def PinBuilt (s : ReleasePipeline ρ) (image : Option Image) : Prop :=
  ∀ i ∈ image, "sha-".toList <+: i.newTag.val → Built s i.newTag.val

/-- A kustomization on `main` has or had the image. -/
def OnMain (s : ReleasePipeline ρ) (image : Option Image) : Prop :=
  ∃ c ∈ s.main, ∃ k ∈ c.tree.pins, k.image = image

/-- Every `sha-` tag that a kustomization has ever pinned on `main` has an image. -/
def PinsBuilt (s : ReleasePipeline ρ) : Prop :=
  ∀ c ∈ s.main, ∀ k ∈ c.tree.pins, PinBuilt s k.image

instance (s : ReleasePipeline ρ) (tag : Line) : Decidable (Built s tag) :=
  inferInstanceAs (Decidable (∃ r ∈ _, _))

instance (s : ReleasePipeline ρ) (image : Option Image) : Decidable (PinBuilt s image) :=
  inferInstanceAs (Decidable (∀ i ∈ _, _))

instance (s : ReleasePipeline ρ) : Decidable (PinsBuilt s) :=
  inferInstanceAs (Decidable (∀ c ∈ _, _))

variable {wf : Workflows ρ} {s : ReleasePipeline ρ} {job : Nat} {short : Line} {accepted : Bool}
  {r : CiRun} {j : Job ρ} {tree : RepoTree ρ}

theorem built_iff_digits {sha : Sha} (h : IsAbbrev short sha) :
    Built s ("sha-".toList ++ short) ↔ short.length = 7 ∧
      ∃ b ∈ s.runs, b.pushed = true ∧ b.headSha.val.take 7 = sha.val.take 7 := by
  have hshort : short = sha.val.take short.length := List.prefix_iff_eq_take.1 h.1
  constructor
  · rintro ⟨b, hb, hpushed, htag⟩
    have hdigits : b.headSha.val.take 7 = short := List.append_cancel_left htag
    have hlength : short.length = 7 := by
      rw [← hdigits, List.length_take, b.headSha.property.1]
      rfl
    exact ⟨hlength, b, hb, hpushed, by rw [hdigits, ← hlength, ← hshort]⟩
  · rintro ⟨hlength, b, hb, hpushed, hdigits⟩
    refine ⟨b, hb, hpushed, ?_⟩
    unfold CiRun.tag
    rw [hdigits, ← hlength, ← hshort]

/-- A promotion pins what `main` had before. -/
theorem onMain_of_promote {sha : Sha} {c : GitCommit (RepoTree ρ)}
    (h : NewHead wf s (.promotePush job sha accepted) c) : ∀ k ∈ c.tree.pins, OnMain s k.image := by
  cases h with
  | @promote _ _ _ e tip past k' hmain himage =>
    have htip : tip ∈ s.main := hmain ▸ List.mem_cons_self
    intro k hk
    rcases RepoTree.mem_pins_setTarget hk with rfl | hk
    · exact ⟨tip, htip, _, tip.tree.source_mem_pins e, himage.symm⟩
    · exact ⟨tip, htip, k, hk, rfl⟩

theorem PinsBuilt.of_onMain (h : PinsBuilt s) {image : Option Image}
    (honMain : OnMain s image) : PinBuilt s image := by
  obtain ⟨c, hc, k, hk, rfl⟩ := honMain
  exact h c hc k hk

theorem mem_pins_of_bump {tag : Line} {t t' : RepoTree ρ}
    (h : wf.bump tag t = some t') {k : Kustomization} (hk : k ∈ t'.pins) :
    k = t'.spark ∨ k ∈ t.pins := by
  obtain ⟨-, hstaging, hprod⟩ := bump_eq_some h
  simp only [RepoTree.pins, List.mem_cons, List.not_mem_nil, or_false] at hk ⊢
  rw [hstaging, hprod] at hk
  tauto

/-! ## What a CD job is for -/

/-- CI runs succeed as their jobs let them, and a CD job is for a run that has. -/
structure RunsInv (s : ReleasePipeline ρ) : Prop where
  success : ∀ r ∈ s.runs, SuccessBuilt r
  triggered : ∀ j ∈ s.jobs, ∀ i, j.workflow = .cd i →
    ∃ r, s.runs[i]? = some r ∧ r.status = .success

/-- A developer's commit pins what `main` had before, or an image that is there. What a CD job
publishes is for a push to `main`, or for a commit that has its first seven digits in common with
one that `build-push` has pushed; and git shortens it to seven digits. -/
def Backed (wf : Workflows ρ) (s : ReleasePipeline ρ) : PipelineEvent ρ → Prop
  | .push c => ∀ k ∈ c.tree.pins, OnMain s k.image ∨ PinBuilt s k.image
  | .cdPush job short _ accepted => ∀ r j tree, CdPublishes wf s job short accepted r j tree →
    short.length = 7 ∧ (r.trigger.builds = true ∨
      ∃ b ∈ s.runs, b.pushed = true ∧ b.headSha.val.take 7 = r.headSha.val.take 7)
  | _ => True

theorem CdPublishes.run_unique {r' : CiRun} {j' : Job ρ} {tree' : RepoTree ρ}
    (h : CdPublishes wf s job short accepted r j tree)
    (h' : CdPublishes wf s job short accepted r' j' tree') : r = r' := by
  obtain rfl := Option.some.inj (h.job.symm.trans h'.job)
  obtain ⟨run, hworkflow, hrun⟩ := h.run
  obtain ⟨run', hworkflow', hrun'⟩ := h'.run
  obtain rfl := Workflow.cd.inj (hworkflow.symm.trans hworkflow')
  exact Option.some.inj (hrun.symm.trans hrun')

/-- CI has built what a push to `main` makes CD publish. -/
theorem CdPublishes.pushed (h : CdPublishes wf s job short accepted r j tree) (hruns : RunsInv s)
    (hbuilds : r.trigger.builds = true) : r ∈ s.runs ∧ r.pushed = true := by
  obtain ⟨i, hworkflow, hi⟩ := h.run
  obtain ⟨r', hr', hsuccess⟩ := hruns.triggered j (List.mem_of_getElem? h.job) i hworkflow
  obtain rfl := Option.some.inj (hi.symm.trans hr')
  have hmem := List.mem_of_getElem? hi
  exact ⟨hmem, hruns.success r hmem hsuccess hbuilds⟩

/-- The tag of a backed CD job is built. -/
theorem backed_iff_built (hruns : RunsInv s)
    (h : CdPublishes wf s job short accepted r j tree) (sha : Sha) :
    Backed wf s (.cdPush job short sha accepted) ↔ Built s ("sha-".toList ++ short) := by
  rw [built_iff_digits h.shortens]
  constructor
  · intro hbacked
    obtain ⟨hlength, hbuilds | hbuilt⟩ := hbacked r j tree h
    · obtain ⟨hmem, hpushed⟩ := h.pushed hruns hbuilds
      exact ⟨hlength, r, hmem, hpushed, rfl⟩
    · exact ⟨hlength, hbuilt⟩
  · rintro ⟨hlength, hbuilt⟩ r' j' tree' h'
    obtain rfl := h.run_unique h'
    exact ⟨hlength, .inr hbuilt⟩

/-! ## Steps and runs -/

variable [DecidableEq ρ]

theorem Built.step {tag : Line} (h : Built s tag) (wf : Workflows ρ)
    (event : PipelineEvent ρ) : Built (s.step wf event) tag := by
  obtain ⟨r, hr, hpushed, rfl⟩ := h
  obtain ⟨i, hi⟩ := List.getElem?_of_mem hr
  obtain ⟨r', hr', hmoves⟩ := step_run hi wf event
  obtain ⟨hsha, hkept⟩ := hmoves.kept
  refine ⟨r', List.mem_of_getElem? hr', hkept hpushed, ?_⟩
  unfold CiRun.tag
  rw [hsha]

theorem PinBuilt.step {image : Option Image} (h : PinBuilt s image)
    (wf : Workflows ρ) (event : PipelineEvent ρ) : PinBuilt (s.step wf event) image :=
  fun i hi hsha => (h i hi hsha).step wf event

theorem RunsInv.step (h : RunsInv s) (wf : Workflows ρ)
    (event : PipelineEvent ρ) : RunsInv (s.step wf event) := by
  constructor
  · intro r' hr'
    obtain ⟨moved, started, hruns, hmoved, hstarted⟩ := step_runs wf s event
    rw [hruns] at hr'
    rcases List.mem_append.1 hr' with hr' | hr'
    · obtain ⟨i, hi⟩ := List.getElem?_of_mem hr'
      obtain ⟨r, hr, hmoves⟩ := getElem?_of_forall₂ (List.Forall₂.flip hmoved) hi
      exact RunMoves.successBuilt hmoves (h.success r (List.mem_of_getElem? hr))
    · intro hsuccess
      rw [hstarted r' hr'] at hsuccess
      cases hsuccess
  · intro j hj i hi
    have hrun : ∃ r, s.runs[i]? = some r ∧ r.status = .success := by
      rcases step_jobs wf s event j hj with hj | ⟨-, htriggered⟩
      · exact h.triggered j hj i hi
      · rw [hi] at htriggered
        obtain ⟨r, hr, hbranch⟩ := (Option.any_eq_true _ _).1 htriggered
        rw [Bool.and_eq_true] at hbranch
        exact ⟨r, hr, beq_iff_eq.1 hbranch.1⟩
    obtain ⟨r, hr, hsuccess⟩ := hrun
    obtain ⟨r', hr', hmoves⟩ := step_run hr wf event
    rw [hmoves.of_success hsuccess] at hr'
    exact ⟨r, hr', hsuccess⟩

theorem CdPublishes.main_eq (h : CdPublishes wf s job short accepted r j tree) (sha : Sha) :
    (s.step wf (.cdPush job short sha accepted)).main = ⟨sha, tree⟩ :: s.main := by
  obtain ⟨hjob, ⟨run, hworkflow, hrun⟩, hshort, htree⟩ := h
  obtain ⟨workflow, tip, past⟩ := j
  obtain rfl : workflow = .cd run := hworkflow
  simp only [ReleasePipeline.step, hjob, hrun, hshort, if_true]
  exact updateImageTags_of_publishes htree

theorem pinsBuilt_of_same (hpins : PinsBuilt s)
    {event : PipelineEvent ρ} (hmain : (s.step wf event).main = s.main) :
    PinsBuilt (s.step wf event) := by
  intro c hc k hk
  rw [hmain] at hc
  exact (hpins c hc k hk).step wf event

/-- What a step adds to `main` decides. -/
theorem pinsBuilt_newHead_iff (hpins : PinsBuilt s)
    {event : PipelineEvent ρ} {c : GitCommit (RepoTree ρ)}
    (hmain : (s.step wf event).main = c :: s.main) :
    PinsBuilt (s.step wf event) ↔ ∀ k ∈ c.tree.pins, PinBuilt (s.step wf event) k.image := by
  unfold PinsBuilt
  rw [hmain, List.forall_mem_cons]
  apply and_iff_left
  intro d hd k hk
  exact (hpins d hd k hk).step wf event

theorem pinsBuilt_push_iff (wf : Workflows ρ) (hpins : PinsBuilt s)
    (c : GitCommit (RepoTree ρ)) : PinsBuilt (s.step wf (.push c)) ↔ Backed wf s (.push c) := by
  rw [pinsBuilt_newHead_iff hpins rfl]
  apply forall₂_congr
  intro k hk
  constructor
  · exact .inr
  · rintro (honMain | hbuilt)
    · exact hpins.of_onMain honMain
    · exact hbuilt

/-- What a CD job pins is built exactly when the job is backed. -/
theorem pinsBuilt_cdPush_iff (hsets : wf.SetsImage) (hruns : RunsInv s) (hpins : PinsBuilt s)
    (h : CdPublishes wf s job short accepted r j tree) (sha : Sha) :
    PinsBuilt (s.step wf (.cdPush job short sha accepted)) ↔
      Backed wf s (.cdPush job short sha accepted) := by
  obtain ⟨hedit, -⟩ := bump_eq_some h.tree.bumped
  obtain ⟨i, himage, -, htag⟩ := hsets _ _ _ _ hedit
  have hbuilt : Built (s.step wf (.cdPush job short sha accepted)) i.newTag.val ↔
      Built s ("sha-".toList ++ short) := by
    unfold Built
    rw [htag, cdPush_runs]
  rw [backed_iff_built hruns h, ← hbuilt, pinsBuilt_newHead_iff hpins (h.main_eq sha)]
  constructor
  · intro hall
    apply hall tree.spark List.mem_cons_self i himage
    exact htag ▸ List.prefix_append _ _
  · intro htagBuilt k hk
    rcases mem_pins_of_bump h.tree.bumped hk with rfl | hk
    · rintro i' hi' -
      obtain rfl := Option.some.inj (himage.symm.trans hi')
      exact htagBuilt
    · have htip : j.tip ∈ s.main := h.tree.newest ▸ List.mem_cons_self
      exact (hpins j.tip htip k hk).step wf _

/-- **One step keeps every pin built** exactly when what it publishes is backed. -/
theorem pinsBuilt_step_iff (hsets : wf.SetsImage) (hjobs : JobsOnMain s) (hruns : RunsInv s)
    (hpins : PinsBuilt s) (event : PipelineEvent ρ) :
    PinsBuilt (s.step wf event) ↔ Backed wf s event := by
  have hmain := step_main hsets hjobs event
  cases event with
  | push c => exact pinsBuilt_push_iff wf hpins c
  | cdPush job short sha accepted =>
    by_cases hcd : ∃ r j tree, CdPublishes wf s job short accepted r j tree
    · obtain ⟨r, j, tree, h⟩ := hcd
      exact pinsBuilt_cdPush_iff hsets hruns hpins h sha
    · apply iff_of_true
      · rcases hmain with hsame | ⟨_, hnew, -⟩
        · exact pinsBuilt_of_same hpins hsame
        · cases hnew with
          | cd h => exact absurd ⟨_, _, _, h⟩ hcd
      · intro r j tree h
        exact absurd ⟨r, j, tree, h⟩ hcd
  | promotePush job sha accepted =>
    apply iff_of_true
    · rcases hmain with hsame | ⟨c, hnew, hadded⟩
      · exact pinsBuilt_of_same hpins hsame
      · rw [pinsBuilt_newHead_iff hpins hadded]
        intro k hk
        exact (hpins.of_onMain (onMain_of_promote hnew k hk)).step wf _
    · trivial
  | ciStart trigger sha =>
    rcases hmain with hsame | ⟨_, hnew, -⟩
    · exact iff_of_true (pinsBuilt_of_same hpins hsame) trivial
    · cases hnew
  | ciBuild run => exact iff_of_true (pinsBuilt_of_same hpins rfl) trivial
  | ciFinish run success => exact iff_of_true (pinsBuilt_of_same hpins rfl) trivial
  | jobStart workflow =>
    rcases hmain with hsame | ⟨_, hnew, -⟩
    · exact iff_of_true (pinsBuilt_of_same hpins hsame) trivial
    · cases hnew

/-- **Every pinned tag has an image** in every state exactly when what developers and CD jobs pin is
backed. For every interleaving of pushes, pull requests, CI runs, CD jobs and promotions, from a
state in which it holds, the tags of the bases and of both overlays on `main` are tags that
`build-push` has pushed `spark-batch` under, in every state of the run, if and only if each step
meets the condition. -/
theorem pins_built_iff {wf : Workflows ρ} (hsets : wf.SetsImage) {s : ReleasePipeline ρ}
    (hjobs : JobsOnMain s) (hruns : RunsInv s) (hpins : PinsBuilt s)
    (events : List (PipelineEvent ρ)) :
    EveryState (ReleasePipeline.step wf) PinsBuilt s events ↔
      Along (ReleasePipeline.step wf) (Backed wf) s events := by
  have hinv : ∀ (t : ReleasePipeline ρ) (event : PipelineEvent ρ), JobsOnMain t ∧ RunsInv t →
      PinsBuilt t → JobsOnMain (t.step wf event) ∧ RunsInv (t.step wf event) := by
    intro t event h _
    exact ⟨h.1.step hsets event, h.2.step wf event⟩
  have hprop : ∀ (t : ReleasePipeline ρ) (event : PipelineEvent ρ), JobsOnMain t ∧ RunsInv t →
      PinsBuilt t → (PinsBuilt (t.step wf event) ↔ Backed wf t event) := by
    intro t event h hpins
    exact pinsBuilt_step_iff hsets h.1 h.2 hpins event
  exact everyState_iff_along hinv hprop ⟨hjobs, hruns⟩ hpins

theorem released_runsInv : RunsInv released := by
  constructor
  · rintro r hr - -
    rw [List.mem_singleton.1 hr]
  · intro j hj
    cases hj

theorem pins_built_iff_released :
    EveryState (ReleasePipeline.step workflows) PinsBuilt released chainEvents ↔
      Along (ReleasePipeline.step workflows) (Backed workflows) released chainEvents :=
  pins_built_iff workflows_setsImage released_jobsOnMain released_runsInv (by decide +kernel)
    chainEvents

/-- A fork opens a pull request from its branch `main`: CI succeeds without an image, and CD writes
the tag of the fork's commit. And where git needs an eighth digit, CD writes another tag than the
one that was pushed. -/
theorem forked_main_not_built :
    let forked : List (PipelineEvent Unit) :=
      [.ciStart (.pullRequest 7 "main") (repeatedSha 'f' (by decide)), .ciFinish 1 true,
        .jobStart (.cd 1),
        .cdPush 0 (List.replicate 7 'f') (repeatedSha 'c' (by decide)) true]
    let eightDigits := builtEvents ++
      [.cdPush 0 (List.replicate 8 'b') (repeatedSha 'c' (by decide)) true]
    PinsBuilt released ∧ ¬ PinsBuilt (released.run workflows forked) ∧
      ¬ PinsBuilt (released.run workflows eightDigits) := by
  decide +kernel

end Lakehouse.Verify
