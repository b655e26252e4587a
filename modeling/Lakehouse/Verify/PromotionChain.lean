import Lakehouse.Lib.Lineage
import Lakehouse.Lib.Runs
import Lakehouse.Verify.PipelineSteps

/-!
# The promotion chain

A commit of a workflow keeps the image of an overlay or sets it to the one that the environment
before it has in the parent commit (`NewHead.takes`). Over any run the images of production come
from staging and those of staging from dev (`promotion_chain_strict`).
-/

namespace Lakehouse.Verify

open Lib Release

variable {ρ : Type} [DecidableEq ρ]

/-! ## Where the images of an overlay come from -/

/-- The image of an overlay in a commit. -/
def pin (e : Environment) (c : GitCommit (RepoTree ρ)) : Option Image := (c.tree.target e).image

/-- The image of the environment before it. -/
def sourcePin (e : Environment) (c : GitCommit (RepoTree ρ)) : Option Image :=
  (c.tree.source e).image

omit [DecidableEq ρ] in
/-- A commit of a workflow keeps the image of an overlay or takes it from the environment before. -/
theorem NewHead.takes {wf : Workflows ρ} {s : ReleasePipeline ρ} {event : PipelineEvent ρ}
    {c tip : GitCommit (RepoTree ρ)} (h : NewHead wf s event c) (hpush : ∀ c, event ≠ .push c)
    (htip : s.main.head? = some tip) (e : Environment) : Takes (pin e) (sourcePin e) c tip := by
  cases h with
  | push => exact absurd rfl (hpush c)
  | cd hcd =>
    left
    obtain ⟨-, hstaging, hprod⟩ := bump_eq_some hcd.tree.bumped
    rw [← hcd.tree.newest] at htip
    obtain rfl := Option.some.inj htip
    cases e with
    | staging => exact congrArg Kustomization.image hstaging
    | prod => exact congrArg Kustomization.image hprod
  | @promote job sha accepted e' tip' past k hmain himage =>
    rw [hmain] at htip
    obtain rfl := Option.some.inj htip
    by_cases he : e = e'
    · subst he
      right
      simpa [pin, sourcePin] using himage
    · left
      cases e <;> cases e' <;> first | exact absurd rfl he | rfl

omit [DecidableEq ρ] in
theorem NewHead.main_ne_nil {wf : Workflows ρ} {s : ReleasePipeline ρ} {event : PipelineEvent ρ}
    {c : GitCommit (RepoTree ρ)} (h : NewHead wf s event c) (hpush : ∀ c, event ≠ .push c) :
    s.main ≠ [] := by
  cases h with
  | push => exact absurd rfl (hpush c)
  | cd hcd => exact hcd.tree.newest ▸ List.cons_ne_nil _ _
  | promote hmain => exact hmain ▸ List.cons_ne_nil _ _

/-- `main` has grown from an older one by commits that take the images along the chain. -/
def GrownAlong (old : History (RepoTree ρ)) (s : ReleasePipeline ρ) : Prop :=
  ∃ added, s.main = added ++ old ∧ (old = [] → added = []) ∧
    ∀ e, (added ++ old.take 1).IsChain (Takes (pin e) (sourcePin e))

theorem GrownAlong.step {wf : Workflows ρ} (hsets : wf.SetsImage) {s : ReleasePipeline ρ}
    {old : History (RepoTree ρ)} (hjobs : JobsOnMain s) (h : GrownAlong old s)
    {event : PipelineEvent ρ} (hpush : ∀ c, event ≠ .push c) :
    GrownAlong old (s.step wf event) := by
  obtain ⟨added, hmain, hempty, hchain⟩ := h
  rcases step_main hsets hjobs event with hsame | ⟨c, hnew, hmain'⟩
  · exact ⟨added, hsame.trans hmain, hempty, hchain⟩
  · refine ⟨c :: added, by rw [hmain', hmain]; rfl, ?_, fun e => ?_⟩
    · intro hold
      refine absurd ?_ (hnew.main_ne_nil hpush)
      rw [hmain, hempty hold, hold]
      rfl
    · have hhead : (added ++ old.take 1).head? = s.main.head? := by
        rw [hmain]
        cases added with
        | nil => cases old <;> rfl
        | cons => rfl
      rw [List.cons_append, List.isChain_cons]
      exact ⟨fun tip htip => hnew.takes hpush (hhead ▸ htip) e, hchain e⟩

/-- **The promotion chain is strict.** For every interleaving of CI runs, CD jobs and Promote jobs,
each in a clean checkout of a head of `main`, every commit they add to `main` leaves the image of an
overlay as it is or sets it to the image that the environment before has in the parent commit. So
where every image of the overlay was an image of that environment at the start, it is throughout. -/
theorem promotion_chain_strict {wf : Workflows ρ} (hsets : wf.SetsImage)
    {s : ReleasePipeline ρ} (hjobs : JobsOnMain s) {events : List (PipelineEvent ρ)}
    (hpush : ∀ event ∈ events, ∀ c, event ≠ .push c) (e : Environment) :
    ∃ added, (s.run wf events).main = added ++ s.main ∧
      (added ++ s.main.take 1).IsChain (Takes (pin e) (sourcePin e)) ∧
      (Inherits (pin e) (sourcePin e) s.main →
        Inherits (pin e) (sourcePin e) (s.run wf events).main) := by
  have hstart : JobsOnMain s ∧ GrownAlong s.main s := by
    refine ⟨hjobs, [], rfl, fun _ => rfl, fun e => ?_⟩
    cases s.main <;> simp
  have hstep : ∀ (t : ReleasePipeline ρ) (event : PipelineEvent ρ),
      JobsOnMain t ∧ GrownAlong s.main t → (∀ c, event ≠ .push c) →
        JobsOnMain (t.step wf event) ∧ GrownAlong s.main (t.step wf event) :=
    fun t event h hpush => ⟨h.1.step hsets event, h.2.step hsets h.1 hpush⟩
  have hrun : Along (ReleasePipeline.step wf) (fun _ event => ∀ c, event ≠ .push c) s events :=
    along_of_forall hpush s
  obtain ⟨-, added, hmain, hempty, hchain⟩ := hrun.invariant hstep hstart
  refine ⟨added, hmain, hchain e, fun hinherits => ?_⟩
  have hmain' : (s.run wf events).main = added ++ s.main := hmain
  rw [hmain']
  by_cases hnil : s.main = []
  · rw [hempty hnil]
    exact hinherits
  · exact hinherits.append (hchain e) hnil

/-- The workflows over the tools of a release. -/
def workflows : Workflows Unit where
  edit := setImage
  editOthers _ rest := some rest
  sparkImage := "ghcr.io/lakehouse/spark-batch".toList

theorem workflows_setsImage : workflows.SetsImage := fun name tag k k' hk =>
  release_setsImage true setImage rfl name tag k k' hk

/-- The name of a commit, of one digit. -/
def repeatedSha (c : Char) (h : IsSha (List.replicate 40 c)) : Sha := ⟨List.replicate 40 c, h⟩

/-- The image of the first commit is in every environment, and a second commit is on `main`. -/
def released : ReleasePipeline Unit :=
  let kustomization := pinned "sha-aaaaaaa" (by decide)
  let tree : RepoTree Unit := ⟨kustomization, kustomization, kustomization, ()⟩
  { main := [⟨shaB, tree⟩, ⟨shaA, tree⟩]
    runs := [⟨.push "main", shaA, .success, true⟩]
    jobs := [] }

theorem released_jobsOnMain : JobsOnMain released := fun _ hj => absurd hj List.not_mem_nil

/-- The second commit is built, and a CD job starts for it. -/
def builtEvents : List (PipelineEvent Unit) :=
  [.ciStart (.push "main") shaB, .ciBuild 1, .ciFinish 1 true,
    .jobStart (.cd 1)]

/-- It goes through to production; a Promote job that started too early is not let through. -/
def chainEvents : List (PipelineEvent Unit) :=
  builtEvents ++ [.jobStart (.promote .staging),
    .cdPush 0 (List.replicate 7 'b') (repeatedSha 'c' (by decide)) true,
    .promotePush 0 (repeatedSha 'd' (by decide)) true, .jobStart (.promote .staging),
    .promotePush 0 (repeatedSha 'd' (by decide)) true, .jobStart (.promote .prod),
    .promotePush 0 (repeatedSha 'e' (by decide)) true]

theorem promotion_chain_strict_released :
    ∃ added, (released.run workflows chainEvents).main = added ++ released.main ∧
      (added ++ released.main.take 1).IsChain (Takes (pin .prod) (sourcePin .prod)) ∧
      (Inherits (pin .prod) (sourcePin .prod) released.main →
        Inherits (pin .prod) (sourcePin .prod) (released.run workflows chainEvents).main) := by
  refine promotion_chain_strict workflows_setsImage released_jobsOnMain ?_ .prod
  rintro event hevent c rfl
  simp [chainEvents, builtEvents] at hevent

end Lakehouse.Verify
