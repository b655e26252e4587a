import Lakehouse.Release.Promote

/-!
# What a promotion leaves behind

A promotion that exits with 0 is on the remote exactly when the tag it finds in the target is not
its own unpublished work, and when `main` is what it commits to (`promotion_on_origin_iff`): a rerun
after a rejected push finds the tag in place and pushes nothing (`rerun_not_on_origin`). A dry run
changes nothing exactly when the target has no unstaged edits, which the undo takes with it, and
when the tag to promote is not already there, which leads past the flag to the gate
(`dryRun_unchanged_iff`).
-/

namespace Lakehouse.Verify

open Lib Release

variable {ρ : Type} [DecidableEq ρ]

/-! ## The remote after a promotion -/

omit [DecidableEq ρ] in
/-- The image of an environment at the head of a history. -/
def headImage (e : Environment) (history : History (RepoTree ρ)) : Option Image :=
  history.head?.bind fun c => (c.tree.target e).image

/-- The head of a history has the image of the source in a tree. -/
def Promoted (e : Environment) (t : RepoTree ρ) (history : History (RepoTree ρ)) : Prop :=
  (t.source e).image.isSome = true ∧ headImage e history = (t.source e).image

instance (e : Environment) (t : RepoTree ρ) (history : History (RepoTree ρ)) :
    Decidable (Promoted e t history) := inferInstanceAs (Decidable (_ ∧ _))

/-- Where the script finds the tag in place, the remote has the image; elsewhere the commit is made
on `main`, or `main` has the image. -/
def Lands (e : Environment) (w : World ρ) : Prop :=
  let t := w.clone.worktree
  if readImageField (t.target e) .newTag = readImageField (t.source e) .newTag then
    Promoted e t w.origin
  else w.clone.other = none ∨ Promoted e t w.clone.main

omit [DecidableEq ρ] in
theorem image_of_edited {tools : Tools} (hsets : tools.SetsImage)
    {edit : Line → Line → Kustomization → Option Kustomization}
    (hedit : tools.kustomize = some edit) {e : Environment} {t : RepoTree ρ}
    (hread : Readable e t) {k : Kustomization}
    (hk : edit (readImageField (t.source e) .newName) (readImageField (t.source e) .newTag)
      (t.target e) = some k) :
    (t.source e).image.isSome = true ∧ k.image = (t.source e).image := by
  obtain ⟨i, hi, hname, htag⟩ := hread.image
  obtain ⟨j, hj, hjname, hjtag⟩ := hsets edit hedit _ _ _ _ hk
  have hij : j = i := by
    cases i
    cases j
    simp only [Image.mk.injEq]
    exact ⟨Subtype.ext (hjname.trans hname), Subtype.ext (hjtag.trans htag)⟩
  rw [hi, hj, hij]
  exact ⟨rfl, rfl⟩

/-- A run with an environment and options that are known. -/
theorem promote_options (tools : Tools) (e : Environment) {args : List String} {opts : Options}
    (hopts : parseOptions ⟨false, false⟩ args = some opts) (w : World ρ) :
    promote tools (e.name :: args) w =
      match tools.kustomize with
      | none => (.exited 1, w)
      | some edit => promoteTo tools edit opts e w := by
  unfold promote
  rw [List.tail_cons, hopts]
  cases e <;> cases tools.kustomize <;> rfl

/-- **A promotion is on the remote** exactly when it lands. For every repository, remote and set of
tools, a run of the script without options that exits with 0 leaves the image of the source it read
in the target at the head of the remote if and only if the condition holds before it. -/
theorem promotion_on_origin_iff {tools : Tools} (hsets : tools.SetsImage) {e : Environment}
    {w w' : World ρ} (h : promote tools [e.name] w = (.exited 0, w')) :
    Promoted e w.clone.worktree w'.origin ↔ Lands e w := by
  rw [promote_options tools e rfl] at h
  cases hkustomize : tools.kustomize with
  | none =>
    rw [hkustomize] at h
    cases h
  | some edit =>
    rw [hkustomize] at h
    dsimp only at h
    rcases promoteTo_ways tools edit ⟨false, false⟩ e w with hruns | ⟨k, hedits⟩ | hrefused
    · rw [promoteTo_of_alreadyRuns hruns] at h
      obtain rfl : w = w' := (Prod.mk.inj h).2
      rw [Lands, if_pos hruns.same]
    · rw [promoteTo_of_edits hedits] at h
      dsimp only at h
      rw [if_neg (by decide)] at h
      split at h
      case isFalse => cases h
      next hpublished =>
      have hpublish : publish tools e
          { w with clone := { w.clone with worktree := w.clone.worktree.setTarget k e } } =
            (true, w') := Prod.ext hpublished (Prod.mk.inj h).2
      obtain ⟨sha, clone', -, hcommit, hpush⟩ := publish_eq_true hpublish
      obtain ⟨horigin, -⟩ := Clone.origin_of_pushMain hpush
      rw [Clone.main_of_commit hcommit] at horigin
      rw [Lands, if_neg hedits.differs, horigin]
      dsimp only
      by_cases hother : w.clone.other = none
      · -- the commit is made on `main`, and it has the edited target
        have himage := image_of_edited hsets hkustomize hedits.readable hedits.edited
        rw [if_pos hother]
        refine iff_of_true ⟨himage.1, ?_⟩ (.inl hother)
        simpa [headImage] using himage.2
      · rw [if_neg hother, or_iff_right hother]
    · rw [hrefused] at h
      cases h

/-- Writes any entry of two words. -/
def setImage (name tag : Line) (k : Kustomization) : Option Kustomization :=
  if h : IsWord name ∧ IsWord tag then
    some { before := k.before, image := some ⟨⟨name, h.1⟩, ⟨tag, h.2⟩⟩, after := k.after
           before_other := k.before_other, after_other := nofun }
  else none

/-- The name of a commit. -/
def shaA : Sha := ⟨List.replicate 40 'a', by decide⟩

/-- The name of another. -/
def shaB : Sha := ⟨List.replicate 40 'b', by decide⟩

/-- All the tools are there, and the remote takes a push or does not. -/
def release (accepted : Bool) : Tools where
  kustomize := some setImage
  kubectl := true
  commit := some shaB
  accepted := accepted

theorem release_setsImage (accepted : Bool) : (release accepted).SetsImage := by
  rintro _ ⟨⟩ name tag k k' hk
  unfold setImage at hk
  split at hk
  · cases hk
    exact ⟨_, rfl, rfl, rfl⟩
  · cases hk

/-- A file with only the image, at a tag. -/
def pinned (tag : String) (h : IsWord tag.toList) : Kustomization where
  before := ["images:".toList]
  image := some ⟨⟨"spark-batch".toList, by decide⟩, ⟨tag.toList, h⟩⟩
  after := []
  before_other := by decide
  after_other := nofun

/-- A new release in dev, in a clean checkout of the remote's `main`. -/
def newRelease : World Unit :=
  let tree : RepoTree Unit :=
    { spark := pinned "sha-2222222" (by decide), staging := pinned "sha-1111111" (by decide)
      prod := pinned "sha-1111111" (by decide), rest := () }
  let tip : GitCommit (RepoTree Unit) := ⟨shaA, tree⟩
  { clone := Clone.fresh tip [], origin := [tip] }

theorem promotion_on_origin_iff_newRelease :
    Promoted .staging newRelease.clone.worktree
        (promote (release true) ["staging"] newRelease).2.origin ↔ Lands .staging newRelease :=
  promotion_on_origin_iff (e := .staging) (release_setsImage true)
    (Prod.ext (by decide +kernel) rfl)

/-- The push is rejected; the rerun finds the tag in place and exits with 0. -/
theorem rerun_not_on_origin :
    let rejected := (promote (release false) ["staging"] newRelease).2
    let rerun := promote (release true) ["staging"] rejected
    (release true).SetsImage ∧ rerun.1 = .exited 0 ∧
      ¬ Promoted .staging rejected.clone.worktree rerun.2.origin :=
  ⟨release_setsImage true, by decide +kernel, by decide +kernel⟩

/-! ## Dry runs -/

/-- A run leaves the repository and the remote as they were and writes nothing to the cluster. -/
def Unchanged (w : World ρ) (result : Outcome × World ρ) (replies : List (Option String)) : Prop :=
  result.2 = w ∧ result.1.gateStart.writes replies = []

instance (w : World ρ) (result : Outcome × World ρ) (replies : List (Option String)) :
    Decidable (Unchanged w result replies) := inferInstanceAs (Decidable (_ ∧ _))

/-- A production run that finds the tag in place does not get its first command through to the
cluster. -/
def GateStaysShut (tools : Tools) (opts : Options) (e : Environment) (w : World ρ)
    (replies : List (Option String)) : Prop :=
  tools.kustomize.isSome = true → AlreadyRuns e w.clone.worktree → e = .prod → opts.sync = true →
    tools.kubectl = true → ∀ text, replies.head? ≠ some (some text)

/-- Where the target is edited, it had no unstaged edits. -/
def EditIsUndone (tools : Tools) (e : Environment) (w : World ρ) : Prop :=
  ∀ edit ∈ tools.kustomize, ∀ k, Edits edit e w k →
    w.clone.index.target e = w.clone.worktree.target e

theorem parseOptions_dryRun {opts opts' : Options} {args : List String}
    (h : parseOptions opts args = some opts') (hdry : opts.dryRun = true ∨ "--dry-run" ∈ args) :
    opts'.dryRun = true := by
  induction args generalizing opts with
  | nil =>
    cases h
    exact hdry.resolve_right (List.not_mem_nil)
  | cons arg args ih =>
    unfold parseOptions at h
    split at h
    · cases ‹_ = []›
    · next hargs =>
      obtain ⟨rfl, rfl⟩ := List.cons.inj hargs
      exact ih h (hdry.imp_right fun hmem => (List.mem_cons.1 hmem).resolve_left (by decide))
    · next hargs =>
      obtain ⟨rfl, rfl⟩ := List.cons.inj hargs
      exact ih h (.inl rfl)
    · cases h

theorem gateStart_afterPromotion_writes {tools : Tools} {opts : Options} {e : Environment}
    {replies : List (Option String)} :
    (afterPromotion tools opts e).gateStart.writes replies = [] ↔
      (e = .prod → opts.sync = true → tools.kubectl = true →
        ∀ text, replies.head? ≠ some (some text)) := by
  cases e with
  | staging => simp [afterPromotion, Outcome.gateStart]
  | prod =>
    unfold afterPromotion
    by_cases hsync : opts.sync = true
    · by_cases hkubectl : tools.kubectl = true
      · rw [if_neg (by simp [hsync]), if_neg (by simp [hkubectl]), Outcome.gateStart,
          Gate.writes_annotate_eq_nil]
        simp [hsync, hkubectl]
      · simp [hsync, hkubectl, Outcome.gateStart]
    · simp [hsync, Outcome.gateStart]

theorem promoteTo_dryRun_iff (tools : Tools)
    (edit : Line → Line → Kustomization → Option Kustomization) {opts : Options}
    (hdry : opts.dryRun = true) (e : Environment) (w : World ρ) (replies : List (Option String)) :
    Unchanged w (promoteTo tools edit opts e w) replies ↔
      (AlreadyRuns e w.clone.worktree → e = .prod → opts.sync = true → tools.kubectl = true →
        ∀ text, replies.head? ≠ some (some text)) ∧
      ∀ k, Edits edit e w k → w.clone.index.target e = w.clone.worktree.target e := by
  by_cases hruns : AlreadyRuns e w.clone.worktree
  · have hnone : ∀ k, ¬ Edits edit e w k := fun k hk => hk.differs hruns.same
    rw [promoteTo_of_alreadyRuns hruns, Unchanged, gateStart_afterPromotion_writes]
    simp [hruns, hnone]
  by_cases hedits : ∃ k, Edits edit e w k
  · obtain ⟨k, hk⟩ := hedits
    rw [promoteTo_of_edits hk]
    dsimp only
    rw [if_pos hdry, Unchanged]
    simp only [Outcome.gateStart, Gate.writes_exited, and_true, hruns, false_implies, true_and]
    have hrestored : ∀ t : RepoTree ρ,
        { w with clone := { w.clone with worktree := t } } = w ↔ t = w.clone.worktree := by
      intro t
      constructor
      · intro he
        exact congrArg (fun w : World ρ => w.clone.worktree) he
      · rintro rfl
        rfl
    rw [hrestored, RepoTree.setTarget_eq_self]
    exact ⟨fun he _ _ => he, fun he => he k hk⟩
  · rw [promoteTo_of_refused hruns (not_exists.1 hedits), Unchanged]
    simp only [Outcome.gateStart, Gate.writes_exited, and_self, hruns, false_implies, true_and,
      true_iff]
    exact fun k hk => absurd ⟨k, hk⟩ hedits

/-- **A dry run changes nothing** exactly when the gate stays shut and the edit is undone. For every
environment argument, every option that is given with `--dry-run`, every repository, remote and set
of tools and all replies of the cluster, a run of the script leaves the repository and the remote as
they were and writes nothing to the cluster if and only if the condition holds before it. -/
theorem dryRun_unchanged_iff (tools : Tools) (name : String) (before after : List String)
    (w : World ρ) (replies : List (Option String)) :
    Unchanged w (promote tools (name :: (before ++ "--dry-run" :: after)) w) replies ↔
      ∀ opts e, parseOptions ⟨false, false⟩ (before ++ "--dry-run" :: after) = some opts →
        parseEnvironment name = some e →
        GateStaysShut tools opts e w replies ∧ EditIsUndone tools e w := by
  have hexited : ∀ code, Unchanged w (.exited code, w) replies := fun code =>
    ⟨rfl, Gate.writes_exited code replies⟩
  unfold promote
  rw [List.tail_cons, List.headD_cons]
  cases hopts : parseOptions ⟨false, false⟩ (before ++ "--dry-run" :: after) with
  | none => exact iff_of_true (hexited 2) nofun
  | some opts =>
    cases henv : parseEnvironment name with
    | none => exact iff_of_true (hexited 2) nofun
    | some e =>
      have hdry := parseOptions_dryRun hopts
        (.inr (List.mem_append_right _ List.mem_cons_self))
      unfold GateStaysShut EditIsUndone
      cases tools.kustomize with
      | none =>
        refine iff_of_true (hexited 1) fun opts' e' _ _ => ⟨nofun, ?_⟩
        intro edit hedit
        cases hedit
      | some edit =>
        dsimp only
        rw [promoteTo_dryRun_iff tools edit hdry]
        constructor
        · rintro ⟨hgate, hundone⟩ _ _ ⟨⟩ ⟨⟩
          refine ⟨fun _ => hgate, ?_⟩
          rintro _ ⟨⟩
          exact hundone
        · intro h
          obtain ⟨hgate, hundone⟩ := h opts e rfl rfl
          exact ⟨hgate rfl, hundone edit rfl⟩

/-- The target has an edit that is not staged. -/
def handEdited : World Unit :=
  let tree := newRelease.clone.worktree
  { newRelease with clone := { newRelease.clone with
      worktree := { tree with staging := pinned "sha-3333333" (by decide) } } }

/-- Production already has the tag of staging, so the flag is not looked at and the dry run patches
the cluster; an edit of the target by hand is lost. -/
theorem dryRun_opens_gate :
    let opened := promote (release true) ["prod", "--sync", "--dry-run"] newRelease
    let restored := promote (release true) ["staging", "--dry-run"] handEdited
    opened.1.gateStart.writes (List.replicate 26 (some "")) = [.annotate, .patch] ∧
      ¬ Unchanged newRelease opened (List.replicate 26 (some "")) ∧
      ¬ Unchanged handEdited restored [] := by
  decide +kernel

end Lakehouse.Verify
