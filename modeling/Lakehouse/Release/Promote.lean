import Lakehouse.Lib.Git
import Lakehouse.Release.Kustomization

/-!
# Promotions

`scripts/promote.sh`: the arguments, the promotion up to the push, and the gate of production, a
program that gives one `kubectl` command after the other and goes on by what each replies. The files
of the repository are the kustomizations that a promotion reads and writes, and the rest of the
tree. `Tools` are the programs the script calls: `kustomize edit set image` for `spark-batch`, where
it is on the `PATH`; whether `kubectl` is; the commit that `git commit` makes, unless a hook refuses
it; and whether the remote takes a push that it can fast-forward to.
-/

namespace Lakehouse.Release

open Lib

/-! ## The repository -/

/-- What can be promoted to. -/
inductive Environment where
  | staging | prod
deriving DecidableEq

/-- The files of a commit: three kustomizations and the rest. -/
structure RepoTree (ρ : Type) where
  /-- `base/spark`, which is the environment dev. -/
  spark : Kustomization
  staging : Kustomization
  prod : Kustomization
  rest : ρ
deriving DecidableEq

section

variable {ρ : Type}

/-- The file that is promoted from. -/
def RepoTree.source (t : RepoTree ρ) : Environment → Kustomization
  | .staging => t.spark
  | .prod => t.staging

/-- The file that is promoted to. -/
def RepoTree.target (t : RepoTree ρ) : Environment → Kustomization
  | .staging => t.staging
  | .prod => t.prod

/-- The files with another target. -/
def RepoTree.setTarget (t : RepoTree ρ) (k : Kustomization) : Environment → RepoTree ρ
  | .staging => { t with staging := k }
  | .prod => { t with prod := k }

@[simp] theorem RepoTree.target_setTarget (t : RepoTree ρ) (k : Kustomization) (e : Environment) :
    (t.setTarget k e).target e = k := by cases e <;> rfl

@[simp] theorem RepoTree.setTarget_setTarget (t : RepoTree ρ) (k k' : Kustomization)
    (e : Environment) : (t.setTarget k e).setTarget k' e = t.setTarget k' e := by cases e <;> rfl

theorem RepoTree.setTarget_eq_self {t : RepoTree ρ} {k : Kustomization} {e : Environment} :
    t.setTarget k e = t ↔ k = t.target e := by
  constructor
  · intro h
    rw [← h, target_setTarget]
  · rintro rfl
    cases e <;> rfl

/-- The clone the script runs in, and its remote. -/
structure World (ρ : Type) where
  clone : Clone (RepoTree ρ)
  /-- `main` at the remote. -/
  origin : History (RepoTree ρ)
deriving DecidableEq

end

/-- What the tools answer: `kustomize` and `kubectl` where they are there, the commit that is made
and whether the push is accepted. -/
structure Tools where
  kustomize : Option (Line → Line → Kustomization → Option Kustomization)
  kubectl : Bool
  commit : Option Sha
  accepted : Bool

/-- On success `kustomize edit set image` leaves an entry with the name and the tag it is given. -/
def Tools.SetsImage (tools : Tools) : Prop :=
  ∀ edit ∈ tools.kustomize, ∀ name tag k k', edit name tag k = some k' →
    ∃ i, k'.image = some i ∧ i.newName.val = name ∧ i.newTag.val = tag

/-! ## Arguments -/

/-- The name on the command line. -/
def Environment.name : Environment → String
  | .staging => "staging"
  | .prod => "prod"

/-- The options of the command line. -/
structure Options where
  sync : Bool
  dryRun : Bool
deriving DecidableEq

/-- The loop over the options; another one ends the script. -/
def parseOptions (opts : Options) : List String → Option Options
  | [] => some opts
  | "--sync" :: args => parseOptions { opts with sync := true } args
  | "--dry-run" :: args => parseOptions { opts with dryRun := true } args
  | _ :: _ => none

/-- The first argument. -/
def parseEnvironment : String → Option Environment
  | "staging" => some .staging
  | "prod" => some .prod
  | _ => none

/-! ## The promotion -/

/-- What the script does next. -/
inductive Outcome where
  | exited (code : Nat)
  /-- The gate of production. -/
  | gate
deriving DecidableEq

section

variable {ρ : Type} [DecidableEq ρ]

/-- The end of the script, from the `staging` branch on. -/
def afterPromotion (tools : Tools) (opts : Options) : Environment → Outcome
  | .staging => .exited 0
  | .prod =>
    if opts.sync = false then .exited 0
    else if tools.kubectl = false then .exited 1
    else .gate

/-- `git add`, `git commit` and `git push`; the first that fails ends the script. -/
def publish (tools : Tools) (e : Environment) (w : World ρ) : Bool × World ρ :=
  let clone := { w.clone with index := w.clone.index.setTarget (w.clone.worktree.target e) e }
  match tools.commit.bind clone.commit with
  | none => (false, { w with clone := clone })
  | some clone =>
    match clone.pushMain tools.accepted w.origin with
    | none => (false, { w with clone := clone })
    | some origin => (true, { clone := clone, origin := origin })

/-- The script from `read_image_field` on. -/
def promoteTo (tools : Tools) (edit : Line → Line → Kustomization → Option Kustomization)
    (opts : Options) (e : Environment) (w : World ρ) : Outcome × World ρ :=
  let source := w.clone.worktree.source e
  let target := w.clone.worktree.target e
  let name := readImageField source .newName
  let tag := readImageField source .newTag
  if name = [] ∨ tag = [] then (.exited 1, w)
  else if readImageField target .newTag = tag then (afterPromotion tools opts e, w)
  else if w.clone.HasStaged then (.exited 1, w)
  else
    match edit name tag target with
    | none => (.exited 1, w)
    | some k =>
      let edited := w.clone.worktree.setTarget k e
      if opts.dryRun = true then
        -- `git checkout --` takes the file from the index
        let restored := edited.setTarget (w.clone.index.target e) e
        (.exited 0, { w with clone := { w.clone with worktree := restored } })
      else
        let published := publish tools e { w with clone := { w.clone with worktree := edited } }
        if published.1 = true then (afterPromotion tools opts e, published.2)
        else (.exited 1, published.2)

/-- `promote.sh`, from its arguments on. -/
def promote (tools : Tools) (args : List String) (w : World ρ) : Outcome × World ρ :=
  match parseOptions ⟨false, false⟩ args.tail, parseEnvironment (args.headD ""),
    tools.kustomize with
  | none, _, _ => (.exited 2, w)
  | some _, none, _ => (.exited 2, w)
  | some _, some _, none => (.exited 1, w)
  | some opts, some e, some edit => promoteTo tools edit opts e w

/-! ## The ways through the promotion -/

/-- The file that is promoted from has a name and a tag. -/
structure Readable (e : Environment) (t : RepoTree ρ) : Prop where
  name : readImageField (t.source e) .newName ≠ []
  tag : readImageField (t.source e) .newTag ≠ []

/-- The script finds the tag of the source in the target. -/
structure AlreadyRuns (e : Environment) (t : RepoTree ρ) : Prop where
  readable : Readable e t
  same : readImageField (t.target e) .newTag = readImageField (t.source e) .newTag

/-- The script gets as far as the edit of the target. -/
structure Edits (edit : Line → Line → Kustomization → Option Kustomization) (e : Environment)
    (w : World ρ) (k : Kustomization) : Prop where
  readable : Readable e w.clone.worktree
  differs : readImageField (w.clone.worktree.target e) .newTag ≠
    readImageField (w.clone.worktree.source e) .newTag
  unstaged : ¬ w.clone.HasStaged
  edited : edit (readImageField (w.clone.worktree.source e) .newName)
    (readImageField (w.clone.worktree.source e) .newTag) (w.clone.worktree.target e) = some k

variable {tools : Tools} {edit : Line → Line → Kustomization → Option Kustomization}
  {opts : Options} {e : Environment} {w : World ρ}

omit [DecidableEq ρ] in
theorem Readable.image {t : RepoTree ρ} (h : Readable e t) :
    ∃ i, (t.source e).image = some i ∧ readImageField (t.source e) .newName = i.newName.val ∧
      readImageField (t.source e) .newTag = i.newTag.val :=
  image_of_readImageField h.name h.tag

theorem promoteTo_of_alreadyRuns (h : AlreadyRuns e w.clone.worktree) :
    promoteTo tools edit opts e w = (afterPromotion tools opts e, w) := by
  unfold promoteTo
  dsimp only
  rw [if_neg (not_or.2 ⟨h.readable.name, h.readable.tag⟩), if_pos h.same]

theorem promoteTo_of_edits {k : Kustomization} (h : Edits edit e w k) :
    promoteTo tools edit opts e w =
      let edited := w.clone.worktree.setTarget k e
      let published := publish tools e { w with clone := { w.clone with worktree := edited } }
      if opts.dryRun = true then
        (.exited 0, { w with clone := { w.clone with
          worktree := w.clone.worktree.setTarget (w.clone.index.target e) e } })
      else if published.1 = true then (afterPromotion tools opts e, published.2)
      else (.exited 1, published.2) := by
  unfold promoteTo
  dsimp only
  rw [if_neg (not_or.2 ⟨h.readable.name, h.readable.tag⟩), if_neg h.differs, if_neg h.unstaged,
    h.edited]
  dsimp only
  rw [RepoTree.setTarget_setTarget]

theorem promoteTo_of_refused (hruns : ¬ AlreadyRuns e w.clone.worktree)
    (hedits : ∀ k, ¬ Edits edit e w k) : promoteTo tools edit opts e w = (.exited 1, w) := by
  unfold promoteTo
  dsimp only
  split
  · rfl
  next hread =>
  obtain ⟨hname, htag⟩ := not_or.1 hread
  split
  · next hsame => exact absurd ⟨⟨hname, htag⟩, hsame⟩ hruns
  next hdiffers =>
  split
  · rfl
  next hunstaged =>
  split
  · rfl
  · next k hk => exact absurd ⟨⟨hname, htag⟩, hdiffers, hunstaged, hk⟩ (hedits k)

/-- The script either finds the tag in place, or edits the target, or exits before it changes
anything. -/
theorem promoteTo_ways (tools : Tools) (edit : Line → Line → Kustomization → Option Kustomization)
    (opts : Options) (e : Environment) (w : World ρ) :
    AlreadyRuns e w.clone.worktree ∨ (∃ k, Edits edit e w k) ∨
      promoteTo tools edit opts e w = (.exited 1, w) := by
  by_cases hruns : AlreadyRuns e w.clone.worktree
  · exact .inl hruns
  by_cases hedits : ∃ k, Edits edit e w k
  · exact .inr (.inl hedits)
  · exact .inr (.inr (promoteTo_of_refused hruns (not_exists.1 hedits)))

/-- What is pushed is `main`, with the commit of the edited target where `main` is checked out. -/
theorem publish_eq_true {w' : World ρ} (h : publish tools e w = (true, w')) :
    let clone := { w.clone with index := w.clone.index.setTarget (w.clone.worktree.target e) e }
    ∃ sha clone', tools.commit = some sha ∧ clone.commit sha = some clone' ∧
      clone'.pushMain tools.accepted w.origin = some w'.origin := by
  unfold publish at h
  dsimp only at h ⊢
  split at h
  · cases h
  next clone' hcommit =>
  obtain ⟨sha, hsha, hclone'⟩ := Option.bind_eq_some_iff.1 hcommit
  split at h
  · cases h
  next origin hpush =>
  cases h
  exact ⟨sha, clone', hsha, hclone', hpush⟩

/-- A promotion that is not published leaves the remote alone. -/
theorem publish_eq_false (h : (publish tools e w).1 = false) :
    (publish tools e w).2.origin = w.origin := by
  unfold publish at h ⊢
  dsimp only at h ⊢
  cases hcommit : tools.commit.bind
      { w.clone with index := w.clone.index.setTarget (w.clone.worktree.target e) e }.commit with
  | none => rfl
  | some clone =>
    rw [hcommit] at h
    dsimp only at h ⊢
    cases hpush : clone.pushMain tools.accepted w.origin with
    | none => rfl
    | some origin =>
      rw [hpush] at h
      cases h

end

/-! ## The gate -/

/-- The commands of the gate. -/
inductive Command where
  | annotate | getSync | patch | getPhase | getHealth
deriving DecidableEq

/-- Where the script is in the gate; the number counts the polls after this one. -/
inductive Gate where
  | annotate
  | waitOutOfSync (polls : Nat)
  | patch
  | waitPhase (polls : Nat)
  | health (phase : String)
  | exited (code : Nat)
deriving DecidableEq

/-- The command that the script gives next. -/
def Gate.command : Gate → Option Command
  | .annotate => some .annotate
  | .waitOutOfSync _ => some .getSync
  | .patch => some .patch
  | .waitPhase _ => some .getPhase
  | .health _ => some .getHealth
  | .exited _ => none

/-- The phases that end the wait. -/
def completedPhase (phase : String) : Bool := phase ∈ ["Succeeded", "Failed", "Error"]

/-- The script after the reply to its command, which is nothing when `kubectl` fails. -/
def Gate.next : Gate → Option String → Gate
  | .annotate, none => .exited 1
  | .annotate, some _ => .waitOutOfSync 23
  | .waitOutOfSync 0, _ => .patch
  | .waitOutOfSync (n + 1), reply =>
    if reply.getD "" = "OutOfSync" then .patch else .waitOutOfSync n
  | .patch, none => .exited 1
  | .patch, some _ => .waitPhase 59
  | .waitPhase n, reply =>
    let phase := reply.getD ""
    if completedPhase phase = true then .health phase
    else match n with
      | 0 => .health phase
      | n + 1 => .waitPhase n
  | .health phase, _ => .exited (if phase = "Succeeded" then 0 else 1)
  | .exited code, _ => .exited code

/-- The commands that write to the cluster. -/
def Command.writes : Command → Bool
  | .annotate | .patch => true
  | .getSync | .getPhase | .getHealth => false

/-- The writes that a sequence of replies lets through. -/
def Gate.writes : Gate → List (Option String) → List Command
  | _, [] => []
  | g, reply :: replies =>
    (g.command.toList.filter fun c => c.writes && reply.isSome) ++ writes (g.next reply) replies

/-- Where the script is when the promotion is done. -/
def Outcome.gateStart : Outcome → Gate
  | .exited code => .exited code
  | .gate => .annotate

theorem Gate.next_waitOutOfSync (polls : Nat) (reply : Option String) :
    (Gate.waitOutOfSync polls).next reply = .patch ∨
      ∃ n, (Gate.waitOutOfSync polls).next reply = .waitOutOfSync n := by
  cases polls with
  | zero => exact .inl rfl
  | succ n =>
    change (if reply.getD "" = "OutOfSync" then Gate.patch else .waitOutOfSync n) = _ ∨ _
    by_cases h : reply.getD "" = "OutOfSync"
    · exact .inl (if_pos h)
    · exact .inr ⟨n, if_neg h⟩

theorem Gate.next_waitPhase (polls : Nat) (reply : Option String) :
    (Gate.waitPhase polls).next reply = .health (reply.getD "") ∨
      completedPhase (reply.getD "") = false ∧
        ∃ n, (Gate.waitPhase polls).next reply = .waitPhase n := by
  unfold next
  dsimp only
  by_cases h : completedPhase (reply.getD "") = true
  · exact .inl (if_pos h)
  · rw [if_neg h]
    cases polls with
    | zero => exact .inl rfl
    | succ n => exact .inr ⟨by simpa using h, n, rfl⟩

@[simp] theorem Gate.writes_exited (code : Nat) (replies : List (Option String)) :
    (Gate.exited code).writes replies = [] := by
  induction replies with
  | nil => rfl
  | cons reply replies ih => exact ih

/-- The gate writes as soon as its first command goes through. -/
theorem Gate.writes_annotate_eq_nil {replies : List (Option String)} :
    Gate.annotate.writes replies = [] ↔ ∀ text, replies.head? ≠ some (some text) := by
  cases replies with
  | nil => simp [writes]
  | cons reply replies =>
    cases reply with
    | none =>
      constructor
      · intro _ text h
        cases h
      · intro _
        exact writes_exited 1 replies
    | some text => simp [writes, command, Command.writes]

end Lakehouse.Release
