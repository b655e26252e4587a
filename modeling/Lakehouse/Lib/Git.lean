import Mathlib.Data.List.Infix

/-!
# Commits, clones and pushes

A history is the list of the commits of a branch, the newest first, and a clone has its own branch
`main`, a history that is checked out instead where `main` is not, an index and a working tree. The
remote takes a push of `main` only as a fast-forward: its own history is the end of the pushed one.
So a commit made in a clean checkout of an older history never reaches it
(`push_commit_cases`).
-/

namespace Lakehouse.Lib

/-- Forty hexadecimal digits. -/
def IsSha (s : List Char) : Prop := s.length = 40 ∧ ∀ c ∈ s, c.isDigit ∨ c ∈ "abcdef".toList

instance (s : List Char) : Decidable (IsSha s) :=
  @instDecidableAnd _ _ inferInstance (List.decidableBAll _ s)

/-- The name of a commit. -/
def Sha := {s : List Char // IsSha s}
deriving DecidableEq

section Git

variable {τ : Type}

/-- A commit with its tree. -/
structure GitCommit (τ : Type) where
  sha : Sha
  tree : τ
deriving DecidableEq

/-- The commits of a branch, newest first. -/
abbrev History (τ : Type) := List (GitCommit τ)

/-- A clone: the branch `main`, what is checked out, the index and the files. -/
structure Clone (τ : Type) where
  main : History τ
  /-- What is checked out, where it is not `main`. -/
  other : Option (History τ)
  index : τ
  worktree : τ
deriving DecidableEq

namespace Clone

/-- A clean checkout of `main` at a commit. -/
def fresh (tip : GitCommit τ) (past : History τ) : Clone τ where
  main := tip :: past
  other := none
  index := tip.tree
  worktree := tip.tree

/-- The history of what is checked out. -/
def head (r : Clone τ) : History τ := r.other.getD r.main

/-- `git diff --cached` finds a change. -/
def HasStaged (r : Clone τ) : Prop := r.head.head?.map GitCommit.tree ≠ some r.index

instance [DecidableEq τ] (r : Clone τ) : Decidable r.HasStaged := inferInstanceAs (Decidable (¬ _))

/-- `git commit`, which fails when nothing is staged. -/
def commit [DecidableEq τ] (r : Clone τ) (sha : Sha) : Option (Clone τ) :=
  if r.HasStaged then
    match r.other with
    | none => some { r with main := ⟨sha, r.index⟩ :: r.main }
    | some history => some { r with other := some (⟨sha, r.index⟩ :: history) }
  else none

/-- `git push origin main`: the history of `main` at the remote after it. -/
def pushMain [DecidableEq τ] (r : Clone τ) (accepted : Bool) (origin : History τ) :
    Option (History τ) :=
  if accepted = true ∧ r.main ≠ [] ∧ origin <:+ r.main then some r.main else none

variable [DecidableEq τ]

theorem main_of_commit {r r' : Clone τ} {sha : Sha} (h : r.commit sha = some r') :
    r'.main = if r.other = none then ⟨sha, r.index⟩ :: r.main else r.main := by
  unfold commit at h
  split at h
  · cases hother : r.other with
    | none =>
      rw [hother] at h
      cases h
      rfl
    | some history =>
      rw [hother] at h
      cases h
      rfl
  · cases h

theorem hasStaged_of_commit {r r' : Clone τ} {sha : Sha} (h : r.commit sha = some r') :
    r.HasStaged := by
  unfold commit at h
  split at h
  · assumption
  · cases h

theorem accepted_of_pushMain {r : Clone τ} {accepted : Bool} {origin origin' : History τ}
    (h : r.pushMain accepted origin = some origin') : accepted = true := by
  unfold pushMain at h
  split at h
  · next hpush => exact hpush.1
  · cases h

theorem origin_of_pushMain {r : Clone τ} {accepted : Bool} {origin origin' : History τ}
    (h : r.pushMain accepted origin = some origin') : origin' = r.main ∧ origin <:+ r.main := by
  unfold pushMain at h
  split at h
  · next hpush => exact ⟨(Option.some.inj h).symm, hpush.2.2⟩
  · cases h

/-- **A stale commit is never published**: the remote that has at least the history of a clean
checkout takes the commit made there only while that history is its own. -/
theorem push_commit_cases {tip : GitCommit τ} {past origin origin' : History τ} {r r' : Clone τ}
    {sha : Sha} {accepted : Bool} (hmain : r.main = tip :: past) (hother : r.other = none)
    (hcommit : r.commit sha = some r') (hpush : r'.pushMain accepted origin = some origin')
    (hgrown : tip :: past <:+ origin) :
    origin' = origin ∨ origin = tip :: past ∧ origin' = ⟨sha, r.index⟩ :: origin := by
  have hmain' := main_of_commit hcommit
  rw [if_pos hother, hmain] at hmain'
  obtain ⟨rfl, hsuffix⟩ := origin_of_pushMain hpush
  rw [hmain'] at hsuffix ⊢
  rcases List.suffix_cons_iff.1 hsuffix with he | hsuffix
  · exact .inl he.symm
  · have he := hsuffix.eq_of_length (le_antisymm hsuffix.length_le hgrown.length_le)
    exact .inr ⟨he, by rw [he]⟩

end Clone

end Git

end Lakehouse.Lib
