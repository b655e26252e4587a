import Lakehouse.Lib.Runs
import Lakehouse.Release.Application
import Lakehouse.Verify.Promotion

/-!
# What the gate of production reports

`promote.sh prod --sync` exits with 0 when a poll reads the phase `Succeeded`, and the phase is that
of whichever operation the controller took up last. Once it has taken up the operation of this run,
the phase is that operation's (`Owned`), so the exit code tells the truth in every run in which no
poll reads `Succeeded` before (`gate_reports_own`). A poll that is earlier than the controller reads
what an earlier sync left behind (`gate_reports_stale`).
-/

namespace Lakehouse.Verify

open Lib Release

/-! ## Whose phase it is -/

/-- The operation of this run waits to be taken up, or has been the last one that was. -/
def Owned (app : Application) : Prop :=
  app.operation = some .own ∨
    app.operation = none ∧ ∃ phase, app.operationState = some (.own, phase)

/-- The operation of this run has finished with `Succeeded`, and no other is requested. -/
def OwnSucceeded (app : Application) : Prop :=
  app.operation = none ∧ app.operationState = some (.own, .succeeded)

instance (app : Application) : Decidable (OwnSucceeded app) := inferInstanceAs (Decidable (_ ∧ _))

/-- A poll reads `Succeeded` only after the operation of this run has been taken up. -/
def PolledAfterPickUp (s : System) (e : SystemEvent) : Prop :=
  e = .command true → s.gate.command = some .getPhase →
    s.app.operationState.map Prod.snd = some .succeeded → s.app.operation ≠ some .own

instance (s : System) (e : SystemEvent) : Decidable (PolledAfterPickUp s e) :=
  inferInstanceAs (Decidable (_ → _))

/-- What the place of the script in the gate says about the Application. -/
def GateInv (s : System) : Prop :=
  match s.gate with
  | .waitPhase _ => Owned s.app
  | .health phase => phase = "Succeeded" → OwnSucceeded s.app
  | .exited code => code = 0 → OwnSucceeded s.app
  | .annotate | .waitOutOfSync _ | .patch => True

theorem phase_text_succeeded {phase : Phase} : phase.text = "Succeeded" ↔ phase = .succeeded := by
  cases phase <;> decide

theorem phase_of_text {state : Option (Operation × Phase)}
    (h : (state.map fun o => o.2.text).getD "" = "Succeeded") :
    state.map Prod.snd = some .succeeded := by
  cases state with
  | none => exact absurd h (by decide)
  | some o => exact congrArg some (phase_text_succeeded.1 h)

theorem OwnSucceeded.of_owned {app : Application} (h : Owned app)
    (hpicked : app.operation ≠ some .own)
    (hphase : app.operationState.map Prod.snd = some .succeeded) : OwnSucceeded app := by
  obtain ⟨hnone, phase, hstate⟩ := h.resolve_left hpicked
  refine ⟨hnone, ?_⟩
  rw [hstate] at hphase ⊢
  exact congrArg (fun phase => some (Operation.own, phase)) (Option.some.inj hphase)

/-! ## Steps -/

/-- A step of the controller leaves the script where it is. -/
theorem step_controller {s : System} {e : SystemEvent} (he : ∀ reached, e ≠ .command reached) :
    (s.step e).gate = s.gate ∧ (Owned s.app → Owned (s.step e).app) ∧
      (OwnSucceeded s.app → OwnSucceeded (s.step e).app) := by
  cases e with
  | command reached => exact absurd rfl (he reached)
  | pickUp =>
    cases hoperation : s.app.operation with
    | none => simp [System.step, hoperation]
    | some operation =>
      simp only [System.step, hoperation, true_and]
      constructor
      · rintro (hown | ⟨hnone, -⟩)
        · rw [hoperation] at hown
          cases hown
          exact .inr ⟨rfl, .running, rfl⟩
        · rw [hoperation] at hnone
          cases hnone
      · rintro ⟨hnone, -⟩
        rw [hoperation] at hnone
        cases hnone
  | progress phase =>
    cases hstate : s.app.operationState with
    | none => simp [System.step, hstate]
    | some state =>
      obtain ⟨operation, old⟩ := state
      by_cases hold : old.completed = true
      · simp [System.step, hstate, hold]
      · simp only [System.step, hstate, if_neg hold, true_and]
        constructor
        · rintro (hown | ⟨hnone, phase', hphase⟩)
          · exact .inl hown
          · rw [hstate] at hphase
            cases hphase
            exact .inr ⟨hnone, phase, rfl⟩
        · rintro ⟨-, hsucceeded⟩
          rw [hstate] at hsucceeded
          cases hsucceeded
          exact absurd rfl hold
  | observe sync health => exact ⟨rfl, id, id⟩

/-- A command of the script, by the place it is given in. -/
theorem step_command {s : System} {reached : Bool} (h : GateInv s)
    (hcond : PolledAfterPickUp s (.command reached)) : GateInv (s.step (.command reached)) := by
  obtain ⟨gate, app⟩ := s
  cases gate with
  | annotate => cases reached <;> simp [System.step, Gate.command, Gate.next, GateInv]
  | waitOutOfSync polls =>
    cases reached
    · rcases Gate.next_waitOutOfSync polls none with he | ⟨n, he⟩ <;>
        simp [System.step, Gate.command, GateInv, he]
    · rcases Gate.next_waitOutOfSync polls (some app.sync) with he | ⟨n, he⟩ <;>
        simp [System.step, Gate.command, Application.execute, GateInv, he]
  | patch =>
    cases reached with
    | false => simp [System.step, Gate.command, Gate.next, GateInv]
    | true => exact .inl rfl
  | waitPhase polls =>
    cases reached with
    | false =>
      rcases Gate.next_waitPhase polls none with he | ⟨-, n, he⟩
      · simp [System.step, Gate.command, GateInv, he]
      · simpa [System.step, Gate.command, GateInv, he] using h
    | true =>
      rcases Gate.next_waitPhase polls
        (some ((app.operationState.map fun o => o.2.text).getD "")) with he | ⟨-, n, he⟩
      · -- the poll decides, and what it reads is the phase of this run's operation
        simp only [System.step, Gate.command, Application.execute, if_true, GateInv, he]
        intro hread
        have hphase := phase_of_text hread
        exact .of_owned h (hcond rfl rfl hphase) hphase
      · simpa [System.step, Gate.command, Application.execute, GateInv, he] using h
  | health phase =>
    by_cases hphase : phase = "Succeeded"
    · cases reached <;> exact fun _ => h hphase
    · cases reached <;> simp [System.step, Gate.command, Gate.next, GateInv, hphase]
  | exited code => exact h

theorem GateInv.step {s : System} {e : SystemEvent} (h : GateInv s)
    (hcond : PolledAfterPickUp s e) : GateInv (s.step e) := by
  by_cases he : ∃ reached, e = .command reached
  · obtain ⟨reached, rfl⟩ := he
    exact step_command h hcond
  · obtain ⟨hgate, howned, hsucceeded⟩ := step_controller (s := s) (not_exists.1 he)
    unfold GateInv at h ⊢
    rw [hgate]
    cases hplace : s.gate <;> rw [hplace] at h
    case waitPhase => exact howned h
    case health => exact fun hphase => hsucceeded (h hphase)
    case exited => exact fun hcode => hsucceeded (h hcode)
    all_goals trivial

/-! ## Whole runs -/

variable {ρ : Type} [DecidableEq ρ]

/-- `promote.sh prod --sync` does not exit with 0 before the gate. -/
theorem promote_sync_code {tools : Tools} {w : World ρ} {code : Nat}
    (h : (promote tools ["prod", "--sync"] w).1 = .exited code) : code ≠ 0 := by
  have hafter : ∀ {code}, afterPromotion tools ⟨true, false⟩ .prod = .exited code → code ≠ 0 := by
    intro code h
    change (if true = false then Outcome.exited 0
      else if tools.kubectl = false then .exited 1 else .gate) = _ at h
    rw [if_neg (by decide)] at h
    split at h <;> cases h
    decide
  have hpromote := @promote_options ρ _ tools .prod ["--sync"] ⟨true, false⟩ rfl w
  rw [show promote tools ["prod", "--sync"] w = _ from hpromote] at h
  cases hkustomize : tools.kustomize with
  | none =>
    rw [hkustomize] at h
    cases h
    decide
  | some edit =>
    rw [hkustomize] at h
    change (promoteTo tools edit ⟨true, false⟩ .prod w).1 = _ at h
    rcases promoteTo_ways tools edit ⟨true, false⟩ .prod w with hruns | ⟨k, hedits⟩ | hrefused
    · rw [promoteTo_of_alreadyRuns hruns] at h
      exact hafter h
    · rw [promoteTo_of_edits hedits] at h
      dsimp only at h
      rw [if_neg (by decide)] at h
      split at h
      · exact hafter h
      · cases h
        decide
    · rw [hrefused] at h
      cases h
      decide

theorem gateInv_start (tools : Tools) (w : World ρ) (app : Application) :
    GateInv (System.start tools w app) := by
  unfold GateInv System.start
  cases hpromote : (promote tools ["prod", "--sync"] w).1 with
  | gate => trivial
  | exited code => exact fun hcode => absurd hcode (promote_sync_code hpromote)

/-- **The gate reports its own operation** as long as no poll is ahead of the controller. For every
repository, remote, set of tools and state of the Application, and every interleaving of the
script's commands with the controller, in a run in which a poll reads `Succeeded` only after the
operation of this run has been taken up, an exit with 0 means that this operation has finished with
`Succeeded`. -/
theorem gate_reports_own (tools : Tools) (w : World ρ) (app : Application)
    (events : List SystemEvent)
    (hpolls : Along System.step PolledAfterPickUp (System.start tools w app) events)
    (hexit : ((System.start tools w app).run events).gate = .exited 0) :
    ((System.start tools w app).run events).app.operationState = some (.own, .succeeded) := by
  have hinv := hpolls.invariant (fun _ _ => GateInv.step) (gateInv_start tools w app)
  unfold GateInv at hinv
  rw [show (events.foldl System.step _).gate = _ from hexit] at hinv
  exact (hinv rfl).2

/-- An earlier sync has succeeded, and the Application has seen the new revision. -/
def syncedBefore : Application where
  operation := none
  operationState := some (.other 0, .succeeded)
  sync := "OutOfSync"
  health := "Healthy"

/-- The controller takes the operation up at once, and it succeeds. -/
def promptController : List SystemEvent :=
  [.command true, .command true, .command true, .pickUp, .command true, .progress .succeeded,
    .command true, .command true]

theorem gate_reports_own_prompt :
    ((System.start (release true) newRelease syncedBefore).run
      promptController).app.operationState = some (.own, .succeeded) :=
  gate_reports_own (release true) newRelease syncedBefore promptController (by decide +kernel)
    (by decide +kernel)

/-- The first poll comes before the controller: the script exits with 0 on the phase of the earlier
sync, and its own operation, taken up afterwards, fails. -/
theorem gate_reports_stale :
    let s := (System.start (release true) newRelease syncedBefore).run
      [.command true, .command true, .command true, .command true, .command true, .pickUp,
        .progress .failed]
    s.gate = .exited 0 ∧ s.app.operationState = some (.own, .failed) := by
  decide +kernel

end Lakehouse.Verify
