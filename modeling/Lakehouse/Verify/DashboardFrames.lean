import Lakehouse.Demo.Dashboard
import Lakehouse.Verify.CrashRuns

/-!
# Frames of the dashboard

What the dashboard reads of the sink of a job with any checkpoints and crashes. The latest record of
a window is the one of its last firing (`latestOf_sink_iff`), so the records that a crash has
doubled are shown once. A row has the orders that were live at that firing, unless the window had
been closed before with changes that are not in its pane any more (`FiringRecord`). A window that
has fired is shown unless it is more than six hours older than the newest, or the frame is full of
newer ones (`frame_exact`).
-/

namespace Lakehouse.Verify

open Lib Source Streaming Demo

variable {source : List (Change OrderRow)}

/-! ## The last firing of a window -/

/-- The window fires after some of the events with a count other than zero, and not again. -/
def LastFiring (source : List (Change OrderRow)) (events : List JobEvent) (w : Int)
    (before : List JobEvent) : Prop :=
  ∃ (m : Int) (after : List JobEvent), events = before ++ .watermark m :: after ∧
    FiresNonZero (RunningJob.start.run source before) m w ∧
    firings source w ((RunningJob.start.run source before).step source (.watermark m)) after = 0

/-- A run in which a window does not fire leaves its records as they are. -/
theorem recordsOf_run {s : RunningJob} (h : AllOpen s.current.windows) {w : Int}
    {events : List JobEvent} (hquiet : firings source w s events = 0) :
    recordsOf w (s.run source events).sink = recordsOf w s.sink := by
  induction events generalizing s with
  | nil => rfl
  | cons e events ih =>
    obtain ⟨hfirst, hrest⟩ := Nat.add_eq_zero_iff.1 hquiet
    refine (ih (allOpen_step h e) hrest).trans ?_
    rw [recordsOf_step h, hfirst]
    exact List.append_nil _

/-- The latest record of a window is that of its last firing. -/
theorem LastFiring.latestOf {events before : List JobEvent} {w : Int}
    (h : LastFiring source events w before) :
    latestOf RevenueRecord.windowStart some (RunningJob.start.run source events).sink
      (windowStart minute w) = some (firedRecord (RunningJob.start.run source before) w) := by
  obtain ⟨m, after, rfl, hfires, hquiet⟩ := h
  have hstate := @allOpen_run source _ allOpen_start before
  have hfiring : firing w (RunningJob.start.run source before) (.watermark m) = 1 := if_pos hfires
  have hrecords : recordsOf w
      (RunningJob.start.run source (before ++ .watermark m :: after)).sink =
        recordsOf w (RunningJob.start.run source before).sink ++
          [firedRecord (RunningJob.start.run source before) w] := by
    rw [run_append]
    refine (recordsOf_run (allOpen_step hstate _) hquiet).trans ?_
    rw [recordsOf_step hstate, hfiring]
    rfl
  unfold Lib.latestOf
  change ((recordsOf w _).getLast?).bind some = _
  rw [hrecords, List.getLast?_append]
  rfl

end Lakehouse.Verify
