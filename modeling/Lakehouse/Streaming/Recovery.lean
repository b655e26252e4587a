import Lakehouse.Streaming.OrderTopic

/-!
# Checkpoints and crashes of the order revenue job

The job checkpoints every minute in mode `EXACTLY_ONCE`
(`pipelines/streaming/flink-jobs/order-revenue/job.py`,
`infra/kubernetes/base/flink/flink-deployment.yaml`): a completed checkpoint holds the offset in the
source and the state of the windows, and after a crash the job goes on from the last one. The
watermark is in no checkpoint and starts again at its minimum, so every window is open after a
crash, those that had fired before the checkpoint too. The sink is declared without a delivery
guarantee, so its records are visible as soon as they are emitted and no crash takes them back.
-/

namespace Lakehouse.Streaming

open Lib Source

/-- Where the job is. -/
structure JobState where
  /-- The number of changes of the source that have been processed. -/
  offset : Nat
  windows : WindowState (Int × Int)

/-- What a checkpoint holds: the source offset and the state of the windows. -/
structure Checkpoint where
  offset : Nat
  panes : Panes (Int × Int)

/-- The checkpoint that is taken in a state. -/
def JobState.checkpoint (s : JobState) : Checkpoint := ⟨s.offset, s.windows.panes⟩

/-- The state in which the job goes on from a checkpoint: there is no watermark yet. -/
def Checkpoint.restore (c : Checkpoint) : JobState := ⟨c.offset, ⟨none, c.panes⟩⟩

/-- The job, its last completed checkpoint and the records on the sink topic. -/
structure RunningJob where
  current : JobState
  checkpoint : Checkpoint
  sink : List RevenueRecord

/-- What happens to the running job. -/
inductive JobEvent where
  /-- The next change of the source is processed. -/
  | process
  | watermark (m : Int)
  | checkpoint
  | crash
deriving DecidableEq

/-- The job starts without a state and from the earliest offset. -/
def RunningJob.start : RunningJob := ⟨⟨0, .init⟩, ⟨0, .empty⟩, []⟩

/-- The window aggregate is given some events, and what fires goes to the sink. -/
def RunningJob.feed (s : RunningJob) (offset : Nat) (e : StreamEvent) : RunningJob :=
  let (windows, out) := s.current.windows.run minute e.windowEvents
  { s with
    current := ⟨offset, windows⟩
    sink := s.sink ++ (out.filterMap emit).map RevenueRow.record }

/-- One event. Without a change to process, processing does nothing. -/
def RunningJob.step (source : List (Change OrderRow)) (s : RunningJob) : JobEvent → RunningJob
  | .process =>
    match source[s.current.offset]? with
    | none => s
    | some c => s.feed (s.current.offset + 1) (.change c)
  | .watermark m => s.feed s.current.offset (.watermark m)
  | .checkpoint => { s with checkpoint := s.current.checkpoint }
  | .crash => { s with current := s.checkpoint.restore }

/-- The job after some events. -/
def RunningJob.run (source : List (Change OrderRow)) (s : RunningJob) (events : List JobEvent) :
    RunningJob :=
  events.foldl (RunningJob.step source) s

end Lakehouse.Streaming
