import Lakehouse.Release.Promote

/-!
# The gate and the controller

The `lakehouse-prod` Application as the gate of `scripts/promote.sh` and the ArgoCD controller share
it: the gate patches `.operation` and polls `.status`, and the controller takes a requested
operation up, at any later time, and writes how far it is. Operations have no identity in the
object; here `own` is the one that this run of the script requests.
-/

namespace Lakehouse.Release

/-- The phase of an operation, `.status.operationState.phase`. -/
inductive Phase where
  | running | terminating | succeeded | failed | error
deriving DecidableEq

/-- The phase as `kubectl` prints it. -/
def Phase.text : Phase → String
  | .running => "Running"
  | .terminating => "Terminating"
  | .succeeded => "Succeeded"
  | .failed => "Failed"
  | .error => "Error"

/-- The controller is done with the operation. -/
def Phase.completed : Phase → Bool
  | .running | .terminating => false
  | .succeeded | .failed | .error => true

/-- An operation: that of the script, or one of somebody else. -/
inductive Operation where
  | own
  | other (n : Nat)
deriving DecidableEq

/-- What the script sees and changes of the ArgoCD Application. -/
structure Application where
  /-- `.operation`, which is gone once the controller has taken it up. -/
  operation : Option Operation
  /-- `.status.operationState`. -/
  operationState : Option (Operation × Phase)
  /-- `.status.sync.status`. -/
  sync : String
  /-- `.status.health.status`. -/
  health : String
deriving DecidableEq

/-- What `kubectl` prints for a command, and the object after it. -/
def Application.execute (app : Application) : Command → String × Application
  | .annotate => ("", app)
  | .getSync => (app.sync, app)
  | .patch => ("", { app with operation := some .own })
  | .getPhase => ((app.operationState.map fun o => o.2.text).getD "", app)
  | .getHealth => (app.health, app)

/-- The script and the Application. -/
structure System where
  gate : Gate
  app : Application
deriving DecidableEq

/-- What happens to the two, in any order. -/
inductive SystemEvent where
  /-- The script gives its next command; it gets through or fails. -/
  | command (reached : Bool)
  /-- The controller takes the requested operation up. -/
  | pickUp
  /-- The operation that is not completed moves on to a phase. -/
  | progress (phase : Phase)
  | observe (sync health : String)
deriving DecidableEq

/-- One event. An event that is not possible changes nothing. -/
def System.step (s : System) : SystemEvent → System
  | .command reached =>
    match s.gate.command with
    | none => s
    | some c =>
      if reached = true then
        { gate := s.gate.next (some (s.app.execute c).1), app := (s.app.execute c).2 }
      else { s with gate := s.gate.next none }
  | .pickUp =>
    match s.app.operation with
    | none => s
    | some operation =>
      { s with app := { s.app with
          operation := none, operationState := some (operation, .running) } }
  | .progress phase =>
    match s.app.operationState with
    | none => s
    | some (operation, old) =>
      if old.completed = true then s
      else { s with app := { s.app with operationState := some (operation, phase) } }
  | .observe sync health => { s with app := { s.app with sync := sync, health := health } }

/-- The state after some events. -/
def System.run (s : System) (events : List SystemEvent) : System := events.foldl System.step s

/-- `promote.sh prod --sync` when the promotion is done. -/
def System.start {ρ : Type} [DecidableEq ρ] (tools : Tools) (w : World ρ) (app : Application) :
    System where
  gate := (promote tools ["prod", "--sync"] w).1.gateStart
  app := app

end Lakehouse.Release
