import EShield.Lib.Exec
import EShield.Lib.RoundRobin

/-!
# Several hubs

The tasks of the hub client (push, pull, heartbeat, rules) share the list of hubs and the status that is
shown, and each keeps its own place in the list. A request that does not reach the hub at that place goes
on to the next one.
-/

namespace EShield.Node

open Exec RoundRobin

/-- The part of a task's client that requests change. -/
structure HubTask where
  currentUrlIdx : Nat := 0
  connected : Bool := false

/-- What the control state shows of the hubs. -/
structure HubStatus where
  hubConnected : Bool := false
  hubActiveUrl : String := ""

/-- The hub at a place, without the slashes at the end of its URL. -/
def activeHubUrl (urls : List String) (idx : Nat) : String :=
  let url := urls[idx]?.getD (urls.head?.getD "http://localhost:9930")
  String.ofList (url.toList.rdropWhile (· = '/'))

/-- A GET or a POST, where `answers k` is what its `k`-th try gets: a response, or the error that no
connection was made. -/
def withFailover {ρ : Type} (urls : List String) (path : String) (answers : Nat → Except String ρ)
    (task : HubTask) (status : HubStatus) : HubTask × HubStatus × Except String (String × ρ) :=
  let round := tryFrom urls.length answers urls.length 0 task.currentUrlIdx none
  match round.result with
  | .ok resp =>
    let url := activeHubUrl urls round.place ++ path
    ({ currentUrlIdx := round.place, connected := true },
      { hubConnected := true, hubActiveUrl := url }, .ok (url, resp))
  | .error lastErr =>
    ({ currentUrlIdx := round.place, connected := false }, { status with hubConnected := false },
      .error (match lastErr with
        | some e => s!"all hub URLs unreachable: {e}"
        | none => "no hub URL configured"))

/-! ## Runs -/

/-- A request that was made: the task's place before it, the hubs it tried, and the one that answered. -/
structure HubRequest where
  task : Nat
  start : Nat
  tried : List Nat
  answeredBy : Option Nat

/-- The tasks and the status. Beside them it is recorded which requests were made. -/
structure FailoverRun where
  tasks : Nat → HubTask := fun _ => {}
  status : HubStatus := {}
  requests : List HubRequest := []

structure FailoverLabel (ρ : Type) where
  task : Nat
  path : String
  answers : Nat → Except String ρ

def failoverStep {ρ : Type} (urls : List String) (w : FailoverRun) (label : FailoverLabel ρ) :
    Option FailoverRun :=
  let task := w.tasks label.task
  let round := tryFrom urls.length label.answers urls.length 0 task.currentUrlIdx none
  let r := withFailover urls label.path label.answers task w.status
  some
    { tasks := Function.update w.tasks label.task r.1
      status := r.2.1
      requests :=
        w.requests ++
          [{ task := label.task
             start := task.currentUrlIdx
             tried := round.tried
             answeredBy := if r.2.2.isOk then some round.place else none }] }

end EShield.Node
