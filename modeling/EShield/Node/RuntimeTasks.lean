import EShield.Lib.Exec
import EShield.Node.Runtime

/-!
# Two calls that change the runtime configuration

`patch_runtime` reads the snapshot under one lock, changes its copy, and writes the maps and the
snapshot under two others; `set_danger_level` writes the snapshot and then CONFIG. Here two such
calls take their steps in any order that the lock of the maps allows.
-/

namespace EShield.Node

open Ebpf

inductive RuntimeCall where
  | patchRuntime (patch : RuntimeConfigPatch)
  | setDangerLevel (level : UInt8)

/-- How far a call has come. -/
inductive CallPhase where
  | ready
  /-- `patch_runtime` has read `base` and made `next` of it. -/
  | read (base next : RuntimeConfigSnapshot)
  /-- It has passed the adaptive parameters on. -/
  | tuned (base next : RuntimeConfigSnapshot)
  /-- It has written the maps, whose lock it holds. -/
  | applied (base next : RuntimeConfigSnapshot)
  /-- `set_danger_level` has written the snapshot. -/
  | shown
  | done

/-- What the calls share, and how far each of the two has come. -/
structure RuntimeWorld where
  runtime : RuntimeConfigSnapshot
  maps : Maps
  adaptive : Option AdaptiveConfig
  phase : Bool → CallPhase

namespace RuntimeWorld

def setPhase (w : RuntimeWorld) (i : Bool) (phase : CallPhase) : RuntimeWorld :=
  { w with phase := Function.update w.phase i phase }

/-- The other call holds the lock of the maps. -/
def mapsLocked (w : RuntimeWorld) (i : Bool) : Bool :=
  match w.phase (!i) with
  | .applied _ _ => true
  | _ => false

end RuntimeWorld

/-- The next step of call `i`. A patch that does not pass its checks takes none. -/
def runtimeStep (calls : Bool → RuntimeCall) (w : RuntimeWorld) (i : Bool) : Option RuntimeWorld :=
  match calls i, w.phase i with
  | .patchRuntime patch, .ready =>
    match validateRuntimePatch patch with
    | .ok () => some (w.setPhase i (.read w.runtime (patch.applySwitches w.runtime)))
    | .error _ => none
  | .patchRuntime patch, .read base next =>
    let adaptive := w.adaptive.map fun old => patch.adaptive.getD old
    some ({ w with adaptive := adaptive }.setPhase i (.tuned base next))
  | .patchRuntime patch, .tuned base next =>
    if w.mapsLocked i then none
    else
      let next := patch.applyLimits next
      some ({ w with maps := patch.writeMaps next w.maps }.setPhase i (.applied base next))
  | .patchRuntime _, .applied _ next => some ({ w with runtime := next }.setPhase i .done)
  | .setDangerLevel level, .ready =>
    let runtime := { w.runtime with dangerLevel := clampDangerLevel level }
    some ({ w with runtime := runtime }.setPhase i .shown)
  | .setDangerLevel level, .shown =>
    if w.mapsLocked i then none
    else
      some ({ w with maps := writeDangerLevel (clampDangerLevel level) w.maps }.setPhase i .done)
  | _, _ => none

/-- Before the first step of either call. -/
def RuntimeWorld.start (runtime : RuntimeConfigSnapshot) (maps : Maps)
    (adaptive : Option AdaptiveConfig) : RuntimeWorld :=
  { runtime := runtime, maps := maps, adaptive := adaptive, phase := fun _ => .ready }

end EShield.Node
