import EShield.Lib.Exec
import EShield.Lib.Lines
import EShield.Lib.Saturating
import EShield.Lib.Text

/-!
# The CPU load of the danger monitor

`read_cpu_usage` adds up the counters of the first line of /proc/stat and compares them with those of
the call before, over exact rationals.
-/

namespace EShield.Node

open Lines Text

/-- The numbers of the line of all CPUs. -/
def cpuFields (content : List Char) : Option (List Nat) :=
  ((lines content).find? fun line => "cpu ".toList.isPrefixOf line).map fun line =>
    ((splitWhitespace line).drop 1).filterMap (parseUnsigned 64)

/-- The sum of the counters, in a word, and the counter of idle time. -/
def cpuCounters (content : List Char) : Option (UInt64 × UInt64) :=
  (cpuFields content).bind fun fields =>
    fields[3]?.map fun idle => (UInt64.ofNat fields.sum, UInt64.ofNat idle)

/-- The load in thousandths, and what is kept for the next call. -/
def readCpuUsage (prevCpu : UInt64 × UInt64) (content : Option (List Char)) :
    ℚ × (UInt64 × UInt64) :=
  match content.bind cpuCounters with
  | none => (0, prevCpu)
  | some (total, idle) =>
    let (prevIdle, prevTotal) := prevCpu
    let deltaTotal := total.saturatingSub prevTotal
    let deltaIdle := idle.saturatingSub prevIdle
    let usage : ℚ :=
      if prevTotal = 0 then 0
      else if deltaTotal = 0 then 0
      else (1 - deltaIdle.toNat / deltaTotal.toNat) * 1000
    (usage, (total, idle))

example : cpuCounters "intr 5\ncpu  10 0 5 100 x 2\ncpu0 1 2 3 4\n".toList = some (117, 100) := by
  decide +kernel

/-! ## Runs -/

/-- The monitor over time, and beside it the total and the idle counter of the last call. -/
structure CpuRun where
  prevCpu : UInt64 × UInt64 := (0, 0)
  last : Option (Nat × Nat) := none

/-- The content has four counters at least, with this sum and idle counter. -/
def HasCounters (content : List Char) (total idle : Nat) : Prop :=
  ∃ fields, cpuFields content = some fields ∧ fields[3]? = some idle ∧ fields.sum = total ∧
    total < 2 ^ 64

instance (content : List Char) (total idle : Nat) : Decidable (HasCounters content total idle) :=
  decidable_of_iff
    (∃ fields ∈ cpuFields content, fields[3]? = some idle ∧ fields.sum = total ∧ total < 2 ^ 64)
    Iff.rfl

/-- A call, with what it reads. -/
def cpuStep (w : CpuRun) (content : List Char) : Option CpuRun :=
  some
    { prevCpu := (readCpuUsage w.prevCpu (some content)).2
      last :=
        match cpuFields content with
        | some fields => fields[3]?.elim w.last fun idle => some (fields.sum, idle)
        | none => w.last }

end EShield.Node
