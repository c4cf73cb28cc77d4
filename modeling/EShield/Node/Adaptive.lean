import EShield.Lib.Exec
import EShield.Node.Control

/-!
# The adaptive engine

Counts the drop events of each source over a sliding window and blocks a source that reaches the
threshold. What it has blocked it remembers apart from the map, until the block is over.
-/

namespace EShield.Node

open Ebpf (LruHashMap mergeInto)

structure AdaptiveConfig where
  enabled : Bool
  windowS : UInt64
  threshold : UInt64
  blockDurationS : UInt64

structure AdaptiveEngine where
  config : AdaptiveConfig
  /-- Events of each source: second, and how many in it. -/
  windows : IpKey → List (UInt64 × UInt64)
  /-- Sources blocked by this engine, and the second in which that ends. -/
  blocked : IpKey → Option UInt64

/-- The window after `count` more events at `nowS`; events of one second share an element. -/
def pushEvents (window : List (UInt64 × UInt64)) (windowS nowS count : UInt64) :
    List (UInt64 × UInt64) :=
  let window := window.filter fun e => nowS.saturatingSub e.1 ≤ windowS
  match window.getLast? with
  | some last =>
    if last.1 = nowS then window.dropLast ++ [(nowS, last.2.saturatingAdd count)]
    else window ++ [(nowS, count)]
  | none => [(nowS, count)]

/-- The block itself. The clock is read once for the expiry and again for the merge. -/
def adaptiveBlock (blacklist : LruHashMap IpKey BlockEntry) (srcIp : IpKey)
    (durationS untilReadNs nowNs : UInt64) : LruHashMap IpKey BlockEntry :=
  mergeInto blacklist srcIp nowNs (blockUntil untilReadNs durationS) rules.ADAPTIVE.toUInt8 false

/-- Handles `count` drop events of a source. -/
def onEvents (engine : AdaptiveEngine) (blacklist : LruHashMap IpKey BlockEntry) (srcIp : IpKey)
    (count nowS untilReadNs nowNs : UInt64) :
    AdaptiveEngine × LruHashMap IpKey BlockEntry :=
  let cfg := engine.config
  if count = 0 ∨ !cfg.enabled then (engine, blacklist)
  else if ∃ until_ ∈ engine.blocked srcIp, until_ > nowS then (engine, blacklist)
  else
    let window := pushEvents (engine.windows srcIp) cfg.windowS nowS count
    let engine := { engine with windows := Function.update engine.windows srcIp window }
    if (window.map Prod.snd).sum ≥ cfg.threshold then
      let endS :=
        if cfg.blockDurationS = 0 then 0xffffffffffffffff
        else nowS.saturatingAdd cfg.blockDurationS
      ({ engine with blocked := Function.update engine.blocked srcIp (some endS) },
        adaptiveBlock blacklist srcIp cfg.blockDurationS untilReadNs nowNs)
    else (engine, blacklist)

def AdaptiveEngine.new (config : AdaptiveConfig) : AdaptiveEngine :=
  { config := config, windows := fun _ => [], blocked := fun _ => none }

/-- The hard limit on both maps: a key that is taken out of one is taken out of both. -/
def evict (engine : AdaptiveEngine) (key : IpKey) : AdaptiveEngine :=
  { engine with
    windows := Function.update engine.windows key []
    blocked := Function.update engine.blocked key none }

/-- Removes the windows without a live event and the blocks that are over, then `evicted`, the keys on
which the iteration comes while a map is over the hard limit. -/
def prune (engine : AdaptiveEngine) (nowS : UInt64) (evicted : List IpKey) : AdaptiveEngine :=
  let alive (key : IpKey) :=
    (engine.windows key).any fun e => nowS.saturatingSub e.1 ≤ engine.config.windowS
  evicted.foldl evict
    { engine with
      windows := fun key => if alive key then engine.windows key else []
      blocked := fun key => (engine.blocked key).filter fun until_ => ¬ until_ ≤ nowS }

/-! ## Runs -/

/-- The engine holds the source for blocked and ignores its events. -/
def Ignores (engine : AdaptiveEngine) (srcIp : IpKey) (nowS : UInt64) : Prop :=
  ∃ until_ ∈ engine.blocked srcIp, until_ > nowS

instance (engine : AdaptiveEngine) (srcIp : IpKey) (nowS : UInt64) :
    Decidable (Ignores engine srcIp nowS) :=
  inferInstanceAs (Decidable (∃ _ ∈ _, _))

/-- The engine and the map over time. Beside them it is recorded which events came, as second and count,
and which of them the engine has neither ignored nor evicted. -/
structure AdaptiveRun where
  engine : AdaptiveEngine
  blacklist : LruHashMap IpKey BlockEntry := .empty
  clockS : UInt64 := 0
  seen : IpKey → List (Nat × Nat) := fun _ => []
  kept : IpKey → List (Nat × Nat) := fun _ => []

inductive AdaptiveLabel where
  | events (srcIp : IpKey) (count nowS untilReadNs nowNs : UInt64)
  | prune (nowS : UInt64) (evicted : List IpKey)
  /-- `unblock_ip_key`, which does not know of the engine. -/
  | unblock (key : IpKey)
  /-- An entry expires, or another writer changes the map. -/
  | rewrite (blacklist : LruHashMap IpKey BlockEntry)

/-- The monotonic clock does not go back from one call of `on_events` to the next. -/
def adaptiveStep (w : AdaptiveRun) : AdaptiveLabel → Option AdaptiveRun
  | .events srcIp count nowS untilReadNs nowNs =>
    if nowS < w.clockS then none
    else
      let r := onEvents w.engine w.blacklist srcIp count nowS untilReadNs nowNs
      let batch := (nowS.toNat, count.toNat)
      some
        { engine := r.1
          blacklist := r.2
          clockS := nowS
          seen := Function.update w.seen srcIp (w.seen srcIp ++ [batch])
          kept :=
            if Ignores w.engine srcIp nowS then w.kept
            else Function.update w.kept srcIp (w.kept srcIp ++ [batch]) }
  | .prune nowS evicted =>
    some
      { w with
        engine := prune w.engine nowS evicted
        clockS := max w.clockS nowS
        kept := fun key => if key ∈ evicted then [] else w.kept key }
  | .unblock key => some { w with blacklist := w.blacklist.remove key }
  | .rewrite blacklist => some { w with blacklist := blacklist }

end EShield.Node
