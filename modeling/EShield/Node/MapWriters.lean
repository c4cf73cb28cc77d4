import EShield.Lib.Exec
import EShield.Lib.Tasks
import EShield.Node.Adaptive

/-!
# Writers of the BLACKLIST map

The data plane, the control plane and the adaptive engine look an entry up, work on their copy and
write it back; only the single map operations are atomic. Here any number of them take these two
steps in any order, while the clock never runs backward and nothing is evicted.
-/

namespace EShield.Node

open Ebpf

/-- An operation on the entry of `key`, which has read the clock before its lookup. -/
inductive MapWriter where
  /-- A packet; `due` says whether its hit is sampled. -/
  | isBlacklisted (key : IpKey) (nowNs : UInt64) (due : Bool)
  | addToBlacklist (key : IpKey) (durationS : UInt64) (reason : UInt8) (nowNs : UInt64)
  | blockIpRaw (key : IpKey) (durationS : UInt64) (reason : UInt8) (nowNs : UInt64)
  /-- The block step of the adaptive engine. -/
  | adaptiveBlock (key : IpKey) (durationS untilReadNs nowNs : UInt64)

/-- The second map operation of a writer. -/
inductive MapWrite where
  | insert (entry : BlockEntry)
  | remove

def MapWrite.apply (blacklist : LruHashMap IpKey BlockEntry) (key : IpKey) :
    MapWrite → LruHashMap IpKey BlockEntry
  | insert entry => blacklist.insert key entry
  | remove => blacklist.remove key

namespace MapWriter

def key : MapWriter → IpKey
  | isBlacklisted key _ _ => key
  | addToBlacklist key _ _ _ => key
  | blockIpRaw key _ _ _ => key
  | adaptiveBlock key _ _ _ => key

/-- The last reading of the clock. -/
def nowNs : MapWriter → UInt64
  | isBlacklisted _ nowNs _ => nowNs
  | addToBlacklist _ _ _ nowNs => nowNs
  | blockIpRaw _ _ _ nowNs => nowNs
  | adaptiveBlock _ _ _ nowNs => nowNs

/-- The expiry that a block requests; none for a packet. -/
def requested : MapWriter → Option UInt64
  | isBlacklisted _ _ _ => none
  | addToBlacklist _ durationS _ nowNs => some (addUntil nowNs durationS)
  | blockIpRaw _ durationS _ nowNs => some (blockUntil nowNs durationS)
  | adaptiveBlock _ durationS untilReadNs _ => some (blockUntil untilReadNs durationS)

/-- What the writer does to the map after it has read `seen`. -/
def next (seen : Option BlockEntry) : MapWriter → Option MapWrite
  | isBlacklisted _ nowNs due =>
    match seen with
    | some entry =>
      if EffectiveAt entry.blockedUntilNs nowNs then
        if due then some (.insert { entry with hitCount := entry.hitCount.saturatingAdd 16 })
        else none
      else some .remove
    | none => none
  | addToBlacklist _ durationS reason nowNs =>
    some (.insert (mergeBlockEntry seen nowNs (addUntil nowNs durationS) reason false))
  | blockIpRaw _ durationS reason nowNs =>
    some (.insert
      (mergeBlockEntry seen nowNs (blockUntil nowNs durationS) reason (isExplicit reason)))
  | adaptiveBlock _ durationS untilReadNs nowNs =>
    some (.insert
      (mergeBlockEntry seen nowNs (blockUntil untilReadNs durationS) rules.ADAPTIVE.toUInt8 false))

end MapWriter

/-- A writer between its two operations: what it has read, and what it is about to do. -/
structure PendingWrite where
  writer : MapWriter
  seen : Option BlockEntry
  write : MapWrite

structure WriterWorld where
  blacklist : LruHashMap IpKey BlockEntry
  clockNs : UInt64
  tasks : TaskTable PendingWrite := fun _ => none

/-- The map operations, each with the time at which it is made. -/
inductive WriterLabel where
  | lookup (id : Nat) (writer : MapWriter) (t : UInt64)
  | write (id : Nat) (t : UInt64)
  /-- `unblock_ip_key`, which removes the entry without a look at it. -/
  | unblock (key : IpKey) (t : UInt64)

def WriterLabel.time : WriterLabel → UInt64
  | lookup _ _ t => t
  | write _ t => t
  | unblock _ t => t

/-- One operation. A writer that has nothing to write is done after its lookup. -/
def writerStep (s : WriterWorld) (l : WriterLabel) : Option WriterWorld :=
  if l.time < s.clockNs then none
  else
    match l with
    | .lookup id writer t =>
      if t < writer.nowNs then none
      else
        match s.tasks id with
        | some _ => none
        | none =>
          let seen := s.blacklist writer.key
          some
            { s with
              clockNs := t
              tasks := s.tasks.set id ((writer.next seen).map fun write => ⟨writer, seen, write⟩) }
    | .write id t =>
      (s.tasks id).map fun p =>
        { blacklist := p.write.apply s.blacklist p.writer.key
          clockNs := t
          tasks := s.tasks.set id none }
    | .unblock key t => some { s with blacklist := s.blacklist.remove key, clockNs := t }

end EShield.Node
