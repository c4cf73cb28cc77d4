import EShield.Hub.Store
import EShield.Lib.Tasks

/-!
# Pushes and pulls over the policy store

Any number of pushes are merged at once: each reads the clock for its next chunk and later commits
the chunk in a write transaction of its own. A client pulls with the cursor it was last given.
-/

namespace EShield.Hub

/-- A push between two steps of its merge. -/
inductive Writer where
  /-- Before the clock is read for the first of `rest`. -/
  | merging (nodeName : String) (rest : List (List NodePolicy))
  /-- The clock has been read for `chunk`, its transaction is not yet open. -/
  | stamped (nodeName : String) (nowNs : UInt64) (chunk : List NodePolicy)
    (rest : List (List NodePolicy))

/-- The point of a merge whose chunks `rest` are still to come. -/
def Writer.next (nodeName : String) (rest : List (List NodePolicy)) : Option Writer :=
  if rest.isEmpty then none else some (.merging nodeName rest)

/-- The hub and one client. `committedNs` records history: the latest clock reading of a committed
chunk. -/
structure PullWorld where
  store : Store := {}
  clockNs : UInt64 := 0
  committedNs : UInt64 := 0
  writers : TaskTable Writer := fun _ => none
  /-- The client's `last_pull_ns`. -/
  cursorNs : UInt64 := 0
  /-- All policies the client has received. -/
  received : List SharedPolicy := []

inductive PullLabel where
  | push (id : Nat) (nodeName : String) (policies : List NodePolicy)
  | readClock (id : Nat) (nowNs : UInt64)
  | commit (id : Nat)
  | pull (limit : Nat)

def pullStep (s : PullWorld) : PullLabel → Option PullWorld
  | .push id nodeName policies =>
    match s.writers id with
    | none =>
      some { s with writers := s.writers.set id (Writer.next nodeName (Store.chunks policies)) }
    | some _ => none
  | .readClock id nowNs =>
    match s.writers id with
    | some (.merging nodeName (chunk :: rest)) =>
      if s.clockNs ≤ nowNs then
        some
          { s with
            clockNs := nowNs
            writers := s.writers.set id (some (.stamped nodeName nowNs chunk rest)) }
      else none
    | _ => none
  | .commit id =>
    match s.writers id with
    | some (.stamped nodeName nowNs chunk rest) =>
      match s.store.mergeChunk nodeName chunk nowNs with
      | some store =>
        some
          { s with
            store := store
            committedNs := max s.committedNs nowNs
            writers := s.writers.set id (Writer.next nodeName rest) }
      -- the transaction is aborted and the push ends with an error
      | none => some { s with writers := s.writers.set id none }
    | _ => none
  | .pull limit =>
    let r := s.store.querySince s.cursorNs limit
    some { s with cursorNs := r.2, received := s.received ++ r.1 }

end EShield.Hub
