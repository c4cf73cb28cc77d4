import EShield.Lib.Exec
import EShield.Lib.IpText
import EShield.Lib.Tasks

/-!
# Logins

The login limiter keeps the failures of each client for a minute and locks a client out after five.
A login checks the limiter, verifies the token and records the result; each of the three is atomic,
and the steps of any number of logins interleave. Times are in nanoseconds.
-/

namespace EShield.Node

open IpText

def MAX_ATTEMPTS : Nat := 5

def WINDOW : Nat := 60 * 10 ^ 9

def LOCKOUT : Nat := 300 * 10 ^ 9

structure AttemptEntry where
  attempts : List Nat := []
  lockedUntil : Option Nat := none
  deriving DecidableEq

/-- The entries by client address. -/
abbrev LoginLimiter := IpAddr → Option AttemptEntry

namespace LoginLimiter

def entry (l : LoginLimiter) (ip : IpAddr) : AttemptEntry := (l ip).getD {}

def setEntry (l : LoginLimiter) (ip : IpAddr) (e : AttemptEntry) : LoginLimiter :=
  Function.update l ip (some e)

/-- The failures that still count. -/
def recent (attempts : List Nat) (now : Nat) : List Nat :=
  attempts.filter fun t => now - t < WINDOW

def tooManyAttempts : String := "too many failed login attempts, please try again later"

/-- Whether the client may try now. An expired lock is taken away; five failures that still count
lock again. -/
def check (l : LoginLimiter) (ip : IpAddr) (now : Nat) : Except String Unit × LoginLimiter :=
  let attempts := recent (l.entry ip).attempts now
  match (l.entry ip).lockedUntil.filter (now < ·) with
  | some lockedUntil =>
    (.error tooManyAttempts, l.setEntry ip { attempts := attempts, lockedUntil := some lockedUntil })
  | none =>
    if attempts.length ≥ MAX_ATTEMPTS then
      (.error tooManyAttempts,
        l.setEntry ip { attempts := attempts, lockedUntil := some (now + LOCKOUT) })
    else (.ok (), l.setEntry ip { attempts := attempts, lockedUntil := none })

def recordFailure (l : LoginLimiter) (ip : IpAddr) (now : Nat) : LoginLimiter :=
  let attempts := recent (l.entry ip).attempts now ++ [now]
  l.setEntry ip
    { attempts := attempts
      lockedUntil :=
        if attempts.length ≥ MAX_ATTEMPTS then some (now + LOCKOUT)
        else (l.entry ip).lockedUntil }

/-- Forgets the failures of the client and its lock. -/
def recordSuccess (l : LoginLimiter) (ip : IpAddr) : LoginLimiter := Function.update l ip none

end LoginLimiter

/-! ## Concurrent logins -/

/-- A login between two of its steps. -/
inductive LoginTask where
  /-- It has passed the check. -/
  | checked (ip : IpAddr)
  /-- Its token is right, or not. -/
  | verified (ip : IpAddr) (ok : Bool)
  deriving DecidableEq

structure LoginWorld where
  limiter : LoginLimiter := fun _ => none
  clock : Nat := 0
  tasks : TaskTable LoginTask := fun _ => none

/-- The steps of the login `id` of a client, with their times. -/
inductive LoginLabel where
  | check (id : Nat) (ip : IpAddr) (t : Nat)
  | verify (id : Nat) (ip : IpAddr) (ok : Bool) (t : Nat)
  | record (id : Nat) (ip : IpAddr) (ok : Bool) (t : Nat)
  deriving DecidableEq

def LoginLabel.time : LoginLabel → Nat
  | check _ _ t => t
  | verify _ _ _ t => t
  | record _ _ _ t => t

/-- One step of one login. A login that does not pass the check ends there. -/
def loginStep (s : LoginWorld) (l : LoginLabel) : Option LoginWorld :=
  if l.time < s.clock then none
  else
    match l with
    | .check id ip t =>
      match s.tasks id with
      | some _ => none
      | none =>
        match s.limiter.check ip t with
        | (.ok (), limiter) =>
          some { limiter := limiter, clock := t, tasks := s.tasks.set id (some (.checked ip)) }
        | (.error _, limiter) => some { s with limiter := limiter, clock := t }
    | .verify id ip ok t =>
      if s.tasks id = some (.checked ip) then
        some { s with clock := t, tasks := s.tasks.set id (some (.verified ip ok)) }
      else none
    | .record id ip ok t =>
      if s.tasks id = some (.verified ip ok) then
        some
          { limiter := if ok then s.limiter.recordSuccess ip else s.limiter.recordFailure ip t
            clock := t
            tasks := s.tasks.set id none }
      else none

end EShield.Node
