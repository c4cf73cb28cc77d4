import EShield.Lib.Exec
import EShield.Lib.Json
import EShield.Lib.Lines
import EShield.Lib.Saturating
import EShield.Lib.Sha256

/-!
# The audit log

Every entry is one line of JSON and carries its number, the hash before it and its own, so that
`verify_chain` can go through a file. The end of the chain is kept in memory, and read back from the
file after a restart. A file that has grown too long is renamed and a new one begun.

How `serde_json` reads a text is the parameter `fromStr`.
-/

namespace EShield.Node

open Json Lines

inductive AuditAction where
  | blockIp
  | unblockIp
  | allowCidr
  | disallowCidr
  | reloadConfig
  | patchConfig
  | start
  | stop
  | login
  | resetToken
  deriving DecidableEq

namespace AuditAction

def all : List AuditAction :=
  [blockIp, unblockIp, allowCidr, disallowCidr, reloadConfig, patchConfig, start, stop, login,
    resetToken]

def name : AuditAction → String
  | blockIp => "block_ip"
  | unblockIp => "unblock_ip"
  | allowCidr => "allow_cidr"
  | disallowCidr => "disallow_cidr"
  | reloadConfig => "reload_config"
  | patchConfig => "patch_config"
  | start => "start"
  | stop => "stop"
  | login => "login"
  | resetToken => "reset_token"

def toValue (action : AuditAction) : Json := .str action.name.toList

def fromName (name : List Char) : Option AuditAction := all.find? fun a => a.name.toList = name

/-- A variant without data is read from its name, or from an object with nothing at its name. -/
def fromValue : Json → Option AuditAction
  | .str name => fromName name
  | .obj [(name, .null)] => fromName name.toList
  | _ => none

end AuditAction

structure AuditEntry where
  timestamp : List Char
  actor : List Char
  action : AuditAction
  detail : Json
  sourceIp : Option (List Char)

namespace AuditEntry

/-- The members of the object, in the order of their keys. -/
def toMembers (entry : AuditEntry) : List (String × Json) :=
  [("action", entry.action.toValue),
    ("actor", .str entry.actor),
    ("detail", entry.detail),
    ("source_ip", entry.sourceIp.elim .null .str),
    ("timestamp", .str entry.timestamp)]

/-- Members that an entry does not have are ignored, and `source_ip` may be missing. -/
def fromValue (v : Json) : Option AuditEntry := do
  let timestamp ← (v.get? "timestamp").bind asStr
  let actor ← (v.get? "actor").bind asStr
  let action ← (v.get? "action").bind AuditAction.fromValue
  let detail ← v.get? "detail"
  let sourceIp ←
    match v.get? "source_ip" with
    | none => some none
    | some .null => some none
    | some (.str ip) => some (some ip)
    | some _ => none
  some
    { timestamp := timestamp, actor := actor, action := action, detail := detail
      sourceIp := sourceIp }

end AuditEntry

/-! ## Hashing -/

@[irreducible] def sha256Hex (input : List Char) : List Char :=
  (Sha256.digest (input.flatMap String.utf8EncodeChar)).toList.flatMap fun b =>
    [hexDigit (b.toNat / 16), hexDigit (b.toNat % 16)]

/-- The text of an entry that is hashed. -/
def canonicalEntry (entry : AuditEntry) : List Char :=
  entry.timestamp ++ '|' :: (entry.actor ++ '|' :: (entry.action.toValue.print ++
    '|' :: (entry.detail.print ++ '|' :: entry.sourceIp.getD [])))

/-- The hash of a record: its number, the hash before it and its canonical text. -/
def recordHash (seq : UInt64) (prev canonical : List Char) : List Char :=
  sha256Hex (printNat seq.toNat ++ '|' :: (prev ++ '|' :: canonical))

/-! ## Reading a log -/

structure AuditVerifyReport where
  ok : Bool
  checked : Nat
  firstBadSeq : Option UInt64
  path : String
  deriving DecidableEq

variable (fromStr : List Char → Option Json)

def seqOf (v : Json) : UInt64 := ((v.get? "seq").bind asU64).getD 0

/-- A member that is a string, and the empty one if there is none. -/
def strOf (key : String) (v : Json) : List Char := ((v.get? key).bind asStr).getD []

/-- The end of the chain in a log that may not be readable: that of the last line that is JSON. -/
def resumeChain (content : Option (List Char)) : UInt64 × List Char :=
  match content with
  | none => (0, [])
  | some content =>
    match (lines content).reverse.findSome? fun line =>
      if isBlank line then none else fromStr line with
    | some v => (seqOf v, strOf "hash" v)
    | none => (0, [])

/-- Goes through the lines behind the hash `prev`, of which `checked` have been read. -/
def verifyLines (path : String) : (prev : List Char) → (checked : Nat) → List (List Char) →
    Except String AuditVerifyReport
  | _, checked, [] => .ok { ok := true, checked := checked, firstBadSeq := none, path := path }
  | prev, checked, line :: rest =>
    if isBlank line then verifyLines path prev checked rest
    else
      let checked := checked + 1
      match fromStr line with
      | none => .error s!"line {checked} is not valid JSON"
      | some v =>
        -- a record from before there were hashes
        if strOf "hash" v = [] then verifyLines path [] checked rest
        else
          match AuditEntry.fromValue v with
          | none => .error s!"line {checked} has invalid audit entry"
          | some entry =>
            let expected := recordHash (seqOf v) (strOf "prev_hash" v) (canonicalEntry entry)
            if strOf "prev_hash" v ≠ prev ∨ expected ≠ strOf "hash" v then
              .ok
                { ok := false, checked := checked, firstBadSeq := some (seqOf v), path := path }
            else verifyLines path (strOf "hash" v) checked rest

/-- The file at `path`, if it can be read. -/
def verifyChain (path : String) (content : Option (List Char)) : Except String AuditVerifyReport :=
  match content with
  | none => .error s!"cannot read audit log: {path}"
  | some content => verifyLines fromStr path [] 0 (lines content)

/-! ## Writing it -/

structure AuditFile where
  ino : Nat
  text : List Char

/-- The log and its backups `log.1` to `log.3`. -/
structure AuditDir where
  log : Option AuditFile
  backups : Nat → Option AuditFile := fun _ => none
  nextIno : Nat := 0

structure FileAuditBackend where
  maxSize : Nat
  /-- The file that is open for appending. -/
  file : Option Nat
  chainSeq : UInt64
  chainPrev : List Char

/-- What the host answers to one append. -/
structure AuditHost where
  metadata : Bool := true
  /-- By the number of the backup that is renamed, 0 for the log itself. -/
  rename : Nat → Bool := fun _ => true
  metadataAgain : Bool := true
  openLog : Bool := true
  writeLine : Bool := true
  writeNewline : Bool := true
  flush : Bool := true

def MAX_BACKUPS : Nat := 3

def FileAuditBackend.new (maxSizeMb : UInt64) (dir : AuditDir) : FileAuditBackend :=
  let chain := resumeChain fromStr (dir.log.map AuditFile.text)
  { maxSize := (maxSizeMb.saturatingMul (1024 * 1024)).toNat
    file := none
    chainSeq := chain.1
    chainPrev := chain.2 }

/-- Moves the backups up by one, the oldest first. -/
def rotateBackups (host : AuditHost) : List Nat → AuditDir → Except String Unit × AuditDir
  | [], dir => (.ok (), dir)
  | i :: rest, dir =>
    match dir.backups i with
    | none => rotateBackups host rest dir
    | some file =>
      if host.rename i then
        rotateBackups host rest
          { dir with
            backups := Function.update (Function.update dir.backups (i + 1) (some file)) i none }
      else (.error s!"rotate log.{i}", dir)

/-- The log is over its size. -/
def Oversized (b : FileAuditBackend) (dir : AuditDir) : Prop :=
  b.maxSize ≠ 0 ∧ ∃ f ∈ dir.log, utf8Len f.text > b.maxSize

instance (b : FileAuditBackend) (dir : AuditDir) : Decidable (Oversized b dir) :=
  inferInstanceAs (Decidable (_ ∧ ∃ _ ∈ _, _))

/-- Renames a log that is over its size. -/
def maybeRotate (b : FileAuditBackend) (host : AuditHost) (dir : AuditDir) :
    Except String Bool × AuditDir :=
  if b.maxSize = 0 then (.ok false, dir)
  else if !host.metadata then (.error "metadata", dir)
  else
    match dir.log with
    | none => (.ok false, dir)
    | some f =>
      if utf8Len f.text ≤ b.maxSize then (.ok false, dir)
      else
        match rotateBackups host ((List.range' 1 (MAX_BACKUPS - 1)).reverse) dir with
        | (.error e, dir) => (.error e, dir)
        | (.ok (), dir) =>
          if host.rename 0 then
            (.ok true,
              { dir with log := none, backups := Function.update dir.backups 1 (some f) })
          else (.error "rotate log", dir)

/-- The open file is not the one that the path names, or it is not known whether it is. -/
def needsOpen (b : FileAuditBackend) (host : AuditHost) (dir : AuditDir) : Bool :=
  match b.file, dir.log with
  | some ino, some f => !host.metadataAgain || ino != f.ino
  | _, _ => true

/-- Writes to the open file, which is the log. -/
def writeLog (dir : AuditDir) (text : List Char) : AuditDir :=
  { dir with log := dir.log.map fun f => { f with text := f.text ++ text } }

/-- The record of an entry. -/
def recordValue (entry : AuditEntry) (seq : UInt64) (prev : List Char) : Json :=
  let hash := recordHash seq prev (canonicalEntry entry)
  .obj
    (insertMember "hash" (.str hash)
      (insertMember "prev_hash" (.str prev)
        (insertMember "seq" (.num (.posInt seq)) entry.toMembers)))

/-- The writes to the open log, of which each may fail; one that does writes nothing. -/
def writeLines (host : AuditHost) (b : FileAuditBackend) (dir : AuditDir) (line : List Char) :
    Except String Unit × FileAuditBackend × AuditDir :=
  if !host.writeLine then (.error "write", b, dir)
  else if !host.writeNewline then (.error "write", b, writeLog dir line)
  else if !host.flush then (.error "flush", b, writeLog dir (line ++ ['\n']))
  else (.ok (), b, writeLog dir (line ++ ['\n']))

/-- Opens the log if that is needed, and writes the line to it. -/
def writeRecord (host : AuditHost) (b : FileAuditBackend) (dir : AuditDir) (rotated : Bool)
    (line : List Char) : Except String Unit × FileAuditBackend × AuditDir :=
  if rotated || needsOpen b host dir then
    if !host.openLog then (.error "cannot open audit log", b, dir)
    else
      let f := dir.log.getD { ino := dir.nextIno, text := [] }
      writeLines host { b with file := some f.ino }
        { dir with
          log := some f
          nextIno := if dir.log.isNone then dir.nextIno + 1 else dir.nextIno }
        line
  else writeLines host b dir line

/-- Appends an entry. The chain in memory is moved on before the file is touched. -/
def append (host : AuditHost) (b : FileAuditBackend) (dir : AuditDir) (entry : AuditEntry) :
    Except String Unit × FileAuditBackend × AuditDir :=
  let seq := b.chainSeq + 1
  let line := (recordValue entry seq b.chainPrev).print
  let b :=
    { b with chainSeq := seq, chainPrev := recordHash seq b.chainPrev (canonicalEntry entry) }
  match maybeRotate b host dir with
  | (.error e, dir) => (.error e, b, dir)
  | (.ok rotated, dir) =>
    -- a new file begins a chain of its own
    let b := if rotated then { b with chainSeq := 0, chainPrev := [] } else b
    writeRecord host b dir rotated line

/-! ## Runs -/

structure AuditRun where
  backend : FileAuditBackend
  dir : AuditDir

inductive AuditLabel where
  | append (entry : AuditEntry) (host : AuditHost)
  /-- The process ends and starts again with this limit. -/
  | restart (maxSizeMb : UInt64)

def auditStep (w : AuditRun) : AuditLabel → Option AuditRun
  | .append entry host =>
    let r := Node.append host w.backend w.dir entry
    some { backend := r.2.1, dir := r.2.2 }
  | .restart maxSizeMb => some { w with backend := .new fromStr maxSizeMb w.dir }

end EShield.Node
