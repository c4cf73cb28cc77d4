import EShield.Lib.Utf8
import EShield.Node.Audit

/-!
# Reading the end of the audit log

The file is read from its end in chunks until there are enough line feeds in what has been read, which
then begins anywhere, inside a line or a character. From its lines, the last ones first, the entries are
taken up to the limit.

How `serde_json` reads an entry is the parameter `entryFromStr`.
-/

namespace EShield.Node

open Lines Utf8

def CHUNK : Nat := 64 * 1024

/-- The chunks from the end of the file, those before `pos` not read yet. -/
def readChunks (file : List UInt8) (limit : UInt64) (pos newlines : Nat)
    (chunks : List (List UInt8)) : List (List UInt8) :=
  if 0 < pos ∧ newlines < (limit + 1).toNat then
    let readLen := min CHUNK pos
    let buf := (file.drop (pos - readLen)).take readLen
    readChunks file limit (pos - readLen) (newlines + buf.count 0x0A) (chunks ++ [buf])
  else chunks
termination_by pos
decreasing_by
  rw [CHUNK]
  omega

variable (entryFromStr : List Char → Option AuditEntry)

/-- The entries of the lines, the last one first, in front of those already read. -/
def collectEntries (limit : UInt64) : List (List Char) → List AuditEntry → List AuditEntry
  | [], entries => entries
  | line :: rest, entries =>
    let line := trim line
    if line.isEmpty then collectEntries limit rest entries
    else
      match entryFromStr line with
      | some entry =>
        let entries := entry :: entries
        if limit.toNat ≤ entries.length then entries else collectEntries limit rest entries
      | none => collectEntries limit rest entries

/-- The last entries of a log that may not exist. -/
def listTail (file : Option (List UInt8)) (limit : UInt64) : List AuditEntry :=
  match file with
  | none => []
  | some file =>
    if limit = 0 then []
    else
      let data := (readChunks file limit file.length 0 []).reverse.flatten
      collectEntries entryFromStr limit (lines (decodeLossy data)).reverse []

end EShield.Node
