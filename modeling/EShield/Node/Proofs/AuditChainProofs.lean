import EShield.Lib.HashChain
import EShield.Node.Audit

/-!
# The chain of an audit log

A log into which entries have been appended one after the other is the chain of these entries:
`verify_chain` goes through it to its end, and `resume_chain` reads its end back.
-/

namespace EShield.Node

open Json Lines HashChain

variable {fromStr : List Char → Option Json} {entry : AuditEntry} {entries : List AuditEntry}
  {seq : UInt64} {prev : List Char} {chain : UInt64 × List Char} {path : String}

/-! ## One record -/

theorem AuditAction.fromValue_toValue (action : AuditAction) :
    AuditAction.fromValue action.toValue = some action := by
  cases action <;> decide

/-- The members of a record, in the order of their keys. -/
theorem recordValue_eq (entry : AuditEntry) (seq : UInt64) (prev : List Char) :
    recordValue entry seq prev =
      .obj
        [("action", entry.action.toValue),
          ("actor", .str entry.actor),
          ("detail", entry.detail),
          ("hash", .str (recordHash seq prev (canonicalEntry entry))),
          ("prev_hash", .str prev),
          ("seq", .num (.posInt seq)),
          ("source_ip", entry.sourceIp.elim .null .str),
          ("timestamp", .str entry.timestamp)] := by
  rfl

theorem seqOf_recordValue : seqOf (recordValue entry seq prev) = seq := by
  rw [recordValue_eq]
  rfl

theorem prevHash_recordValue : strOf "prev_hash" (recordValue entry seq prev) = prev := by
  rw [recordValue_eq]
  rfl

theorem hash_recordValue :
    strOf "hash" (recordValue entry seq prev) = recordHash seq prev (canonicalEntry entry) := by
  rw [recordValue_eq]
  rfl

/-- The entry is read back from its record. -/
theorem fromValue_recordValue :
    AuditEntry.fromValue (recordValue entry seq prev) = some entry := by
  obtain ⟨timestamp, actor, action, detail, sourceIp⟩ := entry
  have haction := AuditAction.fromValue_toValue action
  rw [recordValue_eq]
  generalize recordHash _ _ _ = hash
  change (AuditAction.fromValue action.toValue).bind _ = _
  rw [haction]
  cases sourceIp with
  | none => rfl
  | some ip => rfl

theorem length_sha256Hex (input : List Char) : (sha256Hex input).length = 64 := by
  rw [sha256Hex, List.length_flatMap]
  simp

theorem recordHash_ne_nil {canonical : List Char} : recordHash seq prev canonical ≠ [] := by
  intro hnil
  have hlen := length_sha256Hex (printNat seq.toNat ++ '|' :: (prev ++ '|' :: canonical))
  rw [show sha256Hex _ = [] from hnil] at hlen
  cases hlen

/-- The detail of the entry is read back as it was printed, one level inside the record. -/
def AuditEntry.Readable (entry : AuditEntry) : Prop := entry.detail.Plain 126

theorem plain_recordValue (hread : entry.Readable) : (recordValue entry seq prev).Plain 127 := by
  rw [recordValue_eq]
  have hkeys : ["action", "actor", "detail", "hash", "prev_hash", "seq", "source_ip",
      "timestamp"].Pairwise (· < ·) := by
    decide +kernel
  refine ⟨hkeys, ?_⟩
  have hsource : (entry.sourceIp.elim Json.null Json.str).Plain 126 := by
    cases entry.sourceIp with
    | none => trivial
    | some ip => trivial
  exact ⟨trivial, trivial, hread, trivial, trivial, nofun, hsource, trivial, trivial⟩

/-- The texts that the parser has to read: those that are printed. -/
def ReadsBack (fromStr : List Char → Option Json) : Prop :=
  ∀ v : Json, v.Plain 127 → fromStr v.print = some v

/-- The line of a record. -/
theorem line_recordValue (entry : AuditEntry) (seq : UInt64) (prev : List Char) :
    isBlank (recordValue entry seq prev).print = false ∧
      Unbroken (recordValue entry seq prev).print := by
  refine ⟨by rw [recordValue_eq]; rfl, ?_⟩
  have hprinted := printed_print (recordValue entry seq prev)
  exact ⟨fun hmem => absurd (hprinted _ hmem) (by decide),
    fun hmem => absurd (hprinted _ hmem) (by decide)⟩

/-! ## The whole chain -/

/-- The end of the chain after one more entry: its number and its hash. -/
def chainNext (chain : UInt64 × List Char) (entry : AuditEntry) : UInt64 × List Char :=
  (chain.1 + 1, recordHash (chain.1 + 1) chain.2 (canonicalEntry entry))

/-- The lines that the entries get behind the end of a chain. -/
def chainLines : UInt64 × List Char → List AuditEntry → List (List Char)
  | _, [] => []
  | chain, entry :: entries =>
    (recordValue entry (chain.1 + 1) chain.2).print :: chainLines (chainNext chain entry) entries

theorem chainLines_append (chain : UInt64 × List Char) (entries later : List AuditEntry) :
    chainLines chain (entries ++ later) =
      chainLines chain entries ++ chainLines (last chainNext chain entries) later := by
  induction entries generalizing chain with
  | nil => rfl
  | cons entry entries ih =>
    rw [List.cons_append, chainLines, ih, chainLines, last_cons]
    rfl

theorem unbroken_chainLines (chain : UInt64 × List Char) (entries : List AuditEntry) :
    ∀ line ∈ chainLines chain entries, Unbroken line := by
  induction entries generalizing chain with
  | nil => exact List.forall_mem_nil _
  | cons entry entries ih =>
    exact List.forall_mem_cons.2 ⟨(line_recordValue _ _ _).2, ih _⟩

/-- A line that continues the chain is passed. -/
theorem verifyLines_recordValue (hlaw : ReadsBack fromStr) (hread : entry.Readable)
    (checked : Nat) (rest : List (List Char)) :
    verifyLines fromStr path prev checked ((recordValue entry seq prev).print :: rest) =
      verifyLines fromStr path (recordHash seq prev (canonicalEntry entry)) (checked + 1) rest := by
  rw [verifyLines, (line_recordValue entry seq prev).1, if_neg (by decide)]
  simp only [hlaw _ (plain_recordValue hread), hash_recordValue, fromValue_recordValue,
    prevHash_recordValue, seqOf_recordValue]
  rw [if_neg recordHash_ne_nil, if_neg (by simp)]

/-- A line of another chain is found. -/
theorem verifyLines_recordValue_of_ne (hlaw : ReadsBack fromStr) (hread : entry.Readable)
    {before : List Char} (hne : prev ≠ before) (checked : Nat) (rest : List (List Char)) :
    verifyLines fromStr path before checked ((recordValue entry seq prev).print :: rest) =
      .ok { ok := false, checked := checked + 1, firstBadSeq := some seq, path := path } := by
  rw [verifyLines, (line_recordValue entry seq prev).1, if_neg (by decide)]
  simp only [hlaw _ (plain_recordValue hread), hash_recordValue, fromValue_recordValue,
    prevHash_recordValue, seqOf_recordValue]
  rw [if_neg recordHash_ne_nil, if_pos (.inl hne)]

theorem verifyLines_chainLines (chain : UInt64 × List Char) (hlaw : ReadsBack fromStr)
    (hread : ∀ entry ∈ entries, entry.Readable) (checked : Nat) (rest : List (List Char)) :
    verifyLines fromStr path chain.2 checked (chainLines chain entries ++ rest) =
      verifyLines fromStr path (last chainNext chain entries).2 (checked + entries.length) rest := by
  induction entries generalizing chain checked with
  | nil => rfl
  | cons entry entries ih =>
    obtain ⟨hentry, hrest⟩ := List.forall_mem_cons.1 hread
    have hnext := ih (chainNext chain entry) hrest (checked + 1)
    rw [chainLines, List.cons_append, verifyLines_recordValue hlaw hentry, last_cons,
      List.length_cons, Nat.add_comm entries.length, ← Nat.add_assoc]
    exact hnext

/-- The chain verifies. -/
theorem verifyChain_chainLines (hlaw : ReadsBack fromStr)
    (hread : ∀ entry ∈ entries, entry.Readable) :
    verifyChain fromStr path (some (unlines (chainLines (0, []) entries))) =
      .ok { ok := true, checked := entries.length, firstBadSeq := none, path := path } := by
  have hall := @verifyLines_chainLines fromStr entries path (0, []) hlaw hread 0 []
  rw [List.append_nil, Nat.zero_add] at hall
  rw [verifyChain, lines_unlines (unbroken_chainLines _ _)]
  exact hall

/-- The end of the chain is read back. -/
theorem resumeChain_chainLines (hlaw : ReadsBack fromStr)
    (hread : ∀ entry ∈ entries, entry.Readable) :
    resumeChain fromStr (some (unlines (chainLines (0, []) entries))) =
      last chainNext (0, []) entries := by
  rw [resumeChain, lines_unlines (unbroken_chainLines _ _)]
  induction entries using List.reverseRecOn with
  | nil => rfl
  | append_singleton entries entry _ =>
    have hentry := @plain_recordValue _ ((last chainNext (0, []) entries).1 + 1)
      (last chainNext (0, []) entries).2 (hread entry (List.mem_append_right _ List.mem_cons_self))
    rw [chainLines_append, List.reverse_append, last_snoc]
    rw [chainLines, chainLines, List.reverse_singleton, List.singleton_append, List.findSome?_cons,
      (line_recordValue _ _ _).1, if_neg (by decide), hlaw _ hentry]
    dsimp only
    rw [seqOf_recordValue, hash_recordValue]
    rfl

end EShield.Node
