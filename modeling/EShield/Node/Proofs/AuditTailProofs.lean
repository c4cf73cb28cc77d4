import EShield.Node.AuditTail
import EShield.Node.Proofs.AuditRunProofs

/-!
# The end of the audit log

Enough line feeds in the bytes read mean that the lines behind the first of them are whole and enough,
whatever the chunk boundaries cut. The logs to which this applies are those that runs of appends leave.
-/

namespace EShield.Node

open Json Lines Utf8 Exec

variable {fromStr : List Char → Option Json} {entryFromStr : List Char → Option AuditEntry}
  {file : List UInt8} {limit : UInt64} {entry : AuditEntry} {host : AuditHost}
  {b : FileAuditBackend} {dir : AuditDir} {w w' : AuditRun} {label : AuditLabel}

/-! ## What has been read -/

theorem drop_eq_take_append (file : List UInt8) {pos n : Nat} (hn : n ≤ pos) :
    file.drop (pos - n) = (file.drop (pos - n)).take n ++ file.drop pos := by
  have h := (List.take_append_drop n (file.drop (pos - n))).symm
  rw [List.drop_drop, Nat.sub_add_cancel hn] at h
  exact h

/-- The chunks make up the end of the file, which is the whole file or has enough line feeds. -/
theorem readChunks_spec (hlimit : limit.toNat < 2 ^ 64 - 1) {pos newlines : Nat}
    {chunks : List (List UInt8)} (hdata : chunks.reverse.flatten = file.drop pos)
    (hnewlines : newlines = (file.drop pos).count 0x0A) :
    ∃ start, (readChunks file limit pos newlines chunks).reverse.flatten = file.drop start ∧
      (start = 0 ∨ limit.toNat < (file.drop start).count 0x0A) := by
  have hnext : (limit + 1).toNat = limit.toNat + 1 := by
    rw [UInt64.toNat_add]
    exact Nat.mod_eq_of_lt (by change limit.toNat + 1 < 2 ^ 64; omega)
  induction pos using Nat.strong_induction_on generalizing newlines chunks with
  | _ pos ih =>
    rw [readChunks]
    by_cases hmore : 0 < pos ∧ newlines < (limit + 1).toNat
    · rw [if_pos hmore]
      have hread : min CHUNK pos ≤ pos := Nat.min_le_right _ _
      have hpos : 0 < min CHUNK pos := Nat.lt_min.2 ⟨by decide, hmore.1⟩
      have hdrop := drop_eq_take_append file hread
      refine ih _ (Nat.sub_lt hmore.1 hpos) ?_ ?_
      · rw [List.reverse_append, List.reverse_singleton, List.singleton_append, List.flatten_cons,
          hdata]
        exact hdrop.symm
      · rw [hdrop, List.count_append, ← hdrop, hnewlines, Nat.add_comm]
    · rw [if_neg hmore]
      refine ⟨pos, hdata, ?_⟩
      rw [hnext] at hmore
      omega

/-! ## The lines of a log -/

/-- What an append writes: the entry with its number and the hash before it. -/
structure AuditRecord where
  entry : AuditEntry
  seq : UInt64
  prev : List Char

def AuditRecord.line (r : AuditRecord) : List Char := (recordValue r.entry r.seq r.prev).print

variable {records : List AuditRecord} {r : AuditRecord}

/-- The text of a log of records. -/
def logText (records : List AuditRecord) : List Char := unlines (records.map AuditRecord.line)

@[simp] theorem logText_cons (r : AuditRecord) (records : List AuditRecord) :
    logText (r :: records) = r.line ++ '\n' :: logText records := by
  simp [logText]

theorem unbroken_line (r : AuditRecord) : Unbroken r.line := (line_recordValue _ _ _).2

theorem lines_logText (records : List AuditRecord) :
    lines (logText records) = records.map AuditRecord.line := by
  apply lines_unlines
  intro l hl
  obtain ⟨r, -, rfl⟩ := List.mem_map.1 hl
  exact unbroken_line r

theorem encode_newline (cs : List Char) : encode ('\n' :: cs) = 0x0A :: encode cs := by
  rw [encode_cons]
  rfl

theorem count_encode_line (r : AuditRecord) : (encode r.line).count 0x0A = 0 :=
  List.count_eq_zero.2 fun hmem => (unbroken_line r).1 ((newline_mem_encode _).1 hmem)

theorem count_encode_logText (records : List AuditRecord) :
    (encode (logText records)).count 0x0A = records.length := by
  induction records with
  | nil => rfl
  | cons r records ih =>
    rw [logText_cons, encode_append, encode_newline, List.count_append, List.count_cons_self, ih,
      count_encode_line, List.length_cons, Nat.zero_add]

/-- Where the bytes of a log begin inside it, they are nothing or an end of a line and the lines behind
it. -/
theorem drop_encode_logText (records : List AuditRecord) (start : Nat) :
    (encode (logText records)).drop start = [] ∨
      ∃ earlier r later cut, records = earlier ++ r :: later ∧
        (encode (logText records)).drop start =
          (encode r.line).drop cut ++ 0x0A :: encode (logText later) := by
  induction records generalizing start with
  | nil => exact .inl (List.drop_nil)
  | cons r records ih =>
    rw [logText_cons, encode_append, encode_newline, List.drop_append]
    by_cases hstart : start ≤ (encode r.line).length
    · right
      refine ⟨[], r, records, start, rfl, ?_⟩
      rw [Nat.sub_eq_zero_of_le hstart, List.drop_zero]
    · have hline : (encode r.line).drop start = [] := List.drop_eq_nil_of_le (by omega)
      obtain ⟨n, hn⟩ : ∃ n, start - (encode r.line).length = n + 1 :=
        Nat.exists_eq_succ_of_ne_zero (by omega)
      rw [hline, hn, List.nil_append, List.drop_succ_cons]
      rcases ih n with hnil | ⟨earlier, r', later, cut, rfl, hdrop⟩
      · exact .inl hnil
      · exact .inr ⟨r :: earlier, r', later, cut, rfl, hdrop⟩

/-! ## The entries of the lines -/

/-- From the text of an object `serde_json` reads the entry that it reads from the object. Of other
values nothing is said: it also takes the elements of an array for the fields in their order. -/
def ReadsEntries (entryFromStr : List Char → Option AuditEntry) : Prop :=
  ∀ members, (obj members).Plain 127 →
    entryFromStr (obj members).print = AuditEntry.fromValue (obj members)

theorem printMembers_eq (members : List (String × Json)) :
    ∃ cs, printMembers members = cs ++ ['}'] := by
  induction members with
  | nil => exact ⟨[], rfl⟩
  | cons member members ih =>
    obtain ⟨k, v⟩ := member
    obtain ⟨cs, hcs⟩ := ih
    rw [printMembers, hcs]
    exact ⟨',' :: (printStr k.toList ++ ':' :: (v.print ++ cs)), by simp⟩

theorem line_eq (r : AuditRecord) : ∃ cs, r.line = '{' :: (cs ++ ['}']) := by
  rw [AuditRecord.line, recordValue_eq, print]
  obtain ⟨cs, hcs⟩ := printMembers_eq
    [("actor", .str r.entry.actor), ("detail", r.entry.detail),
      ("hash", .str (recordHash r.seq r.prev (canonicalEntry r.entry))), ("prev_hash", .str r.prev),
      ("seq", .num (.posInt r.seq)), ("source_ip", r.entry.sourceIp.elim .null .str),
      ("timestamp", .str r.entry.timestamp)]
  rw [hcs]
  exact ⟨printStr "action".toList ++ ':' :: (r.entry.action.toValue.print ++ cs), by simp⟩

/-- A line has nothing to be trimmed. -/
theorem trim_line (r : AuditRecord) : trim r.line = r.line := by
  obtain ⟨cs, hcs⟩ := line_eq r
  rw [hcs]
  exact trim_eq_self (by decide) (by decide)

theorem isEmpty_line (r : AuditRecord) : r.line.isEmpty = false := by
  obtain ⟨cs, hcs⟩ := line_eq r
  rw [hcs]
  rfl

/-- A line is read as its entry. -/
theorem entryFromStr_line (hlaw : ReadsEntries entryFromStr) (hread : r.entry.Readable) :
    entryFromStr r.line = some r.entry := by
  have hplain := @plain_recordValue r.entry r.seq r.prev hread
  rw [recordValue_eq] at hplain
  rw [AuditRecord.line, recordValue_eq, hlaw _ hplain, ← recordValue_eq, fromValue_recordValue]

/-- The entries of lines of records are collected until there are enough. -/
theorem collectEntries_lines (hlaw : ReadsEntries entryFromStr)
    (hread : ∀ r ∈ records, r.entry.Readable) {entries : List AuditEntry}
    (hfew : entries.length < limit.toNat) (more : List (List Char)) :
    collectEntries entryFromStr limit (records.map AuditRecord.line ++ more) entries =
      if limit.toNat ≤ entries.length + records.length then
        ((records.map AuditRecord.entry).take (limit.toNat - entries.length)).reverse ++ entries
      else
        collectEntries entryFromStr limit more
          ((records.map AuditRecord.entry).reverse ++ entries) := by
  induction records generalizing entries with
  | nil => rw [if_neg (by rw [List.length_nil]; omega)]; rfl
  | cons r records ih =>
    obtain ⟨hentry, hrest⟩ := List.forall_mem_cons.1 hread
    rw [List.map_cons, List.cons_append, collectEntries]
    simp only [trim_line, isEmpty_line, entryFromStr_line hlaw hentry, List.length_cons,
      List.map_cons, List.reverse_cons, List.append_assoc, List.singleton_append]
    rw [if_neg (by decide)]
    obtain ⟨k, hk⟩ : ∃ k, limit.toNat = entries.length + 1 + k :=
      Nat.exists_eq_add_of_le hfew
    have htake : limit.toNat - entries.length = k + 1 := by omega
    rw [htake, List.take_succ_cons, List.reverse_cons, List.append_assoc, List.singleton_append]
    by_cases hlast : limit.toNat ≤ entries.length + 1
    · obtain rfl : k = 0 := by omega
      rw [if_pos hlast, if_pos (by omega), List.take_zero]
      rfl
    · have hnext := ih hrest (List.length_cons ▸ not_le.1 hlast : (r.entry :: entries).length < _)
      have hk' : limit.toNat - (r.entry :: entries).length = k := by
        rw [List.length_cons]
        omega
      rw [if_neg hlast, hnext, hk', List.length_cons, Nat.add_right_comm, Nat.add_assoc]

/-- The last lines are collected, in the order of the file. -/
theorem collectEntries_reverse (hlaw : ReadsEntries entryFromStr)
    (hread : ∀ r ∈ records, r.entry.Readable) (hlimit : limit ≠ 0) (before : List (List Char))
    (henough : limit.toNat ≤ records.length ∨ before = []) :
    collectEntries entryFromStr limit (before ++ records.map AuditRecord.line).reverse [] =
      (records.map AuditRecord.entry).rtake limit.toNat := by
  have hread' : ∀ r ∈ records.reverse, r.entry.Readable := fun r hr => hread r (List.mem_reverse.1 hr)
  have hpos : ([] : List AuditEntry).length < limit.toNat := by
    rw [List.length_nil, Nat.pos_iff_ne_zero]
    exact fun h => hlimit (UInt64.toNat_inj.1 h)
  have hall := collectEntries_lines hlaw hread' hpos before.reverse
  rw [List.map_reverse, List.map_reverse, List.reverse_reverse, List.length_nil, List.length_reverse,
    Nat.zero_add, Nat.sub_zero, List.append_nil, List.append_nil] at hall
  rw [List.reverse_append, hall, List.rtake_eq_reverse_take_reverse]
  by_cases hlong : limit.toNat ≤ records.length
  · rw [if_pos hlong]
  · obtain rfl := henough.resolve_left hlong
    rw [if_neg hlong, List.take_of_length_le, List.reverse_reverse]
    · rfl
    · rw [List.length_reverse, List.length_map]
      omega

/-! ## The end of a log -/

/-- The entries of the whole file. -/
def readAll (entryFromStr : List Char → Option AuditEntry) (file : List UInt8) : List AuditEntry :=
  (lines (decodeLossy file)).filterMap fun line =>
    if (trim line).isEmpty then none else entryFromStr (trim line)

theorem readAll_logText (hlaw : ReadsEntries entryFromStr)
    (hread : ∀ r ∈ records, r.entry.Readable) :
    readAll entryFromStr (encode (logText records)) = records.map AuditRecord.entry := by
  rw [readAll, decodeLossy_encode, lines_logText, List.filterMap_map, ← List.filterMap_eq_map]
  apply List.filterMap_congr
  intro r hr
  simp only [Function.comp_apply, trim_line, isEmpty_line, entryFromStr_line hlaw (hread r hr)]
  rfl

/-- Whatever the chunks cut, the last entries of a log are read. -/
theorem listTail_logText (hlaw : ReadsEntries entryFromStr)
    (hread : ∀ r ∈ records, r.entry.Readable) (hlimit : limit.toNat < 2 ^ 64 - 1) :
    listTail entryFromStr (some (encode (logText records))) limit =
      (records.map AuditRecord.entry).rtake limit.toNat := by
  rw [listTail]
  by_cases hzero : limit = 0
  · rw [if_pos hzero, hzero]
    exact (List.rtake_zero _).symm
  rw [if_neg hzero]
  obtain ⟨start, hdata, henough⟩ := @readChunks_spec (encode (logText records)) limit hlimit
    (encode (logText records)).length 0 [] (by rw [List.drop_length]; rfl)
    (by rw [List.drop_length]; rfl)
  dsimp only
  rw [hdata]
  rcases henough with rfl | henough
  · rw [List.drop_zero, decodeLossy_encode, lines_logText]
    exact collectEntries_reverse hlaw hread hzero [] (.inr rfl)
  rcases drop_encode_logText records start with hnil | ⟨earlier, r, later, cut, rfl, hdrop⟩
  · rw [hnil] at henough
    exact absurd henough (Nat.not_lt_zero _)
  have hcount := List.Sublist.count_le (0x0A : UInt8) (List.drop_sublist cut (encode r.line))
  rw [count_encode_line] at hcount
  rw [hdrop, List.count_append, List.count_cons, count_encode_logText] at henough
  have hlater : limit.toNat ≤ later.length := by
    simp only [beq_self_eq_true, if_pos] at henough
    omega
  obtain ⟨cs, hcs⟩ := decodeLossy_newline ((encode r.line).drop cut) (encode (logText later))
  obtain ⟨before, hbefore⟩ := linesFrom_newline [] cs (decodeLossy (encode (logText later)))
  rw [hdrop, hcs, lines, hbefore, decodeLossy_encode, lines_logText,
    collectEntries_reverse hlaw
      (fun r hr => hread r (List.mem_append_right _ (List.mem_cons_of_mem _ hr))) hzero before
      (.inl hlater)]
  rw [List.map_append, List.map_cons, List.rtake_eq_reverse_take_reverse,
    List.rtake_eq_reverse_take_reverse, List.reverse_append, List.reverse_cons, List.append_assoc,
    List.take_append_of_le_length]
  rw [List.length_reverse, List.length_map]
  exact hlater

/-! ## The logs that appends write -/

/-- An append does not leave a line without its line feed. -/
def AuditLabel.WholeLines : AuditLabel → Prop
  | .append _ host => host.writeLine = true → host.writeNewline = true
  | .restart _ => True

/-- The entries that are appended. -/
def AuditLabel.entries : AuditLabel → List AuditEntry
  | .append entry _ => [entry]
  | .restart _ => []

theorem text_writeRecord (hwhole : host.writeLine = true → host.writeNewline = true)
    (b : FileAuditBackend) (dir : AuditDir) (rotated : Bool) (line : List Char) :
    (writeRecord host b dir rotated line).2.2.text = dir.text ∨
      (writeRecord host b dir rotated line).2.2.text = dir.text ++ (line ++ ['\n']) := by
  have hlines : ∀ (f : AuditFile) (b : FileAuditBackend) (dir : AuditDir), dir.log = some f →
      (writeLines host b dir line).2.2.text = dir.text ∨
        (writeLines host b dir line).2.2.text = dir.text ++ (line ++ ['\n']) := by
    intro f b dir hlog
    have hwritten := (text_writeLog hlog (line ++ ['\n'])).2
    unfold writeLines
    split_ifs with hline hnewline hflush
    · exact .inl rfl
    · rw [Bool.not_eq_true, Bool.not_eq_false'] at hline
      rw [hwhole hline] at hnewline
      cases hnewline
    · exact .inr hwritten
    · exact .inr hwritten
  unfold writeRecord
  by_cases hneed : (rotated || needsOpen b host dir) = true
  · rw [if_pos hneed]
    by_cases hopen : (!host.openLog) = true
    · rw [if_pos hopen]
      exact .inl rfl
    · rw [if_neg hopen]
      have hopened : (dir.log.getD { ino := dir.nextIno, text := [] }).text = dir.text := by
        rw [AuditDir.text]
        cases dir.log with
        | none => rfl
        | some f => rfl
      rw [← hopened]
      exact hlines (dir.log.getD { ino := dir.nextIno, text := [] }) _
        { dir with
          log := some (dir.log.getD { ino := dir.nextIno, text := [] })
          nextIno := if dir.log.isNone then dir.nextIno + 1 else dir.nextIno } rfl
  · rw [if_neg hneed]
    rw [Bool.or_eq_true, not_or] at hneed
    cases hlog : dir.log with
    | some f => exact hlines f b dir hlog
    | none =>
      refine absurd ?_ hneed.2
      unfold needsOpen
      rw [hlog]
      split
      · rename_i heq
        cases heq
      · rfl

theorem log_rotateBackups (host : AuditHost) (is : List Nat) (dir : AuditDir) :
    (rotateBackups host is dir).2.log = dir.log := by
  induction is generalizing dir with
  | nil => rfl
  | cons i is ih =>
    rw [rotateBackups]
    cases dir.backups i with
    | none => exact ih dir
    | some f =>
      dsimp only
      split_ifs
      · exact ih _
      · rfl

/-- The log is kept, or moved away. -/
theorem log_maybeRotate (b : FileAuditBackend) (host : AuditHost) (dir : AuditDir) :
    (maybeRotate b host dir).2.log = dir.log ∨ (maybeRotate b host dir).2.log = none := by
  have hbackups := log_rotateBackups host (List.range' 1 (MAX_BACKUPS - 1)).reverse dir
  unfold maybeRotate
  by_cases hzero : b.maxSize = 0
  · rw [if_pos hzero]
    exact .inl rfl
  rw [if_neg hzero]
  by_cases hmeta : (!host.metadata) = true
  · rw [if_pos hmeta]
    exact .inl rfl
  rw [if_neg hmeta]
  cases hlog : dir.log with
  | none => exact .inl hlog
  | some f =>
    dsimp only
    by_cases hfits : utf8Len f.text ≤ b.maxSize
    · rw [if_pos hfits]
      exact .inl hlog
    · rw [if_neg hfits]
      revert hbackups
      generalize rotateBackups _ _ _ = r
      obtain ⟨res, dir'⟩ := r
      intro hbackups
      cases res with
      | error e => exact .inl (hbackups.trans hlog)
      | ok u =>
        dsimp only
        split_ifs with hrename
        · exact .inr rfl
        · exact .inl (hbackups.trans hlog)

/-- Behind an append the log is the old one or empty, with the line of the entry or without it. -/
theorem text_append (hwhole : host.writeLine = true → host.writeNewline = true)
    (b : FileAuditBackend) (dir : AuditDir) (entry : AuditEntry) :
    ∃ kept, (kept = dir.text ∨ kept = []) ∧
      ((append host b dir entry).2.2.text = kept ∨
        (append host b dir entry).2.2.text =
          kept ++ ((recordValue entry (b.chainSeq + 1) b.chainPrev).print ++ ['\n'])) := by
  have hrotate := log_maybeRotate
    { b with
      chainSeq := b.chainSeq + 1
      chainPrev := recordHash (b.chainSeq + 1) b.chainPrev (canonicalEntry entry) } host dir
  unfold append
  dsimp only
  revert hrotate
  generalize maybeRotate _ _ _ = r
  obtain ⟨res, dir'⟩ := r
  intro hrotate
  have hkept : dir'.text = dir.text ∨ dir'.text = [] := by
    rcases hrotate with h | h
    · left
      rw [AuditDir.text, AuditDir.text, show dir'.log = _ from h]
    · right
      rw [AuditDir.text, show dir'.log = _ from h]
      rfl
  refine ⟨dir'.text, hkept, ?_⟩
  cases res with
  | error e => exact .inl rfl
  | ok rotated => exact text_writeRecord hwhole _ dir' rotated _

/-- The log consists of these records. -/
def Logged (w : AuditRun) (records : List AuditRecord) : Prop :=
  w.dir.text = logText records ∧ ∀ r ∈ records, r.entry.Readable

/-- What a step leaves of the records, and the entry appended. -/
theorem Logged.step (hlogged : Logged w records) (hread : label.Readable) (hwhole : label.WholeLines)
    (hstep : auditStep fromStr w label = some w') :
    ∃ records', Logged w' records' ∧
      (records'.map AuditRecord.entry).Sublist
        (records.map AuditRecord.entry ++ label.entries) := by
  obtain ⟨htext, hall⟩ := hlogged
  cases label with
  | restart maxSizeMb =>
    cases hstep
    refine ⟨records, ⟨htext, hall⟩, ?_⟩
    rw [AuditLabel.entries, List.append_nil]
  | append entry host =>
    cases hstep
    obtain ⟨kept, hkept, htext'⟩ := text_append hwhole w.backend w.dir entry
    obtain ⟨before, hbefore, hread', hsub⟩ : ∃ before, kept = logText before ∧
        (∀ r ∈ before, r.entry.Readable) ∧
          (before.map AuditRecord.entry).Sublist (records.map AuditRecord.entry) := by
      rcases hkept with rfl | rfl
      · exact ⟨records, htext, hall, List.Sublist.refl _⟩
      · exact ⟨[], rfl, List.forall_mem_nil _, List.nil_sublist _⟩
    rcases htext' with htext' | htext'
    · exact ⟨before, ⟨htext'.trans hbefore, hread'⟩, hsub.trans (List.sublist_append_left _ _)⟩
    · refine ⟨before ++ [⟨entry, w.backend.chainSeq + 1, w.backend.chainPrev⟩], ⟨?_, ?_⟩, ?_⟩
      · rw [show AuditDir.text _ = _ from htext', hbefore, logText, logText, List.map_append,
          unlines_append, List.map_singleton, unlines_cons]
        rfl
      · intro r hr
        rcases List.mem_append.1 hr with hr | hr
        · exact hread' r hr
        · cases List.mem_singleton.1 hr
          exact hread
      · rw [List.map_append]
        exact hsub.append (List.Sublist.refl _)

theorem Logged.run {labels : List AuditLabel} (hlogged : Logged w records)
    (hread : ∀ label ∈ labels, label.Readable) (hwhole : ∀ label ∈ labels, label.WholeLines)
    (hrun : exec (auditStep fromStr) w labels = some w') :
    ∃ records', Logged w' records' ∧
      (records'.map AuditRecord.entry).Sublist
        (records.map AuditRecord.entry ++ labels.flatMap AuditLabel.entries) := by
  induction labels generalizing w records with
  | nil =>
    cases hrun
    refine ⟨records, hlogged, ?_⟩
    rw [List.flatMap_nil, List.append_nil]
  | cons label labels ih =>
    obtain ⟨hread, hread'⟩ := List.forall_mem_cons.1 hread
    obtain ⟨hwhole, hwhole'⟩ := List.forall_mem_cons.1 hwhole
    obtain ⟨w₁, hstep, hrest⟩ := Option.bind_eq_some_iff.1 hrun
    obtain ⟨records₁, hlogged₁, hsub₁⟩ := hlogged.step hread hwhole hstep
    obtain ⟨records', hlogged', hsub'⟩ := ih hlogged₁ hread' hwhole' hrest
    refine ⟨records', hlogged', hsub'.trans ?_⟩
    rw [List.flatMap_cons, ← List.append_assoc]
    exact hsub₁.append (List.Sublist.refl _)

theorem logged_begun (fromStr : List Char → Option Json) (maxSizeMb : UInt64)
    (hnew : dir.log = none) : Logged (begun fromStr maxSizeMb dir) [] := by
  refine ⟨?_, List.forall_mem_nil _⟩
  rw [begun, AuditDir.text, hnew]
  rfl

/-- Of a log of records the last entries are read, at most so many as the limit says and in the order of
the file, as they are when all of it is read; and the log is one of records of entries that have been
appended in every run that begins without a log and leaves no line without its line feed. -/
theorem audit_tail_is_exact (hlaw : ReadsEntries entryFromStr) :
    (∀ records : List AuditRecord, (∀ r ∈ records, r.entry.Readable) → ∀ limit : UInt64,
      limit.toNat < 2 ^ 64 - 1 →
        listTail entryFromStr (some (encode (logText records))) limit =
            (records.map AuditRecord.entry).rtake limit.toNat ∧
          readAll entryFromStr (encode (logText records)) = records.map AuditRecord.entry) ∧
      ∀ (fromStr : List Char → Option Json) (maxSizeMb : UInt64) (dir : AuditDir)
        (labels : List AuditLabel) (w : AuditRun), dir.log = none →
          (∀ label ∈ labels, label.Readable) → (∀ label ∈ labels, label.WholeLines) →
            exec (auditStep fromStr) (begun fromStr maxSizeMb dir) labels = some w →
              ∃ records, Logged w records ∧
                (records.map AuditRecord.entry).Sublist (labels.flatMap AuditLabel.entries) := by
  refine ⟨fun records hread limit hlimit => ?_, ?_⟩
  · exact ⟨listTail_logText hlaw hread hlimit, readAll_logText hlaw hread⟩
  · intro fromStr maxSizeMb dir labels w hnew hread hwhole hrun
    exact (logged_begun fromStr maxSizeMb hnew).run hread hwhole hrun

/-- Reads an entry where a value is read. -/
noncomputable def readEntry (cs : List Char) : Option AuditEntry :=
  (readPrinted cs).bind AuditEntry.fromValue

theorem readsEntries_readEntry : ReadsEntries readEntry := by
  intro members hplain
  rw [readEntry, readsBack_readPrinted _ hplain]
  rfl

/-- Two records, of which the last is asked for. -/
theorem audit_tail_is_exact_pair :
    listTail readEntry (some (encode (logText [⟨blockedByApi, 1, []⟩, ⟨blockedByApi, 2, []⟩]))) 1 =
      [blockedByApi] :=
  ((audit_tail_is_exact readsEntries_readEntry).1 [⟨blockedByApi, 1, []⟩, ⟨blockedByApi, 2, []⟩]
    (List.forall_mem_cons.2
      ⟨readable_blockedByApi, List.forall_mem_singleton.2 readable_blockedByApi⟩) 1 (by decide)).1

end EShield.Node
