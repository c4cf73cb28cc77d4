import EShield.Node.Proofs.AuditChainProofs

/-!
# Audit logs over time

A log that was begun new stays a chain as long as every append writes its line to it. The line with
which a rotated log begins is one of the old chain, and an append that fails leaves a chain in memory
that the file does not have.
-/

namespace EShield.Node

open Json Lines HashChain Exec

variable {fromStr : List Char → Option Json} {entry : AuditEntry} {entries : List AuditEntry}
  {host : AuditHost} {b : FileAuditBackend} {dir dir' : AuditDir} {line : List Char}
  {w w' : AuditRun}

/-! ## One append -/

/-- The text of the log, nothing if there is none. -/
def AuditDir.text (dir : AuditDir) : List Char := (dir.log.map AuditFile.text).getD []

def FileAuditBackend.chain (b : FileAuditBackend) : UInt64 × List Char := (b.chainSeq, b.chainPrev)

theorem maybeRotate_of_not_oversized (hfits : ¬ Oversized b dir) :
    maybeRotate b host dir =
      if b.maxSize = 0 ∨ host.metadata = true then (.ok false, dir) else (.error "metadata", dir) := by
  unfold maybeRotate
  by_cases hzero : b.maxSize = 0
  · rw [if_pos hzero, if_pos (.inl hzero)]
  · rw [if_neg hzero]
    cases host.metadata with
    | false =>
      rw [if_pos (by decide), if_neg (by rintro (h | h); exacts [hzero h, nomatch h])]
    | true =>
      rw [if_neg (by decide), if_pos (.inr rfl)]
      cases hlog : dir.log with
      | none => rfl
      | some f => exact if_pos (not_lt.1 fun hgt => hfits ⟨hzero, f, hlog, hgt⟩)

/-- A log that is over its size is renamed, or that fails. -/
theorem maybeRotate_of_oversized (hover : Oversized b dir) :
    (∃ e dir', maybeRotate b host dir = (.error e, dir')) ∨
      ∃ dir', maybeRotate b host dir = (.ok true, dir') ∧ dir'.log = none := by
  obtain ⟨hzero, f, hlog, hgt⟩ := hover
  unfold maybeRotate
  rw [if_neg hzero]
  split
  · exact .inl ⟨_, _, rfl⟩
  · rw [hlog]
    dsimp only
    rw [if_neg (not_le.2 hgt)]
    split
    · exact .inl ⟨_, _, rfl⟩
    · split
      · exact .inr ⟨_, rfl, rfl⟩
      · exact .inl ⟨_, _, rfl⟩

theorem text_writeLog {f : AuditFile} (hlog : dir.log = some f) (text : List Char) :
    (writeLog dir text).log.isSome ∧ (writeLog dir text).text = dir.text ++ text := by
  simp only [writeLog, AuditDir.text, hlog]
  exact ⟨rfl, rfl⟩

theorem writeLines_spec {f : AuditFile} (hlog : dir.log = some f) (host : AuditHost)
    (b : FileAuditBackend) (line : List Char) :
    let r := writeLines host b dir line
    r.2.1 = b ∧
      (r.1 = .ok () ↔ host.writeLine = true ∧ host.writeNewline = true ∧ host.flush = true) ∧
      (r.1 = .ok () → r.2.2.log.isSome ∧ r.2.2.text = dir.text ++ (line ++ ['\n'])) := by
  have hwritten := text_writeLog hlog (line ++ ['\n'])
  unfold writeLines
  cases host.writeLine with
  | false => exact ⟨rfl, ⟨nofun, nofun⟩, nofun⟩
  | true =>
    cases host.writeNewline with
    | false => exact ⟨rfl, ⟨nofun, nofun⟩, nofun⟩
    | true =>
      cases host.flush with
      | false => exact ⟨rfl, ⟨nofun, nofun⟩, nofun⟩
      | true => exact ⟨rfl, ⟨fun _ => ⟨rfl, rfl, rfl⟩, fun _ => rfl⟩, fun _ => hwritten⟩

/-- Writing the line does not touch the chain in memory, and has it in the log unless it fails. -/
theorem writeRecord_spec (host : AuditHost) (b : FileAuditBackend) (dir : AuditDir) (rotated : Bool)
    (line : List Char) :
    let r := writeRecord host b dir rotated line
    r.2.1 = { b with file := r.2.1.file } ∧
      (r.1 = .ok () ↔
        ((rotated || needsOpen b host dir) = true → host.openLog = true) ∧ host.writeLine = true ∧
          host.writeNewline = true ∧ host.flush = true) ∧
      (r.1 = .ok () → r.2.2.log.isSome ∧ r.2.2.text = dir.text ++ (line ++ ['\n'])) := by
  unfold writeRecord
  cases hneed : rotated || needsOpen b host dir with
  | true =>
    rw [if_pos rfl]
    cases host.openLog with
    | false => exact ⟨rfl, ⟨nofun, fun h => nomatch h.1 rfl⟩, nofun⟩
    | true =>
      rw [if_neg (by decide)]
      generalize hf : dir.log.getD { ino := dir.nextIno, text := [] } = f
      obtain ⟨hb, hok, htext⟩ := @writeLines_spec
        { dir with
          log := some f
          nextIno := if dir.log.isNone then dir.nextIno + 1 else dir.nextIno }
        f rfl host { b with file := some f.ino } line
      have hopened : f.text = dir.text := by
        rw [← hf, AuditDir.text]
        cases dir.log with
        | none => rfl
        | some f => rfl
      dsimp only
      refine ⟨by rw [hb], hok.trans ⟨fun h => ⟨fun _ => rfl, h⟩, And.right⟩, fun hr => ?_⟩
      rw [← hopened]
      exact htext hr
  | false =>
    rw [if_neg (by decide)]
    obtain ⟨f, hlog⟩ : ∃ f, dir.log = some f := by
      rw [Bool.or_eq_false_iff] at hneed
      cases hlog : dir.log with
      | some f => exact ⟨f, rfl⟩
      | none =>
        have hopen := hneed.2
        unfold needsOpen at hopen
        rw [hlog] at hopen
        split at hopen
        · rename_i heq
          cases heq
        · cases hopen
    obtain ⟨hb, hok, htext⟩ := writeLines_spec hlog host b line
    exact ⟨by rw [hb], hok.trans ⟨fun h => ⟨nofun, h⟩, And.right⟩, htext⟩

/-! ## What an append does to the chain -/

/-- Nothing fails of what an append has to do that does not rotate. -/
def AppendServed (host : AuditHost) (b : FileAuditBackend) (dir : AuditDir) : Prop :=
  (b.maxSize = 0 ∨ host.metadata = true) ∧ (needsOpen b host dir = true → host.openLog = true) ∧
    host.writeLine = true ∧ host.writeNewline = true ∧ host.flush = true

/-- An append that does not rotate succeeds when nothing fails, and then continues the chain in memory
and in the log; it moves on the one in memory in any case. -/
theorem append_of_not_oversized (hfits : ¬ Oversized b dir) (host : AuditHost)
    (entry : AuditEntry) :
    let r := append host b dir entry
    r.2.1.chain = chainNext b.chain entry ∧ r.2.1.maxSize = b.maxSize ∧
      (r.1 = .ok () ↔ AppendServed host b dir) ∧
      (r.1 = .ok () → r.2.2.log.isSome ∧
        r.2.2.text =
          dir.text ++ ((recordValue entry (b.chainSeq + 1) b.chainPrev).print ++ ['\n'])) := by
  have hrotate := @maybeRotate_of_not_oversized host
    { b with
      chainSeq := b.chainSeq + 1
      chainPrev := recordHash (b.chainSeq + 1) b.chainPrev (canonicalEntry entry) } dir hfits
  unfold append AppendServed
  dsimp only at hrotate ⊢
  rw [hrotate]
  by_cases hmeta : b.maxSize = 0 ∨ host.metadata = true
  · rw [if_pos hmeta]
    obtain ⟨hb, hok, htext⟩ := writeRecord_spec host
      { b with
        chainSeq := b.chainSeq + 1
        chainPrev := recordHash (b.chainSeq + 1) b.chainPrev (canonicalEntry entry) } dir false
      (recordValue entry (b.chainSeq + 1) b.chainPrev).print
    have hchain := congrArg FileAuditBackend.chain hb
    have hsize := congrArg FileAuditBackend.maxSize hb
    exact ⟨hchain, hsize, hok.trans ⟨fun h => ⟨hmeta, h⟩, And.right⟩, htext⟩
  · rw [if_neg hmeta]
    exact ⟨rfl, rfl, ⟨nofun, fun h => absurd h.1 hmeta⟩, nofun⟩

/-- An append that rotates leaves the line of the old chain as the only one of the new log, and begins a
new chain in memory; one that fails moves the chain on or begins a new one. -/
theorem append_of_oversized (hover : Oversized b dir) (host : AuditHost) (entry : AuditEntry) :
    let r := append host b dir entry
    (r.2.1.chain = chainNext b.chain entry ∨ r.2.1.chain = (0, [])) ∧
      (r.1 = .ok () → r.2.2.log.isSome ∧
        r.2.2.text = (recordValue entry (b.chainSeq + 1) b.chainPrev).print ++ ['\n']) := by
  have hrotate := @maybeRotate_of_oversized host
    { b with
      chainSeq := b.chainSeq + 1
      chainPrev := recordHash (b.chainSeq + 1) b.chainPrev (canonicalEntry entry) } dir hover
  unfold append
  dsimp only at hrotate ⊢
  rcases hrotate with ⟨e, dir', hrotate⟩ | ⟨dir', hrotate, hlog⟩
  · rw [hrotate]
    exact ⟨.inl rfl, nofun⟩
  · rw [hrotate]
    obtain ⟨hb, -, htext⟩ := writeRecord_spec host { b with chainSeq := 0, chainPrev := [] } dir'
      true (recordValue entry (b.chainSeq + 1) b.chainPrev).print
    have hchain := congrArg FileAuditBackend.chain hb
    have hempty : dir'.text = [] := by rw [AuditDir.text, hlog]; rfl
    rw [hempty] at htext
    exact ⟨.inr hchain, htext⟩

/-! ## The states whose log is a chain -/

/-- `verify_chain` passes the log, if there is one. -/
def Verifies (fromStr : List Char → Option Json) (w : AuditRun) : Prop :=
  ∀ f, w.dir.log = some f →
    ∃ n, ∀ path, verifyChain fromStr path (some f.text) =
      .ok { ok := true, checked := n, firstBadSeq := none, path := path }

/-- `verify_chain` passes the log, and the next entry continues it. -/
def ChainStands (fromStr : List Char → Option Json) (w : AuditRun) : Prop :=
  Verifies fromStr w ∧ resumeChain fromStr (w.dir.log.map AuditFile.text) = w.backend.chain

/-- The log is the chain of some entries, of which the end is in memory. -/
def InChain (w : AuditRun) : Prop :=
  ∃ entries : List AuditEntry, (∀ entry ∈ entries, entry.Readable) ∧
    w.backend.chain = last chainNext (0, []) entries ∧
    w.dir.text = unlines (chainLines (0, []) entries)

theorem AuditDir.text_of_log {f : AuditFile} (hlog : dir.log = some f) : dir.text = f.text := by
  rw [AuditDir.text, hlog]
  rfl

theorem entries_eq_nil (h : unlines (chainLines (0, []) entries) = []) : entries = [] := by
  cases entries with
  | nil => rfl
  | cons entry entries =>
    rw [chainLines, unlines_cons] at h
    exact absurd h (by simp)

theorem resumeChain_log (hlaw : ReadsBack fromStr) (hread : ∀ entry ∈ entries, entry.Readable)
    (htext : dir.text = unlines (chainLines (0, []) entries)) :
    resumeChain fromStr (dir.log.map AuditFile.text) = last chainNext (0, []) entries := by
  cases hlog : dir.log with
  | none =>
    have hempty : dir.text = [] := by rw [AuditDir.text, hlog]; rfl
    rw [entries_eq_nil (htext.symm.trans hempty)]
    rfl
  | some f =>
    rw [Option.map_some, ← AuditDir.text_of_log hlog, htext]
    exact resumeChain_chainLines hlaw hread

theorem InChain.chainStands (hin : InChain w) (hlaw : ReadsBack fromStr) :
    ChainStands fromStr w := by
  obtain ⟨entries, hread, hchain, htext⟩ := hin
  refine ⟨fun f hlog => ⟨entries.length, fun path => ?_⟩, ?_⟩
  · rw [← AuditDir.text_of_log hlog, htext]
    exact verifyChain_chainLines hlaw hread
  · rw [resumeChain_log hlaw hread htext, hchain]

theorem inChain_new (hnew : dir.log = none) (maxSizeMb : UInt64) :
    InChain { backend := .new fromStr maxSizeMb dir, dir := dir } := by
  refine ⟨[], List.forall_mem_nil _, ?_, ?_⟩
  · rw [FileAuditBackend.new, hnew]
    rfl
  · rw [AuditDir.text, hnew]
    rfl

theorem InChain.restart (hin : InChain w) (hlaw : ReadsBack fromStr) (maxSizeMb : UInt64) :
    InChain { w with backend := .new fromStr maxSizeMb w.dir } := by
  obtain ⟨entries, hread, -, htext⟩ := hin
  exact ⟨entries, hread, resumeChain_log hlaw hread htext, htext⟩

/-- A successful append that does not rotate continues the chain. -/
theorem InChain.append (hin : InChain w) (hentry : entry.Readable)
    (hfits : ¬ Oversized w.backend w.dir)
    (hok : (Node.append host w.backend w.dir entry).1 = .ok ()) :
    InChain
      { backend := (Node.append host w.backend w.dir entry).2.1
        dir := (Node.append host w.backend w.dir entry).2.2 } := by
  obtain ⟨entries, hread, hchain, htext⟩ := hin
  obtain ⟨hnext, -, -, hwritten⟩ := append_of_not_oversized hfits host entry
  have hseq : w.backend.chainSeq = (last chainNext (0, []) entries).1 := congrArg Prod.fst hchain
  have hprev : w.backend.chainPrev = (last chainNext (0, []) entries).2 := congrArg Prod.snd hchain
  refine ⟨entries ++ [entry], ?_, ?_, ?_⟩
  · exact List.forall_mem_append.2 ⟨hread, List.forall_mem_singleton.2 hentry⟩
  · rw [last_snoc, ← hchain]
    exact hnext
  · rw [(hwritten hok).2, htext, chainLines_append, unlines_append, hseq, hprev, chainLines,
      chainLines, unlines_cons, unlines_nil]

theorem last_chainNext_ne_nil (hne : entries ≠ []) : (last chainNext (0, []) entries).2 ≠ [] := by
  rcases List.eq_nil_or_concat entries with hnil | ⟨before, entry, rfl⟩
  · exact absurd hnil hne
  · rw [List.concat_eq_append, last_snoc]
    exact recordHash_ne_nil

/-- A log that is over its size has an entry, so that the chain in memory has a hash. -/
theorem InChain.chainPrev_ne_nil (hin : InChain w) (hover : Oversized w.backend w.dir) :
    w.backend.chainPrev ≠ [] := by
  obtain ⟨entries, -, hchain, htext⟩ := hin
  obtain ⟨-, f, hlog, hlarge⟩ := hover
  have hne : entries ≠ [] := by
    rintro rfl
    rw [← AuditDir.text_of_log hlog, htext] at hlarge
    exact absurd hlarge (Nat.not_lt_zero _)
  rw [show w.backend.chainPrev = _ from congrArg Prod.snd hchain]
  exact last_chainNext_ne_nil hne

/-- A log that begins in the middle of a chain does not verify. -/
theorem not_verifies_of_text {seq : UInt64} {prev : List Char} (hlaw : ReadsBack fromStr)
    (hentry : entry.Readable) (hprev : prev ≠ []) (hsome : w.dir.log.isSome = true)
    (htext : w.dir.text = (recordValue entry seq prev).print ++ ['\n']) : ¬ Verifies fromStr w := by
  intro hverifies
  obtain ⟨f, hlog⟩ := Option.isSome_iff_exists.1 hsome
  obtain ⟨n, hverifies⟩ := hverifies f hlog
  have hreport := hverifies ""
  have hbad := @verifyLines_recordValue_of_ne fromStr entry seq prev "" hlaw hentry [] hprev 0 []
  have hline := lines_unlines (List.forall_mem_singleton.2 (line_recordValue entry seq prev).2)
  rw [unlines_cons, unlines_nil] at hline
  rw [← AuditDir.text_of_log hlog, htext, verifyChain, hline, hbad] at hreport
  cases hreport

/-- An append that rotates puts a line of the old chain at the begin of the new log. -/
theorem InChain.not_verifies (hin : InChain w) (hlaw : ReadsBack fromStr) (hentry : entry.Readable)
    (hover : Oversized w.backend w.dir)
    (hok : (Node.append host w.backend w.dir entry).1 = .ok ()) :
    ¬ Verifies fromStr
      { backend := (Node.append host w.backend w.dir entry).2.1
        dir := (Node.append host w.backend w.dir entry).2.2 } := by
  obtain ⟨hsome, htext⟩ := (append_of_oversized hover host entry).2 hok
  exact not_verifies_of_text hlaw hentry (hin.chainPrev_ne_nil hover) hsome htext

/-! ## Logs that are rotated -/

/-- The detail of an entry that is appended is read back as it was printed. -/
def AuditLabel.Readable : AuditLabel → Prop
  | .append entry _ => entry.Readable
  | .restart _ => True

/-- An append finds a log that is over its size. -/
def FindsOversized (w : AuditRun) : AuditLabel → Prop
  | .append _ _ => Oversized w.backend w.dir
  | .restart _ => False

def Succeeds (w : AuditRun) : AuditLabel → Prop
  | .append entry host => (append host w.backend w.dir entry).1 = .ok ()
  | .restart _ => True

theorem exists_auditStep (fromStr : List Char → Option Json) (w : AuditRun) (label : AuditLabel) :
    ∃ w', auditStep fromStr w label = some w' := by
  cases label with
  | append entry host => exact ⟨_, rfl⟩
  | restart maxSizeMb => exact ⟨_, rfl⟩

theorem InChain.step {label : AuditLabel} (hin : InChain w) (hlaw : ReadsBack fromStr)
    (hread : label.Readable) (hok : Succeeds w label) (hfits : ¬ FindsOversized w label)
    (hstep : auditStep fromStr w label = some w') : InChain w' := by
  cases label with
  | append entry host =>
    cases hstep
    exact hin.append hread hfits hok
  | restart maxSizeMb =>
    cases hstep
    exact hin.restart hlaw maxSizeMb

/-- After a successful append the log verifies exactly if it was not rotated. -/
theorem InChain.verifies_iff {label : AuditLabel} (hin : InChain w) (hlaw : ReadsBack fromStr)
    (hread : label.Readable) (hok : Succeeds w label)
    (hstep : auditStep fromStr w label = some w') :
    Verifies fromStr w' ↔ ¬ FindsOversized w label := by
  refine ⟨fun hverifies hover => ?_, fun hfits => ?_⟩
  · cases label with
    | append entry host =>
      cases hstep
      exact hin.not_verifies hlaw hread hover hok hverifies
    | restart maxSizeMb => exact hover
  · exact ((hin.step hlaw hread hok hfits hstep).chainStands hlaw).1

/-- What holds after a step. -/
def After (fromStr : List Char → Option Json) (P : AuditRun → Prop) (w : AuditRun)
    (label : AuditLabel) : Prop :=
  ∀ w', auditStep fromStr w label = some w' → P w'

/-- Along a run whose appends all succeed the log stands as a chain, or verifies at least, exactly as
long as no append finds it over its size. -/
theorem InChain.along_iff {P : AuditRun → Prop} {labels : List AuditLabel} (hin : InChain w)
    (hlaw : ReadsBack fromStr) (hstands : ∀ w, ChainStands fromStr w → P w)
    (hverifies : ∀ w, P w → Verifies fromStr w) (hread : ∀ label ∈ labels, label.Readable)
    (hok : Along (auditStep fromStr) Succeeds w labels) :
    Along (auditStep fromStr) (After fromStr P) w labels ↔
      Along (auditStep fromStr) (fun w label => ¬ FindsOversized w label) w labels := by
  refine Along.congr (I := InChain) ?_ ?_ hin (hok.and_mem hread)
  · rintro w label w' hin ⟨hok, hread⟩ hfits hstep
    exact hin.step hlaw hread hok hfits hstep
  · rintro w label hin ⟨hok, hread⟩
    obtain ⟨w', hstep⟩ := exists_auditStep fromStr w label
    constructor
    · intro hafter
      exact (hin.verifies_iff hlaw hread hok hstep).1 (hverifies w' (hafter w' hstep))
    · intro hfits w' hstep
      exact hstands w' ((hin.step hlaw hread hok hfits hstep).chainStands hlaw)

/-- A log that is begun new. -/
def begun (fromStr : List Char → Option Json) (maxSizeMb : UInt64) (dir : AuditDir) : AuditRun :=
  { backend := .new fromStr maxSizeMb dir, dir := dir }

/-- A log that is begun new stands as a chain exactly as long as no append finds it over its size. -/
theorem audit_chain_stands_iff (hlaw : ReadsBack fromStr) (maxSizeMb : UInt64)
    (hnew : dir.log = none) {labels : List AuditLabel} (hread : ∀ label ∈ labels, label.Readable)
    (hok : Along (auditStep fromStr) Succeeds (begun fromStr maxSizeMb dir) labels) :
    Along (auditStep fromStr) (After fromStr (ChainStands fromStr)) (begun fromStr maxSizeMb dir)
        labels ↔
      Along (auditStep fromStr) (fun w label => ¬ FindsOversized w label)
        (begun fromStr maxSizeMb dir) labels :=
  (inChain_new hnew maxSizeMb).along_iff hlaw (fun _ => id) (fun _ => And.left) hread hok

/-! ### A log of one megabyte -/

/-- A host on which nothing fails. -/
def AuditLabel.Served : AuditLabel → Prop
  | .append _ host => host = {}
  | .restart _ => True

theorem rotateBackups_served (is : List Nat) (dir : AuditDir) :
    (rotateBackups {} is dir).1 = .ok () := by
  induction is generalizing dir with
  | nil => rfl
  | cons i is ih =>
    rw [rotateBackups]
    cases dir.backups i with
    | none => exact ih _
    | some f => exact ih _

theorem maybeRotate_served (b : FileAuditBackend) (dir : AuditDir) :
    ∃ rotated, (maybeRotate b {} dir).1 = .ok rotated := by
  have hbackups := rotateBackups_served (List.range' 1 (MAX_BACKUPS - 1)).reverse dir
  unfold maybeRotate
  by_cases hzero : b.maxSize = 0
  · exact ⟨_, by rw [if_pos hzero]⟩
  rw [if_neg hzero, if_neg (by decide)]
  cases dir.log with
  | none => exact ⟨_, rfl⟩
  | some f =>
    dsimp only
    by_cases hfits : utf8Len f.text ≤ b.maxSize
    · exact ⟨_, by rw [if_pos hfits]⟩
    rw [if_neg hfits]
    revert hbackups
    generalize rotateBackups _ _ _ = r
    obtain ⟨res, dir⟩ := r
    rintro rfl
    exact ⟨_, rfl⟩

theorem append_served (b : FileAuditBackend) (dir : AuditDir) (entry : AuditEntry) :
    (append {} b dir entry).1 = .ok () := by
  obtain ⟨rotated, hrotate⟩ := maybeRotate_served
    { b with
      chainSeq := b.chainSeq + 1
      chainPrev := recordHash (b.chainSeq + 1) b.chainPrev (canonicalEntry entry) } dir
  unfold append
  dsimp only
  revert hrotate
  generalize maybeRotate _ _ _ = r
  obtain ⟨res, dir⟩ := r
  rintro rfl
  exact (writeRecord_spec {} _ dir rotated _).2.1.2 ⟨fun _ => rfl, rfl, rfl, rfl⟩

theorem along_succeeds {labels : List AuditLabel} (hserved : ∀ label ∈ labels, label.Served)
    (w : AuditRun) : Along (auditStep fromStr) Succeeds w labels := by
  induction labels generalizing w with
  | nil => trivial
  | cons label labels ih =>
    obtain ⟨hlabel, hrest⟩ := List.forall_mem_cons.1 hserved
    refine ⟨?_, fun w' _ => ih hrest w'⟩
    cases label with
    | append entry host =>
      cases (show host = {} from hlabel)
      exact append_served _ _ _
    | restart maxSizeMb => trivial

/-- Every entry makes the log longer, so that only so many get into it. -/
theorem length_le_of_fits {n : Nat} (hlimited : w.backend.maxSize ≠ 0)
    (hfits : Along (auditStep fromStr) (fun w label => ¬ FindsOversized w label) w
      (List.replicate (n + 1) (.append entry {}))) :
    w.dir.text.length + n ≤ w.backend.maxSize := by
  induction n generalizing w with
  | zero =>
    obtain ⟨hnot, -⟩ := hfits
    cases hlog : w.dir.log with
    | none => rw [AuditDir.text, hlog]; exact Nat.zero_le _
    | some f =>
      have hle : utf8Len f.text ≤ w.backend.maxSize :=
        not_lt.1 fun hgt => hnot ⟨hlimited, f, hlog, hgt⟩
      rw [AuditDir.text_of_log hlog]
      exact (length_le_utf8Len f.text).trans hle
  | succ n ih =>
    rw [List.replicate_succ] at hfits
    obtain ⟨hnot, hrest⟩ := hfits
    obtain ⟨-, hsize, -, hwritten⟩ := append_of_not_oversized hnot {} entry
    have hlong := congrArg List.length (hwritten (append_served _ _ _)).2
    have hle := ih (by rw [hsize]; exact hlimited) (hrest _ rfl)
    rw [hsize] at hle
    simp only [List.length_append, List.length_singleton] at hlong
    dsimp only at hle
    omega

open Classical in
/-- Reads what is printed. -/
noncomputable def readPrinted (cs : List Char) : Option Json :=
  if h : ∃ v : Json, v.print = cs then some h.choose else none

theorem readsBack_readPrinted : ReadsBack readPrinted := by
  intro v _
  have hprinted : ∃ w : Json, w.print = v.print := ⟨v, rfl⟩
  rw [readPrinted, dif_pos hprinted, print_injective hprinted.choose_spec]

def blockedByApi : AuditEntry :=
  { timestamp := "2026-01-01T00:00:00+00:00".toList
    actor := "api".toList
    action := .blockIp
    detail := .obj []
    sourceIp := none }

theorem readable_blockedByApi : blockedByApi.Readable := ⟨List.Pairwise.nil, trivial⟩

/-- An entry, a restart and another entry. -/
def restarted : List AuditLabel := [.append blockedByApi {}, .restart 1, .append blockedByApi {}]

theorem forall_mem_restarted {P : AuditLabel → Prop} (happend : P (.append blockedByApi {}))
    (hrestart : P (.restart 1)) : ∀ label ∈ restarted, P label := by
  intro label hmem
  rcases List.mem_cons.1 hmem with rfl | hmem
  · exact happend
  rcases List.mem_cons.1 hmem with rfl | hmem
  · exact hrestart
  · cases List.mem_singleton.1 hmem
    exact happend

/-- The first record of a log is short. -/
theorem utf8Len_firstRecord :
    utf8Len ((recordValue blockedByApi 1 []).print ++ ['\n']) ≤ 4096 := by
  obtain ⟨before, after, hprint, hshort⟩ : ∃ before after : List Char,
      (recordValue blockedByApi 1 []).print =
          before ++ (printStr (recordHash 1 [] (canonicalEntry blockedByApi)) ++ after) ∧
        before.length + after.length ≤ 200 := by
    rw [recordValue_eq]
    generalize recordHash _ _ _ = hash
    refine ⟨"\x7b\"action\":\"block_ip\",\"actor\":\"api\",\"detail\":\x7b\x7d,\"hash\":".toList,
      ",\"prev_hash\":\"\",\"seq\":1,\"source_ip\":null,".toList ++
        "\"timestamp\":\"2026-01-01T00:00:00+00:00\"\x7d".toList, rfl, by decide +kernel⟩
  have hhash := length_printStr_le (recordHash 1 [] (canonicalEntry blockedByApi))
  rw [recordHash, length_sha256Hex] at hhash
  refine (utf8Len_le _).trans ?_
  rw [hprint, recordHash]
  simp only [List.length_append, List.length_singleton]
  omega

/-- Neither entry finds the log over its size of a megabyte. -/
theorem restarted_fits :
    Along (auditStep readPrinted) (fun w label => ¬ FindsOversized w label)
      (begun readPrinted 1 { log := none }) restarted := by
  refine ⟨?_, fun w₁ h₁ => ⟨id, fun w₂ h₂ => ⟨?_, fun _ _ => trivial⟩⟩⟩
  · rintro ⟨-, f, hlog, -⟩
    cases hlog
  · cases h₁
    cases h₂
    rintro ⟨-, f, hlog, hlarge⟩
    cases hlog
    have hsize : 4096 ≤ ((1 : UInt64).saturatingMul (1024 * 1024)).toNat := by decide
    exact absurd hlarge (not_lt.2 (utf8Len_firstRecord.trans hsize))

theorem audit_chain_stands_iff_restarted :
    Along (auditStep readPrinted) (fun w label => ¬ FindsOversized w label)
        (begun readPrinted 1 { log := none }) restarted ∧
      Along (auditStep readPrinted) (After readPrinted (ChainStands readPrinted))
        (begun readPrinted 1 { log := none }) restarted :=
  ⟨restarted_fits, (audit_chain_stands_iff readsBack_readPrinted 1 rfl
    (forall_mem_restarted readable_blockedByApi trivial)
    (along_succeeds (forall_mem_restarted rfl trivial) _)).2 restarted_fits⟩

/-- As many entries as make more than a megabyte in any case. -/
def blockings : List AuditLabel := List.replicate (2 ^ 20 + 2) (.append blockedByApi {})

/-- Among that many successful appends to a log of one megabyte is one after which it does not
verify. -/
theorem rotated_log_is_refused :
    Along (auditStep readPrinted) Succeeds (begun readPrinted 1 { log := none }) blockings ∧
      ¬ Along (auditStep readPrinted) (After readPrinted (Verifies readPrinted))
        (begun readPrinted 1 { log := none }) blockings := by
  have hserved : ∀ label ∈ blockings, label.Served := by
    intro label hmem
    rw [List.eq_of_mem_replicate hmem]
    rfl
  have hread : ∀ label ∈ blockings, label.Readable := by
    intro label hmem
    rw [List.eq_of_mem_replicate hmem]
    exact readable_blockedByApi
  have hok := @along_succeeds readPrinted _ hserved (begun readPrinted 1 { log := none })
  refine ⟨hok, fun hverifies => ?_⟩
  have hin : InChain (begun readPrinted 1 { log := none }) := inChain_new rfl 1
  have hfits := (hin.along_iff readsBack_readPrinted (fun _ => And.left) (fun _ => id) hread hok).1
    hverifies
  have hlimit : (begun readPrinted 1 { log := none }).backend.maxSize = 2 ^ 20 := rfl
  have hle := length_le_of_fits (n := 2 ^ 20 + 1) (by rw [hlimit]; decide) hfits
  rw [hlimit] at hle
  omega

/-! ## Appends that fail -/

/-- An append that fails leaves the chain in memory as it was. -/
def KeepsChain (w : AuditRun) : AuditLabel → Prop
  | .append entry host =>
    (append host w.backend w.dir entry).1 ≠ .ok () →
      (append host w.backend w.dir entry).2.1.chain = w.backend.chain
  | .restart _ => True

/-- An append has nothing to rotate, and nothing fails of what it has to do. -/
def Untroubled (w : AuditRun) : AuditLabel → Prop
  | .append _ host => ¬ Oversized w.backend w.dir ∧ AppendServed host w.backend w.dir
  | .restart _ => True

theorem chainNext_ne (chain : UInt64 × List Char) (entry : AuditEntry) :
    chainNext chain entry ≠ chain := by
  intro heq
  have hseq : chain.1 + 1 = chain.1 := congrArg Prod.fst heq
  exact absurd (add_eq_left.1 hseq) (by decide)

/-- An append that fails moves the chain in memory. -/
theorem InChain.append_keeps_iff (hin : InChain w) (hlaw : ReadsBack fromStr)
    (hentry : entry.Readable) (host : AuditHost) :
    (KeepsChain w (.append entry host) ∧
        After fromStr (Verifies fromStr) w (.append entry host)) ↔
      Untroubled w (.append entry host) := by
  by_cases hover : Oversized w.backend w.dir
  · obtain ⟨hchain, -⟩ := append_of_oversized hover host entry
    refine iff_of_false ?_ fun huntroubled => huntroubled.1 hover
    rintro ⟨hkeeps, hverifies⟩
    by_cases hok : (Node.append host w.backend w.dir entry).1 = .ok ()
    · exact hin.not_verifies hlaw hentry hover hok (hverifies _ rfl)
    · have hsame := hkeeps hok
      rcases hchain with hnext | hroot
      · exact chainNext_ne _ entry (hnext.symm.trans hsame)
      · have hprev : [] = w.backend.chainPrev := congrArg Prod.snd (hroot.symm.trans hsame)
        exact hin.chainPrev_ne_nil hover hprev.symm
  · obtain ⟨hnext, -, hserves, -⟩ := append_of_not_oversized hover host entry
    constructor
    · rintro ⟨hkeeps, -⟩
      refine ⟨hover, hserves.1 (by_contra fun herr => ?_)⟩
      exact chainNext_ne _ entry (hnext.symm.trans (hkeeps herr))
    · rintro ⟨-, hserved⟩
      have hok := hserves.2 hserved
      refine ⟨fun herr => absurd hok herr, ?_⟩
      rintro w' hstep
      cases hstep
      exact ((hin.append hentry hover hok).chainStands hlaw).1

/-- In a log that is begun new every failed append leaves the chain in memory alone, and the log
verifies throughout, exactly as long as no append has something to rotate or fails. -/
theorem failed_append_keeps_chain_iff (hlaw : ReadsBack fromStr) (maxSizeMb : UInt64)
    (hnew : dir.log = none) {labels : List AuditLabel}
    (hread : ∀ label ∈ labels, label.Readable) :
    Along (auditStep fromStr)
        (fun w label => KeepsChain w label ∧ After fromStr (Verifies fromStr) w label)
        (begun fromStr maxSizeMb dir) labels ↔
      Along (auditStep fromStr) Untroubled (begun fromStr maxSizeMb dir) labels := by
  have htrivial : Along (auditStep fromStr) (fun _ _ => True) (begun fromStr maxSizeMb dir) labels :=
    along_of_forall (fun _ _ => trivial) _ _
  have hreadable := htrivial.and_mem hread
  refine Along.congr (I := InChain) ?_ ?_ (inChain_new hnew maxSizeMb) hreadable
  · rintro w label w' hin ⟨-, hread⟩ huntroubled hstep
    cases label with
    | append entry host =>
      obtain ⟨hfits, hserves⟩ := huntroubled
      have hok := (append_of_not_oversized hfits host entry).2.2.1.2 hserves
      exact hin.step hlaw hread hok hfits hstep
    | restart maxSizeMb => exact hin.step hlaw hread trivial id hstep
  · rintro w label hin ⟨-, hread⟩
    cases label with
    | append entry host => exact hin.append_keeps_iff hlaw hread host
    | restart maxSizeMb =>
      refine iff_of_true ⟨trivial, ?_⟩ trivial
      rintro w' hstep
      exact ((hin.step hlaw hread trivial id hstep).chainStands hlaw).1

theorem untroubled_of_served {label : AuditLabel} (hfits : ¬ FindsOversized w label)
    (hserved : label.Served) : Untroubled w label := by
  cases label with
  | append entry host =>
    cases (show host = {} from hserved)
    exact ⟨hfits, .inr rfl, fun _ => rfl, rfl, rfl, rfl⟩
  | restart maxSizeMb => trivial

theorem failed_append_keeps_chain_iff_restarted :
    Along (auditStep readPrinted) Untroubled (begun readPrinted 1 { log := none }) restarted ∧
      Along (auditStep readPrinted)
        (fun w label => KeepsChain w label ∧ After readPrinted (Verifies readPrinted) w label)
        (begun readPrinted 1 { log := none }) restarted := by
  have hserved : ∀ label ∈ restarted, label.Served := forall_mem_restarted rfl trivial
  have huntroubled := (restarted_fits.and_mem hserved).mono fun _ _ h =>
    untroubled_of_served h.1 h.2
  exact ⟨huntroubled, (failed_append_keeps_chain_iff readsBack_readPrinted 1 rfl
    (forall_mem_restarted readable_blockedByApi trivial)).2 huntroubled⟩

/-- The write of the first entry fails, and moves the chain in memory nevertheless. With the next entry
the log does not verify. -/
theorem failed_append_breaks_chain :
    ¬ KeepsChain (begun readPrinted 1 { log := none })
        (.append blockedByApi { writeLine := false }) ∧
      ∃ w, exec (auditStep readPrinted) (begun readPrinted 1 { log := none })
          [.append blockedByApi { writeLine := false }, .append blockedByApi {}] = some w ∧
        ¬ Verifies readPrinted w := by
  have hbegun : begun readPrinted 1 { log := none } =
      { backend := { maxSize := 2 ^ 20, file := none, chainSeq := 0, chainPrev := [] }
        dir := { log := none } } := rfl
  rw [hbegun]
  have hfresh : ¬ Oversized { maxSize := 2 ^ 20, file := none, chainSeq := 0, chainPrev := [] }
      { log := none } := by
    rintro ⟨-, f, hlog, -⟩
    cases hlog
  obtain ⟨hnext, -, hserves, -⟩ :=
    append_of_not_oversized hfresh { writeLine := false } blockedByApi
  refine ⟨fun hkeeps => ?_, _, rfl, ?_⟩
  · have herr := fun hok => Bool.false_ne_true (hserves.1 hok).2.2.1
    exact chainNext_ne _ blockedByApi (hnext.symm.trans (hkeeps herr))
  · have hempty : ¬ Oversized
        { maxSize := 2 ^ 20, file := some 0, chainSeq := 1
          chainPrev := recordHash 1 [] (canonicalEntry blockedByApi) }
        { log := some { ino := 0, text := [] }, nextIno := 1 } := by
      rintro ⟨-, f, hlog, hlarge⟩
      cases hlog
      exact absurd hlarge (Nat.not_lt_zero _)
    obtain ⟨-, -, -, hwritten⟩ := append_of_not_oversized hempty {} blockedByApi
    obtain ⟨hsome, htext⟩ := hwritten (append_served _ _ _)
    exact not_verifies_of_text readsBack_readPrinted readable_blockedByApi recordHash_ne_nil hsome htext

end EShield.Node
