import EShield.Node.Proofs.AuditRunProofs

/-!
# Audit logs that are changed

A line that is taken out of a log, or put into it, breaks the chain at the next line, unless the hashes
before and after are the same, which they are for no two places of a log whose hashed texts have
different hashes. A log may be continued or cut off at its end, and lines without a hash are passed over
where there is no hash before them.
-/

namespace EShield.Node

open Json Lines HashChain Exec

variable {fromStr : List Char → Option Json} {entry entry' : AuditEntry} {entries : List AuditEntry}
  {seq : UInt64} {prev before : List Char} {chain : UInt64 × List Char} {keep : Nat → Bool}
  {ls : List (List Char)} {w : AuditRun} {dir : AuditDir} {path : String}

/-! ## What is hashed -/

/-- The text before the first delimiter, and the one after it. -/
theorem append_cons_inj {α : Type*} {c : α} {xs ys rest rest' : List α} (hx : c ∉ xs) (hy : c ∉ ys)
    (h : xs ++ c :: rest = ys ++ c :: rest') : xs = ys ∧ rest = rest' := by
  induction xs generalizing ys with
  | nil =>
    cases ys with
    | nil => exact ⟨rfl, (List.cons.inj h).2⟩
    | cons y ys => exact absurd ((List.cons.inj h).1 ▸ List.mem_cons_self) hy
  | cons x xs ih =>
    cases ys with
    | nil => exact absurd ((List.cons.inj h).1 ▸ List.mem_cons_self) hx
    | cons y ys =>
      obtain ⟨hhead, htail⟩ := List.cons.inj h
      obtain ⟨hrest, htext⟩ := ih (fun hmem => hx (List.mem_cons_of_mem _ hmem))
        (fun hmem => hy (List.mem_cons_of_mem _ hmem)) htail
      exact ⟨by rw [hhead, hrest], htext⟩

/-- The text of which a record has the hash. -/
def hashedText (seq : UInt64) (prev canonical : List Char) : List Char :=
  printNat seq.toNat ++ '|' :: (prev ++ '|' :: canonical)

theorem bar_notMem_printNat (n : Nat) : '|' ∉ printNat n :=
  fun hmem => absurd (isDigit_of_mem_printNat hmem) (by decide)

theorem hexDigit_ne_bar : ∀ n < 16, hexDigit n ≠ '|' := by decide

theorem bar_notMem_recordHash (seq : UInt64) (prev canonical : List Char) :
    '|' ∉ recordHash seq prev canonical := by
  rw [recordHash, sha256Hex, List.mem_flatMap]
  rintro ⟨b, -, hmem⟩
  have hb := b.toNat_lt
  rcases List.mem_pair.1 hmem with h | h
  · exact hexDigit_ne_bar _ (by omega) h.symm
  · exact hexDigit_ne_bar _ (by omega) h.symm

theorem hashedText_inj {seq' : UInt64} {prev' canonical canonical' : List Char} (hp : '|' ∉ prev)
    (hp' : '|' ∉ prev') (h : hashedText seq prev canonical = hashedText seq' prev' canonical') :
    seq = seq' ∧ prev = prev' ∧ canonical = canonical' := by
  obtain ⟨hseq, hrest⟩ := append_cons_inj (bar_notMem_printNat _) (bar_notMem_printNat _) h
  exact ⟨UInt64.toNat_inj.1 (printNat_inj hseq), append_cons_inj hp hp' hrest⟩

/-- The texts that are hashed when the lines are verified. -/
def hashedTexts (fromStr : List Char → Option Json) (ls : List (List Char)) : Set (List Char) :=
  {text | ∃ line ∈ ls, ∃ v entry, fromStr line = some v ∧ AuditEntry.fromValue v = some entry ∧
    text = hashedText (seqOf v) (strOf "prev_hash" v) (canonicalEntry entry)}

/-! ## The canonical text -/

/-- The fields of the entry show where they end in the canonical text. -/
structure AuditEntry.Delimited (entry : AuditEntry) : Prop where
  timestamp : '|' ∉ entry.timestamp
  actor : '|' ∉ entry.actor
  sourceIp : entry.sourceIp ≠ some []

theorem stops_bar (cs : List Char) : Stops ('|' :: cs) :=
  stops_cons (by decide) cs

theorem getD_nil_inj {s t : Option (List Char)} (hs : s ≠ some []) (ht : t ≠ some [])
    (h : s.getD [] = t.getD []) : s = t := by
  cases s with
  | none =>
    cases t with
    | none => rfl
    | some t => exact absurd (congrArg some h.symm) ht
  | some s =>
    cases t with
    | none => exact absurd (congrArg some h) hs
    | some t => exact congrArg some h

theorem AuditAction.toValue_inj {a b : AuditAction} (h : a.toValue = b.toValue) : a = b := by
  have hread := AuditAction.fromValue_toValue a
  rw [h, AuditAction.fromValue_toValue] at hread
  exact (Option.some.inj hread).symm

/-- Entries with different fields have different canonical texts. -/
theorem canonicalEntry_inj (h : entry.Delimited) (h' : entry'.Delimited)
    (heq : canonicalEntry entry = canonicalEntry entry') : entry = entry' := by
  obtain ⟨htimestamp, heq⟩ := append_cons_inj h.timestamp h'.timestamp heq
  obtain ⟨hactor, heq⟩ := append_cons_inj h.actor h'.actor heq
  obtain ⟨haction, heq⟩ := print_append_inj _ _ (stops_bar _) (stops_bar _) heq
  obtain ⟨hdetail, heq⟩ := print_append_inj _ _ (stops_bar _) (stops_bar _) (List.cons.inj heq).2
  have hip := getD_nil_inj h.sourceIp h'.sourceIp (List.cons.inj heq).2
  cases entry
  cases entry'
  rw [AuditEntry.mk.injEq]
  exact ⟨htimestamp, hactor, AuditAction.toValue_inj haction, hdetail, hip⟩

/-! ## The hashes of a log are different -/

/-- The hash at the end of the entries. -/
def chainHash (chain : UInt64 × List Char) (entries : List AuditEntry) : List Char :=
  (last chainNext chain entries).2

/-- What is hashed for an entry besides the hash before it. -/
def linkHash (prev : List Char) (item : UInt64 × List Char) : List Char :=
  recordHash item.1 prev item.2

def chainItems : UInt64 → List AuditEntry → List (UInt64 × List Char)
  | _, [] => []
  | seq, entry :: entries => (seq + 1, canonicalEntry entry) :: chainItems (seq + 1) entries

theorem chainHash_eq (chain : UInt64 × List Char) (entries : List AuditEntry) :
    chainHash chain entries = last linkHash chain.2 (chainItems chain.1 entries) := by
  induction entries generalizing chain with
  | nil => rfl
  | cons entry entries ih =>
    rw [chainItems, last_cons, chainHash, last_cons]
    exact ih (chainNext chain entry)

theorem length_chainItems (seq : UInt64) (entries : List AuditEntry) :
    (chainItems seq entries).length = entries.length := by
  induction entries generalizing seq with
  | nil => rfl
  | cons entry entries ih => exact congrArg (· + 1) (ih (seq + 1))

theorem chainItems_take (seq : UInt64) (entries : List AuditEntry) (n : Nat) :
    chainItems seq (entries.take n) = (chainItems seq entries).take n := by
  induction entries generalizing seq n with
  | nil => rw [List.take_nil, chainItems, List.take_nil]
  | cons entry entries ih =>
    cases n with
    | zero => rfl
    | succ n => exact congrArg (_ :: ·) (ih (seq + 1) n)

/-- A record of the log, as it is read. -/
theorem hashedText_mem (hlaw : ReadsBack fromStr) (hentry : entry.Readable)
    (hmem : (recordValue entry seq prev).print ∈ ls) :
    hashedText seq prev (canonicalEntry entry) ∈ hashedTexts fromStr ls := by
  refine ⟨_, hmem, _, entry, hlaw _ (plain_recordValue hentry), fromValue_recordValue, ?_⟩
  rw [seqOf_recordValue, prevHash_recordValue]

/-- Every step of the chain hashes the text of one of its lines. -/
theorem steps_chainItems (chain : UInt64 × List Char) (hlaw : ReadsBack fromStr)
    (hread : ∀ entry ∈ entries, entry.Readable) (hbar : '|' ∉ chain.2)
    (hls : chainLines chain entries ⊆ ls) :
    ∀ s ∈ steps linkHash chain.2 (chainItems chain.1 entries),
      '|' ∉ s.1 ∧ hashedText s.2.1 s.1 s.2.2 ∈ hashedTexts fromStr ls := by
  induction entries generalizing chain with
  | nil => exact List.forall_mem_nil _
  | cons entry entries ih =>
    obtain ⟨hentry, hrest⟩ := List.forall_mem_cons.1 hread
    rw [chainLines, List.cons_subset] at hls
    refine List.forall_mem_cons.2 ⟨⟨hbar, hashedText_mem hlaw hentry hls.1⟩, ?_⟩
    exact ih (chainNext chain entry) hrest (bar_notMem_recordHash _ _ _) hls.2

/-- No two places of a log have the same hash. -/
theorem chainHash_take_ne (hlaw : ReadsBack fromStr) (hread : ∀ entry ∈ entries, entry.Readable)
    (hinj : Set.InjOn sha256Hex (hashedTexts fromStr (chainLines (0, []) entries))) {i j : Nat}
    (hij : i < j) (hj : j ≤ entries.length) :
    chainHash (0, []) (entries.take i) ≠ chainHash (0, []) (entries.take j) := by
  intro heq
  have hsteps := steps_chainItems (0, []) hlaw hread List.not_mem_nil
    (List.Subset.refl _)
  have hsep : Separates linkHash (steps linkHash [] (chainItems 0 entries))
      (steps linkHash [] (chainItems 0 entries)) := by
    intro s hs t ht hhash
    obtain ⟨hsbar, hstext⟩ := hsteps s hs
    obtain ⟨htbar, httext⟩ := hsteps t ht
    obtain ⟨hseq, hprev, hcanonical⟩ := hashedText_inj hsbar htbar (hinj hstext httext hhash)
    exact Prod.ext hprev (Prod.ext hseq hcanonical)
  rw [chainHash_eq, chainHash_eq, chainItems_take, chainItems_take] at heq
  have hitems := eq_of_last_eq (fun prev item => recordHash_ne_nil)
    (hsep.mono (isPrefix_steps (List.take_prefix i _)).subset
      (isPrefix_steps (List.take_prefix j _)).subset) heq
  have hlen := congrArg List.length hitems
  rw [List.length_take, List.length_take, length_chainItems] at hlen
  omega

/-! ## What is not passed -/

/-- `verify_chain` does not report `ok`. -/
def Refused (r : Except String AuditVerifyReport) : Prop :=
  ∀ report, r = .ok report → report.ok = false

/-- A line that is behind another hash than it says is not passed, and nor is what follows it. -/
theorem refused_chainLines (hlaw : ReadsBack fromStr) (hread : ∀ entry ∈ entries, entry.Readable)
    (hne : entries ≠ []) (hbefore : chain.2 ≠ before) (checked : Nat) :
    Refused (verifyLines fromStr path before checked (chainLines chain entries)) := by
  cases entries with
  | nil => exact absurd rfl hne
  | cons entry entries =>
    have hentry := hread entry List.mem_cons_self
    rw [chainLines, verifyLines_recordValue_of_ne hlaw hentry hbefore]
    rintro report hreport
    cases hreport
    rfl

/-- A line that can be read is refused, or it is passed over, or it has the hash that it has to have. -/
theorem verifyLines_cons {line : List Char} {v : Json} (hblank : isBlank line = false)
    (hline : fromStr line = some v) (hentry : AuditEntry.fromValue v = some entry) (before : List Char)
    (checked : Nat) (rest : List (List Char)) :
    let r := verifyLines fromStr path before checked (line :: rest)
    (strOf "hash" v = [] → r = verifyLines fromStr path [] (checked + 1) rest) ∧
      (strOf "hash" v ≠ [] → Refused r ∨
        strOf "prev_hash" v = before ∧
          strOf "hash" v = recordHash (seqOf v) before (canonicalEntry entry) ∧
          r = verifyLines fromStr path (strOf "hash" v) (checked + 1) rest) := by
  dsimp only
  rw [verifyLines, hblank, if_neg (by decide)]
  simp only [hline, hentry]
  refine ⟨fun hnil => if_pos hnil, fun hhash => ?_⟩
  rw [if_neg hhash]
  by_cases hbad : strOf "prev_hash" v ≠ before ∨
      recordHash (seqOf v) (strOf "prev_hash" v) (canonicalEntry entry) ≠ strOf "hash" v
  · rw [if_pos hbad]
    left
    rintro report hreport
    cases hreport
    rfl
  · rw [if_neg hbad]
    rw [not_or, not_not, not_not] at hbad
    obtain ⟨hprev, hexpected⟩ := hbad
    rw [hprev] at hexpected
    exact .inr ⟨hprev, hexpected.symm, rfl⟩

/-! ### Lines that are taken out -/

/-- The lines whose places are kept, counted from `i`. -/
def keepFrom {α : Type*} (keep : Nat → Bool) : Nat → List α → List α
  | _, [] => []
  | i, x :: xs => if keep i then x :: keepFrom keep (i + 1) xs else keepFrom keep (i + 1) xs

/-- The first line that is kept behind a hash which none of the log has. -/
theorem refused_keepFrom_of_ne (hlaw : ReadsBack fromStr)
    (hread : ∀ entry ∈ entries, entry.Readable) {i j : Nat}
    (hne : ∀ n ≤ entries.length, before ≠ chainHash chain (entries.take n)) (hij : i ≤ j)
    (hj : j < i + entries.length) (hkeep : keep j = true) (checked : Nat) :
    Refused (verifyLines fromStr path before checked (keepFrom keep i (chainLines chain entries))) := by
  induction entries generalizing chain i with
  | nil =>
    rw [List.length_nil] at hj
    omega
  | cons entry entries ih =>
    obtain ⟨hentry, hrest⟩ := List.forall_mem_cons.1 hread
    rw [chainLines, keepFrom]
    cases hi : keep i with
    | true =>
      have hhere : chain.2 ≠ before := (hne 0 (Nat.zero_le _)).symm
      rw [if_pos rfl, verifyLines_recordValue_of_ne hlaw hentry hhere]
      rintro report hreport
      cases hreport
      rfl
    | false =>
      rw [if_neg (by decide)]
      have hne_i : i ≠ j := by
        rintro rfl
        exact absurd (hi.symm.trans hkeep) (by decide)
      rw [List.length_cons] at hj
      refine ih hrest (fun n hn => ?_) (by omega) (by omega)
      exact hne (n + 1) (Nat.succ_le_succ hn)

/-- Where a line is missing before one that is kept, the chain is broken. -/
theorem refused_keepFrom (chain : UInt64 × List Char) (hlaw : ReadsBack fromStr)
    (hread : ∀ entry ∈ entries, entry.Readable) {i a b : Nat}
    (hne : ∀ m n, m < n → n ≤ entries.length →
      chainHash chain (entries.take m) ≠ chainHash chain (entries.take n))
    (ha : i ≤ a) (hab : a < b) (hb : b < i + entries.length) (hgone : keep a = false)
    (hkeep : keep b = true) (checked : Nat) :
    Refused (verifyLines fromStr path chain.2 checked (keepFrom keep i (chainLines chain entries))) := by
  induction entries generalizing chain i checked with
  | nil =>
    rw [List.length_nil] at hb
    omega
  | cons entry entries ih =>
    obtain ⟨hentry, hrest⟩ := List.forall_mem_cons.1 hread
    rw [List.length_cons] at hb hne
    rw [chainLines, keepFrom]
    cases hi : keep i with
    | true =>
      have hne_i : i ≠ a := by
        rintro rfl
        exact absurd (hi.symm.trans hgone) (by decide)
      rw [if_pos rfl, verifyLines_recordValue hlaw hentry]
      refine ih (chainNext chain entry) hrest (fun m n hmn hn => ?_) (by omega) (by omega) _
      exact hne (m + 1) (n + 1) (Nat.succ_lt_succ hmn) (Nat.succ_le_succ hn)
    | false =>
      rw [if_neg (by decide)]
      refine refused_keepFrom_of_ne hlaw hrest (fun n hn => ?_) (by omega) (by omega) hkeep _
      exact hne 0 (n + 1) (Nat.succ_pos n) (Nat.succ_le_succ hn)

/-! ### Lines that are put in -/

theorem exists_chainLines {ls ms : List (List Char)} (h : chainLines chain entries = ls ++ ms) :
    ∃ xs ys, entries = xs ++ ys ∧ ls = chainLines chain xs ∧
      ms = chainLines (last chainNext chain xs) ys := by
  induction ls generalizing chain entries with
  | nil => exact ⟨[], entries, rfl, rfl, h.symm⟩
  | cons l ls ih =>
    cases entries with
    | nil => cases h
    | cons entry entries =>
      rw [chainLines, List.cons_append, List.cons.injEq] at h
      obtain ⟨hl, hrest⟩ := h
      obtain ⟨xs, ys, rfl, rfl, rfl⟩ := ih hrest
      exact ⟨entry :: xs, ys, rfl, by rw [chainLines, hl], rfl⟩

theorem bar_notMem_chainHash (entries : List AuditEntry) : '|' ∉ chainHash (0, []) entries := by
  rcases List.eq_nil_or_concat entries with rfl | ⟨xs, entry, rfl⟩
  · exact List.not_mem_nil
  · rw [List.concat_eq_append, chainHash, last_snoc]
    exact bar_notMem_recordHash _ _ _

section

variable {xs ys : List AuditEntry} {line : List Char} {v : Json} {texts : Set (List Char)}

/-- What is hashed behind a place of the log does not have the hash of this place. -/
theorem recordHash_ne_chainHash (hlaw : ReadsBack fromStr)
    (hread : ∀ entry ∈ xs ++ ys, entry.Readable)
    (hinj : Set.InjOn sha256Hex (hashedTexts fromStr (chainLines (0, []) (xs ++ ys)) ∪ texts))
    {canonical : List Char} (htext : hashedText seq (chainHash (0, []) xs) canonical ∈ texts) :
    chainHash (0, []) xs ≠ recordHash seq (chainHash (0, []) xs) canonical := by
  rcases List.eq_nil_or_concat xs with rfl | ⟨zs, entry, rfl⟩
  · exact recordHash_ne_nil.symm
  rw [List.concat_eq_append] at *
  intro heq
  have hhash : recordHash ((last chainNext (0, []) zs).1 + 1) (chainHash (0, []) zs)
      (canonicalEntry entry) = chainHash (0, []) (zs ++ [entry]) := by
    rw [chainHash, chainHash, last_snoc]
    rfl
  have hmem : hashedText ((last chainNext (0, []) zs).1 + 1) (chainHash (0, []) zs)
      (canonicalEntry entry) ∈
        hashedTexts fromStr (chainLines (0, []) (zs ++ [entry] ++ ys)) := by
    refine hashedText_mem hlaw (hread entry ?_) ?_
    · exact List.mem_append_left _ (List.mem_append_right _ List.mem_cons_self)
    · rw [chainLines_append, chainLines_append]
      exact List.mem_append_left _ (List.mem_append_right _ List.mem_cons_self)
  have htexts := hinj (.inl hmem) (.inr htext) (hhash.trans heq)
  have hprev := (hashedText_inj (bar_notMem_chainHash _) (bar_notMem_chainHash _) htexts).2.1
  have hne := chainHash_take_ne hlaw hread (hinj.mono Set.subset_union_left)
    (i := zs.length) (j := (zs ++ [entry]).length) (by simp) (by simp)
  rw [List.take_left, List.append_assoc, List.take_left] at hne
  exact hne hprev

/-- A line between the lines of the log, or at its first place with a hash, breaks the chain. -/
theorem refused_insert (hlaw : ReadsBack fromStr) (hread : ∀ entry ∈ xs ++ ys, entry.Readable)
    (hne : ys ≠ []) (hblank : isBlank line = false) (hline : fromStr line = some v)
    (hentry : AuditEntry.fromValue v = some entry) (hhash : strOf "hash" v ≠ [] ∨ xs ≠ [])
    (htext : hashedText (seqOf v) (strOf "prev_hash" v) (canonicalEntry entry) ∈ texts)
    (hinj : Set.InjOn sha256Hex (hashedTexts fromStr (chainLines (0, []) (xs ++ ys)) ∪ texts)) :
    Refused (verifyLines fromStr path [] 0
      (chainLines (0, []) xs ++ line :: chainLines (last chainNext (0, []) xs) ys)) := by
  obtain ⟨hreadx, hready⟩ := List.forall_mem_append.1 hread
  rw [show ([] : List Char) = ((0, []) : UInt64 × List Char).2 from rfl,
    verifyLines_chainLines _ hlaw hreadx]
  obtain ⟨hnil, hnext⟩ := verifyLines_cons hblank hline hentry (last chainNext (0, []) xs).2
    (0 + xs.length) (chainLines (last chainNext (0, []) xs) ys)
  by_cases hempty : strOf "hash" v = []
  · have hxs : xs ≠ [] := hhash.resolve_left fun h => h hempty
    rw [hnil hempty]
    exact refused_chainLines hlaw hready hne (last_chainNext_ne_nil hxs) _
  · rcases hnext hempty with hrefused | ⟨hprev, hmatches, hgoes⟩
    · exact hrefused
    · rw [hprev] at htext
      rw [hgoes]
      refine refused_chainLines hlaw hready hne ?_ _
      rw [hmatches]
      exact recordHash_ne_chainHash hlaw hread hinj htext

/-- A line in place of another one with other fields breaks the chain, unless it is the last. -/
theorem refused_replace (hlaw : ReadsBack fromStr)
    (hread : ∀ entry ∈ xs ++ entry' :: ys, entry.Readable) (hne : ys ≠ [])
    (hblank : isBlank line = false) (hline : fromStr line = some v)
    (hentry : AuditEntry.fromValue v = some entry) (hdiffer : entry ≠ entry')
    (hdelimited : entry.Delimited) (hdelimited' : entry'.Delimited)
    (htext : hashedText (seqOf v) (strOf "prev_hash" v) (canonicalEntry entry) ∈ texts)
    (hinj : Set.InjOn sha256Hex
      (hashedTexts fromStr (chainLines (0, []) (xs ++ entry' :: ys)) ∪ texts)) :
    Refused (verifyLines fromStr path [] 0 (chainLines (0, []) xs ++
      line :: chainLines (chainNext (last chainNext (0, []) xs) entry') ys)) := by
  obtain ⟨hreadx, hready⟩ := List.forall_mem_append.1 hread
  obtain ⟨hread', hready⟩ := List.forall_mem_cons.1 hready
  rw [show ([] : List Char) = ((0, []) : UInt64 × List Char).2 from rfl,
    verifyLines_chainLines _ hlaw hreadx]
  obtain ⟨hnil, hnext⟩ := verifyLines_cons hblank hline hentry (last chainNext (0, []) xs).2
    (0 + xs.length) (chainLines (chainNext (last chainNext (0, []) xs) entry') ys)
  by_cases hempty : strOf "hash" v = []
  · rw [hnil hempty]
    exact refused_chainLines hlaw hready hne recordHash_ne_nil _
  · rcases hnext hempty with hrefused | ⟨hprev, hmatches, hgoes⟩
    · exact hrefused
    · rw [hprev] at htext
      rw [hgoes]
      refine refused_chainLines hlaw hready hne (fun heq => ?_) _
      have hmem : hashedText ((last chainNext (0, []) xs).1 + 1) (chainHash (0, []) xs)
          (canonicalEntry entry') ∈
            hashedTexts fromStr (chainLines (0, []) (xs ++ entry' :: ys)) := by
        refine hashedText_mem hlaw hread' ?_
        rw [chainLines_append]
        exact List.mem_append_right _ List.mem_cons_self
      have htexts := hinj (.inl hmem) (.inr htext) (heq.trans hmatches)
      have hcanonical :=
        (hashedText_inj (bar_notMem_chainHash xs) (bar_notMem_chainHash xs) htexts).2.2
      exact hdiffer (canonicalEntry_inj hdelimited hdelimited' hcanonical.symm)

end

/-! ## Changed logs -/

/-- The changes to the lines of a log that break its chain. -/
inductive Tampers (fromStr : List Char → Option Json) : (ls ms : List (List Char)) → Prop
  /-- A record is put before a line, at the first place one with a hash. -/
  | insert {above below : List (List Char)} {line : List Char} {v : Json} {entry : AuditEntry}
      (hbelow : below ≠ []) (hblank : isBlank line = false) (hline : fromStr line = some v)
      (hentry : AuditEntry.fromValue v = some entry) (hhash : strOf "hash" v ≠ [] ∨ above ≠ []) :
      Tampers fromStr (above ++ below) (above ++ line :: below)
  /-- A line that is not the last is replaced by a record with other fields. -/
  | replace {above below : List (List Char)} {old line : List Char} {v v' : Json}
      {entry entry' : AuditEntry} (hbelow : below ≠ []) (hblank : isBlank line = false)
      (hline : fromStr line = some v) (hentry : AuditEntry.fromValue v = some entry)
      (hold : fromStr old = some v') (hentry' : AuditEntry.fromValue v' = some entry')
      (hdiffer : entry ≠ entry') (hdelimited : entry.Delimited) (hdelimited' : entry'.Delimited) :
      Tampers fromStr (above ++ old :: below) (above ++ line :: below)
  /-- Lines are deleted, and one behind one of them is kept. -/
  | delete {ls : List (List Char)} {keep : Nat → Bool} {i j : Nat} (hij : i < j)
      (hj : j < ls.length) (hgone : keep i = false) (hkeep : keep j = true) :
      Tampers fromStr ls (keepFrom keep 0 ls)

theorem length_chainLines (chain : UInt64 × List Char) (entries : List AuditEntry) :
    (chainLines chain entries).length = entries.length := by
  induction entries generalizing chain with
  | nil => rfl
  | cons entry entries ih => exact congrArg (· + 1) (ih _)

theorem Tampers.refused {ms : List (List Char)} (hlaw : ReadsBack fromStr)
    (hread : ∀ entry ∈ entries, entry.Readable) (htampers : Tampers fromStr ls ms)
    (hls : chainLines (0, []) entries = ls)
    (hinj : Set.InjOn sha256Hex (hashedTexts fromStr ls ∪ hashedTexts fromStr ms)) :
    Refused (verifyLines fromStr path [] 0 ms) := by
  cases htampers with
  | insert hbelow hblank hline hentry hhash =>
    obtain ⟨xs, ys, rfl, rfl, rfl⟩ := exists_chainLines hls
    rw [← hls] at hinj
    refine refused_insert hlaw hread ?_ hblank hline hentry (hhash.imp_right ?_) ?_ hinj
    · rintro rfl
      exact hbelow rfl
    · rintro habove rfl
      exact habove rfl
    · exact ⟨_, List.mem_append_right _ List.mem_cons_self, _, _, hline, hentry, rfl⟩
  | replace hbelow hblank hline hentry hold hentry' hdiffer hdelimited hdelimited' =>
    obtain ⟨xs, ys, rfl, rfl, hys⟩ := exists_chainLines hls
    rw [← hls] at hinj
    cases ys with
    | nil => cases hys
    | cons entry₀ ys =>
      obtain ⟨rfl, rfl⟩ := List.cons.inj hys
      have hread₀ := hread entry₀ (List.mem_append_right _ List.mem_cons_self)
      rw [hlaw _ (plain_recordValue hread₀), Option.some.injEq] at hold
      rw [← hold, fromValue_recordValue, Option.some.injEq] at hentry'
      subst hentry'
      refine refused_replace hlaw hread ?_ hblank hline hentry hdiffer hdelimited hdelimited' ?_ hinj
      · rintro rfl
        exact hbelow rfl
      · exact ⟨_, List.mem_append_right _ List.mem_cons_self, _, _, hline, hentry, rfl⟩
  | delete hij hj hgone hkeep =>
    subst hls
    rw [length_chainLines] at hj
    have hseparates := hinj.mono Set.subset_union_left
    exact refused_keepFrom (0, []) hlaw hread
      (fun m n hmn hn => chainHash_take_ne hlaw hread hseparates hmn hn) (Nat.zero_le _) hij
      (by omega) hgone hkeep 0

/-- Along a run of successful appends that never rotate the log is a chain. -/
theorem inChain_of_run (hlaw : ReadsBack fromStr) {maxSizeMb : UInt64} (hnew : dir.log = none)
    {labels : List AuditLabel} (hread : ∀ label ∈ labels, label.Readable)
    (hok : Along (auditStep fromStr) Succeeds (begun fromStr maxSizeMb dir) labels)
    (hfits : Along (auditStep fromStr) (fun w label => ¬ FindsOversized w label)
      (begun fromStr maxSizeMb dir) labels)
    (hrun : exec (auditStep fromStr) (begun fromStr maxSizeMb dir) labels = some w) :
    InChain w := by
  refine exec_invariant ?_ (inChain_new hnew maxSizeMb) ((hok.and hfits).and_mem hread) hrun
  rintro w label w' hin ⟨⟨hok, hfits⟩, hread⟩ hstep
  exact hin.step hlaw hread hok hfits hstep

/-- A log that successful appends have written, and that has never been rotated, is refused after each
of these changes, if no two of the texts that are hashed for it before and after have the same hash. -/
theorem tampering_is_refused (hlaw : ReadsBack fromStr) (maxSizeMb : UInt64) (hnew : dir.log = none)
    {labels : List AuditLabel} (hread : ∀ label ∈ labels, label.Readable)
    (hok : Along (auditStep fromStr) Succeeds (begun fromStr maxSizeMb dir) labels)
    (hfits : Along (auditStep fromStr) (fun w label => ¬ FindsOversized w label)
      (begun fromStr maxSizeMb dir) labels)
    (hrun : exec (auditStep fromStr) (begun fromStr maxSizeMb dir) labels = some w) {f : AuditFile}
    (hlog : w.dir.log = some f) {content : List Char}
    (htampers : Tampers fromStr (lines f.text) (lines content))
    (hinj : Set.InjOn sha256Hex
      (hashedTexts fromStr (lines f.text) ∪ hashedTexts fromStr (lines content))) :
    Refused (verifyChain fromStr path (some content)) ∧
      ∀ entry entry' : AuditEntry, entry.Delimited → entry'.Delimited → entry ≠ entry' →
        canonicalEntry entry ≠ canonicalEntry entry' := by
  refine ⟨?_, fun entry entry' h h' hdiffer heq => hdiffer (canonicalEntry_inj h h' heq)⟩
  obtain ⟨entries, hentries, -, htext⟩ := inChain_of_run hlaw hnew hread hok hfits hrun
  rw [AuditDir.text_of_log hlog] at htext
  have hlines : chainLines (0, []) entries = lines f.text := by
    rw [htext, lines_unlines (unbroken_chainLines _ _)]
  exact htampers.refused hlaw hentries hlines hinj

/-! ### A log of one record -/

/-- The line that the first entry gets. -/
def firstLine : List Char := (recordValue blockedByApi 1 []).print

theorem lines_firstLine : lines ([] ++ (firstLine ++ ['\n'])) = [firstLine] := by
  have hlines := lines_unlines
    (List.forall_mem_singleton.2 (line_recordValue blockedByApi 1 []).2)
  rw [unlines_cons, unlines_nil] at hlines
  exact hlines

theorem read_firstLine : readPrinted firstLine = some (recordValue blockedByApi 1 []) :=
  readsBack_readPrinted _ (plain_recordValue readable_blockedByApi)

/-- Only one text is hashed for lines that are all the first one. -/
theorem hashedTexts_firstLine (h : ∀ line ∈ ls, line = firstLine) :
    hashedTexts readPrinted ls ⊆ {hashedText 1 [] (canonicalEntry blockedByApi)} := by
  rintro text ⟨line, hmem, v, entry, hline, hentry, rfl⟩
  rw [h line hmem, read_firstLine, Option.some.injEq] at hline
  rw [← hline, fromValue_recordValue, Option.some.injEq] at hentry
  rw [← hline, ← hentry, seqOf_recordValue, prevHash_recordValue]
  rfl

/-- The first record of a log put before it a second time. -/
theorem tampering_is_refused_twice :
    Refused (verifyChain readPrinted "audit.log" (some (unlines [firstLine, firstLine]))) ∧
      ∀ entry entry' : AuditEntry, entry.Delimited → entry'.Delimited → entry ≠ entry' →
        canonicalEntry entry ≠ canonicalEntry entry' := by
  have hunbroken : Unbroken firstLine := (line_recordValue blockedByApi 1 []).2
  have hlines : lines (unlines [firstLine, firstLine]) = [firstLine, firstLine] :=
    lines_unlines (List.forall_mem_cons.2 ⟨hunbroken, List.forall_mem_singleton.2 hunbroken⟩)
  have hserved : ∀ label ∈ [AuditLabel.append blockedByApi {}], label.Served :=
    List.forall_mem_singleton.2 rfl
  have hreadable : ∀ label ∈ [AuditLabel.append blockedByApi {}], label.Readable :=
    List.forall_mem_singleton.2 readable_blockedByApi
  have hnew : ({ log := none } : AuditDir).log = none := rfl
  refine tampering_is_refused (f := ⟨0, [] ++ (firstLine ++ ['\n'])⟩) readsBack_readPrinted 0 hnew
    hreadable (along_succeeds hserved _) ?_ rfl rfl ?_ ?_
  · exact .cons rfl (fun hover => hover.1 rfl) trivial
  · rw [lines_firstLine, hlines]
    have hhash : strOf "hash" (recordValue blockedByApi 1 []) ≠ [] := by
      rw [hash_recordValue]
      exact recordHash_ne_nil
    exact @Tampers.insert _ [] _ _ _ _ (List.cons_ne_nil _ _) (line_recordValue blockedByApi 1 []).1
      read_firstLine fromValue_recordValue (.inl hhash)
  · rw [lines_firstLine, hlines]
    have hbefore := hashedTexts_firstLine (List.forall_mem_singleton.2 (@rfl _ firstLine))
    have hafter := hashedTexts_firstLine
      (List.forall_mem_cons.2 ⟨rfl, List.forall_mem_singleton.2 (@rfl _ firstLine)⟩)
    exact (Set.subsingleton_singleton.anti (Set.union_subset hbefore hafter)).injOn _

/-- The record of an entry as it was before there were hashes. -/
def unhashed : Json := .obj blockedByApi.toMembers

theorem plain_unhashed : unhashed.Plain 127 := by
  refine ⟨by decide +kernel, ?_⟩
  exact ⟨trivial, trivial, readable_blockedByApi, trivial, trivial, trivial⟩

/-- A well-formed record without a hash at the end of a log is passed over. -/
theorem unhashed_record_is_passed :
    ∃ w f, exec (auditStep readPrinted) (begun readPrinted 0 { log := none })
        [.append blockedByApi {}] = some w ∧ w.dir.log = some f ∧
      (readPrinted unhashed.print).bind AuditEntry.fromValue = some blockedByApi ∧
      lines (unlines (lines f.text ++ [unhashed.print])) = lines f.text ++ [unhashed.print] ∧
      verifyChain readPrinted "audit.log" (some (unlines (lines f.text ++ [unhashed.print]))) =
        .ok { ok := true, checked := 2, firstBadSeq := none, path := "audit.log" } := by
  have hread := readsBack_readPrinted unhashed plain_unhashed
  have hprinted := printed_print unhashed
  have hunbroken : Unbroken unhashed.print :=
    ⟨fun hmem => absurd (hprinted _ hmem) (by decide),
      fun hmem => absurd (hprinted _ hmem) (by decide)⟩
  have hlines : lines (unlines [firstLine, unhashed.print]) = [firstLine, unhashed.print] :=
    lines_unlines (List.forall_mem_cons.2
      ⟨(line_recordValue blockedByApi 1 []).2, List.forall_mem_singleton.2 hunbroken⟩)
  refine ⟨_, ⟨0, [] ++ (firstLine ++ ['\n'])⟩, rfl, rfl, ?_, ?_, ?_⟩
  · rw [hread]
    rfl
  · rw [lines_firstLine]
    exact hlines
  · have hblank : isBlank unhashed.print = false := rfl
    obtain ⟨hpassed, -⟩ := verifyLines_cons hblank hread
      (show AuditEntry.fromValue unhashed = some blockedByApi from rfl)
      (recordHash 1 [] (canonicalEntry blockedByApi)) 1 []
    rw [lines_firstLine, verifyChain, List.singleton_append, hlines, firstLine,
      verifyLines_recordValue readsBack_readPrinted readable_blockedByApi]
    exact hpassed rfl

end EShield.Node
