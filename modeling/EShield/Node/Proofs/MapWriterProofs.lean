import EShield.Node.MapWriters
import EShield.Node.Proofs.BlockProofs

/-!
# Writers do not undo each other

A writer works on a copy. If what is in force when it writes was in its copy already, or is covered
by its own block, nothing is lost; if a lookup also finds all that its copy had, nothing comes back.
Under both, every block lasts until it is lifted and an unblock is final.
-/

namespace EShield.Node

open Ebpf Exec TaskTable

/-! ## Uninterrupted operations -/

/-- The writer of an operation that is not interrupted. -/
def BlacklistStep.writer (m : Maps) : BlacklistStep → MapWriter
  | .addToBlacklist key durationS reason nowNs => .addToBlacklist key durationS reason nowNs
  | .blockIpRaw key durationS reason nowNs => .blockIpRaw key durationS reason nowNs
  | .adaptiveBlock key durationS untilReadNs nowNs => .adaptiveBlock key durationS untilReadNs nowNs
  | .isBlacklisted key nowNs =>
    .isBlacklisted key nowNs (decide ((m.globalStats.blacklistHitSample + 1) &&& 0xf = 0))

/-- A lookup with the write that follows from it is the operation as a whole. -/
theorem blacklist_apply (m : Maps) (step : BlacklistStep) :
    (step.apply m).blacklist =
      match (step.writer m).next (m.blacklist (step.writer m).key) with
      | some write => write.apply m.blacklist (step.writer m).key
      | none => m.blacklist := by
  cases step with
  | addToBlacklist key durationS reason nowNs => rfl
  | blockIpRaw key durationS reason nowNs => rfl
  | adaptiveBlock key durationS untilReadNs nowNs => rfl
  | isBlacklisted key nowNs =>
    show (isBlacklisted m key nowNs).2.blacklist = _
    unfold isBlacklisted BlacklistStep.writer MapWriter.next
    dsimp only [MapWriter.key]
    cases hentry : m.blacklist key with
    | none => rfl
    | some entry =>
      by_cases heff : EffectiveAt entry.blockedUntilNs nowNs
      · simp only [if_pos heff]
        by_cases hdue : (m.globalStats.blacklistHitSample + 1) &&& 0xf = 0
        · simp [Maps.withStats, hdue, MapWrite.apply]
        · simp [Maps.withStats, hdue]
      · simp only [if_neg heff]
        rfl

/-! ## What a write changes -/

/-- The entry is in force at `t`. -/
def InForce (entry : Option BlockEntry) (t : UInt64) : Prop :=
  ∃ e, entry = some e ∧ EffectiveAt e.blockedUntilNs t

/-- The entry that a write leaves. -/
def MapWrite.result : MapWrite → Option BlockEntry
  | insert entry => some entry
  | remove => none

section Write

variable {blacklist : LruHashMap IpKey BlockEntry} {key k : IpKey} {write : MapWrite}
  {writer : MapWriter} {seen : Option BlockEntry} {u untilNs : UInt64}

@[simp] theorem MapWrite.apply_self : write.apply blacklist key key = write.result := by
  cases write with
  | insert entry => exact LruHashMap.insert_self _ _ _
  | remove => exact LruHashMap.remove_self _ _

theorem MapWrite.apply_of_ne (h : k ≠ key) : write.apply blacklist key k = blacklist k := by
  cases write with
  | insert entry => exact LruHashMap.insert_of_ne _ _ h
  | remove => exact LruHashMap.remove_of_ne _ h

/-- A block always writes. -/
theorem MapWriter.next_isSome (h : writer.requested = some untilNs) :
    ∃ write, writer.next seen = some write := by
  cases writer with
  | isBlacklisted key nowNs due => cases h
  | addToBlacklist key durationS reason nowNs => exact ⟨_, rfl⟩
  | blockIpRaw key durationS reason nowNs => exact ⟨_, rfl⟩
  | adaptiveBlock key durationS untilReadNs nowNs => exact ⟨_, rfl⟩

/-- From the writer's time on, the entry it leaves is in force when its copy is or its own block is. -/
theorem inForce_result (h : writer.next seen = some write) (hle : writer.nowNs ≤ u) :
    InForce write.result u ↔
      InForce seen u ∨ ∃ untilNs, writer.requested = some untilNs ∧ EffectiveAt untilNs u := by
  have hmerge : ∀ untilNs reason explicit,
      InForce (some (mergeBlockEntry seen writer.nowNs untilNs reason explicit)) u ↔
        InForce seen u ∨ ∃ v, some untilNs = some v ∧ EffectiveAt v u := by
    intro untilNs reason explicit
    simpa [InForce] using effectiveAt_mergeBlockEntry hle
  cases writer with
  | addToBlacklist key durationS reason nowNs =>
    cases h
    exact hmerge _ _ _
  | blockIpRaw key durationS reason nowNs =>
    cases h
    exact hmerge _ _ _
  | adaptiveBlock key durationS untilReadNs nowNs =>
    cases h
    exact hmerge _ _ _
  | isBlacklisted key nowNs due =>
    simp only [MapWriter.requested, reduceCtorEq, false_and, exists_false, or_false]
    cases seen with
    | none => cases h
    | some entry =>
      by_cases heff : EffectiveAt entry.blockedUntilNs nowNs
      · simp only [MapWriter.next, if_pos heff] at h
        cases due with
        | false => cases h
        | true =>
          cases h
          simp [InForce, MapWrite.result]
      · simp only [MapWriter.next, if_neg heff] at h
        cases h
        -- an entry that has expired stays so
        constructor
        · rintro ⟨e, he, -⟩
          cases he
        · rintro ⟨e, he, hforce⟩
          cases he
          exact absurd (hforce.anti hle) heff

end Write

/-! ## Steps -/

/-- What a step can be. -/
inductive WriterMove (s : WriterWorld) : WriterLabel → WriterWorld → Prop where
  | lookup {id : Nat} {writer : MapWriter} {t : UInt64} (hclock : s.clockNs ≤ t)
    (hnow : writer.nowNs ≤ t) (hfree : s.tasks id = none) :
    WriterMove s (.lookup id writer t)
      { s with
        clockNs := t
        tasks := s.tasks.set id ((writer.next (s.blacklist writer.key)).map fun write =>
          ⟨writer, s.blacklist writer.key, write⟩) }
  | write {id : Nat} {t : UInt64} {p : PendingWrite} (hclock : s.clockNs ≤ t)
    (htask : s.tasks id = some p) :
    WriterMove s (.write id t)
      { blacklist := p.write.apply s.blacklist p.writer.key
        clockNs := t
        tasks := s.tasks.set id none }
  | unblock {key : IpKey} {t : UInt64} (hclock : s.clockNs ≤ t) :
    WriterMove s (.unblock key t) { s with blacklist := s.blacklist.remove key, clockNs := t }

theorem writerStep_moves {s s' : WriterWorld} {l : WriterLabel} (h : writerStep s l = some s') :
    WriterMove s l s' := by
  unfold writerStep at h
  split at h
  · cases h
  · rename_i hclock
    have hclock : s.clockNs ≤ l.time := UInt64.not_lt.1 hclock
    cases l with
    | lookup id writer t =>
      dsimp only at h
      split at h
      · cases h
      · rename_i hnow
        split at h
        · cases h
        · rename_i hfree
          cases h
          exact .lookup hclock (UInt64.not_lt.1 hnow) hfree
    | write id t =>
      obtain ⟨p, hp, rfl⟩ := Option.map_eq_some_iff.1 h
      exact .write hclock hp
    | unblock key t =>
      cases h
      exact .unblock hclock

/-- Each task in flight writes what it has decided on its copy, and its reading of the clock is
past. -/
def TasksSound (s : WriterWorld) : Prop :=
  s.tasks.Each fun p => p.writer.next p.seen = some p.write ∧ p.writer.nowNs ≤ s.clockNs

theorem tasksSound_step {s s' : WriterWorld} {l : WriterLabel} (h : TasksSound s)
    (hstep : writerStep s l = some s') : TasksSound s' := by
  have hmove := writerStep_moves hstep
  have hlater : ∀ t, s.clockNs ≤ t → s.tasks.Each fun p =>
      p.writer.next p.seen = some p.write ∧ p.writer.nowNs ≤ t := by
    intro t ht id p hp
    obtain ⟨hnext, hnow⟩ := h id p hp
    exact ⟨hnext, UInt64.le_trans hnow ht⟩
  cases hmove with
  | lookup hclock hnow hfree =>
    refine (hlater _ hclock).set fun p hp => ?_
    obtain ⟨write, hwrite, rfl⟩ := Option.map_eq_some_iff.1 hp
    exact ⟨hwrite, hnow⟩
  | write hclock htask =>
    refine (hlater _ hclock).set fun p hp => ?_
    cases hp
  | unblock hclock => exact hlater _ hclock

/-- A writer that writes finds in force nothing that its copy did not have and its own block does not
cover, and a packet finds in force all that its copy had. -/
def NoStaleWrite (s : WriterWorld) : WriterLabel → Prop
  | .write id t => ∀ p, s.tasks id = some p → ∀ u, t ≤ u →
      (Blacklisted s.blacklist p.writer.key u →
        InForce p.seen u ∨ ∃ untilNs, p.writer.requested = some untilNs ∧ EffectiveAt untilNs u) ∧
      (p.writer.requested = none → InForce p.seen u → Blacklisted s.blacklist p.writer.key u)
  | _ => True

section Step

variable {s s' : WriterWorld} {l : WriterLabel} {key : IpKey} {u untilNs : UInt64}

theorem clockNs_le_of_step (hstep : writerStep s l = some s') : s.clockNs ≤ s'.clockNs := by
  cases writerStep_moves hstep with
  | lookup hclock hnow hfree => exact hclock
  | write hclock htask => exact hclock
  | unblock hclock => exact hclock

/-- What is in force stays so, if it is not unblocked. -/
theorem blacklisted_step (h : TasksSound s) (hcond : NoStaleWrite s l)
    (hstep : writerStep s l = some s') (hkeep : ∀ t, l ≠ .unblock key t) (hu : s'.clockNs ≤ u)
    (hforce : Blacklisted s.blacklist key u) : Blacklisted s'.blacklist key u := by
  cases writerStep_moves hstep with
  | lookup hclock hnow hfree => exact hforce
  | write hclock htask =>
    rename_i id t p
    by_cases hk : key = p.writer.key
    · subst hk
      obtain ⟨hnext, hnow⟩ := h id p htask
      have hle := UInt64.le_trans hnow (UInt64.le_trans hclock hu)
      have hseen := (hcond p htask u hu).1 hforce
      show InForce (p.write.apply s.blacklist p.writer.key p.writer.key) u
      rw [MapWrite.apply_self]
      exact (inForce_result hnext hle).2 hseen
    · show InForce (p.write.apply s.blacklist p.writer.key key) u
      rw [MapWrite.apply_of_ne hk]
      exact hforce
  | unblock hclock =>
    rename_i k t
    by_cases hk : key = k
    · exact absurd (congrArg (fun k => WriterLabel.unblock k t) hk.symm) (hkeep t)
    · show InForce (s.blacklist.remove k key) u
      rw [LruHashMap.remove_of_ne _ hk]
      exact hforce

/-- No block of `key` is between its two operations. -/
def NoBlockPending (key : IpKey) (s : WriterWorld) : Prop :=
  s.tasks.Each fun p => p.writer.key = key → p.writer.requested = none

/-- Where no block of `key` is in flight, nothing comes into force. -/
theorem not_blacklisted_step (h : TasksSound s) (hcond : NoStaleWrite s l)
    (hstep : writerStep s l = some s') (hnone : NoBlockPending key s) (hu : s'.clockNs ≤ u)
    (hforce : ¬ Blacklisted s.blacklist key u) : ¬ Blacklisted s'.blacklist key u := by
  cases writerStep_moves hstep with
  | lookup hclock hnow hfree => exact hforce
  | write hclock htask =>
    rename_i id t p
    by_cases hk : key = p.writer.key
    · subst hk
      obtain ⟨hnext, hnow⟩ := h id p htask
      have hle := UInt64.le_trans hnow (UInt64.le_trans hclock hu)
      have hpacket : p.writer.requested = none := hnone id p htask rfl
      show ¬ InForce (p.write.apply s.blacklist p.writer.key p.writer.key) u
      rw [MapWrite.apply_self, inForce_result hnext hle]
      rintro (hseen | ⟨v, hv, -⟩)
      · exact hforce ((hcond p htask u hu).2 hpacket hseen)
      · rw [hpacket] at hv
        cases hv
    · show ¬ InForce (p.write.apply s.blacklist p.writer.key key) u
      rw [MapWrite.apply_of_ne hk]
      exact hforce
  | unblock hclock =>
    rename_i k t
    show ¬ InForce (s.blacklist.remove k key) u
    by_cases hk : key = k
    · subst hk
      rw [LruHashMap.remove_self]
      rintro ⟨e, he, -⟩
      cases he
    · rw [LruHashMap.remove_of_ne _ hk]
      exact hforce

theorem noBlockPending_step (h : NoBlockPending key s) (hstep : writerStep s l = some s')
    (hpost : ∀ id writer t, l = .lookup id writer t → writer.key = key → writer.requested = none) :
    NoBlockPending key s' := by
  cases writerStep_moves hstep with
  | lookup hclock hnow hfree =>
    refine Each.set h fun p hp => ?_
    obtain ⟨write, -, rfl⟩ := Option.map_eq_some_iff.1 hp
    exact hpost _ _ _ rfl
  | write hclock htask =>
    refine Each.set h fun p hp => ?_
    cases hp
  | unblock hclock => exact h

/-! ## One block -/

/-- The block is still to be written by task `id`, or in force as long as it asked for. -/
def BlockStands (id : Nat) (writer : MapWriter) (untilNs : UInt64) (s : WriterWorld) : Prop :=
  (∃ p, s.tasks id = some p ∧ p.writer = writer) ∨
    ∀ u, s.clockNs ≤ u → EffectiveAt untilNs u → Blacklisted s.blacklist writer.key u

theorem blockStands_step {id : Nat} {writer : MapWriter} (h : TasksSound s)
    (hcond : NoStaleWrite s l) (hstep : writerStep s l = some s')
    (hrequest : writer.requested = some untilNs) (hkeep : ∀ t, l ≠ .unblock writer.key t)
    (hstands : BlockStands id writer untilNs s) : BlockStands id writer untilNs s' := by
  rcases hstands with ⟨p, hp, hwriter⟩ | hforce
  · cases writerStep_moves hstep with
    | lookup hclock hnow hfree =>
      rename_i id' writer' t
      have hne : id ≠ id' := by
        rintro rfl
        rw [hfree] at hp
        cases hp
      exact .inl ⟨p, (Function.update_of_ne hne _ _).trans hp, hwriter⟩
    | write hclock htask =>
      rename_i id' t p'
      by_cases hid : id = id'
      · subst hid
        obtain rfl : p' = p := Option.some.inj (htask.symm.trans hp)
        subst hwriter
        obtain ⟨hnext, hnow⟩ := h id p' htask
        refine .inr fun u hu heff => ?_
        have hle := UInt64.le_trans hnow (UInt64.le_trans hclock hu)
        show InForce (p'.write.apply s.blacklist p'.writer.key p'.writer.key) u
        rw [MapWrite.apply_self, inForce_result hnext hle]
        exact .inr ⟨untilNs, hrequest, heff⟩
      · exact .inl ⟨p, (Function.update_of_ne hid _ _).trans hp, hwriter⟩
    | unblock hclock => exact .inl ⟨p, hp, hwriter⟩
  · refine .inr fun u hu heff => ?_
    have hbefore := hforce u (UInt64.le_trans (clockNs_le_of_step hstep) hu) heff
    exact blacklisted_step h hcond hstep hkeep hu hbefore

end Step

/-! ## Runs -/

section Run

variable {s₀ s : WriterWorld} {pre post : List WriterLabel}

theorem tasksSound_run (hidle : s₀.tasks.Idle) (hrun : exec writerStep s₀ pre = some s) :
    TasksSound s := by
  have hstart : TasksSound s₀ := by
    intro id p hp
    rw [hidle id] at hp
    cases hp
  exact exec_invariant (c := fun _ _ => True) (fun _ _ _ hI _ h => tasksSound_step hI h) hstart
    (along_of_forall (fun _ _ => trivial) _ _) hrun

/-- A block that no unblock overlaps or follows is in force until its expiry. -/
theorem block_stands_run {id : Nat} {writer : MapWriter} {t untilNs : UInt64}
    (hidle₀ : s₀.tasks.Idle)
    (hcond : Along writerStep NoStaleWrite s₀ (pre ++ .lookup id writer t :: post))
    (hrun : exec writerStep s₀ (pre ++ .lookup id writer t :: post) = some s)
    (hidle : s.tasks.Idle) (hrequest : writer.requested = some untilNs)
    (hpost : ∀ t', .unblock writer.key t' ∉ post) (u : UInt64) (hu : s.clockNs ≤ u)
    (heff : EffectiveAt untilNs u) : Blacklisted s.blacklist writer.key u := by
  obtain ⟨s₁, hpre, hrest⟩ := exec_append_eq_some hrun
  obtain ⟨s₂, hlookup, hrest⟩ := Option.bind_eq_some_iff.1 hrest
  have hsound₁ := tasksSound_run hidle₀ hpre
  have hstands₂ : BlockStands id writer untilNs s₂ := by
    cases writerStep_moves hlookup with
    | lookup hclock hnow hfree =>
      obtain ⟨write, hwrite⟩ : ∃ write, writer.next (s₁.blacklist writer.key) = some write :=
        MapWriter.next_isSome hrequest
      refine .inl ⟨⟨writer, s₁.blacklist writer.key, write⟩, ?_, rfl⟩
      show TaskTable.set _ _ _ id = _
      rw [hwrite, TaskTable.set, Function.update_self]
      rfl
  have hkeep : ∀ l ∈ post, ∀ t', l ≠ .unblock writer.key t' := by
    rintro l hl t' rfl
    exact hpost t' hl
  have hcond₂ := ((hcond.of_append hpre).2 s₂ hlookup).and_mem hkeep
  have hstands := exec_invariant (I := fun s => TasksSound s ∧ BlockStands id writer untilNs s)
    (fun _ _ _ hI hc h => ⟨tasksSound_step hI.1 h, blockStands_step hI.1 hc.1 h hrequest hc.2 hI.2⟩)
    ⟨tasksSound_step hsound₁ hlookup, hstands₂⟩ hcond₂ hrest
  rcases hstands.2 with ⟨p, hp, -⟩ | hforce
  · rw [hidle id] at hp
    cases hp
  · exact hforce u hu heff

/-- After an unblock that no block overlaps or follows, nothing is in force. -/
theorem unblock_final_run {key : IpKey} {t : UInt64} (hidle₀ : s₀.tasks.Idle)
    (hcond : Along writerStep NoStaleWrite s₀ (pre ++ .unblock key t :: post))
    (hrun : exec writerStep s₀ (pre ++ .unblock key t :: post) = some s)
    (hpre : ∀ s₁, exec writerStep s₀ pre = some s₁ → NoBlockPending key s₁)
    (hpost : ∀ id writer t', .lookup id writer t' ∈ post → writer.key = key →
      writer.requested = none) (u : UInt64) (hu : s.clockNs ≤ u) :
    ¬ Blacklisted s.blacklist key u := by
  obtain ⟨s₁, hrun₁, hrest⟩ := exec_append_eq_some hrun
  obtain ⟨s₂, hunblock, hrest⟩ := Option.bind_eq_some_iff.1 hrest
  have hsound₁ := tasksSound_run hidle₀ hrun₁
  have hfree₂ : ∀ u, s₂.clockNs ≤ u → ¬ Blacklisted s₂.blacklist key u := by
    cases writerStep_moves hunblock with
    | unblock hclock =>
      rintro u - ⟨e, he, -⟩
      have he : s₁.blacklist.remove key key = some e := he
      rw [LruHashMap.remove_self] at he
      cases he
  have hnone₂ : NoBlockPending key s₂ :=
    noBlockPending_step (hpre s₁ hrun₁) hunblock fun _ _ _ h => by cases h
  have hmem : ∀ l ∈ post, ∀ id writer t', l = .lookup id writer t' → writer.key = key →
      writer.requested = none := by
    rintro l hl id writer t' rfl
    exact hpost id writer t' hl
  have hcond₂ := ((hcond.of_append hrun₁).2 s₂ hunblock).and_mem hmem
  have hfree := exec_invariant
    (I := fun s => TasksSound s ∧ NoBlockPending key s ∧
      ∀ u, s.clockNs ≤ u → ¬ Blacklisted s.blacklist key u)
    (fun a l b hI hc h => ⟨tasksSound_step hI.1 h, noBlockPending_step hI.2.1 h hc.2,
      fun u hu => not_blacklisted_step hI.1 hc.1 h hI.2.1 hu
        (hI.2.2 u (UInt64.le_trans (clockNs_le_of_step h) hu))⟩)
    ⟨tasksSound_step hsound₁ hunblock, hnone₂, hfree₂⟩ hcond₂ hrest
  exact hfree.2.2 u hu

/-- In every interleaving whose writes meet `NoStaleWrite`, once all writers have finished: a block
that no unblock overlaps or follows is in force until the expiry it requested, and after an unblock
that no block overlaps or follows nothing is in force. -/
theorem map_writers_keep_blocks {labels : List WriterLabel} (hidle₀ : s₀.tasks.Idle)
    (hcond : Along writerStep NoStaleWrite s₀ labels) (hrun : exec writerStep s₀ labels = some s)
    (hidle : s.tasks.Idle) :
    (∀ pre id writer t post untilNs, labels = pre ++ .lookup id writer t :: post →
      writer.requested = some untilNs → (∀ t', .unblock writer.key t' ∉ post) →
      ∀ u, s.clockNs ≤ u → EffectiveAt untilNs u → Blacklisted s.blacklist writer.key u) ∧
    (∀ pre key t post, labels = pre ++ .unblock key t :: post →
      (∀ s₁, exec writerStep s₀ pre = some s₁ → NoBlockPending key s₁) →
      (∀ id writer t', .lookup id writer t' ∈ post → writer.key = key →
        writer.requested = none) →
      ∀ u, s.clockNs ≤ u → ¬ Blacklisted s.blacklist key u) := by
  constructor
  · rintro pre id writer t post untilNs rfl hrequest hpost
    exact block_stands_run hidle₀ hcond hrun hidle hrequest hpost
  · rintro pre key t post rfl hpre hpost
    exact unblock_final_run hidle₀ hcond hrun hpre hpost

end Run

/-- A block of five seconds and one of a hundred overlap, and a packet meets the entry they leave. -/
def overlappingBlocks : List WriterLabel :=
  [.lookup 0 (.addToBlacklist (.fromIpv4 1) 5 2 1000000000) 1000000000,
    .lookup 1 (.blockIpRaw (.fromIpv4 1) 100 6 1000000000) 1000000000, .write 0 2000000000,
    .write 1 2000000000, .lookup 2 (.isBlacklisted (.fromIpv4 1) 3000000000 true) 3000000000,
    .write 2 3000000000]

theorem noStaleWrite_overlappingBlocks :
    Along writerStep NoStaleWrite { blacklist := .empty, clockNs := 0 } overlappingBlocks := by
  refine .cons rfl trivial (.cons rfl trivial (.cons rfl (fun p hp u _ => ?_)
    (.cons rfl (fun p hp u _ => ?_) (.cons rfl trivial (.cons rfl (fun p hp u _ => ?_) trivial)))))
  · cases hp
    refine ⟨fun hforce => ?_, fun hpacket => (by cases hpacket)⟩
    obtain ⟨e, he, -⟩ := hforce
    cases he
  · cases hp
    refine ⟨fun hforce => .inr ⟨_, rfl, ?_⟩, fun hpacket => (by cases hpacket)⟩
    -- what the first has written ends sooner
    obtain ⟨e, he, heff⟩ := hforce
    cases he
    exact .inr (UInt64.lt_trans (heff.resolve_left (by decide)) (by decide))
  · cases hp
    exact ⟨fun hforce => .inl hforce, fun _ hforce => hforce⟩

/-- Both blocks are in force until their ends. -/
theorem map_writers_keep_blocks_overlapping :
    ∃ s, exec writerStep { blacklist := .empty, clockNs := 0 } overlappingBlocks = some s ∧
      Blacklisted s.blacklist (.fromIpv4 1) 5500000000 ∧
      Blacklisted s.blacklist (.fromIpv4 1) 100500000000 := by
  obtain ⟨s, hrun, hidle, hclock⟩ : ∃ s,
      exec writerStep { blacklist := .empty, clockNs := 0 } overlappingBlocks = some s ∧
        s.tasks.Idle ∧ s.clockNs = 3000000000 := by
    refine ⟨_, rfl, fun id => ?_, rfl⟩
    simp only [TaskTable.set, Function.update_apply]
    split_ifs <;> rfl
  have hstands := (map_writers_keep_blocks (fun _ => rfl) noStaleWrite_overlappingBlocks hrun
    hidle).1
  refine ⟨s, hrun, ?_, ?_⟩
  · exact hstands [] 0 (.addToBlacklist (.fromIpv4 1) 5 2 1000000000) 1000000000 _ _ rfl rfl (by simp)
      5500000000 (by rw [hclock]; decide) (.inr (by decide))
  · exact hstands [.lookup 0 (.addToBlacklist (.fromIpv4 1) 5 2 1000000000) 1000000000] 1
      (.blockIpRaw (.fromIpv4 1) 100 6 1000000000) 1000000000 _ _ rfl rfl (by simp) 100500000000
      (by rw [hclock]; decide) (.inr (by decide))

/-- A packet copies an entry that ends at second 2, a block extends it to second 101, and the packet
writes its copy back: at second 50 the source is no longer blocked. -/
theorem stale_hit_undoes_block :
    ∃ s₀ s, s₀.tasks.Idle ∧
      exec writerStep s₀
        [.lookup 0 (.isBlacklisted (.fromIpv4 1) 1000000000 true) 1000000000,
          .lookup 1 (.blockIpRaw (.fromIpv4 1) 100 6 1000000000) 1000000000,
          .write 1 1000000000, .write 0 1000000000] = some s ∧ s.tasks.Idle ∧
      (MapWriter.blockIpRaw (.fromIpv4 1) 100 6 1000000000).requested = some 101000000000 ∧
      ¬ Blacklisted s.blacklist (.fromIpv4 1) 50000000000 := by
  refine ⟨{ blacklist := LruHashMap.empty.insert (.fromIpv4 1) ⟨2000000000, 0, 0, 2, 0⟩
            clockNs := 0 }, _, fun _ => rfl, rfl, fun id => ?_, by decide, by decide⟩
  by_cases h0 : id = 0
  · subst h0
    rfl
  · refine (Function.update_of_ne h0 _ _).trans ?_
    by_cases h1 : id = 1
    · subst h1
      rfl
    · refine (Function.update_of_ne h1 _ _).trans ((Function.update_of_ne h1 _ _).trans ?_)
      exact Function.update_of_ne h0 _ _

end EShield.Node
