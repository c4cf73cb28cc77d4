import EShield.Common.Pure

/-!
# Merging blacklist entries

An expiry in force stays in force under every merge, and a merge brings in no expiry but its own:
over the times after it, the merged entry is the union of the old entry and the new block.
-/

namespace EShield

theorem not_effectiveAt_iff {untilNs nowNs : UInt64} :
    ¬ EffectiveAt untilNs nowNs ↔ untilNs ≠ BLOCK_PERMANENT ∧ untilNs ≤ nowNs := by
  simp [EffectiveAt]

@[simp] theorem effectiveAt_permanent (nowNs : UInt64) : EffectiveAt BLOCK_PERMANENT nowNs :=
  .inl rfl

/-- A block in force at some time was so at every earlier one. -/
theorem EffectiveAt.anti {untilNs nowNs t : UInt64} (h : EffectiveAt untilNs t) (hle : nowNs ≤ t) :
    EffectiveAt untilNs nowNs :=
  Or.imp_right (UInt64.lt_of_le_of_lt hle) h

theorem effectiveAt_laterUntil {a b t : UInt64} :
    EffectiveAt (laterUntil a b) t ↔ EffectiveAt a t ∨ EffectiveAt b t := by
  unfold laterUntil
  split
  · rename_i hperm
    rcases hperm with rfl | rfl <;> simp
  · rename_i hperm
    obtain ⟨ha, hb⟩ := not_or.1 hperm
    unfold EffectiveAt
    split <;> simp only [ha, hb, false_or] <;> grind

/-- The later expiry is not the earlier of the two. -/
theorem le_laterUntil (a b : UInt64) : laterUntil a b = BLOCK_PERMANENT ∨ a ≤ laterUntil a b := by
  unfold laterUntil
  split
  · exact .inl rfl
  · split
    · exact .inr UInt64.le_rfl
    · rename_i hgt
      exact .inr (UInt64.not_lt.1 hgt)

@[simp] theorem laterUntil_permanent (b : UInt64) :
    laterUntil BLOCK_PERMANENT b = BLOCK_PERMANENT :=
  if_pos (.inl rfl)

theorem laterUntil_ne_permanent {a b : UInt64} (ha : a ≠ BLOCK_PERMANENT)
    (hb : b ≠ BLOCK_PERMANENT) : laterUntil a b ≠ BLOCK_PERMANENT := by
  rw [laterUntil, if_neg (not_or.2 ⟨ha, hb⟩)]
  split
  · exact ha
  · exact hb

section merge

variable {prev : Option BlockEntry} {p : BlockEntry} {nowNs untilNs : UInt64} {reason : UInt8}
  {explicit : Bool}

/-- What a merge keeps of an entry in force. -/
theorem mergeBlockEntry_of_effective (untilNs : UInt64) (reason : UInt8) (explicit : Bool)
    (h : EffectiveAt p.blockedUntilNs nowNs) :
    (mergeBlockEntry (some p) nowNs untilNs reason explicit).blockedUntilNs =
        laterUntil p.blockedUntilNs untilNs ∧
      (mergeBlockEntry (some p) nowNs untilNs reason explicit).firstSeenNs = p.firstSeenNs ∧
      (mergeBlockEntry (some p) nowNs untilNs reason explicit).hitCount = p.hitCount := by
  simp only [mergeBlockEntry, if_pos h]
  cases explicit <;> exact ⟨rfl, rfl, rfl⟩

/-- Over an absent or expired entry a merge starts afresh. -/
theorem mergeBlockEntry_of_not_effective
    (h : ∀ p, prev = some p → ¬ EffectiveAt p.blockedUntilNs nowNs) :
    mergeBlockEntry prev nowNs untilNs reason explicit =
      mergeBlockEntry.fresh nowNs untilNs reason := by
  cases prev with
  | none => rfl
  | some p => simp [mergeBlockEntry, h p rfl]

/-- From the time of the merge on, its entry is in force exactly when the old one is or the new
block is. -/
theorem effectiveAt_mergeBlockEntry {t : UInt64} (hle : nowNs ≤ t) :
    EffectiveAt (mergeBlockEntry prev nowNs untilNs reason explicit).blockedUntilNs t ↔
      (∃ p, prev = some p ∧ EffectiveAt p.blockedUntilNs t) ∨ EffectiveAt untilNs t := by
  by_cases h : ∃ p, prev = some p ∧ EffectiveAt p.blockedUntilNs nowNs
  · obtain ⟨p, rfl, hp⟩ := h
    rw [(mergeBlockEntry_of_effective _ _ _ hp).1, effectiveAt_laterUntil]
    simp
  · rw [not_exists] at h
    have hnone : ¬ ∃ p, prev = some p ∧ EffectiveAt p.blockedUntilNs t := by
      rintro ⟨p, hp, heff⟩
      exact h p ⟨hp, heff.anti hle⟩
    rw [mergeBlockEntry_of_not_effective fun p hp heff => h p ⟨hp, heff⟩]
    simp [mergeBlockEntry.fresh, hnone]

/-- A block that does not end before it is written takes nothing away from the entry it is merged
into, not even at times that are already past. -/
theorem EffectiveAt.merge {t : UInt64} (h : EffectiveAt p.blockedUntilNs t)
    (huntil : untilNs = BLOCK_PERMANENT ∨ nowNs ≤ untilNs) :
    EffectiveAt (mergeBlockEntry (some p) nowNs untilNs reason explicit).blockedUntilNs t := by
  by_cases hnow : EffectiveAt p.blockedUntilNs nowNs
  · rw [(mergeBlockEntry_of_effective _ _ _ hnow).1, effectiveAt_laterUntil]
    exact .inl h
  · rw [mergeBlockEntry_of_not_effective fun q hq => Option.some.inj hq ▸ hnow]
    obtain ⟨hne, hle⟩ := not_effectiveAt_iff.1 hnow
    have hlt : t < nowNs := UInt64.lt_of_lt_of_le (h.resolve_left hne) hle
    exact huntil.imp_right (UInt64.lt_of_lt_of_le hlt)

/-- A timed block over a timed entry, or over none, is timed. -/
theorem mergeBlockEntry_ne_permanent
    (hprev : ∀ p, prev = some p → p.blockedUntilNs ≠ BLOCK_PERMANENT)
    (huntil : untilNs ≠ BLOCK_PERMANENT) :
    (mergeBlockEntry prev nowNs untilNs reason explicit).blockedUntilNs ≠ BLOCK_PERMANENT := by
  by_cases h : ∃ p, prev = some p ∧ EffectiveAt p.blockedUntilNs nowNs
  · obtain ⟨p, rfl, hp⟩ := h
    rw [(mergeBlockEntry_of_effective _ _ _ hp).1]
    exact laterUntil_ne_permanent (hprev p rfl) huntil
  · rw [mergeBlockEntry_of_not_effective fun p hp heff => h ⟨p, hp, heff⟩]
    exact huntil

end merge

end EShield
