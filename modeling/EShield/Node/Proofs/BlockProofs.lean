import EShield.Common.Proofs.PureProofs
import EShield.Node.Adaptive

/-!
# Blocks combine as a union

The data plane, the control plane and the adaptive engine write the same map through the same merge.
Whatever they and the lookups do, a source is blocked at a later time exactly when it was at the
start or one of the blocks reaches that far.
-/

namespace EShield.Node

open Ebpf

/-! ## The expiry of a block -/

/-- A block of `durationS` seconds from `readNs` on is permanent, or its end, clamped to the last
instant of the clock, lies after `t`. -/
def Reaches (readNs durationS t : UInt64) : Prop :=
  durationS = 0 ∨ t.toNat < min (readNs.toNat + durationS.toNat * 10 ^ 9) (2 ^ 64 - 1)

instance (readNs durationS t : UInt64) : Decidable (Reaches readNs durationS t) :=
  inferInstanceAs (Decidable (_ ∨ _))

theorem toNat_blockUntil {readNs durationS : UInt64} (h : durationS ≠ 0) :
    (blockUntil readNs durationS).toNat =
      min (readNs.toNat + durationS.toNat * 10 ^ 9) (2 ^ 64 - 1) := by
  have hmul : (1000000000 : UInt64).toNat = 10 ^ 9 := rfl
  rw [blockUntil, if_neg h, UInt64.toNat_saturatingAdd, UInt64.toNat_saturatingMul, hmul]
  omega

theorem blockUntil_ne_permanent {readNs durationS : UInt64} (h : durationS ≠ 0) :
    blockUntil readNs durationS ≠ BLOCK_PERMANENT := by
  have hpos := UInt64.ne_zero_iff_toNat_pos.1 h
  have hval : (blockUntil readNs durationS).toNat = _ := toNat_blockUntil h
  rw [BLOCK_PERMANENT, UInt64.ne_zero_iff_toNat_pos]
  omega

/-- A block does not end before it begins. -/
theorem le_blockUntil (readNs durationS : UInt64) :
    blockUntil readNs durationS = BLOCK_PERMANENT ∨ readNs ≤ blockUntil readNs durationS := by
  by_cases h : durationS = 0
  · exact .inl (if_pos h)
  · have hmax := readNs.toNat_lt
    rw [UInt64.le_iff_toNat_le, toNat_blockUntil h]
    exact .inr (by omega)

theorem effectiveAt_blockUntil {readNs durationS t : UInt64} :
    EffectiveAt (blockUntil readNs durationS) t ↔ Reaches readNs durationS t := by
  by_cases h : durationS = 0
  · simp [Reaches, blockUntil, h]
  · simp only [EffectiveAt, blockUntil_ne_permanent h, Reaches, h, false_or,
      UInt64.lt_iff_toNat_lt, toNat_blockUntil h]

/-- The data plane computes the same expiry with its own overflow test. -/
theorem addUntil_eq_blockUntil (nowNs durationS : UInt64) :
    addUntil nowNs durationS = blockUntil nowNs durationS := by
  by_cases h : durationS = 0
  · simp [addUntil, blockUntil, h]
  · have hmul : (1000000000 : UInt64).toNat = 10 ^ 9 := rfl
    have hmax : (0xffffffffffffffff : UInt64).toNat = 2 ^ 64 - 1 := rfl
    have hdiv : ((0xffffffffffffffff : UInt64) / 1000000000).toNat = (2 ^ 64 - 1) / 10 ^ 9 := rfl
    simp only [addUntil, blockUntil, h, if_false]
    congr 1
    rw [← UInt64.toNat_inj, UInt64.toNat_saturatingMul, hmul]
    split
    · rename_i hgt
      rw [gt_iff_lt, UInt64.lt_iff_toNat_lt, hdiv] at hgt
      omega
    · rename_i hle
      rw [gt_iff_lt, UInt64.lt_iff_toNat_lt, hdiv] at hle
      rw [UInt64.toNat_mul, hmul]
      omega

/-! ## Histories -/

/-- What can happen to the BLACKLIST map without an unblock or an eviction. -/
inductive BlacklistStep where
  /-- `add_to_blacklist` of the data plane. -/
  | addToBlacklist (key : IpKey) (durationS : UInt64) (reason : UInt8) (nowNs : UInt64)
  /-- `block_ip_raw` of the control plane. -/
  | blockIpRaw (key : IpKey) (durationS : UInt64) (reason : UInt8) (nowNs : UInt64)
  /-- The block step of the adaptive engine. -/
  | adaptiveBlock (key : IpKey) (durationS untilReadNs nowNs : UInt64)
  /-- A packet looks its source up. -/
  | isBlacklisted (key : IpKey) (nowNs : UInt64)

namespace BlacklistStep

def apply (m : Maps) : BlacklistStep → Maps
  | addToBlacklist key durationS reason nowNs => Ebpf.addToBlacklist m key nowNs durationS reason
  | blockIpRaw key durationS reason nowNs =>
    { m with blacklist := Node.blockIpRaw m.blacklist key durationS reason nowNs }
  | adaptiveBlock key durationS untilReadNs nowNs =>
    { m with blacklist := Node.adaptiveBlock m.blacklist key durationS untilReadNs nowNs }
  | isBlacklisted key nowNs => (Ebpf.isBlacklisted m key nowNs).2

/-- The clock when the map is written. -/
def nowNs : BlacklistStep → UInt64
  | addToBlacklist _ _ _ nowNs => nowNs
  | blockIpRaw _ _ _ nowNs => nowNs
  | adaptiveBlock _ _ _ nowNs => nowNs
  | isBlacklisted _ nowNs => nowNs

/-- The step is a block of `k` that reaches beyond `t`. -/
def Blocks (k : IpKey) (t : UInt64) : BlacklistStep → Prop
  | addToBlacklist key durationS _ nowNs => key = k ∧ Reaches nowNs durationS t
  | blockIpRaw key durationS _ nowNs => key = k ∧ Reaches nowNs durationS t
  | adaptiveBlock key durationS untilReadNs _ => key = k ∧ Reaches untilReadNs durationS t
  | isBlacklisted _ _ => False

/-- The IP a block is about; none for a lookup. -/
def blocked : BlacklistStep → Option IpKey
  | addToBlacklist key _ _ _ => some key
  | blockIpRaw key _ _ _ => some key
  | adaptiveBlock key _ _ _ => some key
  | isBlacklisted _ _ => none

end BlacklistStep

/-- The maps after a history. -/
def runSteps (m : Maps) (steps : List BlacklistStep) : Maps := steps.foldl BlacklistStep.apply m

/-! ## One step -/

section step

variable {blacklist : LruHashMap IpKey BlockEntry} {key k : IpKey} {nowNs untilNs t : UInt64}
  {reason : UInt8} {explicit : Bool}

theorem blacklisted_mergeInto (hle : nowNs ≤ t) :
    Blacklisted (mergeInto blacklist key nowNs untilNs reason explicit) k t ↔
      Blacklisted blacklist k t ∨ (key = k ∧ EffectiveAt untilNs t) := by
  unfold Blacklisted mergeInto
  by_cases hk : key = k
  · subst hk
    simp [effectiveAt_mergeBlockEntry hle]
  · rw [LruHashMap.insert_of_ne _ _ (Ne.symm hk)]
    simp [hk]

/-- A lookup changes the hit count of an entry in force and removes one that is not. -/
theorem blacklisted_isBlacklisted (m : Maps) (hle : nowNs ≤ t) :
    Blacklisted (isBlacklisted m key nowNs).2.blacklist k t ↔ Blacklisted m.blacklist k t := by
  unfold isBlacklisted Blacklisted
  cases hentry : m.blacklist key with
  | none => rfl
  | some e =>
    by_cases heff : EffectiveAt e.blockedUntilNs nowNs
    · simp only [heff, if_true]
      split
      · by_cases hk : k = key
        · subst hk
          simp [Maps.withStats, hentry]
        · simp [Maps.withStats, LruHashMap.insert_of_ne _ _ hk]
      · rfl
    · simp only [heff, if_false]
      by_cases hk : k = key
      · subst hk
        simp only [LruHashMap.remove_self, hentry, Option.some.injEq]
        constructor
        · rintro ⟨_, h, _⟩
          cases h
        · rintro ⟨_, rfl, h⟩
          exact absurd (h.anti hle) heff
      · simp [LruHashMap.remove_of_ne _ hk]

/-- From the time of a step on, it adds its own block to what is blocked, and nothing else. -/
theorem blacklisted_apply (m : Maps) (step : BlacklistStep) (hle : step.nowNs ≤ t) :
    Blacklisted (step.apply m).blacklist k t ↔ Blacklisted m.blacklist k t ∨ step.Blocks k t := by
  cases step with
  | addToBlacklist key durationS reason nowNs =>
    simp only [BlacklistStep.apply, BlacklistStep.Blocks, Ebpf.addToBlacklist, Maps.withStats,
      ← effectiveAt_blockUntil, ← addUntil_eq_blockUntil]
    exact blacklisted_mergeInto hle
  | blockIpRaw key durationS reason nowNs =>
    simp only [BlacklistStep.apply, BlacklistStep.Blocks, ← effectiveAt_blockUntil]
    exact blacklisted_mergeInto hle
  | adaptiveBlock key durationS untilReadNs nowNs =>
    simp only [BlacklistStep.apply, BlacklistStep.Blocks, ← effectiveAt_blockUntil]
    exact blacklisted_mergeInto hle
  | isBlacklisted key nowNs =>
    simp only [BlacklistStep.Blocks, or_false]
    exact blacklisted_isBlacklisted m hle

/-- What every block keeps of an entry in force: it ends no earlier, stays permanent, and keeps the
time it was first seen and its hit count. -/
def Keeps (e e' : BlockEntry) : Prop :=
  (e'.blockedUntilNs = BLOCK_PERMANENT ∨ e.blockedUntilNs ≤ e'.blockedUntilNs) ∧
    (e.blockedUntilNs = BLOCK_PERMANENT → e'.blockedUntilNs = BLOCK_PERMANENT) ∧
    e'.firstSeenNs = e.firstSeenNs ∧ e'.hitCount = e.hitCount

theorem mergeInto_keeps {e : BlockEntry} (he : blacklist key = some e)
    (heff : EffectiveAt e.blockedUntilNs nowNs) :
    ∃ e', mergeInto blacklist key nowNs untilNs reason explicit key = some e' ∧ Keeps e e' := by
  obtain ⟨huntil, hfirst, hhits⟩ :=
    mergeBlockEntry_of_effective untilNs reason explicit heff
  refine ⟨_, by rw [mergeInto, he]; exact LruHashMap.insert_self _ _ _, ?_, ?_, hfirst, hhits⟩
  · rw [huntil]
    exact le_laterUntil _ _
  · intro hperm
    rw [huntil, hperm, laterUntil_permanent]

theorem apply_keeps (m : Maps) (step : BlacklistStep) (hkey : step.blocked = some key)
    {e : BlockEntry} (he : m.blacklist key = some e)
    (heff : EffectiveAt e.blockedUntilNs step.nowNs) :
    ∃ e', (step.apply m).blacklist key = some e' ∧ Keeps e e' := by
  cases step <;> cases hkey <;> exact mergeInto_keeps he heff

end step

/-! ## Whole histories -/

theorem blacklisted_runSteps (m : Maps) (steps : List BlacklistStep) (k : IpKey) {t : UInt64}
    (hle : ∀ step ∈ steps, step.nowNs ≤ t) :
    Blacklisted (runSteps m steps).blacklist k t ↔
      Blacklisted m.blacklist k t ∨ ∃ step ∈ steps, step.Blocks k t := by
  induction steps generalizing m with
  | nil => simp [runSteps]
  | cons step steps ih =>
    rw [runSteps, List.foldl_cons, ← runSteps,
      ih (step.apply m) fun st hst => hle st (List.mem_cons_of_mem _ hst),
      blacklisted_apply m step (hle step List.mem_cons_self)]
    simp [or_assoc]

/-- After every history, and at every time from its last step on, a source is blocked exactly when
it was before or a block of the history reaches that far; and on the way no block shortens or
resets an entry in force. -/
theorem blocks_combine (m : Maps) (steps : List BlacklistStep) (k : IpKey) :
    (∀ t, (∀ step ∈ steps, step.nowNs ≤ t) →
      (Blacklisted (runSteps m steps).blacklist k t ↔
        Blacklisted m.blacklist k t ∨ ∃ step ∈ steps, step.Blocks k t)) ∧
    (∀ pre step post, steps = pre ++ step :: post → step.blocked = some k →
      ∀ e, (runSteps m pre).blacklist k = some e → EffectiveAt e.blockedUntilNs step.nowNs →
        ∃ e', (runSteps m (pre ++ [step])).blacklist k = some e' ∧ Keeps e e') := by
  refine ⟨fun t hle => blacklisted_runSteps m steps k hle, ?_⟩
  intro pre step post _ hkey e he heff
  rw [runSteps, List.foldl_append]
  exact apply_keeps (runSteps m pre) step hkey he heff

/-- Five seconds from the data plane at second 1 and three from the control plane at second 2: the
source is still blocked at five and a half. -/
theorem blocks_combine_two_writers :
    Blacklisted
      (runSteps {}
        [.addToBlacklist (.fromIpv4 1) 5 2 1000000000,
          .blockIpRaw (.fromIpv4 1) 3 6 2000000000]).blacklist (.fromIpv4 1) 5500000000 :=
  ((blocks_combine {} [.addToBlacklist (.fromIpv4 1) 5 2 1000000000,
      .blockIpRaw (.fromIpv4 1) 3 6 2000000000] (.fromIpv4 1)).1 5500000000
    (by simp [BlacklistStep.nowNs])).2
    (.inr ⟨.addToBlacklist (.fromIpv4 1) 5 2 1000000000, by simp, rfl, .inr (by decide)⟩)

end EShield.Node
