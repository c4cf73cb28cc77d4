import EShield.Ebpf.Proofs.ThresholdProofs
import EShield.Node.Control

/-!
# Trust scores

Passed packets raise the score of a source, dropped ones lower it, a block takes it to zero, and the
hub sets it. Whatever the divisors, it stays between 0 and 1000, and so does everything that is computed
on the way stay within a word.
-/

namespace EShield.Node

open Ebpf

/-- The score of a source, that of a new one if it has no entry. -/
def scoreOf (m : Maps) (src : IpKey) : Nat := (trustEntry m src).trustScore.toNat

/-- No entry is above the maximum. -/
def ScoresInRange (m : Maps) : Prop := ∀ src e, m.trustMap src = some e → e.trustScore.toNat ≤ 1000

variable {m : Maps} {src : IpKey}

theorem ScoresInRange.scoreOf_le (h : ScoresInRange m) (src : IpKey) : scoreOf m src ≤ 1000 := by
  rw [scoreOf, trustEntry]
  cases he : m.trustMap src with
  | none => decide
  | some e => exact h src e he

/-- The range is kept by whoever writes an entry within it and no other. -/
theorem ScoresInRange.insert (h : ScoresInRange m) {m' : Maps} {e : TrustEntry}
    (he : e.trustScore.toNat ≤ 1000) (hm' : m'.trustMap = m.trustMap.insert src e) :
    ScoresInRange m' := by
  intro s e' he'
  rw [hm'] at he'
  by_cases hs : s = src
  · rw [hs, LruHashMap.insert_self] at he'
    cases he'
    exact he
  · rw [LruHashMap.insert_of_ne _ _ hs] at he'
    exact h s e' he'

theorem scoreOf_insert_self {m' : Maps} {e : TrustEntry}
    (hm' : m'.trustMap = m.trustMap.insert src e) : scoreOf m' src = e.trustScore.toNat := by
  rw [scoreOf, trustEntry, hm', LruHashMap.insert_self]
  rfl

theorem scoreOf_insert_of_ne {m' : Maps} {e : TrustEntry} {s : IpKey}
    (hm' : m'.trustMap = m.trustMap.insert src e) (hs : s ≠ src) : scoreOf m' s = scoreOf m s := by
  rw [scoreOf, trustEntry, hm', LruHashMap.insert_of_ne _ _ hs]
  rfl

/-! ## The data plane -/

/-- The divisor that is used for the configured one. -/
def divisorOf (configured default : UInt32) : UInt32 :=
  if configured = 0 then default else configured

/-- What a passed packet adds: a share of what is missing, times the weight. -/
def gain (score divisor weight : Nat) : Nat := (1000 - score) / divisor * weight

/-- A weight of 64 at most leaves the sum far below the largest word. -/
theorem gain_le (score divisor : Nat) {weight : Nat} (hweight : weight ≤ 64) :
    gain score divisor weight ≤ 64000 := by
  have hshare : (1000 - score) / divisor ≤ 1000 := (Nat.div_le_self _ _).trans (Nat.sub_le _ _)
  exact Nat.mul_le_mul hshare hweight

theorem toNat_min (a b : UInt32) : (min a b).toNat = min a.toNat b.toNat := by
  show (if a ≤ b then a else b).toNat = _
  split
  · rename_i hle
    exact (min_eq_left (UInt32.le_iff_toNat_le.1 hle)).symm
  · rename_i hgt
    exact (min_eq_right (UInt32.le_iff_toNat_le.1 (UInt32.le_of_lt (UInt32.not_le.1 hgt)))).symm

/-- On scores in range the machine computes with natural numbers. -/
theorem toNat_passScore {score divisor weight : UInt32} (hscore : score.toNat ≤ 1000)
    (hweight : weight.toNat ≤ 64) :
    (min (score + (TRUST_MAX.saturatingSub score / divisor).saturatingMul weight) TRUST_MAX).toNat =
      min (score.toNat + gain score.toNat divisor.toNat weight.toNat) 1000 := by
  have hgain := gain_le score.toNat divisor.toNat hweight
  have hmul : ((TRUST_MAX.saturatingSub score / divisor).saturatingMul weight).toNat =
      gain score.toNat divisor.toNat weight.toNat := by
    rw [UInt32.toNat_saturatingMul, UInt32.toNat_div, UInt32.toNat_saturatingSub]
    refine min_eq_left ?_
    show gain _ _ _ ≤ _
    omega
  have hadd : (score + (TRUST_MAX.saturatingSub score / divisor).saturatingMul weight).toNat =
      score.toNat + gain score.toNat divisor.toNat weight.toNat := by
    rw [UInt32.toNat_add, hmul]
    exact Nat.mod_eq_of_lt (by omega)
  rw [toNat_min, hadd]
  rfl

/-- What a passed packet writes. -/
theorem trustPass_spec (h : ScoresInRange m) (nowNs : UInt64) (addDivisor : UInt32)
    {weight : UInt32} (hweight : weight = 1 ∨ weight = 64) :
    ∃ e, (trustPass m src nowNs addDivisor weight).trustMap = m.trustMap.insert src e ∧
      e.trustScore.toNat = min (scoreOf m src + gain (scoreOf m src)
        (divisorOf addDivisor TRUST_ADD_DIVISOR).toNat weight.toNat) 1000 := by
  refine ⟨_, rfl, ?_⟩
  have hmax : max weight 1 = weight := by rcases hweight with rfl | rfl <;> decide
  have hle : weight.toNat ≤ 64 := by rcases hweight with rfl | rfl <;> decide
  dsimp only
  rw [hmax]
  exact toNat_passScore (h.scoreOf_le src) hle

/-- A dropped packet leaves the map as it is, or writes what is left of the score. -/
theorem trustDrop_spec (m : Maps) (src : IpKey) (nowNs : UInt64) (subDivisor : UInt32) :
    (trustDrop m src nowNs subDivisor).trustMap = m.trustMap ∨
      ∃ e, (trustDrop m src nowNs subDivisor).trustMap = m.trustMap.insert src e ∧
        e.trustScore.toNat =
          scoreOf m src - scoreOf m src / (divisorOf subDivisor TRUST_SUB_DIVISOR).toNat := by
  have hscore : ((trustEntry m src).trustScore.saturatingSub
      ((trustEntry m src).trustScore / divisorOf subDivisor TRUST_SUB_DIVISOR)).toNat =
        scoreOf m src - scoreOf m src / (divisorOf subDivisor TRUST_SUB_DIVISOR).toNat := by
    rw [UInt32.toNat_saturatingSub, UInt32.toNat_div]
    rfl
  rw [divisorOf] at hscore
  simp only [trustDrop]
  by_cases hzero : (trustEntry m src).trustScore.saturatingSub ((trustEntry m src).trustScore /
      if subDivisor = 0 then TRUST_SUB_DIVISOR else subDivisor) = TRUST_MIN
  · rw [if_pos hzero]
    split
    · exact .inr ⟨_, rfl, hscore⟩
    · exact .inl rfl
  · rw [if_neg hzero]
    exact .inr ⟨_, rfl, hscore⟩

/-- An expired entry that a look-up finds resets the score; no other look-up touches it. -/
theorem isBlacklisted_trustMap (m : Maps) (src : IpKey) (nowNs : UInt64) :
    (isBlacklisted m src nowNs).2.trustMap = m.trustMap ∨
      (isBlacklisted m src nowNs).2.trustMap =
        m.trustMap.insert src { trustScore := TRUST_DEFAULT } := by
  unfold isBlacklisted
  split
  · split
    · dsimp only
      split
      · exact .inl rfl
      · exact .inl rfl
    · exact .inr rfl
  · exact .inl rfl

/-! ## The control plane -/

theorem toNat_hubScore {score : UInt32} (h : score.toNat ≤ 100) :
    (score * 10).toNat = score.toNat * 10 := by
  rw [UInt32.toNat_mul]
  exact Nat.mod_eq_of_lt (by show score.toNat * 10 < _; omega)

/-- A policy of the hub writes ten times its score, or nothing. -/
theorem applyHubPolicy_trustMap (cfg : ApplyConfig) (s : ControlState) {policy : SharedPolicy}
    (hscore : policy.trustScore.toNat ≤ 100) (clock : BlockClock) :
    (applyHubPolicy cfg s policy clock).maps.trustMap = s.maps.trustMap ∨
      ∃ e, (applyHubPolicy cfg s policy clock).maps.trustMap =
          s.maps.trustMap.insert policy.ip e ∧
        e.trustScore.toNat = policy.trustScore.toNat * 10 := by
  simp only [applyHubPolicy]
  split
  · simp only [setTrustScore]
    split
    · exact .inl rfl
    · refine .inr ⟨_, rfl, ?_⟩
      rw [toNat_min, toNat_hubScore hscore]
      exact min_eq_left (by show _ ≤ 1000; omega)
  · exact .inl rfl

/-! ## Runs -/

/-- What touches the scores: packets passed and dropped, blocks, look-ups, policies of the hub, the
eviction of an entry, and work elsewhere. -/
inductive TrustOp where
  | pass (src : IpKey) (nowNs : UInt64) (addDivisor weight : UInt32)
  | drop (src : IpKey) (nowNs : UInt64) (subDivisor : UInt32)
  | block (src : IpKey) (nowNs blockDurationS : UInt64) (reason : UInt8)
  | lookup (src : IpKey) (nowNs : UInt64)
  | hub (cfg : ApplyConfig) (store : RuleStore) (policy : SharedPolicy) (clock : BlockClock)
  | evict (src : IpKey)
  | elsewhere (maps : Maps)

def trustStep (m : Maps) : TrustOp → Maps
  | .pass src nowNs addDivisor weight => trustPass m src nowNs addDivisor weight
  | .drop src nowNs subDivisor => trustDrop m src nowNs subDivisor
  | .block src nowNs blockDurationS reason => addToBlacklist m src nowNs blockDurationS reason
  | .lookup src nowNs => (isBlacklisted m src nowNs).2
  | .hub cfg store policy clock =>
    (applyHubPolicy cfg { maps := m, store := store } policy clock).maps
  | .evict src => { m with trustMap := m.trustMap.remove src }
  | .elsewhere maps => { maps with trustMap := m.trustMap }

/-- The weights that the programs use, and the scores that the protocol allows. -/
def TrustOp.Proper : TrustOp → Prop
  | .pass _ _ _ weight => weight = 1 ∨ weight = 64
  | .hub _ _ policy _ => policy.trustScore.toNat ≤ 100
  | _ => True

/-- What an operation computes with natural numbers fits in a word, and is what it writes. -/
def Fits (m : Maps) : TrustOp → Prop
  | .pass src nowNs addDivisor weight =>
    let added := gain (scoreOf m src) (divisorOf addDivisor TRUST_ADD_DIVISOR).toNat weight.toNat
    added < 2 ^ 32 ∧ scoreOf m src + added < 2 ^ 32 ∧
      scoreOf (trustPass m src nowNs addDivisor weight) src = min (scoreOf m src + added) 1000
  | .drop src _ subDivisor =>
    scoreOf m src / (divisorOf subDivisor TRUST_SUB_DIVISOR).toNat ≤ scoreOf m src
  | .hub _ _ policy _ => policy.trustScore.toNat * 10 < 2 ^ 32
  | _ => True

/-- A pass lowers no score and a drop raises none; a block leaves zero. -/
def MovesRight (m : Maps) : TrustOp → Prop
  | .pass src nowNs addDivisor weight =>
    ∀ s, scoreOf m s ≤ scoreOf (trustPass m src nowNs addDivisor weight) s
  | .drop src nowNs subDivisor => ∀ s, scoreOf (trustDrop m src nowNs subDivisor) s ≤ scoreOf m s
  | .block src nowNs blockDurationS reason =>
    scoreOf (addToBlacklist m src nowNs blockDurationS reason) src = 0
  | _ => True

theorem ScoresInRange.step (h : ScoresInRange m) {op : TrustOp} (hop : op.Proper) :
    ScoresInRange (trustStep m op) := by
  cases op with
  | pass src nowNs addDivisor weight =>
    obtain ⟨e, hmap, hscore⟩ := @trustPass_spec m src h nowNs addDivisor weight hop
    exact h.insert (by rw [hscore]; exact min_le_right _ _) hmap
  | drop src nowNs subDivisor =>
    rcases trustDrop_spec m src nowNs subDivisor with hmap | ⟨e, hmap, hscore⟩
    · intro s e he
      exact h s e (hmap ▸ he)
    · exact h.insert (by rw [hscore]; exact (Nat.sub_le _ _).trans (h.scoreOf_le src)) hmap
  | block src nowNs blockDurationS reason => exact h.insert (Nat.zero_le _) rfl
  | lookup src nowNs =>
    rcases isBlacklisted_trustMap m src nowNs with hmap | hmap
    · intro s e he
      exact h s e (hmap ▸ he)
    · exact h.insert (by decide) hmap
  | hub cfg store policy clock =>
    have hle : policy.trustScore.toNat ≤ 100 := hop
    rcases applyHubPolicy_trustMap cfg { maps := m, store := store } hle clock with
      hmap | ⟨e, hmap, hscore⟩
    · intro s e he
      exact h s e (hmap ▸ he)
    · exact h.insert (by rw [hscore]; omega) hmap
  | evict src =>
    intro s e he
    have hkept : m.trustMap.remove src s = some e := he
    by_cases hs : s = src
    · rw [hs, LruHashMap.remove_self] at hkept
      cases hkept
    · rw [LruHashMap.remove_of_ne _ hs] at hkept
      exact h s e hkept
  | elsewhere maps => exact h

theorem ScoresInRange.run {ops : List TrustOp} (h : ScoresInRange m) (hops : ∀ op ∈ ops, op.Proper) :
    ScoresInRange (ops.foldl trustStep m) := by
  induction ops generalizing m with
  | nil => exact h
  | cons op ops ih =>
    obtain ⟨hop, hops⟩ := List.forall_mem_cons.1 hops
    exact ih (h.step hop) hops

theorem ScoresInRange.fits (h : ScoresInRange m) {op : TrustOp} (hop : op.Proper) : Fits m op := by
  cases op with
  | pass src nowNs addDivisor weight =>
    obtain ⟨e, hmap, hscore⟩ := @trustPass_spec m src h nowNs addDivisor weight hop
    have hle : weight.toNat ≤ 64 := by
      rcases (show weight = 1 ∨ weight = 64 from hop) with rfl | rfl <;> decide
    have hgain := gain_le (scoreOf m src) (divisorOf addDivisor TRUST_ADD_DIVISOR).toNat hle
    have hrange := h.scoreOf_le src
    exact ⟨by omega, by omega, by rw [scoreOf_insert_self hmap, hscore]⟩
  | drop src nowNs subDivisor => exact Nat.div_le_self _ _
  | hub cfg store policy clock =>
    have hle : policy.trustScore.toNat ≤ 100 := hop
    show policy.trustScore.toNat * 10 < 2 ^ 32
    omega
  | block => trivial
  | lookup => trivial
  | evict => trivial
  | elsewhere => trivial

theorem ScoresInRange.movesRight (h : ScoresInRange m) {op : TrustOp} (hop : op.Proper) :
    MovesRight m op := by
  cases op with
  | pass src nowNs addDivisor weight =>
    obtain ⟨e, hmap, hscore⟩ := @trustPass_spec m src h nowNs addDivisor weight hop
    intro s
    by_cases hs : s = src
    · rw [hs, scoreOf_insert_self hmap, hscore]
      exact Nat.le_min.2 ⟨Nat.le_add_right _ _, h.scoreOf_le src⟩
    · rw [scoreOf_insert_of_ne hmap hs]
  | drop src nowNs subDivisor =>
    intro s
    rcases trustDrop_spec m src nowNs subDivisor with hmap | ⟨e, hmap, hscore⟩
    · rw [scoreOf, trustEntry, hmap]
      exact Nat.le_refl _
    · by_cases hs : s = src
      · rw [hs, scoreOf_insert_self hmap, hscore]
        exact Nat.sub_le _ _
      · rw [scoreOf_insert_of_ne hmap hs]
  | block src nowNs blockDurationS reason =>
    have hmap : (addToBlacklist m src nowNs blockDurationS reason).trustMap =
        m.trustMap.insert src { trustScore := TRUST_MIN, lastUpdateNs := nowNs } := rfl
    exact scoreOf_insert_self hmap
  | lookup => trivial
  | hub => trivial
  | evict => trivial
  | elsewhere => trivial

/-- The factor of a score in range is between a third and one. -/
theorem ScoresInRange.trustFactor_mem (h : ScoresInRange m) (src : IpKey) :
    333 ≤ (trustFactor m src).toNat ∧ (trustFactor m src).toNat ≤ 1000 :=
  EShield.Ebpf.trustFactor_mem (UInt32.le_iff_toNat_le.2 (h.scoreOf_le src))

/-- In every run from an empty map of whatever writes scores: they stay in range, nothing overflows on
the way, they move the right way, and the factor is between 333 and 1000. -/
theorem trust_in_range {ops : List TrustOp} (hempty : m.trustMap = .empty)
    (hops : ∀ op ∈ ops, op.Proper) :
    ScoresInRange (ops.foldl trustStep m) ∧
      (∀ op, op.Proper →
        Fits (ops.foldl trustStep m) op ∧ MovesRight (ops.foldl trustStep m) op) ∧
      ∀ src, 333 ≤ (trustFactor (ops.foldl trustStep m) src).toNat ∧
        (trustFactor (ops.foldl trustStep m) src).toNat ≤ 1000 := by
  have hstart : ScoresInRange m := by
    intro src e he
    rw [hempty] at he
    cases he
  have hrun := hstart.run hops
  exact ⟨hrun, fun op hop => ⟨hrun.fits hop, hrun.movesRight hop⟩, hrun.trustFactor_mem⟩

/-- A source is blocked, then passes with a divisor of one. -/
theorem trust_in_range_blocked :
    ScoresInRange ([TrustOp.block (.fromIpv4 1) 5 0 1, .pass (.fromIpv4 1) 6 1 64].foldl
      trustStep {}) :=
  (trust_in_range rfl (by
    intro op hop
    rcases List.mem_pair.1 hop with rfl | rfl
    · trivial
    · exact .inr rfl)).1

end EShield.Node
