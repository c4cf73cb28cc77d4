import EShield.Lib.SplitScale
import EShield.Ebpf.RateCounter

/-!
# The modulated threshold

`modulateThreshold` scales a base threshold down by the trust factor and the danger factor. On exact
numbers it is two steps of `SplitScale`, the limit being the largest word whose product with 1000 fits.
It never overflows, never exceeds the base and follows trust and danger the right way. It can fall to
zero on small bases, and it does not keep the order of bases where the order of computation changes.
-/

namespace EShield.Ebpf

open SplitScale

/-- The bases from which on a step divides first. -/
def safeMax : UInt64 := 0xffffffffffffffff / 1000

/-- One of the two steps. -/
def scaleStep (x factor : UInt64) : UInt64 :=
  if x > safeMax then x / 1000 * factor else x * factor / 1000

/-- The product that a step forms is one of exact numbers. -/
def ProductFits (x factor : UInt64) : Prop :=
  (if x > safeMax then x / 1000 else x).toNat * factor.toNat < 2 ^ 64

/-- The threshold for `src` at a base. -/
def thresholdAt (m : Maps) (src : IpKey) (level : UInt8) (base : UInt64) : UInt64 :=
  modulateThreshold base (trustFactor m src) (dangerFactor level)

/-- What is asked of the modulation, of the bases from `lo` to `hi`. -/
structure SaneOn (m : Maps) (src : IpKey) (level : UInt8) (lo hi : UInt64) : Prop where
  factor : (trustFactor m src).toNat = (500 + (trustEntry m src).trustScore.toNat) * 1000 / 1500
  noOverflow : ∀ b, lo ≤ b → b ≤ hi → ProductFits b (trustFactor m src) ∧
    ProductFits (scaleStep b (trustFactor m src)) (dangerFactor level)
  positive : ∀ b, lo ≤ b → b ≤ hi → 1 ≤ thresholdAt m src level b
  bounded : ∀ b, lo ≤ b → b ≤ hi → thresholdAt m src level b ≤ b
  base : ∀ b b', lo ≤ b → b ≤ b' → b' ≤ hi → thresholdAt m src level b ≤ thresholdAt m src level b'
  trust : ∀ b, lo ≤ b → b ≤ hi → ∀ (m' : Maps) (src' : IpKey),
    (trustEntry m src).trustScore ≤ (trustEntry m' src').trustScore →
    (trustEntry m' src').trustScore ≤ 1000 → thresholdAt m src level b ≤ thresholdAt m' src' level b
  danger : ∀ b, lo ≤ b → b ≤ hi → ∀ level', level ≤ level' → level' ≤ 2 →
    thresholdAt m src level' b ≤ thresholdAt m src level b

/-- The least product of base and trust factor that leaves something: the elevated levels take up to
half of it. -/
def floorAt (level : UInt8) : Nat := if level = 0 then 1000 else 2000

/-- The order of computation changes behind `b` and takes more than it should. The first step changes
it behind `safeMax`; above, the results of the first step grow once in a thousand bases, and the second
step can change between two of them. -/
def AtSwitch (m : Maps) (src : IpKey) (level : UInt8) (b : UInt64) : Prop :=
  b = safeMax ∨ safeMax < b ∧ 1000 ∣ b.toNat + 1 ∧
    Splits 1000 safeMax.toNat (dangerFactor level).toNat
      (b.toNat / 1000 * (trustFactor m src).toNat) ((b.toNat / 1000 + 1) * (trustFactor m src).toNat)

variable {m : Maps} {src : IpKey} {level : UInt8} {lo hi : UInt64}

/-! ## On exact numbers -/

theorem toNat_trustFactor (hscore : (trustEntry m src).trustScore ≤ 1000) :
    (trustFactor m src).toNat = (500 + (trustEntry m src).trustScore.toNat) * 1000 / 1500 := by
  have hle : (trustEntry m src).trustScore.toNat ≤ 1000 := UInt32.le_iff_toNat_le.1 hscore
  have hsum : ((500 : UInt64) + (trustEntry m src).trustScore.toUInt64).toNat =
      500 + (trustEntry m src).trustScore.toNat := by
    rw [UInt64.toNat_add]
    refine Nat.mod_eq_of_lt ?_
    show 500 + (trustEntry m src).trustScore.toNat < _
    omega
  have hmul : (((500 : UInt64) + (trustEntry m src).trustScore.toUInt64) * 1000).toNat =
      (500 + (trustEntry m src).trustScore.toNat) * 1000 := by
    rw [UInt64.toNat_mul, hsum]
    refine Nat.mod_eq_of_lt ?_
    show (500 + (trustEntry m src).trustScore.toNat) * 1000 < _
    omega
  rw [trustFactor, UInt64.toNat_div, hmul]
  rfl

theorem trustFactor_mem (hscore : (trustEntry m src).trustScore ≤ 1000) :
    333 ≤ (trustFactor m src).toNat ∧ (trustFactor m src).toNat ≤ 1000 := by
  have hle : (trustEntry m src).trustScore.toNat ≤ 1000 := UInt32.le_iff_toNat_le.1 hscore
  rw [toNat_trustFactor hscore]
  constructor <;> omega

/-- The levels that the control plane writes. -/
theorem level_cases (hlevel : level ≤ 2) : level = 0 ∨ level = 1 ∨ level = 2 := by
  have hle : level.toNat ≤ 2 := UInt8.le_iff_toNat_le.1 hlevel
  have hcases : level.toNat = 0 ∨ level.toNat = 1 ∨ level.toNat = 2 := by omega
  rcases hcases with h | h | h
  · exact .inl (UInt8.toNat_inj.1 h)
  · exact .inr (.inl (UInt8.toNat_inj.1 h))
  · exact .inr (.inr (UInt8.toNat_inj.1 h))

theorem dangerFactor_mem (level : UInt8) :
    500 ≤ (dangerFactor level).toNat ∧ (dangerFactor level).toNat ≤ 1000 := by
  rw [dangerFactor]
  split
  · decide
  · split <;> decide

/-- What the second step needs so as not to give zero. -/
theorem floorAt_spec (hlevel : level ≤ 2) :
    ∃ k, k ≤ 2 ∧ floorAt level = k * 1000 ∧
      ∀ c, 1000 ≤ c * (dangerFactor level).toNat ↔ k ≤ c := by
  rcases level_cases hlevel with rfl | rfl | rfl
  · refine ⟨1, by omega, rfl, fun c => ?_⟩
    show 1000 ≤ c * 1000 ↔ 1 ≤ c
    omega
  · refine ⟨2, by omega, rfl, fun c => ?_⟩
    show 1000 ≤ c * 750 ↔ 2 ≤ c
    omega
  · refine ⟨2, by omega, rfl, fun c => ?_⟩
    show 1000 ≤ c * 500 ↔ 2 ≤ c
    omega

theorem safeMax_lt_iff (x : UInt64) : x > safeMax ↔ x.toNat > safeMax.toNat :=
  UInt64.lt_iff_toNat_lt

theorem productFits_of_le {x factor : UInt64} (hfactor : factor.toNat ≤ 1000) :
    ProductFits x factor := by
  have hfits := product_lt (show safeMax.toNat * 1000 < 2 ^ 64 by decide) x.toNat_lt hfactor
  rw [ProductFits]
  by_cases habove : x > safeMax
  · rw [if_pos habove, UInt64.toNat_div]
    rwa [if_pos ((safeMax_lt_iff x).1 habove)] at hfits
  · rw [if_neg habove]
    rwa [if_neg (mt (safeMax_lt_iff x).2 habove)] at hfits

/-- A step whose product fits is a step on exact numbers. -/
theorem toNat_scaleStep {x factor : UInt64} (hfits : ProductFits x factor) :
    (scaleStep x factor).toNat = scale 1000 safeMax.toNat factor.toNat x.toNat := by
  rw [ProductFits] at hfits
  rw [scaleStep]
  by_cases habove : x > safeMax
  · rw [if_pos habove, UInt64.toNat_div] at hfits
    rw [if_pos habove, scale_of_lt ((safeMax_lt_iff x).1 habove), UInt64.toNat_mul, UInt64.toNat_div]
    exact Nat.mod_eq_of_lt hfits
  · rw [if_neg habove] at hfits
    have hbelow : x.toNat ≤ safeMax.toNat := Nat.not_lt.1 (mt (safeMax_lt_iff x).2 habove)
    rw [if_neg habove, scale_of_le hbelow, UInt64.toNat_div, UInt64.toNat_mul,
      Nat.mod_eq_of_lt hfits]
    rfl

/-- The modulation is two steps on exact numbers. -/
theorem toNat_thresholdAt (hscore : (trustEntry m src).trustScore ≤ 1000) (level : UInt8)
    (b : UInt64) :
    (thresholdAt m src level b).toNat =
      twice 1000 safeMax.toNat (trustFactor m src).toNat (dangerFactor level).toNat b.toNat := by
  show (scaleStep (scaleStep b (trustFactor m src)) (dangerFactor level)).toNat = _
  rw [toNat_scaleStep (productFits_of_le (dangerFactor_mem level).2),
    toNat_scaleStep (productFits_of_le (trustFactor_mem hscore).2)]
  rfl

/-! ## What always holds -/

theorem thresholdAt_le (hscore : (trustEntry m src).trustScore ≤ 1000) (b : UInt64) :
    thresholdAt m src level b ≤ b := by
  rw [UInt64.le_iff_toNat_le, toNat_thresholdAt hscore]
  exact twice_le (by omega) (trustFactor_mem hscore).2 (dangerFactor_mem level).2 _

theorem thresholdAt_trust {m' : Maps} {src' : IpKey}
    (hle : (trustEntry m src).trustScore ≤ (trustEntry m' src').trustScore)
    (hscore : (trustEntry m' src').trustScore ≤ 1000) (b : UInt64) :
    thresholdAt m src level b ≤ thresholdAt m' src' level b := by
  have hscore' : (trustEntry m src).trustScore ≤ 1000 := UInt32.le_trans hle hscore
  have hfactor : (trustFactor m src).toNat ≤ (trustFactor m' src').toNat := by
    rw [toNat_trustFactor hscore, toNat_trustFactor hscore']
    have hscores := UInt32.le_iff_toNat_le.1 hle
    exact Nat.div_le_div_right (Nat.mul_le_mul_right _ (by omega))
  rw [UInt64.le_iff_toNat_le, toNat_thresholdAt hscore, toNat_thresholdAt hscore']
  exact twice_mono_num (by omega) (by decide) hfactor (trustFactor_mem hscore).2 _

theorem thresholdAt_danger (hscore : (trustEntry m src).trustScore ≤ 1000) {level' : UInt8}
    (hle : level ≤ level') (hlevel : level' ≤ 2) (b : UInt64) :
    thresholdAt m src level' b ≤ thresholdAt m src level b := by
  have hfactor : (dangerFactor level').toNat ≤ (dangerFactor level).toNat := by
    rcases level_cases hlevel with rfl | rfl | rfl <;>
      rcases level_cases (UInt8.le_trans hle hlevel) with rfl | rfl | rfl <;> revert hle <;> decide
  rw [UInt64.le_iff_toNat_le, toNat_thresholdAt hscore, toNat_thresholdAt hscore]
  exact scale_mono_num hfactor _

/-! ## What depends on the bases -/

theorem one_le_thresholdAt_iff (hscore : (trustEntry m src).trustScore ≤ 1000) (hlevel : level ≤ 2)
    (b : UInt64) :
    1 ≤ thresholdAt m src level b ↔ floorAt level ≤ b.toNat * (trustFactor m src).toNat := by
  obtain ⟨k, hk, hfloor, hspec⟩ := floorAt_spec hlevel
  have hlimit : safeMax.toNat = 18446744073709551 := by decide
  rw [UInt64.le_iff_toNat_le, toNat_thresholdAt hscore, hfloor]
  exact one_le_twice_iff (by omega) (by omega) (by omega) hspec _

/-- One base to the next. -/
theorem thresholdAt_le_succ_iff (hscore : (trustEntry m src).trustScore ≤ 1000) {b : UInt64}
    (hb : b.toNat + 1 < 2 ^ 64) :
    thresholdAt m src level b ≤ thresholdAt m src level (b + 1) ↔ ¬ AtSwitch m src level b := by
  have hlimit : safeMax.toNat = 18446744073709551 := by decide
  obtain ⟨hlow, hhigh⟩ := trustFactor_mem hscore
  obtain ⟨hdlow, hdhigh⟩ := dangerFactor_mem level
  have hnext : (b + 1).toNat = b.toNat + 1 := by
    rw [UInt64.toNat_add]
    exact Nat.mod_eq_of_lt hb
  rw [UInt64.le_iff_toNat_le, toNat_thresholdAt hscore, toNat_thresholdAt hscore, hnext, AtSwitch,
    UInt64.lt_iff_toNat_lt, ← UInt64.toNat_inj]
  rcases Nat.lt_trichotomy b.toNat safeMax.toNat with hbelow | hat | habove
  · refine iff_of_true (twice_succ_of_lt (by omega) hhigh hbelow) ?_
    rintro (hat | ⟨habove, -⟩) <;> omega
  · -- 551 thousandths of the factor are lost, which the second step does not make good
    have hlost : 1000 ≤ 551 * (trustFactor m src).toNat / 1000 * (dangerFactor level).toNat := by
      have hrest : 2 ≤ 551 * (trustFactor m src).toNat / 1000 := by omega
      have hprod := Nat.mul_le_mul hrest hdlow
      omega
    have hfall := twice_succ_lt safeMax.toNat (by omega) hhigh (by decide) hlost
    rw [hat]
    exact iff_of_false (Nat.not_le.2 hfall) fun hnot => hnot (.inl rfl)
  · rw [twice_le_succ_iff (by omega) habove]
    constructor
    · rintro hnot (hat | ⟨-, hswitch⟩)
      · omega
      · exact hnot hswitch
    · exact fun hnot hswitch => hnot (.inr ⟨habove, hswitch⟩)

/-- The order of all bases of a range is that of neighbours. -/
theorem thresholdAt_mono_iff (hscore : (trustEntry m src).trustScore ≤ 1000) :
    (∀ b b', lo ≤ b → b ≤ b' → b' ≤ hi → thresholdAt m src level b ≤ thresholdAt m src level b') ↔
      ∀ b, lo ≤ b → b < hi → ¬ AtSwitch m src level b := by
  constructor
  · intro hmono b hlo hhi
    have hhi' := UInt64.lt_iff_toNat_lt.1 hhi
    have hb : b.toNat + 1 < 2 ^ 64 := lt_of_le_of_lt hhi' hi.toNat_lt
    have hnext : (b + 1).toNat = b.toNat + 1 := by
      rw [UInt64.toNat_add]
      exact Nat.mod_eq_of_lt hb
    refine (thresholdAt_le_succ_iff hscore hb).1 (hmono b (b + 1) hlo ?_ ?_)
    · rw [UInt64.le_iff_toNat_le]
      omega
    · rw [UInt64.le_iff_toNat_le]
      omega
  · intro hnone b b' hlo hle hhi
    rw [UInt64.le_iff_toNat_le] at hlo hle hhi
    -- along the bases between the two
    have hwalk : ∀ n, b.toNat + n ≤ b'.toNat →
        thresholdAt m src level b ≤ thresholdAt m src level (.ofNat (b.toNat + n)) := by
      intro n
      induction n with
      | zero =>
        intro _
        rw [Nat.add_zero, UInt64.ofNat_toNat]
      | succ n ih =>
        intro hn
        have hbound : b.toNat + n + 1 < 2 ^ 64 := lt_of_le_of_lt hn b'.toNat_lt
        have hword : (UInt64.ofNat (b.toNat + n)).toNat = b.toNat + n :=
          UInt64.toNat_ofNat_of_lt' (Nat.lt_of_succ_lt hbound)
        have hsucc : UInt64.ofNat (b.toNat + (n + 1)) = UInt64.ofNat (b.toNat + n) + 1 := by
          rw [← Nat.add_assoc, UInt64.ofNat_add]
          rfl
        rw [hsucc]
        refine UInt64.le_trans (ih (by omega)) ((thresholdAt_le_succ_iff hscore (by omega)).2 ?_)
        refine hnone _ ?_ ?_
        · rw [UInt64.le_iff_toNat_le]
          omega
        · rw [UInt64.lt_iff_toNat_lt]
          omega
    have hreach := hwalk (b'.toNat - b.toNat) (by omega)
    rwa [Nat.add_sub_cancel' hle, UInt64.ofNat_toNat] at hreach

/-- The modulation is sane on a range of bases exactly if its lowest base leaves something and the order
of computation changes nowhere between two of its bases at a loss. -/
theorem threshold_sane_iff (hscore : (trustEntry m src).trustScore ≤ 1000) (hlevel : level ≤ 2)
    (hle : lo ≤ hi) :
    SaneOn m src level lo hi ↔
      floorAt level ≤ lo.toNat * (trustFactor m src).toNat ∧
        ∀ b, lo ≤ b → b < hi → ¬ AtSwitch m src level b := by
  constructor
  · intro h
    exact ⟨(one_le_thresholdAt_iff hscore hlevel lo).1 (h.positive lo (UInt64.le_refl lo) hle),
      (thresholdAt_mono_iff hscore).1 h.base⟩
  · rintro ⟨hfloor, hnone⟩
    exact {
      factor := toNat_trustFactor hscore
      noOverflow := fun b _ _ => ⟨productFits_of_le (trustFactor_mem hscore).2,
        productFits_of_le (dangerFactor_mem level).2⟩
      positive := by
        intro b hlo _
        refine (one_le_thresholdAt_iff hscore hlevel b).2 (hfloor.trans ?_)
        exact Nat.mul_le_mul_right _ (UInt64.le_iff_toNat_le.1 hlo)
      bounded := fun b _ _ => thresholdAt_le hscore b
      base := (thresholdAt_mono_iff hscore).2 hnone
      trust := fun b _ _ m' src' hle hscore' => thresholdAt_trust hle hscore' b
      danger := fun b _ _ level' hle hlevel' => thresholdAt_danger hscore hle hlevel' b }

/-- An unknown source at the highest level: every base from four up to the switch. -/
theorem threshold_sane_unknown : SaneOn {} (.fromIpv4 1) 2 4 safeMax := by
  refine (threshold_sane_iff (by decide) (by decide) (by decide)).2 ⟨by decide, ?_⟩
  intro b _ hb hswitch
  rcases hswitch with rfl | ⟨habove, -⟩
  · exact UInt64.lt_irrefl _ hb
  · exact UInt64.lt_irrefl _ (UInt64.lt_trans hb habove)

/-- For an unknown source a base of one gives zero, and one base more across the switch gives less. -/
theorem threshold_not_sane :
    (trustEntry {} (.fromIpv4 1)).trustScore ≤ 1000 ∧ thresholdAt {} (.fromIpv4 1) 0 1 = 0 ∧
      thresholdAt {} (.fromIpv4 1) 0 (safeMax + 1) < thresholdAt {} (.fromIpv4 1) 0 safeMax ∧
      ¬ SaneOn {} (.fromIpv4 1) 0 1 0xffffffffffffffff := by
  have hzero : ¬ 1 ≤ thresholdAt {} (.fromIpv4 1) 0 1 := by decide
  refine ⟨by decide, by decide, by decide, fun hsane => hzero ?_⟩
  exact hsane.positive 1 (by decide) (by decide)

end EShield.Ebpf
