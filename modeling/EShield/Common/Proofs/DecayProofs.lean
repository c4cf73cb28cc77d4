import EShield.Common.Pure
import EShield.Lib.WrappedScale

/-!
# Decay of a counter

Every full tick scales the counter by `decay_num / decay_den`, the product taken modulo 2^64.
-/

namespace EShield

open WrappedScale

/-- What one tick does to a counter. -/
def decayStep (decayNum decayDen counter : UInt64) : UInt64 := counter * decayNum / decayDen

theorem toNat_decayStep (decayNum decayDen counter : UInt64) :
    (decayStep decayNum decayDen counter).toNat =
      scale (2 ^ 64) decayNum.toNat decayDen.toNat counter.toNat := by
  rw [decayStep, scale, UInt64.toNat_div, UInt64.toNat_mul]

section

variable {counter counter' elapsedNs elapsedNs' tickNs decayNum decayDen : UInt64}

theorem decayCounter_eq_iterate (htick : tickNs ≠ 0) (hden : decayDen ≠ 0) :
    decayCounter counter elapsedNs tickNs decayNum decayDen =
      (decayStep decayNum decayDen)^[min (elapsedNs / tickNs).toNat 64] counter :=
  if_neg (not_or.2 ⟨htick, hden⟩)

/-- One tick has passed. -/
theorem decayCounter_self (htick : tickNs ≠ 0) (hden : decayDen ≠ 0) :
    decayCounter counter tickNs tickNs decayNum decayDen = decayStep decayNum decayDen counter := by
  have hone : min (tickNs / tickNs).toNat 64 = 1 := by
    have hpos : 0 < tickNs.toNat := UInt64.lt_iff_toNat_lt.1 (UInt64.pos_iff_ne_zero.2 htick)
    rw [UInt64.toNat_div, Nat.div_self hpos]
    rfl
  rw [decayCounter_eq_iterate htick hden, hone]
  rfl

end

/-! ## When decay is a decay -/

/-- Decay takes counters down, the further the more time has passed, and keeps their order. -/
structure Decays (tickNs decayNum decayDen : UInt64) : Prop where
  le : ∀ counter elapsedNs, decayCounter counter elapsedNs tickNs decayNum decayDen ≤ counter
  mono : ∀ counter counter' elapsedNs, counter ≤ counter' →
    decayCounter counter elapsedNs tickNs decayNum decayDen ≤
      decayCounter counter' elapsedNs tickNs decayNum decayDen
  anti : ∀ counter elapsedNs elapsedNs', elapsedNs ≤ elapsedNs' →
    decayCounter counter elapsedNs' tickNs decayNum decayDen ≤
      decayCounter counter elapsedNs tickNs decayNum decayDen

section

variable {tickNs decayNum decayDen : UInt64}

/-- A step that shrinks and keeps the order does so however often it is repeated. -/
theorem decays_of_step (htick : tickNs ≠ 0) (hden : decayDen ≠ 0)
    (hle : ∀ c, decayStep decayNum decayDen c ≤ c)
    (hmono : ∀ c c', c ≤ c' → decayStep decayNum decayDen c ≤ decayStep decayNum decayDen c') :
    Decays tickNs decayNum decayDen where
  le counter elapsedNs := by
    rw [decayCounter_eq_iterate htick hden]
    exact Function.iterate_le_id_of_le_id hle _ counter
  mono counter counter' elapsedNs h := by
    rw [decayCounter_eq_iterate htick hden, decayCounter_eq_iterate htick hden]
    exact Monotone.iterate (fun c c' => hmono c c') _ h
  anti counter elapsedNs elapsedNs' h := by
    rw [decayCounter_eq_iterate htick hden, decayCounter_eq_iterate htick hden]
    refine Function.antitone_iterate_of_le_id hle ?_ counter
    have hticks : (elapsedNs / tickNs).toNat ≤ (elapsedNs' / tickNs).toNat := by
      rw [UInt64.toNat_div, UInt64.toNat_div]
      exact Nat.div_le_div_right (UInt64.le_iff_toNat_le.1 h)
    omega

/-- Decay is one exactly if the numerator is at most one or the denominator exceeds every product
modulo 2^64. -/
theorem decays_iff (htick : tickNs ≠ 0) (hden : decayDen ≠ 0) :
    Decays tickNs decayNum decayDen ↔
      decayNum.toNat ≤ 1 ∨ 2 ^ 64 - decayNum.toNat.gcd (2 ^ 64) < decayDen.toNat := by
  have hpos : 0 < decayDen.toNat := UInt64.lt_iff_toNat_lt.1 (UInt64.pos_iff_ne_zero.2 hden)
  rw [← shrinks_iff decayNum.toNat_lt hpos]
  constructor
  · intro h
    refine ⟨fun c hc => ?_, fun c c' hle hc' => ?_⟩
    · have hstep := h.le (UInt64.ofNat c) tickNs
      rw [decayCounter_self htick hden, UInt64.le_iff_toNat_le, toNat_decayStep,
        UInt64.toNat_ofNat_of_lt' hc] at hstep
      exact hstep
    · have hc : c < 2 ^ 64 := Nat.lt_of_le_of_lt hle hc'
      have hle' : UInt64.ofNat c ≤ UInt64.ofNat c' := by
        rw [UInt64.le_iff_toNat_le, UInt64.toNat_ofNat_of_lt' hc, UInt64.toNat_ofNat_of_lt' hc']
        exact hle
      have hstep := h.mono _ _ tickNs hle'
      rw [decayCounter_self htick hden, decayCounter_self htick hden, UInt64.le_iff_toNat_le,
        toNat_decayStep, toNat_decayStep, UInt64.toNat_ofNat_of_lt' hc,
        UInt64.toNat_ofNat_of_lt' hc'] at hstep
      exact hstep
  · rintro ⟨hshrink, hmono⟩
    refine decays_of_step htick hden (fun c => ?_) (fun c c' hle => ?_)
    · rw [UInt64.le_iff_toNat_le, toNat_decayStep]
      exact hshrink _ c.toNat_lt
    · rw [UInt64.le_iff_toNat_le, toNat_decayStep, toNat_decayStep]
      exact hmono _ _ (UInt64.le_iff_toNat_le.1 hle) c'.toNat_lt

end

end EShield
