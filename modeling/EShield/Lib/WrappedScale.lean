import Mathlib

/-!
# Scaling by a fraction on machine words

`c * num / den` where the product is taken modulo `N`. The step shrinks every word and keeps their order
only if it never wraps or gives nothing but zero.
-/

namespace WrappedScale

/-- One step, on words below `N`. -/
def scale (N num den c : Nat) : Nat := c * num % N / den

variable {N num den : Nat}

/-- A product without its multiples of `N` is still a multiple of the common divisor. -/
theorem mul_mod_le (hN : 0 < N) (c : Nat) : c * num % N ≤ N - num.gcd N := by
  have hmod : c * num % N < N := Nat.mod_lt _ hN
  have hdvd : num.gcd N ∣ N - c * num % N := by
    refine Nat.dvd_sub (Nat.gcd_dvd_right _ _) ?_
    rw [Nat.dvd_mod_iff (Nat.gcd_dvd_right _ _)]
    exact dvd_mul_of_dvd_right (Nat.gcd_dvd_left _ _) c
  have hle : num.gcd N ≤ N - c * num % N := Nat.le_of_dvd (by omega) hdvd
  omega

theorem scale_eq_zero (hN : 0 < N) (hden : N - num.gcd N < den) (c : Nat) :
    scale N num den c = 0 :=
  Nat.div_eq_of_lt (lt_of_le_of_lt (mul_mod_le hN c) hden)

/-- Some multiple of `num` leaves any given multiple of the common divisor. -/
theorem exists_mul_mod_eq (hnum : num < N) (hpos : 0 < num) {r : Nat} (hr : r < N)
    (hdvd : num.gcd N ∣ r) : ∃ c < N, c * num % N = r := by
  have hgcd : num.gcd N < N := lt_of_le_of_lt (Nat.gcd_le_left N hpos) hnum
  obtain ⟨m, -, hm⟩ := Nat.exists_mul_mod_eq_gcd hgcd
  obtain ⟨k, rfl⟩ := hdvd
  refine ⟨m * k % N, Nat.mod_lt _ (by omega), ?_⟩
  calc m * k % N * num % N = num * m * k % N := by
        rw [Nat.mod_mul_mod]
        ring_nf
    _ = num * m % N * k % N := (Nat.mod_mul_mod _ _ _).symm
    _ = num.gcd N * k := by rw [hm, Nat.mod_eq_of_lt hr]

/-- A numerator at the denominator or above it: the word one is kept, a later one is lost. -/
theorem lost_of_den_le (hnum : 2 ≤ num) (hlt : num < N) (hden : 0 < den) (hle : den ≤ num)
    (hshrink : scale N num den 1 ≤ 1) :
    ∃ c c', c ≤ c' ∧ c' < N ∧ scale N num den c' < scale N num den c := by
  have hone : scale N num den 1 = num / den := by rw [scale, one_mul, Nat.mod_eq_of_lt hlt]
  have hkept : 1 ≤ num / den := (Nat.one_le_div_iff hden).2 hle
  have hden' : 2 ≤ den := by
    rcases Nat.lt_or_ge den 2 with hsmall | hlarge
    · obtain rfl : den = 1 := by omega
      rw [hone, Nat.div_one] at hshrink
      omega
    · exact hlarge
  obtain ⟨c, hc, hcN, hres⟩ : ∃ c, 1 ≤ c ∧ c < N ∧ c * num % N ≤ 1 := by
    rcases Nat.lt_or_ge (num.gcd N) 2 with hsmall | hlarge
    · have hpos : 0 < num.gcd N := Nat.gcd_pos_of_pos_left N (by omega)
      obtain ⟨c, hc, hres⟩ := exists_mul_mod_eq hlt (by omega) (by omega : 1 < N)
        (by rw [show num.gcd N = 1 by omega])
      refine ⟨c, ?_, hc, hres.le⟩
      by_contra hzero
      rw [show c = 0 by omega, Nat.zero_mul, Nat.zero_mod] at hres
      omega
    · have hdvd : num.gcd N ∣ N := Nat.gcd_dvd_right _ _
      refine ⟨N / num.gcd N, Nat.div_pos (Nat.le_of_dvd (by omega) hdvd) (by omega),
        Nat.div_lt_self (by omega) hlarge, ?_⟩
      have hprod : N / num.gcd N * num = N * (num / num.gcd N) := by
        rw [Nat.div_mul_right_comm hdvd, Nat.mul_div_assoc _ (Nat.gcd_dvd_left _ _)]
      rw [hprod, Nat.mul_mod_right]
      exact Nat.zero_le 1
  refine ⟨1, c, hc, hcN, ?_⟩
  have hlost : scale N num den c = 0 := Nat.div_eq_of_lt (by omega)
  omega

/-- A numerator below the denominator: the largest product is kept, the next one has wrapped. -/
theorem lost_of_num_lt (hnum : 2 ≤ num) (hlt : num < N) (hle : num < den)
    (hwrap : den ≤ N - num.gcd N) :
    ∃ c c', c ≤ c' ∧ c' < N ∧ scale N num den c' < scale N num den c := by
  have hden : 0 < den := by omega
  have hgcd : num.gcd N ≤ num := Nat.gcd_le_left N (by omega)
  have hpos : 0 < num.gcd N := Nat.gcd_pos_of_pos_left N (by omega)
  obtain ⟨c, hcN, hkept, hlost⟩ :
      ∃ c, c + 1 < N ∧ c * num % N = N - num.gcd N ∧ (c + 1) * num % N = num - num.gcd N := by
    by_cases heq : num.gcd N = num
    · have hdvd : num ∣ N := heq ▸ Nat.gcd_dvd_right num N
      obtain ⟨k, rfl⟩ := hdvd
      have hk : 1 ≤ k := by
        by_contra hk
        rw [show k = 0 by omega, Nat.mul_zero] at hlt
        omega
      have hprod : (k - 1) * num = num * k - num := by
        rw [Nat.sub_mul, Nat.mul_comm k num, Nat.one_mul]
      refine ⟨k - 1, ?_, ?_, ?_⟩
      · have htwo : 2 * k ≤ num * k := Nat.mul_le_mul_right k hnum
        omega
      · rw [hprod, heq]
        exact Nat.mod_eq_of_lt (by omega)
      · rw [Nat.sub_add_cancel hk, Nat.mul_comm k num, Nat.mod_self, heq, Nat.sub_self]
    · have hdvd : num.gcd N ∣ N - num.gcd N :=
        Nat.dvd_sub (Nat.gcd_dvd_right _ _) (dvd_refl _)
      obtain ⟨c, hc, hres⟩ := exists_mul_mod_eq hlt (by omega) (by omega) hdvd
      have hnext : (c + 1) * num % N = num - num.gcd N := by
        have hsum : (N - num.gcd N + num) % N = num - num.gcd N := by
          rw [show N - num.gcd N + num = N + (num - num.gcd N) by omega, Nat.add_mod_left]
          exact Nat.mod_eq_of_lt (by omega)
        rw [Nat.add_mul, Nat.one_mul, ← hsum, ← hres, Nat.mod_add_mod]
      refine ⟨c, ?_, hres, hnext⟩
      -- the last word is followed by zero
      by_contra hlast
      rw [show c + 1 = N by omega, Nat.mul_mod_right] at hnext
      omega
  refine ⟨c, c + 1, by omega, hcN, ?_⟩
  rw [scale, scale, hkept, hlost, Nat.div_eq_of_lt (by omega)]
  exact Nat.div_pos hwrap hden

/-- The step shrinks and keeps the order exactly if it never wraps or gives only zero. -/
theorem shrinks_iff (hnum : num < N) (hden : 0 < den) :
    ((∀ c < N, scale N num den c ≤ c) ∧
        ∀ c c', c ≤ c' → c' < N → scale N num den c ≤ scale N num den c') ↔
      num ≤ 1 ∨ N - num.gcd N < den := by
  have hN : 0 < N := by omega
  constructor
  · rintro ⟨hshrink, hmono⟩
    by_contra hnot
    rw [not_or, Nat.not_le, Nat.not_lt] at hnot
    obtain ⟨hnum', hwrap⟩ := hnot
    obtain ⟨c, c', hle, hc', hlt⟩ :
        ∃ c c', c ≤ c' ∧ c' < N ∧ scale N num den c' < scale N num den c := by
      rcases Nat.lt_or_ge num den with hbelow | habove
      · exact lost_of_num_lt hnum' hnum hbelow hwrap
      · exact lost_of_den_le hnum' hnum hden habove (hshrink 1 (by omega))
    have hkept := hmono c c' hle hc'
    omega
  · rintro (hsmall | hzero)
    · have hscale : ∀ c < N, scale N num den c = c * num / den := by
        intro c hc
        have hle : c * num ≤ c * 1 := Nat.mul_le_mul_left c hsmall
        rw [scale, Nat.mod_eq_of_lt (by omega)]
      refine ⟨fun c hc => ?_, fun c c' hle hc' => ?_⟩
      · rw [hscale c hc]
        have hle : c * num ≤ c * 1 := Nat.mul_le_mul_left c hsmall
        have hdiv := Nat.div_le_self (c * num) den
        omega
      · rw [hscale c (by omega), hscale c' hc']
        exact Nat.div_le_div_right (Nat.mul_le_mul_right num hle)
    · refine ⟨fun c _ => ?_, fun c c' _ _ => ?_⟩
      · rw [scale_eq_zero hN hzero]
        exact Nat.zero_le c
      · rw [scale_eq_zero hN hzero, scale_eq_zero hN hzero]

end WrappedScale
