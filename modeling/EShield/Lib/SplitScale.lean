import Mathlib

/-!
# Scaling by a fraction without wide products

`x * num / den` on words up to `limit`, and `x / den * num` above it, where the product could overflow.
Dividing first loses the remainder, so that the order of two words on both sides of the limit can be
turned round. Two such steps one after the other are `twice`.
-/

namespace SplitScale

def scale (den limit num x : Nat) : Nat :=
  if x > limit then x / den * num else x * num / den

/-- One step by `num`, then one by `num'`. -/
def twice (den limit num num' x : Nat) : Nat :=
  scale den limit num' (scale den limit num x)

/-- The limit lies between the two words, in their block of `den`, and the remainder of the lower one
is worth at least one. -/
structure Splits (den limit num x y : Nat) : Prop where
  below : x ≤ limit
  above : limit < y
  block : x / den = y / den
  lost : den ≤ x % den * num

variable {den limit num num' num₁ num₂ x y N : Nat}

theorem scale_of_le (h : x ≤ limit) : scale den limit num x = x * num / den := by
  rw [scale, if_neg (by omega)]

theorem scale_of_lt (h : limit < x) : scale den limit num x = x / den * num := by
  rw [scale, if_pos h]

/-- What multiplying first keeps of the remainder. -/
theorem mul_div_eq (hden : 0 < den) (x num : Nat) :
    x * num / den = x / den * num + x % den * num / den := by
  have hsplit : x * num = den * (x / den * num) + x % den * num := by
    rw [← Nat.mul_assoc, ← Nat.add_mul, Nat.div_add_mod]
  rw [hsplit, Nat.mul_add_div hden]

/-- The product that a step forms. -/
theorem product_lt (hlimit : limit * den < N) (hx : x < N) (hnum : num ≤ den) :
    (if x > limit then x / den else x) * num < N := by
  split
  · have hle : x / den * num ≤ x / den * den := Nat.mul_le_mul_left _ hnum
    have hdiv : x / den * den ≤ x := Nat.div_mul_le_self x den
    omega
  · rename_i hbelow
    have hle : x * num ≤ limit * den := Nat.mul_le_mul (by omega) hnum
    omega

theorem scale_le (hden : 0 < den) (hnum : num ≤ den) (x : Nat) : scale den limit num x ≤ x := by
  rcases Nat.lt_or_ge limit x with habove | hbelow
  · rw [scale_of_lt habove]
    have hle : x / den * num ≤ x / den * den := Nat.mul_le_mul_left _ hnum
    have hdiv : x / den * den ≤ x := Nat.div_mul_le_self x den
    omega
  · rw [scale_of_le hbelow]
    have hle : x * num ≤ x * den := Nat.mul_le_mul_left _ hnum
    have hdiv : x * num / den ≤ x * den / den := Nat.div_le_div_right hle
    rwa [Nat.mul_div_cancel x hden] at hdiv

theorem scale_mono_num (h : num₁ ≤ num₂) (x : Nat) :
    scale den limit num₁ x ≤ scale den limit num₂ x := by
  rcases Nat.lt_or_ge limit x with habove | hbelow
  · rw [scale_of_lt habove, scale_of_lt habove]
    exact Nat.mul_le_mul_left _ h
  · rw [scale_of_le hbelow, scale_of_le hbelow]
    exact Nat.div_le_div_right (Nat.mul_le_mul_left _ h)

/-- The order is lost between the two ways to compute, and nowhere else. -/
theorem scale_le_scale_iff (hden : 0 < den) (hle : x ≤ y) :
    scale den limit num x ≤ scale den limit num y ↔ ¬ Splits den limit num x y := by
  rcases Nat.lt_or_ge limit y with habove | hbelow
  · rcases Nat.lt_or_ge limit x with hboth | hx
    · have hmono : scale den limit num x ≤ scale den limit num y := by
        rw [scale_of_lt hboth, scale_of_lt habove]
        exact Nat.mul_le_mul_right _ (Nat.div_le_div_right hle)
      exact iff_of_true hmono fun hsplits => absurd hsplits.below (by omega)
    · rw [scale_of_le hx, scale_of_lt habove, mul_div_eq hden]
      have hblock : x / den ≤ y / den := Nat.div_le_div_right hle
      rcases Nat.lt_or_eq_of_le hblock with hnext | hsame
      · -- the next block is worth more than any remainder
        have hrest : x % den * num / den ≤ num := by
          have hmod : x % den * num ≤ den * num :=
            Nat.mul_le_mul_right _ (Nat.mod_lt x hden).le
          exact (Nat.div_le_div_right hmod).trans (Nat.mul_div_cancel_left num hden).le
        have hstep : (x / den + 1) * num ≤ y / den * num := Nat.mul_le_mul_right _ hnext
        rw [Nat.add_mul, Nat.one_mul] at hstep
        refine iff_of_true (by omega) fun hsplits => absurd hsplits.block (by omega)
      · rw [hsame]
        constructor
        · intro hkept hsplits
          have hlost : 0 < x % den * num / den := Nat.div_pos hsplits.lost hden
          omega
        · intro hnot
          have hsmall : x % den * num < den := by
            by_contra hlost
            exact hnot ⟨hx, habove, hsame, by omega⟩
          rw [Nat.div_eq_of_lt hsmall]
          omega
  · have hmono : scale den limit num x ≤ scale den limit num y := by
      rw [scale_of_le (hle.trans hbelow), scale_of_le hbelow]
      exact Nat.div_le_div_right (Nat.mul_le_mul_right _ hle)
    exact iff_of_true hmono fun hsplits => absurd hsplits.above (by omega)

theorem twice_le (hden : 0 < den) (hnum : num ≤ den) (hnum' : num' ≤ den) (x : Nat) :
    twice den limit num num' x ≤ x :=
  (scale_le hden hnum' _).trans (scale_le hden hnum x)

/-- A small lower bound is reached on both sides of the limit alike. -/
theorem le_scale_iff (hden : 0 < den) {k : Nat} (hk : k * den ≤ limit + 1) (x : Nat) :
    k ≤ scale den limit num x ↔ k * den ≤ x * num := by
  rcases Nat.lt_or_ge limit x with habove | hbelow
  · rw [scale_of_lt habove]
    rcases Nat.eq_zero_or_pos num with rfl | hnum
    · rw [Nat.mul_zero, Nat.mul_zero, Nat.le_zero, Nat.le_zero, Nat.mul_eq_zero]
      exact ⟨.inl, fun h => h.resolve_right (by omega)⟩
    · have hword : k * den ≤ x := by omega
      have hblock : k ≤ x / den := (Nat.le_div_iff_mul_le hden).2 hword
      exact iff_of_true (hblock.trans (Nat.le_mul_of_pos_right _ hnum))
        (hword.trans (Nat.le_mul_of_pos_right _ hnum))
  · rw [scale_of_le hbelow, Nat.le_div_iff_mul_le hden]

/-- A result of at least one, `k` being what the first step must leave. -/
theorem one_le_twice_iff (hden : 0 < den) {k : Nat} (hlimit : den ≤ limit + 1)
    (hk : k * den ≤ limit + 1) (hspec : ∀ c, den ≤ c * num' ↔ k ≤ c) (x : Nat) :
    1 ≤ twice den limit num num' x ↔ k * den ≤ x * num := by
  rw [twice, le_scale_iff hden (by rwa [Nat.one_mul]), Nat.one_mul, hspec, le_scale_iff hden hk]

/-- A larger first factor: the results of the first step are a block apart or on one side. -/
theorem twice_mono_num (hden : 0 < den) (hlimit : den * den ≤ limit + 1) (h : num₁ ≤ num₂)
    (hnum : num₂ ≤ den) (x : Nat) :
    twice den limit num₁ num' x ≤ twice den limit num₂ num' x := by
  rcases Nat.lt_or_eq_of_le h with hlt | rfl
  · refine (scale_le_scale_iff hden (scale_mono_num h x)).2 fun hsplits => ?_
    rcases Nat.lt_or_ge limit x with habove | hbelow
    · have hblock := hsplits.block
      rw [scale_of_lt habove, scale_of_lt habove] at hblock
      have hwide : den ≤ x / den := (Nat.le_div_iff_mul_le hden).2 (by omega)
      have hstep : x / den * (num₁ + 1) ≤ x / den * num₂ := Nat.mul_le_mul_left _ hlt
      have hnext : (x / den * num₁ + den) / den ≤ x / den * num₂ / den := by
        refine Nat.div_le_div_right ?_
        rw [Nat.mul_add, Nat.mul_one] at hstep
        omega
      rw [Nat.add_div_right _ hden] at hnext
      omega
    · have hscale : scale den limit num₂ x ≤ x := scale_le hden hnum x
      have habove := hsplits.above
      omega
  · exact Nat.le_refl _

/-- Both words up to the limit. -/
theorem twice_succ_of_lt (hden : 0 < den) (hnum : num ≤ den) (hx : x < limit) :
    twice den limit num num' x ≤ twice den limit num num' (x + 1) := by
  have hfirst : scale den limit num x ≤ scale den limit num (x + 1) :=
    (scale_le_scale_iff hden (Nat.le_succ x)).2 fun hsplits => absurd hsplits.above (by omega)
  have hnext : scale den limit num (x + 1) ≤ x + 1 := scale_le hden hnum (x + 1)
  exact (scale_le_scale_iff hden hfirst).2 fun hsplits => absurd hsplits.above (by omega)

/-- Across the limit, where the remainder is worth something after both steps. -/
theorem twice_succ_lt (limit : Nat) (hden : 0 < den) (hnum : num ≤ den) (hblock : limit % den + 1 < den)
    (hlost : den ≤ limit % den * num / den * num') :
    twice den limit num num' (limit + 1) < twice den limit num num' limit := by
  have hsame : (limit + 1) / den = limit / den := by
    rw [Nat.add_div_eq_of_add_mod_lt, Nat.div_eq_of_lt (by omega : 1 < den), Nat.add_zero]
    rw [Nat.mod_eq_of_lt (by omega : 1 < den)]
    exact hblock
  have hnext : scale den limit num (limit + 1) = limit / den * num := by
    rw [scale_of_lt (Nat.lt_succ_self limit), hsame]
  have hlast : scale den limit num limit = limit / den * num + limit % den * num / den := by
    rw [scale_of_le (Nat.le_refl limit), mul_div_eq hden]
  have hbound : scale den limit num limit ≤ limit := scale_le hden hnum limit
  have hbelow : scale den limit num (limit + 1) ≤ limit := by
    rw [hlast] at hbound
    rw [hnext]
    exact (Nat.le_add_right _ _).trans hbound
  rw [twice, twice, scale_of_le hbound, scale_of_le hbelow, hnext, hlast, Nat.add_mul]
  have hone : (limit / den * num * num' + den) / den
      ≤ (limit / den * num * num' + limit % den * num / den * num') / den :=
    Nat.div_le_div_right (by omega)
  rw [Nat.add_div_right _ hden] at hone
  omega

/-- Above the limit only the start of a new block changes anything. -/
theorem twice_le_succ_iff (hden : 0 < den) (hx : limit < x) :
    twice den limit num num' x ≤ twice den limit num num' (x + 1) ↔
      ¬ (den ∣ x + 1 ∧ Splits den limit num' (x / den * num) ((x / den + 1) * num)) := by
  rw [twice, twice, scale_of_lt hx, scale_of_lt (by omega : limit < x + 1), Nat.succ_div]
  split
  · rename_i hdvd
    have hle : x / den * num ≤ (x / den + 1) * num := Nat.mul_le_mul_right _ (Nat.le_succ _)
    rw [scale_le_scale_iff hden hle]
    exact ⟨fun hnot hboth => hnot hboth.2, fun hnot hsplits => hnot ⟨hdvd, hsplits⟩⟩
  · rename_i hdvd
    exact iff_of_true (Nat.le_refl _) fun hboth => hdvd hboth.1

end SplitScale
