import Mathlib

/-!
# Ones'-complement sums

Addition of words below `N` whose carry goes round. It is addition modulo `N - 1`, in which zero has two
words, `0` and `N - 1`; the first stands for a sum of zeros only. This determines the word that a sum
folds to, whatever the width it is accumulated in and the order of the bytes.
-/

namespace OnesComplement

/-- Addition with the carry going round. -/
def add (N a b : Nat) : Nat := if a + b < N then a + b else a + b - (N - 1)

def sum (N : Nat) (ws : List Nat) : Nat := ws.foldl (add N) 0

/-- What `v` stands for below `N`, added to what is above. -/
def halves (N v : Nat) : Nat := v % N + v / N

/-- A word of two digits below `B`, the digits exchanged. -/
def swap (B v : Nat) : Nat := v % B * B + v / B

/-- `v` is the word below `N` to which the number `S` folds. -/
structure Folds (N S v : Nat) : Prop where
  lt : v < N
  modEq : v ≡ S [MOD N - 1]
  zero : v = 0 ↔ S = 0

variable {N B S S' a b v v' : Nat}

/-- A number folds to one word. -/
theorem Folds.unique (h : Folds N S v) (h' : Folds N S v') : v = v' := by
  have hmod : v % (N - 1) = v' % (N - 1) := h.modEq.trans h'.modEq.symm
  have hzero : v = 0 ↔ v' = 0 := h.zero.trans h'.zero.symm
  have hlt := h.lt
  have hlt' := h'.lt
  rcases Nat.lt_or_eq_of_le (show v ≤ N - 1 by omega) with hv | hv
  · rcases Nat.lt_or_eq_of_le (show v' ≤ N - 1 by omega) with hv' | hv'
    · rwa [Nat.mod_eq_of_lt hv, Nat.mod_eq_of_lt hv'] at hmod
    · rw [Nat.mod_eq_of_lt hv, hv', Nat.mod_self] at hmod
      omega
  · rcases Nat.lt_or_eq_of_le (show v' ≤ N - 1 by omega) with hv' | hv'
    · rw [hv, Nat.mod_self, Nat.mod_eq_of_lt hv'] at hmod
      omega
    · omega

theorem Folds.self (h : a < N) : Folds N a a := ⟨h, Nat.ModEq.refl a, Iff.rfl⟩

/-- One more word. -/
theorem Folds.add (h : Folds N S v) (hb : b < N) : Folds N (S + b) (add N v b) := by
  have hlt := h.lt
  have hzero := h.zero
  have hmod : v + b ≡ S + b [MOD N - 1] := h.modEq.add_right b
  rw [OnesComplement.add]
  split
  · rename_i hfits
    exact ⟨hfits, hmod, by omega⟩
  · rename_i hcarry
    refine ⟨by omega, Nat.ModEq.trans ?_ hmod, by omega⟩
    rw [Nat.ModEq, ← Nat.mod_eq_sub_mod (by omega)]

theorem folds_foldl {ws : List Nat} (hws : ∀ w ∈ ws, w < N) (h : Folds N S v) :
    Folds N (S + ws.sum) (ws.foldl (OnesComplement.add N) v) := by
  induction ws generalizing S v with
  | nil => exact h
  | cons w ws ih =>
    rw [List.forall_mem_cons] at hws
    rw [List.foldl_cons, List.sum_cons, ← Nat.add_assoc]
    exact ih hws.2 (h.add hws.1)

/-- The sum of words folds what they add up to. -/
theorem folds_sum (hN : 0 < N) {ws : List Nat} (hws : ∀ w ∈ ws, w < N) :
    Folds N ws.sum (sum N ws) := by
  have h := folds_foldl hws (Folds.self hN)
  rwa [Nat.zero_add] at h

/-! ## Folding an accumulator -/

theorem halves_modEq (hN : 0 < N) (v : Nat) : halves N v ≡ v [MOD N - 1] := by
  have hsplit := Nat.div_add_mod v N
  have hone : N ≡ 1 [MOD N - 1] := by
    rw [Nat.ModEq, Nat.mod_eq_sub_mod (by omega)]
    rw [show N - (N - 1) = 1 by omega]
  calc halves N v = v % N + 1 * (v / N) := by rw [halves, Nat.one_mul]
    _ ≡ v % N + N * (v / N) [MOD N - 1] := (hone.symm.mul_right _).add_left _
    _ = v := by omega

theorem halves_eq_zero : halves N v = 0 ↔ v = 0 := by
  have hsplit := Nat.div_add_mod v N
  rw [halves, Nat.add_eq_zero_iff]
  constructor
  · rintro ⟨hlow, hhigh⟩
    rw [hlow, hhigh, Nat.mul_zero] at hsplit
    exact hsplit.symm
  · rintro rfl
    exact ⟨Nat.zero_mod N, Nat.zero_div N⟩

/-- Two foldings suffice for an accumulator of twice the width. -/
theorem halves_halves_lt (hN : 1 < N) (hv : v < N * N) : halves N (halves N v) < N := by
  have hlow : v % N < N := Nat.mod_lt v (by omega)
  have hhigh : v / N < N := Nat.div_lt_of_lt_mul hv
  rcases Nat.lt_or_ge (halves N v) N with hfits | hcarry
  · rw [halves, Nat.mod_eq_of_lt hfits, Nat.div_eq_of_lt hfits]
    exact hfits
  · have hone : halves N v / N = 1 :=
      Nat.div_eq_of_lt_le (by omega) (by rw [halves]; omega)
    have hrest : halves N v % N = halves N v - N := by
      rw [Nat.mod_eq_sub_mod hcarry, Nat.mod_eq_of_lt (by rw [halves]; omega)]
    rw [halves, hone, hrest]
    rw [halves] at hcarry ⊢
    omega

/-! ## The other byte order -/

theorem swap_lt (hB : 0 < B) (hv : v < B * B) : swap B v < B * B := by
  have hlow : v % B < B := Nat.mod_lt v hB
  have hhigh : v / B < B := Nat.div_lt_of_lt_mul hv
  have hle : v % B * B ≤ (B - 1) * B := Nat.mul_le_mul_right _ (by omega)
  have hsplit : (B - 1) * B = B * B - B := by rw [Nat.sub_mul, Nat.one_mul]
  have hsquare : B ≤ B * B := Nat.le_mul_of_pos_left B hB
  rw [swap]
  omega

/-- Exchanging the digits multiplies by `B`. -/
theorem swap_modEq (hB : 0 < B) (v : Nat) : swap B v ≡ B * v [MOD B * B - 1] := by
  have hsplit : B * v = B * B * (v / B) + v % B * B := by
    rw [Nat.mul_assoc, Nat.mul_comm (v % B), ← Nat.mul_add, Nat.div_add_mod]
  have hsquare : 0 < B * B := Nat.mul_pos hB hB
  have hone : 1 ≡ B * B [MOD B * B - 1] := by
    rw [Nat.ModEq, Nat.mod_eq_sub_mod (show B * B - 1 ≤ B * B by omega)]
    rw [show B * B - (B * B - 1) = 1 by omega]
  calc swap B v = 1 * (v / B) + v % B * B := by rw [swap, Nat.one_mul, Nat.add_comm]
    _ ≡ B * B * (v / B) + v % B * B [MOD B * B - 1] := (hone.mul_right _).add_right _
    _ = B * v := hsplit.symm

theorem swap_eq_zero (hB : 0 < B) : swap B v = 0 ↔ v = 0 := by
  have hsplit := Nat.div_add_mod v B
  rw [swap, Nat.add_eq_zero_iff, Nat.mul_eq_zero]
  constructor
  · rintro ⟨hlow, hhigh⟩
    rw [hlow.resolve_right (by omega), hhigh, Nat.mul_zero] at hsplit
    exact hsplit.symm
  · rintro rfl
    exact ⟨.inl (Nat.zero_mod B), Nat.zero_div B⟩

theorem Folds.swap (hB : 0 < B) (h : Folds (B * B) S v) (hS : S' ≡ B * S [MOD B * B - 1])
    (hzero : S' = 0 ↔ S = 0) : Folds (B * B) S' (swap B v) where
  lt := swap_lt hB h.lt
  modEq := ((swap_modEq hB v).trans (h.modEq.mul_left B)).trans hS.symm
  zero := (swap_eq_zero hB).trans (h.zero.trans hzero.symm)

/-! ## The complement -/

/-- A number and the complement of the word that it folds to fold to all ones. -/
theorem Folds.complement (hN : 1 < N) (h : Folds N S v) : Folds N (S + (N - 1 - v)) (N - 1) where
  lt := by omega
  modEq := by
    have hlt := h.lt
    have hsum := h.modEq.add_right (N - 1 - v)
    rwa [show v + (N - 1 - v) = N - 1 by omega] at hsum
  zero := by
    have hlt := h.lt
    have hzero := h.zero
    omega

end OnesComplement
