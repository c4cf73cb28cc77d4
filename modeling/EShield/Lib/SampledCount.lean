import Mathlib

/-!
# Counting by samples

A counter modulo `N` goes up by one at every event, and where it reaches a multiple of `w` a sample is
taken that stands for `w` events. If `w` divides `N`, the counter may go round: what the samples stand
for is always less than `w` away from the number of events.
-/

namespace SampledCount

/-- After `n` events, the counter having started at `start`. -/
structure StandsFor (N w start n counter added : Nat) : Prop where
  counter : counter = (start + n) % N
  added : added + w * (start / w) = w * ((start + n) / w)

variable {N w start n counter added : Nat}

theorem StandsFor.zero (h : start < N) : StandsFor N w start 0 start 0 where
  counter := (Nat.mod_eq_of_lt h).symm
  added := Nat.zero_add _

/-- One more event. -/
theorem StandsFor.succ (hw : w ∣ N) (h : StandsFor N w start n counter added) :
    StandsFor N w start (n + 1) ((counter + 1) % N)
      (added + if w ∣ (counter + 1) % N then w else 0) := by
  have hnext : (counter + 1) % N = (start + (n + 1)) % N := by
    rw [h.counter, Nat.mod_add_mod, Nat.add_assoc]
  have hdue : w ∣ (counter + 1) % N ↔ w ∣ start + n + 1 := by
    rw [hnext, Nat.dvd_mod_iff hw, Nat.add_assoc]
  refine ⟨hnext, ?_⟩
  have hadded := h.added
  rw [← Nat.add_assoc, Nat.succ_div, if_congr hdue rfl rfl]
  split
  · rw [Nat.mul_add, Nat.mul_one]
    omega
  · rw [Nat.add_zero, Nat.add_zero]
    exact hadded

end SampledCount
