import Mathlib

/-!
# Cooldowns

An event that goes out only if the last one lies at least a cooldown back. However the clock goes, two
events that went out lie a cooldown apart, so a period has room for only so many.
-/

namespace Cooldown

variable {cooldown now last lo width : Nat} {sent : List Nat}

/-- The event may go out; nothing went out before time 0. -/
def Due (cooldown last now : Nat) : Prop := cooldown ≤ now - last

instance : Decidable (Due cooldown last now) := inferInstanceAs (Decidable (_ ≤ _))

/-- Every two events lie a cooldown apart, in their order, and none is later than `last`. -/
structure Spaced (cooldown last : Nat) (sent : List Nat) : Prop where
  apart : sent.Pairwise fun a b => a + cooldown ≤ b
  le_last : ∀ a ∈ sent, a ≤ last

theorem Spaced.nil (cooldown last : Nat) : Spaced cooldown last [] :=
  ⟨List.Pairwise.nil, fun _ h => absurd h List.not_mem_nil⟩

/-- So many events behind the first one take their time. -/
theorem length_mul_le {a hi : Nat} (h : (a :: sent).Pairwise fun a b => a + cooldown ≤ b)
    (hin : ∀ b ∈ a :: sent, b ≤ hi) : a + sent.length * cooldown ≤ hi := by
  induction sent generalizing a with
  | nil => simpa using hin a List.mem_cons_self
  | cons b rest ih =>
    obtain ⟨hfirst, hrest⟩ := List.pairwise_cons.1 h
    have hb := hfirst b List.mem_cons_self
    have := ih hrest fun c hc => hin c (List.mem_cons_of_mem a hc)
    rw [List.length_cons, Nat.succ_mul]
    omega

/-- The events that a period of `width` has room for. -/
theorem length_le (hcooldown : 0 < cooldown) (h : sent.Pairwise fun a b => a + cooldown ≤ b)
    (hin : ∀ a ∈ sent, lo ≤ a ∧ a < lo + width) : sent.length ≤ (width - 1) / cooldown + 1 := by
  cases sent with
  | nil => exact Nat.zero_le _
  | cons a rest =>
    have ha := hin a List.mem_cons_self
    have hlast : ∀ b ∈ a :: rest, b ≤ lo + width - 1 := fun b hb => by
      have := hin b hb
      omega
    have hle := length_mul_le h hlast
    rw [List.length_cons, Nat.add_le_add_iff_right, Nat.le_div_iff_mul_le hcooldown]
    omega

end Cooldown
