import Mathlib

/-!
# Counting with a periodic decay

A counter decays at every multiple of a period and takes in arrivals in between. Kept eagerly it
changes at each of these instants; it can as well be kept lazily, the decays made up for when the next
arrival comes.
-/

namespace LazyTicks

variable {α : Type} (decay add : α → α) (period : Nat)

/-- The counter instant by instant: at a multiple of the period it decays, then the arrivals of the
instant are added. -/
def eager (arrivals : Nat → Nat) (start : α) : Nat → α
  | 0 => add^[arrivals 0] start
  | n + 1 =>
    add^[arrivals (n + 1)]
      (if period ∣ n + 1 then decay (eager arrivals start n) else eager arrivals start n)

variable {decay add period} {arrivals arrivals' : Nat → Nat} {start : α} {m n : Nat}

theorem eager_congr (h : ∀ i ≤ n, arrivals i = arrivals' i) :
    eager decay add period arrivals start n = eager decay add period arrivals' start n := by
  induction n with
  | zero => rw [eager, eager, h 0 (Nat.le_refl 0)]
  | succ n ih =>
    rw [eager, eager, h (n + 1) (Nat.le_refl _), ih fun i hi => h i (Nat.le_succ_of_le hi)]

/-- Without arrivals there are only the decays of the multiples passed. -/
theorem eager_quiet (hmn : m ≤ n) (hquiet : ∀ i, m < i → i ≤ n → arrivals i = 0) :
    eager decay add period arrivals start n =
      decay^[n / period - m / period] (eager decay add period arrivals start m) := by
  induction n, hmn using Nat.le_induction with
  | base => rw [Nat.sub_self, Function.iterate_zero_apply]
  | succ n hmn ih =>
    have hle : m / period ≤ n / period := Nat.div_le_div_right hmn
    rw [eager, hquiet (n + 1) (by omega) (Nat.le_refl _), Function.iterate_zero_apply,
      ih fun i hi hin => hquiet i hi (by omega), Nat.succ_div]
    split
    · rw [← Function.iterate_succ_apply' decay]
      congr 1
      omega
    · rfl

/-- One more arrival at the last instant. -/
theorem eager_arrival (hbefore : ∀ i < n, arrivals' i = arrivals i)
    (hlast : arrivals' n = arrivals n + 1) :
    eager decay add period arrivals' start n = add (eager decay add period arrivals start n) := by
  cases n with
  | zero => rw [eager, eager, hlast, Function.iterate_succ_apply']
  | succ n =>
    rw [eager, eager, hlast, eager_congr fun i hi => hbefore i (Nat.lt_succ_of_le hi),
      Function.iterate_succ_apply']

/-- The lazy step: at an arrival, the decays since the last one and then the arrival. -/
theorem eager_snoc {arrived : List Nat} (hbefore : ∀ i ∈ arrived, i ≤ m) (hmn : m ≤ n) :
    eager decay add period (fun i => (arrived ++ [n]).count i) start n =
      add (decay^[n / period - m / period]
        (eager decay add period (fun i => arrived.count i) start m)) := by
  have hcount : ∀ i, (arrived ++ [n]).count i = arrived.count i + if i = n then 1 else 0 := by
    intro i
    rw [List.count_append, List.count_singleton]
    by_cases hi : i = n
    · rw [if_pos hi, hi, beq_self_eq_true, if_pos rfl]
    · rw [if_neg hi, if_neg fun heq => hi (beq_iff_eq.1 heq).symm]
  have hquiet : ∀ i, m < i → i ≤ n → arrived.count i = 0 := fun i hi _ =>
    List.count_eq_zero.2 fun hmem => Nat.not_lt.2 (hbefore i hmem) hi
  rw [← eager_quiet hmn hquiet]
  refine eager_arrival (fun i hi => ?_) ?_
  · rw [hcount, if_neg (Nat.ne_of_lt hi), Nat.add_zero]
  · rw [hcount, if_pos rfl]

end LazyTicks
