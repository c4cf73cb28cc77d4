import Mathlib

/-!
# Token buckets

A bucket fills at a constant rate up to its burst, and an event takes a token if there is one. In any
interval no more events get one than the burst and the refill of the interval together.
-/

namespace TokenBucket

/-- The level after the last event, and its time. -/
structure Bucket where
  level : ℚ
  time : Nat

/-- The event at `now` takes a token if the level allows it. -/
def take (level : ℚ) (now : Nat) : Bool × Bucket :=
  if 1 ≤ level then (true, ⟨level - 1, now⟩) else (false, ⟨level, now⟩)

/-- The level at `now`; a bucket begins full. -/
def levelAt (burst rate : ℚ) (now : Nat) : Option Bucket → ℚ
  | some b => min burst (b.level + rate * (now - b.time : Nat))
  | none => burst

def event (burst rate : ℚ) (now : Nat) (b : Option Bucket) : Bool × Bucket :=
  take (levelAt burst rate now b) now

variable {burst rate level : ℚ} {lo width now n : Nat} {b : Option Bucket}

theorem take_of_le (h : 1 ≤ level) : take level now = (true, ⟨level - 1, now⟩) := if_pos h

theorem take_of_lt (h : level < 1) : take level now = (false, ⟨level, now⟩) :=
  if_neg (not_le.2 h)

theorem event_time : (event burst rate now b).2.time = now := by
  unfold event take
  split
  · rfl
  · rfl

/-! ## An interval -/

/-- Of the events so far `n` got a token in the interval from `lo` to `lo + width`. -/
structure Within (burst rate : ℚ) (lo width : Nat) (b : Option Bucket) (n : Nat) : Prop where
  total : (n : ℚ) ≤ burst + rate * width
  fresh : b = none → n = 0
  before : ∀ k ∈ b, k.time < lo → n = 0
  during : ∀ k ∈ b, lo ≤ k.time → k.time ≤ lo + width →
    n + k.level ≤ burst + rate * (k.time - lo : Nat)

theorem Within.start (hburst : 0 ≤ burst) (hrate : 0 ≤ rate) (lo width : Nat) :
    Within burst rate lo width none 0 where
  total := by
    rw [Nat.cast_zero]
    positivity
  fresh _ := rfl
  before _ hk := by cases hk
  during _ hk := by cases hk

/-- At an event of the interval what has been taken and what is left come from the burst and the refill
of the interval. -/
theorem Within.level_le (h : Within burst rate lo width b n) (hrate : 0 ≤ rate)
    (hlater : ∀ k ∈ b, k.time ≤ now) (hlo : lo ≤ now) (hhi : now ≤ lo + width) :
    n + levelAt burst rate now b ≤ burst + rate * (now - lo : Nat) := by
  have hrefill : 0 ≤ rate * ((now - lo : Nat) : ℚ) := by positivity
  cases b with
  | none =>
    rw [h.fresh rfl, Nat.cast_zero, zero_add]
    exact le_add_of_nonneg_right hrefill
  | some k =>
    have htime := hlater k rfl
    by_cases hbefore : k.time < lo
    · rw [h.before k rfl hbefore, Nat.cast_zero, zero_add]
      exact (min_le_left _ _).trans (le_add_of_nonneg_right hrefill)
    · have hduring := h.during k rfl (not_lt.1 hbefore) (htime.trans hhi)
      have hsplit : ((now - lo : Nat) : ℚ) = (k.time - lo : Nat) + (now - k.time : Nat) := by
        rw [← Nat.cast_add]
        congr 1
        omega
      have hle : levelAt burst rate now (some k) ≤ k.level + rate * (now - k.time : Nat) :=
        min_le_right _ _
      rw [hsplit, mul_add]
      linarith

/-- What an event takes and leaves, in the bucket `k`, need not be all that the bucket holds at `now`;
it must not be more. -/
theorem Within.event (h : Within burst rate lo width b n) (hrate : 0 ≤ rate)
    (hlater : ∀ k ∈ b, k.time ≤ now) {yes : Bool} (hnonneg : 0 ≤ level)
    (hle : level + (if yes then 1 else 0) ≤ levelAt burst rate now b) :
    Within burst rate lo width (some ⟨level, now⟩)
      (n + if yes = true ∧ lo ≤ now ∧ now ≤ lo + width then 1 else 0) := by
  -- An event before the interval finds none counted.
  have hearly : now < lo → n = 0 := by
    intro hlo
    cases b with
    | none => exact h.fresh rfl
    | some k => exact h.before k rfl ((hlater k rfl).trans_lt hlo)
  by_cases hin : lo ≤ now ∧ now ≤ lo + width
  · have hlevel := h.level_le hrate hlater hin.1 hin.2
    have hwidth : burst + rate * ((now - lo : Nat) : ℚ) ≤ burst + rate * width := by
      have : ((now - lo : Nat) : ℚ) ≤ width := by
        rw [Nat.cast_le]
        omega
      exact add_le_add_right (mul_le_mul_of_nonneg_left this hrate) burst
    have htaken : ((n + if yes = true ∧ lo ≤ now ∧ now ≤ lo + width then 1 else 0 : Nat) : ℚ) + level ≤
        burst + rate * (now - lo : Nat) := by
      simp only [hin, and_self, and_true]
      push_cast
      linarith
    refine ⟨by linarith, nofun, ?_, ?_⟩
    · rintro k ⟨⟩ hlt
      exact absurd hlt (not_lt.2 hin.1)
    · rintro k ⟨⟩ - -
      exact htaken
  · rw [if_neg fun hboth => hin hboth.2, Nat.add_zero]
    refine ⟨h.total, nofun, ?_, ?_⟩
    · rintro k ⟨⟩ hlt
      exact hearly hlt
    · rintro k ⟨⟩ hlo hhi
      exact absurd ⟨hlo, hhi⟩ hin

end TokenBucket
