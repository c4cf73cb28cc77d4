import Mathlib

/-!
# Sliding windows of weighted events

Events carry a time and a weight. At any time the weight of the window before it is that of the events
no older than its width. A log that merges the events of one time and forgets those that have left the
window gives the same weight at every later time.
-/

namespace SlidingWindow

/-- The weight at `now` of the events that are no older than `width`. -/
def weight (width now : Nat) (events : List (Nat × Nat)) : Nat :=
  ((events.filter fun e => now - e.1 ≤ width).map Prod.snd).sum

/-- The log after an event: without those that have left the window, and the event added to the last
one if that is of the same time. -/
def push (width now n : Nat) (events : List (Nat × Nat)) : List (Nat × Nat) :=
  let events := events.filter fun e => now - e.1 ≤ width
  match events.getLast? with
  | some last => if last.1 = now then events.dropLast ++ [(now, last.2 + n)] else events ++ [(now, n)]
  | none => [(now, n)]

variable {width now t n : Nat} {events : List (Nat × Nat)}

@[simp] theorem weight_nil : weight width now [] = 0 := rfl

theorem weight_append (events later : List (Nat × Nat)) :
    weight width now (events ++ later) = weight width now events + weight width now later := by
  rw [weight, List.filter_append, List.map_append, List.sum_append]
  rfl

theorem weight_singleton (time n : Nat) :
    weight width now [(time, n)] = if now - time ≤ width then n else 0 := by
  rw [weight, List.filter_singleton]
  by_cases hin : now - time ≤ width
  · rw [if_pos hin, decide_eq_true (show now - (time, n).1 ≤ width from hin)]
    rfl
  · rw [if_neg hin, decide_eq_false (show ¬ now - (time, n).1 ≤ width from hin)]
    rfl

/-- What has left the window stays out of it. -/
theorem weight_filter (hle : now ≤ t) :
    weight width t (events.filter fun e => now - e.1 ≤ width) = weight width t events := by
  rw [weight, weight, List.filter_filter]
  congr 2
  refine List.filter_congr fun e _ => ?_
  by_cases hin : t - e.1 ≤ width
  · have hbefore : now - e.1 ≤ width := by omega
    simp [hin, hbefore]
  · simp [hin]

theorem weight_eq_zero (hle : now ≤ t) (hnone : ∀ e ∈ events, ¬ now - e.1 ≤ width) :
    weight width t events = 0 := by
  rw [← weight_filter hle, List.filter_eq_nil_iff.2 fun e he => by simpa using hnone e he]
  rfl

/-- The log weighs what the events do. -/
theorem weight_push (hle : now ≤ t) :
    weight width t (push width now n events) = weight width t (events ++ [(now, n)]) := by
  rw [weight_append, ← @weight_filter width now t events hle]
  simp only [push]
  generalize (events.filter fun e => now - e.1 ≤ width) = kept
  cases hlast : kept.getLast? with
  | none =>
    rw [List.getLast?_eq_none_iff.1 hlast, weight_nil, Nat.zero_add]
  | some last =>
    have hkept := List.dropLast_append_getLast? last hlast
    by_cases hsame : last.1 = now
    · have hold : weight width t [last] = if t - now ≤ width then last.2 else 0 := by
        rw [← hsame, ← weight_singleton]
      simp only [if_pos hsame]
      rw [weight_append, weight_singleton, weight_singleton, ← hkept, weight_append,
        List.dropLast_concat, hold]
      split <;> omega
    · simp only [if_neg hsame]
      rw [weight_append]

/-- All that a log holds right after an event is in the window. -/
theorem sum_push (width now n : Nat) (events : List (Nat × Nat)) :
    ((push width now n events).map Prod.snd).sum = weight width now (push width now n events) := by
  have hall : ∀ e ∈ push width now n events, now - e.1 ≤ width := by
    intro e he
    simp only [push] at he
    have hkept : ∀ e ∈ events.filter fun e => now - e.1 ≤ width, now - e.1 ≤ width :=
      fun e he => by simpa using (List.mem_filter.1 he).2
    generalize (events.filter fun e => now - e.1 ≤ width) = kept at he hkept
    split at he
    · split at he
      · rcases List.mem_append.1 he with he | he
        · exact hkept e (List.mem_of_mem_dropLast he)
        · rw [List.mem_singleton.1 he]
          omega
      · rcases List.mem_append.1 he with he | he
        · exact hkept e he
        · rw [List.mem_singleton.1 he]
          omega
    · rw [List.mem_singleton.1 he]
      omega
  rw [weight, List.filter_eq_self.2 fun e he => by simpa using hall e he]

end SlidingWindow
