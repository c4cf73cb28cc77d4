import Mathlib

/-!
# Bounded logs

A log of fixed capacity that forgets its oldest entry when it is full, and the queue that feeds it,
which is drained in batches. However the batches fall, the log holds the newest of what has been taken
off the queue, in its order.
-/

namespace BoundedLog

variable {α : Type*}

/-! ## The log -/

/-- A new entry goes to the back; at the capacity the oldest one leaves first. -/
def push (capacity : Nat) (log : List α) (a : α) : List α :=
  (if log.length ≥ capacity then log.tail else log) ++ [a]

def pushMany (capacity : Nat) (log as : List α) : List α := as.foldl (push capacity) log

/-- A log keeps its last entry even at capacity zero. -/
def kept (capacity : Nat) : Nat := max capacity 1

theorem length_push_le {capacity : Nat} {log : List α} (h : log.length ≤ kept capacity) (a : α) :
    (push capacity log a).length ≤ kept capacity := by
  unfold push
  unfold kept at *
  split
  · rw [List.length_append, List.length_tail, List.length_singleton]
    omega
  · rw [List.length_append, List.length_singleton]
    omega

/-- One more entry behind the newest `kept` ones. -/
theorem push_rtake (capacity : Nat) (all : List α) (a : α) :
    push capacity (all.rtake (kept capacity)) a = (all ++ [a]).rtake (kept capacity) := by
  obtain ⟨n, hn⟩ : ∃ n, kept capacity = n + 1 := ⟨kept capacity - 1, by unfold kept; omega⟩
  have hcap : capacity = n + 1 ∨ (capacity = 0 ∧ n = 0) := by
    unfold kept at hn
    omega
  rw [hn, List.rtake_concat_succ]
  unfold push
  have hlen : (all.rtake (n + 1)).length = min (n + 1) all.length := by
    simp only [List.rtake, List.length_drop]
    omega
  split
  · rename_i hfull
    rw [hlen] at hfull
    congr 1
    rw [List.rtake, List.rtake, List.tail_drop]
    -- a full log is one with something to forget, or that keeps a single entry
    rcases hcap with hcap | ⟨-, rfl⟩
    · congr 1
      omega
    · rw [List.drop_eq_nil_of_le (by omega), List.drop_eq_nil_of_le (by omega)]
  · rename_i hroom
    rw [hlen] at hroom
    congr 1
    rw [List.rtake, List.rtake]
    congr 1
    omega

/-- After any entries the log holds the newest of all that it was given. -/
theorem pushMany_rtake (capacity : Nat) (all as : List α) :
    pushMany capacity (all.rtake (kept capacity)) as = (all ++ as).rtake (kept capacity) := by
  induction as generalizing all with
  | nil => rw [List.append_nil]; rfl
  | cons a as ih =>
    rw [pushMany, List.foldl_cons, push_rtake]
    have hrest := ih (all ++ [a])
    rwa [List.append_assoc, List.singleton_append] at hrest

/-! ## The queue -/

/-- Takes items off the front until `size` of them are good; `n` are already. An item that is no good
is taken and left out. -/
def drain (size : Nat) : (n : Nat) → List (Option α) → List α × List (Option α)
  | _, [] => ([], [])
  | n, item :: rest =>
    let n := n + item.toList.length
    if n ≥ size then (item.toList, rest)
    else
      let r := drain size n rest
      (item.toList ++ r.1, r.2)

/-- What is taken and what stays are the queue. -/
theorem drain_append (size n : Nat) (items : List (Option α)) :
    (drain size n items).1 ++ (drain size n items).2.reduceOption = items.reduceOption := by
  induction items generalizing n with
  | nil => rfl
  | cons item rest ih =>
    have hitem : (item :: rest).reduceOption = item.toList ++ rest.reduceOption := by
      cases item <;> simp
    rw [drain, hitem]
    dsimp only
    split
    · rfl
    · rw [List.append_assoc, ih]

/-- No more than `size` good items are taken. -/
theorem length_drain_le {size n : Nat} (h : n < size) (items : List (Option α)) :
    n + (drain size n items).1.length ≤ size := by
  induction items generalizing n with
  | nil => exact Nat.le_of_lt h
  | cons item rest ih =>
    have hitem : item.toList.length ≤ 1 := by cases item <;> simp
    rw [drain]
    dsimp only
    split
    · dsimp only
      omega
    · rename_i hmore
      rw [List.length_append, ← Nat.add_assoc]
      exact ih (not_le.1 hmore)

/-- Something is taken off a queue that is not empty. -/
theorem length_drain_lt (size n : Nat) {items : List (Option α)} (hne : items ≠ []) :
    (drain size n items).2.length < items.length := by
  cases items with
  | nil => exact absurd rfl hne
  | cons item rest =>
    have hle : ∀ (n : Nat) (items : List (Option α)), (drain size n items).2.length ≤ items.length := by
      intro n items
      induction items generalizing n with
      | nil => exact Nat.le_refl 0
      | cons item rest ih =>
        rw [drain]
        dsimp only
        split
        · exact Nat.le_succ _
        · exact Nat.le_succ_of_le (ih _)
    rw [drain]
    dsimp only
    split
    · exact Nat.lt_succ_self _
    · exact Nat.lt_succ_of_le (hle _ rest)

end BoundedLog
