import Mathlib

/-!
# The last operation that matters

What one part of a state holds after a list of operations is decided by the last of them that
touches that part. `lastOf p` picks the last operation that meets `p`, and `foldl_eq_lastOf` reads
the part off it.
-/

namespace LastWrite

variable {α β σ : Type*}

/-- The last of `ops` that meets `p`. -/
def lastOf (p : α → Prop) [DecidablePred p] (ops : List α) : Option α := (ops.filter p).getLast?

variable {p q : α → Prop} [DecidablePred p] [DecidablePred q]

theorem lastOf_nil : lastOf p ([] : List α) = none := rfl

theorem lastOf_concat (ops : List α) (a : α) :
    lastOf p (ops ++ [a]) = if p a then some a else lastOf p ops := by
  unfold lastOf
  rw [List.filter_append]
  by_cases ha : p a
  · simp [ha]
  · simp [ha]

/-- An operation is the last one if it meets `p` and none behind it does. -/
theorem lastOf_eq_some_iff {ops : List α} {a : α} :
    lastOf p ops = some a ↔
      ∃ pre post, ops = pre ++ a :: post ∧ p a ∧ ∀ b ∈ post, ¬ p b := by
  induction ops using List.reverseRecOn with
  | nil => simp [lastOf_nil]
  | append_singleton ops b ih =>
    rw [lastOf_concat]
    constructor
    · intro h
      split at h
      · rename_i hb
        cases h
        exact ⟨ops, [], rfl, hb, by simp⟩
      · rename_i hb
        obtain ⟨pre, post, rfl, ha, hpost⟩ := ih.1 h
        refine ⟨pre, post ++ [b], by simp, ha, fun c hc => ?_⟩
        rcases List.mem_append.1 hc with hc | hc
        · exact hpost c hc
        · rwa [List.mem_singleton.1 hc]
    · rintro ⟨pre, post, hops, ha, hpost⟩
      rcases List.eq_nil_or_concat post with rfl | ⟨post, c, rfl⟩
      · obtain ⟨-, hab⟩ := List.append_inj' hops rfl
        cases hab
        rw [if_pos ha]
      · rw [List.concat_eq_append] at hops hpost
        rw [← List.cons_append, ← List.append_assoc] at hops
        obtain ⟨hinit, hbc⟩ := List.append_inj' hops rfl
        cases hbc
        rw [if_neg (hpost b (by simp))]
        exact ih.2 ⟨pre, post, hinit, ha, fun d hd => hpost d (List.mem_append_left _ hd)⟩

theorem lastOf_eq_none_iff {ops : List α} : lastOf p ops = none ↔ ∀ a ∈ ops, ¬ p a := by
  simp [lastOf]

theorem lastOf_congr (h : ∀ a, p a ↔ q a) (ops : List α) : lastOf p ops = lastOf q ops := by
  unfold lastOf
  congr 1
  exact List.filter_congr fun a _ => by simp [h a]

theorem lastOf_sat {ops : List α} {a : α} (h : lastOf p ops = some a) : p a := by
  obtain ⟨pre, post, -, ha, -⟩ := lastOf_eq_some_iff.1 h
  exact ha

theorem mem_of_lastOf {ops : List α} {a : α} (h : lastOf p ops = some a) : a ∈ ops := by
  obtain ⟨pre, post, rfl, -⟩ := lastOf_eq_some_iff.1 h
  simp

/-- The last operation of the larger kind is also the last of any kind it belongs to within it. -/
theorem lastOf_of_imp {ops : List α} {a : α} (hqp : ∀ b, q b → p b) (h : lastOf p ops = some a)
    (ha : q a) : lastOf q ops = some a := by
  obtain ⟨pre, post, hops, -, hpost⟩ := lastOf_eq_some_iff.1 h
  exact lastOf_eq_some_iff.2 ⟨pre, post, hops, ha, fun b hb hqb => hpost b hb (hqp b hqb)⟩

/-- The last operation stands behind every other one that meets `p`. -/
theorem lastOf_index {ops : List α} {a : α} (h : lastOf p ops = some a) :
    ∃ i : Nat, ops[i]? = some a ∧ ∀ (j : Nat) b, ops[j]? = some b → p b → j ≤ i := by
  obtain ⟨pre, post, rfl, -, hpost⟩ := lastOf_eq_some_iff.1 h
  refine ⟨pre.length, by simp, fun j b hj hb => not_lt.1 fun hlt => hpost b ?_ hb⟩
  rw [List.getElem?_append_right hlt.le, List.getElem?_cons, if_neg (by omega)] at hj
  exact List.mem_of_getElem? hj

/-- What `read` sees after `ops` is what the last operation that meets `p` wrote there. -/
theorem foldl_eq_lastOf (step : σ → α → σ) (read : σ → β) (written : α → β)
    (hwrite : ∀ s a, p a → read (step s a) = written a)
    (hkeep : ∀ s a, ¬ p a → read (step s a) = read s) (s : σ) (ops : List α) :
    read (ops.foldl step s) = ((lastOf p ops).map written).getD (read s) := by
  induction ops using List.reverseRecOn with
  | nil => rfl
  | append_singleton ops a ih =>
    rw [List.foldl_append, List.foldl_cons, List.foldl_nil, lastOf_concat]
    by_cases ha : p a
    · rw [if_pos ha, hwrite _ a ha]
      rfl
    · rw [if_neg ha, hkeep _ a ha, ih]

end LastWrite
