import Mathlib

/-!
# Counting by key

The `entry(key).or_insert(0) += 1` loop over a batch and the loop that adds its counts to standing
totals. Whatever the order in which the counts come, the totals grow by the number of times each key
occurs in the batch.
-/

namespace Tally

variable {κ : Type*} [DecidableEq κ]

/-- One more of `k`. -/
def bump : List (κ × Nat) → κ → List (κ × Nat)
  | [], k => [(k, 1)]
  | e :: rest, k => if e.1 = k then (k, e.2 + 1) :: rest else e :: bump rest k

def tally (ks : List κ) : List (κ × Nat) := ks.foldl bump []

/-! ## The counts of a batch -/

theorem mem_bump {counts : List (κ × Nat)} (hnodup : (counts.map Prod.fst).Nodup) {k : κ}
    {e : κ × Nat} :
    e ∈ bump counts k ↔
      (e ∈ counts ∧ e.1 ≠ k) ∨ e = (k, ((counts.lookup k).getD 0) + 1) := by
  induction counts with
  | nil => simp [bump]
  | cons c rest ih =>
    rw [List.map_cons, List.nodup_cons] at hnodup
    rw [bump]
    split
    · rename_i heq
      subst heq
      have hrest : ∀ x ∈ rest, x.1 ≠ c.1 := fun x hx he =>
        hnodup.1 (he ▸ List.mem_map_of_mem hx)
      rw [List.mem_cons, List.mem_cons, List.lookup_cons]
      simp only [beq_self_eq_true, Option.getD_some]
      constructor
      · rintro (rfl | he)
        · exact .inr rfl
        · exact .inl ⟨.inr he, hrest e he⟩
      · rintro (⟨rfl | he, hne⟩ | rfl)
        · exact absurd rfl hne
        · exact .inr he
        · exact .inl rfl
    · rename_i hne
      have hk : (k == c.1) = false := beq_false_of_ne fun he => hne he.symm
      rw [List.mem_cons, List.mem_cons, ih hnodup.2, List.lookup_cons, hk]
      constructor
      · rintro (rfl | ⟨he, hek⟩ | he)
        · exact .inl ⟨.inl rfl, hne⟩
        · exact .inl ⟨.inr he, hek⟩
        · exact .inr he
      · rintro (⟨rfl | he, hek⟩ | he)
        · exact .inl rfl
        · exact .inr (.inl ⟨he, hek⟩)
        · exact .inr (.inr he)

theorem keys_bump (counts : List (κ × Nat)) (k : κ) :
    (bump counts k).map Prod.fst =
      if k ∈ counts.map Prod.fst then counts.map Prod.fst else counts.map Prod.fst ++ [k] := by
  induction counts with
  | nil => rfl
  | cons c rest ih =>
    rw [bump]
    split
    · rename_i heq
      subst heq
      rw [if_pos (by rw [List.map_cons]; exact List.mem_cons_self), List.map_cons, List.map_cons]
    · rename_i hne
      rw [List.map_cons, ih, List.map_cons]
      have hiff : k ∈ c.1 :: rest.map Prod.fst ↔ k ∈ rest.map Prod.fst := by
        rw [List.mem_cons]
        exact or_iff_right fun he => hne he.symm
      by_cases hk : k ∈ rest.map Prod.fst
      · rw [if_pos hk, if_pos (hiff.2 hk)]
      · rw [if_neg hk, if_neg fun h => hk (hiff.1 h), List.cons_append]

theorem nodup_bump {counts : List (κ × Nat)} (h : (counts.map Prod.fst).Nodup) (k : κ) :
    ((bump counts k).map Prod.fst).Nodup := by
  rw [keys_bump]
  split
  · exact h
  · rename_i hk
    rw [List.nodup_append]
    refine ⟨h, List.nodup_singleton k, ?_⟩
    rintro a ha b hb rfl
    exact hk (List.mem_singleton.1 hb ▸ ha)

theorem tally_concat (ks : List κ) (k : κ) : tally (ks ++ [k]) = bump (tally ks) k := by
  rw [tally, List.foldl_append]
  rfl

theorem lookup_eq_of_mem {counts : List (κ × Nat)} (h : (counts.map Prod.fst).Nodup) {e : κ × Nat}
    (he : e ∈ counts) : counts.lookup e.1 = some e.2 := by
  induction counts with
  | nil => cases he
  | cons c rest ih =>
    rw [List.map_cons, List.nodup_cons] at h
    rw [List.lookup_cons]
    rcases List.mem_cons.1 he with rfl | hmem
    · simp
    · have hne : (e.1 == c.1) = false :=
        beq_false_of_ne fun heq => h.1 (heq ▸ List.mem_map_of_mem hmem)
      rw [hne]
      exact ih h.2 hmem

theorem lookup_eq_none {counts : List (κ × Nat)} {k : κ} (h : ∀ e ∈ counts, e.1 ≠ k) :
    counts.lookup k = none :=
  List.lookup_eq_none_iff.2 fun e he => bne_iff_ne.2 (h e he).symm

/-- `counts` has the keys that occur in `ks`, each once and with the number of times it does. -/
structure IsTally (counts : List (κ × Nat)) (ks : List κ) : Prop where
  nodup : (counts.map Prod.fst).Nodup
  mem_iff : ∀ e, e ∈ counts ↔ e.1 ∈ ks ∧ e.2 = ks.count e.1

namespace IsTally

variable {counts counts' : List (κ × Nat)} {ks : List κ}

theorem lookup (h : IsTally counts ks) (k : κ) :
    counts.lookup k = if k ∈ ks then some (ks.count k) else none := by
  split
  · rename_i hk
    exact lookup_eq_of_mem h.nodup ((h.mem_iff (k, ks.count k)).2 ⟨hk, rfl⟩)
  · rename_i hk
    exact lookup_eq_none fun e he heq => hk (heq ▸ ((h.mem_iff e).1 he).1)

/-- The order of the counts is of no account. -/
theorem perm (h : IsTally counts ks) (hperm : counts'.Perm counts) : IsTally counts' ks :=
  ⟨(hperm.map Prod.fst).nodup_iff.2 h.nodup, fun e => hperm.mem_iff.trans (h.mem_iff e)⟩

/-- No key is counted more often than there are keys. -/
theorem le_length (h : IsTally counts ks) {e : κ × Nat} (he : e ∈ counts) : e.2 ≤ ks.length :=
  ((h.mem_iff e).1 he).2 ▸ List.count_le_length

theorem sum_key (h : IsTally counts ks) (k : κ) :
    (counts.map fun e => if e.1 = k then e.2 else 0).sum = ks.count k := by
  have hsum : ∀ counts : List (κ × Nat), (counts.map Prod.fst).Nodup →
      (counts.map fun e => if e.1 = k then e.2 else 0).sum = (counts.lookup k).getD 0 := by
    intro counts
    induction counts with
    | nil => intro _; rfl
    | cons c rest ih =>
      intro hnodup
      rw [List.map_cons, List.nodup_cons] at hnodup
      rw [List.map_cons, List.sum_cons, ih hnodup.2, List.lookup_cons]
      by_cases hk : c.1 = k
      · subst hk
        have hnone : rest.lookup c.1 = none :=
          lookup_eq_none fun e he heq => hnodup.1 (heq ▸ List.mem_map_of_mem he)
        simp [hnone]
      · rw [if_neg hk, beq_false_of_ne (Ne.symm hk), Nat.zero_add]
  rw [hsum counts h.nodup, h.lookup]
  split
  · rfl
  · rename_i hk
    exact (List.count_eq_zero_of_not_mem hk).symm

/-- Keys that are passed over. -/
theorem filter (h : IsTally counts ks) (p : κ → Bool) :
    IsTally (counts.filter fun e => p e.1) (ks.filter p) where
  nodup := h.nodup.sublist (List.filter_sublist.map Prod.fst)
  mem_iff e := by
    rw [List.mem_filter, List.mem_filter, h.mem_iff e]
    constructor
    · rintro ⟨⟨hmem, hn⟩, hp⟩
      exact ⟨⟨hmem, hp⟩, hn.trans (List.count_filter hp).symm⟩
    · rintro ⟨⟨hmem, hp⟩, hn⟩
      exact ⟨⟨hmem, hn.trans (List.count_filter hp)⟩, hp⟩

end IsTally

theorem isTally_tally (ks : List κ) : IsTally (tally ks) ks := by
  induction ks using List.reverseRecOn with
  | nil => exact ⟨List.nodup_nil, fun e => by simp [tally]⟩
  | append_singleton ks k ih =>
    rw [tally_concat]
    refine ⟨nodup_bump ih.nodup k, fun e => ?_⟩
    have hcount : ((tally ks).lookup k).getD 0 = ks.count k := by
      rw [ih.lookup k]
      split
      · rfl
      · rename_i hk
        exact (List.count_eq_zero_of_not_mem hk).symm
    rw [mem_bump ih.nodup, hcount, List.mem_append, List.mem_singleton, List.count_append,
      List.count_singleton, ih.mem_iff]
    constructor
    · rintro (⟨⟨hmem, hn⟩, hne⟩ | rfl)
      · refine ⟨.inl hmem, ?_⟩
        rw [if_neg (by simpa using hne.symm), hn, Nat.add_zero]
      · exact ⟨.inr rfl, by simp⟩
    · rintro ⟨hmem, hn⟩
      by_cases hek : e.1 = k
      · refine .inr (Prod.ext hek ?_)
        rw [hn, hek]
        simp
      · refine .inl ⟨⟨hmem.resolve_right hek, ?_⟩, hek⟩
        rw [hn, if_neg (by simpa using fun h => hek h.symm), Nat.add_zero]

/-! ## Standing totals

A total is of any type with an operation that adds a number to it. -/

section Totals

variable {ν : Type*} (inc : ν → Nat → ν) (zero : ν)

/-- Adds one count to the total of its key. -/
def add (totals : κ → Option ν) (e : κ × Nat) : κ → Option ν :=
  Function.update totals e.1 (some (inc ((totals e.1).getD zero) e.2))

/-- The totals of all that has occurred. -/
def totals (ks : List κ) (k : κ) : Option ν := if k ∈ ks then some (inc zero (ks.count k)) else none

/-- Of counts with different keys at most one is for `k`. -/
theorem foldl_add_apply {counts : List (κ × Nat)} (hnodup : (counts.map Prod.fst).Nodup)
    (totals : κ → Option ν) (k : κ) :
    counts.foldl (add inc zero) totals k =
      ((counts.lookup k).map (inc ((totals k).getD zero))).or (totals k) := by
  induction counts generalizing totals with
  | nil => rfl
  | cons c rest ih =>
    rw [List.map_cons, List.nodup_cons] at hnodup
    rw [List.foldl_cons, ih hnodup.2, List.lookup_cons]
    by_cases hk : k = c.1
    · subst hk
      have hnone : rest.lookup c.1 = none :=
        lookup_eq_none fun e he heq => hnodup.1 (heq ▸ List.mem_map_of_mem he)
      simp [hnone, add]
    · rw [beq_false_of_ne hk]
      simp only [add, Function.update_of_ne hk]

variable {inc zero}

/-- After the counts of one more batch the totals are those of all batches. -/
theorem IsTally.foldl_add {counts : List (κ × Nat)} {batch : List κ} (h : IsTally counts batch)
    (hinc : ∀ x m n, inc (inc x m) n = inc x (m + n)) (ks : List κ) :
    counts.foldl (add inc zero) (totals inc zero ks) = totals inc zero (ks ++ batch) := by
  funext k
  rw [foldl_add_apply inc zero h.nodup, h.lookup]
  simp only [totals, List.mem_append, List.count_append]
  by_cases hb : k ∈ batch
  · by_cases hk : k ∈ ks
    · simp [hb, hk, hinc]
    · simp [hb, hk, List.count_eq_zero_of_not_mem hk]
  · have hzero : batch.count k = 0 := List.count_eq_zero_of_not_mem hb
    simp [hb, hzero]

end Totals

end Tally
