import Mathlib

/-!
# Trying places in turn

A client that has several places to turn to keeps to one until it fails, then tries the next, around
the list and each place once. What the tries get is given by their number, so a place may answer one time
and not another.
-/

namespace RoundRobin

/-- The places in the order in which they are tried from `i` on. -/
def order (n i : Nat) : List Nat := (List.range n).map fun j => (i + j) % n

/-- What a round comes to: the answer or the last error, the place it ends at, and the places tried. -/
structure Round (ε ρ : Type*) where
  result : Except (Option ε) ρ
  place : Nat
  tried : List Nat

/-- At most `fuel` tries from place `i`; the first of them is try `k`. -/
def tryFrom {ε ρ : Type*} (n : Nat) (answers : Nat → Except ε ρ) :
    (fuel k i : Nat) → (lastErr : Option ε) → Round ε ρ
  | 0, _, i, lastErr => ⟨.error lastErr, i, []⟩
  | fuel + 1, k, i, _ =>
    match answers k with
    | .ok r => ⟨.ok r, i, [i]⟩
    | .error e =>
      let rest := tryFrom n answers fuel (k + 1) ((i + 1) % n) (some e)
      { rest with tried := i :: rest.tried }

variable {ε ρ : Type*} {n i : Nat} {answers : Nat → Except ε ρ}

/-! ## The order -/

@[simp] theorem length_order (n i : Nat) : (order n i).length = n := by simp [order]

theorem order_eq_rotate (n i : Nat) : order n i = (List.range n).rotate i := by
  refine List.ext_getElem (by simp [order]) fun j hj _ => ?_
  rw [List.getElem_rotate]
  simp [order, Nat.add_comm]

theorem order_perm (n i : Nat) : (order n i).Perm (List.range n) :=
  order_eq_rotate n i ▸ List.rotate_perm _ i

theorem mem_order {h : Nat} : h ∈ order n i ↔ h < n := (order_perm n i).mem_iff.trans List.mem_range

theorem getLast?_take_order {m : Nat} (hm : m < n) :
    ((order n i).take (m + 1)).getLast? = some ((i + m) % n) := by
  rw [order, ← List.map_take, List.take_range, Nat.min_eq_left hm, List.range_succ, List.map_append,
    List.map_singleton, List.getLast?_concat]

/-! ## A round -/

/-- The tries up to the first that is answered. -/
theorem tryFrom_of_answer {m : Nat} {r : ρ} (hm : answers m = .ok r) :
    ∀ (fuel k i : Nat) (lastErr : Option ε), k ≤ m → m < k + fuel →
      (∀ j, k ≤ j → j < m → ∃ e, answers j = .error e) → i < n →
        tryFrom n answers fuel k i lastErr =
          ⟨.ok r, (i + (m - k)) % n, (List.range (m - k + 1)).map fun j => (i + j) % n⟩ := by
  intro fuel
  induction fuel with
  | zero => intro k i lastErr hk hfuel; omega
  | succ fuel ih =>
    intro k i lastErr hk hfuel hbefore hi
    rcases hk.eq_or_lt with rfl | hlt
    · simp [tryFrom, hm, Nat.mod_eq_of_lt hi]
    · obtain ⟨e, he⟩ := hbefore k (le_refl k) hlt
      rw [tryFrom, he]
      dsimp only
      rw [ih (k + 1) _ _ hlt (by omega) (fun j hj hjm => hbefore j (by omega) hjm)
        (Nat.mod_lt _ (by omega))]
      have hcount : m - k = m - (k + 1) + 1 := by omega
      simp only [Round.mk.injEq, true_and]
      constructor
      · rw [hcount, Nat.mod_add_mod]
        congr 1
        omega
      · rw [hcount, List.range_succ_eq_map (n := m - (k + 1) + 1), List.map_cons, List.map_map]
        congr 1
        · rw [Nat.add_zero, Nat.mod_eq_of_lt hi]
        · refine List.map_congr_left fun j _ => ?_
          rw [Function.comp_apply, Nat.mod_add_mod]
          congr 1
          omega

/-- A round in which nothing answers. -/
theorem tryFrom_of_none :
    ∀ (fuel k i : Nat) (lastErr : Option ε), (∀ j, k ≤ j → j < k + fuel → ∃ e, answers j = .error e) →
      i < n → ∃ e, tryFrom n answers fuel k i lastErr =
        ⟨.error e, (i + fuel) % n, (List.range fuel).map fun j => (i + j) % n⟩ := by
  intro fuel
  induction fuel with
  | zero => intro k i lastErr _ hi; exact ⟨lastErr, by simp [tryFrom, Nat.mod_eq_of_lt hi]⟩
  | succ fuel ih =>
    intro k i lastErr hnone hi
    obtain ⟨e, he⟩ := hnone k (le_refl k) (by omega)
    obtain ⟨e', hrest⟩ := ih (k + 1) ((i + 1) % n) (some e)
      (fun j hj hjk => hnone j (by omega) (by omega)) (Nat.mod_lt _ (by omega))
    refine ⟨e', ?_⟩
    rw [tryFrom, he]
    dsimp only
    rw [hrest]
    simp only [Round.mk.injEq, true_and]
    constructor
    · rw [Nat.mod_add_mod]
      congr 1
      omega
    · rw [List.range_succ_eq_map, List.map_cons, List.map_map]
      congr 1
      · rw [Nat.add_zero, Nat.mod_eq_of_lt hi]
      · refine List.map_congr_left fun j _ => ?_
        rw [Function.comp_apply, Nat.mod_add_mod]
        congr 1
        omega

/-- A whole round from `i`: either a try is answered, the first such, and the round stays at its place;
or each place was tried once, in vain, and the round is back where it began. -/
theorem round_cases (hi : i < n) (answers : Nat → Except ε ρ) :
    (∃ m r, m < n ∧ answers m = .ok r ∧ (∀ j < m, ∃ e, answers j = .error e) ∧
      tryFrom n answers n 0 i none = ⟨.ok r, (i + m) % n, (order n i).take (m + 1)⟩) ∨
    ((∀ j < n, ∃ e, answers j = .error e) ∧
      ∃ e, tryFrom n answers n 0 i none = ⟨.error e, i, order n i⟩) := by
  have herror : ∀ j, (∀ r, answers j ≠ .ok r) → ∃ e, answers j = .error e := by
    intro j hj
    cases hans : answers j with
    | ok r => exact absurd hans (hj r)
    | error e => exact ⟨e, rfl⟩
  by_cases hsome : ∃ m, m < n ∧ ∃ r, answers m = .ok r
  · classical
    left
    obtain ⟨hlt, r, hr⟩ := Nat.find_spec hsome
    have hbefore : ∀ j < Nat.find hsome, ∃ e, answers j = .error e := fun j hj =>
      herror j fun r hr => Nat.find_min hsome hj ⟨hj.trans hlt, r, hr⟩
    refine ⟨Nat.find hsome, r, hlt, hr, hbefore, ?_⟩
    rw [tryFrom_of_answer hr n 0 i none (Nat.zero_le _) (by omega) (fun j _ hj => hbefore j hj) hi,
      order, ← List.map_take, List.take_range, Nat.min_eq_left (by omega)]
    rfl
  · right
    have hnone : ∀ j < n, ∃ e, answers j = .error e := fun j hj =>
      herror j fun r hr => hsome ⟨j, hj, r, hr⟩
    refine ⟨hnone, ?_⟩
    obtain ⟨e, he⟩ := tryFrom_of_none n 0 i none (fun j _ hj => hnone j (by omega)) hi
    refine ⟨e, ?_⟩
    rw [he, Nat.add_mod_right, Nat.mod_eq_of_lt hi]
    rfl

end RoundRobin
