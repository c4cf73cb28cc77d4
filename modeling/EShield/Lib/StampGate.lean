import EShield.Lib.LastWrite

/-!
# Items behind a stamp

A reader is offered stamped items again and again and takes one up only if it is stamped after the last
item that it has accepted. What is taken up and refused leaves the gate where it was.
-/

namespace StampGate

open LastWrite

variable {α T : Type*} [LinearOrder T] (stamp : α → T) (ok : α → Prop) [DecidablePred ok]

/-- The stamp of the gate after the items `as`. -/
def newest (n : T) (as : List α) : T := as.foldl (fun n a => if ok a then max n (stamp a) else n) n

/-- The items that are taken up, from a gate at `n` on. -/
def due : T → List α → List α
  | _, [] => []
  | n, a :: as => if stamp a ≤ n then due n as else a :: due (newest stamp ok n [a]) as

variable {stamp ok} {n : T} {as : List α} {a : α}

theorem newest_nil : newest stamp ok n [] = n := rfl

theorem newest_append {bs : List α} :
    newest stamp ok n (as ++ bs) = newest stamp ok (newest stamp ok n as) bs :=
  List.foldl_append

theorem newest_concat_of_ok (ha : ok a) :
    newest stamp ok n (as ++ [a]) = max (newest stamp ok n as) (stamp a) := by
  simp [newest, ha]

theorem newest_concat_of_not_ok (ha : ¬ ok a) :
    newest stamp ok n (as ++ [a]) = newest stamp ok n as := by
  simp [newest, ha]

theorem newest_concat_of_le (ha : stamp a ≤ newest stamp ok n as) :
    newest stamp ok n (as ++ [a]) = newest stamp ok n as := by
  by_cases hok : ok a
  · rw [newest_concat_of_ok hok, max_eq_left ha]
  · exact newest_concat_of_not_ok hok

/-- The gate is behind `t` while its start and all accepted items are. -/
theorem newest_lt_iff {t : T} :
    newest stamp ok n as < t ↔ n < t ∧ ∀ a ∈ as, ok a → stamp a < t := by
  induction as using List.reverseRecOn with
  | nil => simp [newest_nil]
  | append_singleton as a ih =>
    by_cases hok : ok a
    · rw [newest_concat_of_ok hok, max_lt_iff, ih]
      simp [or_imp, forall_and, hok, and_assoc]
    · rw [newest_concat_of_not_ok hok, ih]
      simp [or_imp, forall_and, hok]

/-- An item that is not stamped after the gate leaves it, taken up or not. -/
theorem newest_singleton_of_le (ha : stamp a ≤ n) : newest stamp ok n [a] = n :=
  (newest_concat_of_le ha : newest stamp ok n ([] ++ [a]) = newest stamp ok n [])

theorem due_concat :
    due stamp ok n (as ++ [a]) =
      due stamp ok n as ++ if stamp a ≤ newest stamp ok n as then [] else [a] := by
  induction as generalizing n with
  | nil => rfl
  | cons b as ih =>
    have hnewest : newest stamp ok n (b :: as) = newest stamp ok (newest stamp ok n [b]) as :=
      (newest_append : newest stamp ok n ([b] ++ as) = _)
    rw [List.cons_append, due, due, hnewest]
    by_cases hb : stamp b ≤ n
    · rw [if_pos hb, if_pos hb, ih, newest_singleton_of_le hb]
    · rw [if_neg hb, if_neg hb, ih, List.cons_append]

theorem mem_of_mem_due (h : a ∈ due stamp ok n as) : a ∈ as := by
  induction as generalizing n with
  | nil => cases h
  | cons b as ih =>
    rw [due] at h
    split at h
    · exact List.mem_cons_of_mem _ (ih h)
    · rcases List.mem_cons.1 h with rfl | h
      · exact List.mem_cons_self
      · exact List.mem_cons_of_mem _ (ih h)

/-- An acceptable item that is stamped after the gate at the start, and than which no other item is as
new, is the last one that is taken up. -/
theorem lastOf_due {p : α → Prop} [DecidablePred p] (hok : ok a) (hp : p a) (hmem : a ∈ as)
    (hn : n < stamp a) (hmax : ∀ b ∈ as, stamp a ≤ stamp b → b = a) :
    lastOf p (due stamp ok n as) = some a := by
  induction as using List.reverseRecOn with
  | nil => cases hmem
  | append_singleton as b ih =>
    have hmax' : ∀ c ∈ as, stamp a ≤ stamp c → c = a :=
      fun c hc => hmax c (List.mem_append_left _ hc)
    rw [due_concat]
    by_cases ha : a ∈ as
    · -- an item behind it is not stamped after it
      have hle : stamp a ≤ newest stamp ok n as :=
        not_lt.1 fun hlt => lt_irrefl _ ((newest_lt_iff.1 hlt).2 a ha hok)
      rw [if_pos, List.append_nil]
      · exact ih ha hmax'
      · rcases le_total (stamp b) (stamp a) with hba | hab
        · exact hba.trans hle
        · rwa [hmax b (by simp) hab]
    · have hab : a = b := List.mem_singleton.1 ((List.mem_append.1 hmem).resolve_left ha)
      have hlt : newest stamp ok n as < stamp a :=
        newest_lt_iff.2 ⟨hn, fun c hc _ => not_le.1 fun hle => ha (hmax' c hc hle ▸ hc)⟩
      rw [← hab, if_neg (not_le.2 hlt), lastOf_concat, if_pos hp]

end StampGate
