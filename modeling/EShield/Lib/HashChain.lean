import Mathlib

/-!
# Hash chains

Every item is hashed together with the hash before it: `link h k` is the hash of the item `k` behind
the hash `h`. Where no two of the steps taken collide and no hash is the root, the hash at the end of a
chain determines the chain.
-/

namespace HashChain

variable {H K : Type*} (link : H → K → H)

/-- The hash at the end of the items behind `h`. -/
def last (h : H) (ks : List K) : H := ks.foldl link h

/-- What is hashed on the way. -/
def steps : (h : H) → List K → List (H × K)
  | _, [] => []
  | h, k :: ks => (h, k) :: steps (link h k) ks

variable {link} {h : H}

@[simp] theorem last_nil : last link h [] = h := rfl

@[simp] theorem last_cons (k : K) (ks : List K) : last link h (k :: ks) = last link (link h k) ks :=
  rfl

theorem last_snoc (ks : List K) (k : K) : last link h (ks ++ [k]) = link (last link h ks) k :=
  List.foldl_concat ..

theorem steps_append (ks ls : List K) :
    steps link h (ks ++ ls) = steps link h ks ++ steps link (last link h ks) ls := by
  induction ks generalizing h with
  | nil => rfl
  | cons k ks ih => simp only [List.cons_append, steps, ih, last_cons]

theorem isPrefix_steps {ks ls : List K} (hpre : ks <+: ls) : steps link h ks <+: steps link h ls := by
  obtain ⟨rest, rfl⟩ := hpre
  rw [steps_append]
  exact List.prefix_append _ _

/-- No two steps of the two chains have one hash. -/
def Separates (link : H → K → H) (ss ts : List (H × K)) : Prop :=
  ∀ s ∈ ss, ∀ t ∈ ts, link s.1 s.2 = link t.1 t.2 → s = t

theorem Separates.mono {ss ss' ts ts' : List (H × K)} (hsep : Separates link ss ts) (hs : ss' ⊆ ss)
    (ht : ts' ⊆ ts) : Separates link ss' ts' :=
  fun s hmem t hmem' heq => hsep s (hs hmem) t (ht hmem') heq

/-- The last hash determines the items. -/
theorem eq_of_last_eq {root : H} (hroot : ∀ h k, link h k ≠ root) {ks ls : List K}
    (hsep : Separates link (steps link root ks) (steps link root ls))
    (heq : last link root ks = last link root ls) : ks = ls := by
  induction ks using List.reverseRecOn generalizing ls with
  | nil =>
    rcases List.eq_nil_or_concat ls with rfl | ⟨ls, l, rfl⟩
    · rfl
    · rw [last_nil, List.concat_eq_append, last_snoc] at heq
      exact absurd heq.symm (hroot _ _)
  | append_singleton ks k ih =>
    rcases List.eq_nil_or_concat ls with rfl | ⟨ls, l, rfl⟩
    · rw [last_nil, last_snoc] at heq
      exact absurd heq (hroot _ _)
    · rw [List.concat_eq_append] at heq hsep ⊢
      rw [last_snoc, last_snoc] at heq
      rw [steps_append, steps_append] at hsep
      have hpair := hsep (last link root ks, k) (List.mem_append_right _ List.mem_cons_self)
        (last link root ls, l) (List.mem_append_right _ List.mem_cons_self) heq
      obtain ⟨hlast, rfl⟩ := Prod.mk.inj hpair
      have hbefore := hsep.mono (List.subset_append_left _ _) (List.subset_append_left _ _)
      rw [ih hbefore hlast]

end HashChain
