import EShield.Lib.Exec

/-!
# Silent labels

What a run puts out is listed label by label. A run keeps its outputs when labels are left out that
put out nothing and that a relation between the two runs does not see.
-/

namespace Exec

variable {σ α β : Type*} {step : σ → α → Option σ} {out : σ → α → Option β}

/-- The outputs of a run, each read off the state before its step. -/
def outputs (step : σ → α → Option σ) (out : σ → α → Option β) : σ → List α → List β
  | _, [] => []
  | s, a :: as => (out s a).toList ++ (step s a).elim [] fun s' => outputs step out s' as

theorem outputs_cons {s s' : σ} {a : α} (h : step s a = some s') (as : List α) :
    outputs step out s (a :: as) = (out s a).toList ++ outputs step out s' as := by
  rw [outputs, h]
  rfl

variable (step out) in
/-- Without its silent labels a run can still be taken, and puts out the same. -/
theorem exec_filter_silent (R : σ → σ → Prop) (c : σ → α → Prop) (silent : α → Bool)
    (hsilent : ∀ s u a s', R s u → c s a → silent a = true → step s a = some s' →
      R s' u ∧ out s a = none)
    (hloud : ∀ s u a s', R s u → c s a → silent a = false → step s a = some s' →
      out s a = out u a ∧ ∃ u', step u a = some u' ∧ R s' u')
    {s s' u : σ} {as : List α} (hR : R s u) (hc : Along step c s as)
    (h : exec step s as = some s') :
    ∃ u', exec step u (as.filter fun a => !silent a) = some u' ∧ R s' u' ∧
      outputs step out u (as.filter fun a => !silent a) = outputs step out s as := by
  induction as generalizing s u with
  | nil => exact ⟨u, rfl, Option.some.inj h ▸ hR, rfl⟩
  | cons a as ih =>
    obtain ⟨t, ht, hrest⟩ := Option.bind_eq_some_iff.1 h
    rw [outputs_cons ht]
    cases ha : silent a with
    | true =>
      obtain ⟨hRt, hnone⟩ := hsilent s u a t hR hc.1 ha ht
      rw [List.filter_cons_of_neg (by simp [ha]), hnone]
      exact ih hRt (hc.2 t ht) hrest
    | false =>
      obtain ⟨hout, v, hv, hRt⟩ := hloud s u a t hR hc.1 ha ht
      obtain ⟨u', hu', hRu', houts⟩ := ih hRt (hc.2 t ht) hrest
      rw [List.filter_cons_of_pos (by simp [ha]), exec_cons, hv, outputs_cons hv, houts, hout]
      exact ⟨u', hu', hRu', rfl⟩

end Exec
