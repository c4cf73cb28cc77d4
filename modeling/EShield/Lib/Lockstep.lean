import EShield.Lib.Exec

/-!
# Machines in lockstep

Two machines that take the same labels and keep a relation between their states, where one has a step
exactly if the other has. It is enough to show this of one step.
-/

namespace Exec

variable {σ τ α : Type*} {R : σ → τ → Prop}

/-- Two loops that may fail keep a relation if each of their rounds does. -/
theorem foldlM_rel {f : σ → α → Option σ} {g : τ → α → Option τ}
    (hround : ∀ s t a, R s t → Option.Rel R (f s a) (g t a)) {s : σ} {t : τ} (h : R s t)
    (as : List α) : Option.Rel R (as.foldlM f s) (as.foldlM g t) := by
  induction as generalizing s t with
  | nil => exact .some h
  | cons a as ih =>
    rw [List.foldlM_cons, List.foldlM_cons]
    have ha := hround s t a h
    generalize f s a = r at ha
    generalize g t a = r' at ha
    cases ha with
    | none => exact .none
    | some hst => exact ih hst

theorem exec_eq_foldlM (step : σ → α → Option σ) (s : σ) (as : List α) :
    exec step s as = as.foldlM step s := by
  induction as generalizing s with
  | nil => rfl
  | cons a as ih =>
    rw [exec_cons, List.foldlM_cons]
    exact congrArg _ (funext ih)

/-- Runs of the two machines end in related states, or both get stuck. -/
theorem exec_rel {step : σ → α → Option σ} {step' : τ → α → Option τ}
    (hstep : ∀ s t a, R s t → Option.Rel R (step s a) (step' t a)) {s : σ} {t : τ} (h : R s t)
    (as : List α) : Option.Rel R (exec step s as) (exec step' t as) := by
  rw [exec_eq_foldlM, exec_eq_foldlM]
  exact foldlM_rel hstep h as

end Exec
