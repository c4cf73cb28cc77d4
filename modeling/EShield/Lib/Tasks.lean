import EShield.Lib.Exec

/-!
# Tasks in flight

Concurrent operations of several steps: a table gives each identifier the point its task has
reached, or `none`. `Pending tasks P` says that some task in flight satisfies `P`, `Each tasks P`
that all of them do.
-/

/-- The tasks in flight. -/
abbrev TaskTable (τ : Type*) := Nat → Option τ

namespace TaskTable

variable {τ : Type*}

/-- Puts the task `id` at `t`, or ends it. -/
def set (tasks : TaskTable τ) (id : Nat) (t : Option τ) : TaskTable τ := Function.update tasks id t

/-- No task is in flight. -/
def Idle (tasks : TaskTable τ) : Prop := ∀ id, tasks id = none

def Pending (tasks : TaskTable τ) (P : τ → Prop) : Prop := ∃ id t, tasks id = some t ∧ P t

def Each (tasks : TaskTable τ) (P : τ → Prop) : Prop := ∀ id t, tasks id = some t → P t

variable {tasks : TaskTable τ} {P : τ → Prop} {id : Nat} {t : τ} {new : Option τ}

@[simp] theorem set_self (tasks : TaskTable τ) (id : Nat) (t : Option τ) : tasks.set id t id = t :=
  Function.update_self ..

@[simp] theorem set_set (tasks : TaskTable τ) (id : Nat) (t u : Option τ) :
    (tasks.set id t).set id u = tasks.set id u := Function.update_idem ..

/-- Putting a task where it is changes nothing. -/
theorem set_eq_self (h : tasks id = new) : tasks.set id new = tasks := by
  rw [set, ← h, Function.update_eq_self]

theorem Idle.not_pending (h : Idle tasks) : ¬ Pending tasks P := by
  rintro ⟨id, t, ht, _⟩
  rw [h id] at ht
  cases ht

theorem pending_of_eq (h : tasks id = some t) (hP : P t) : Pending tasks P := ⟨id, t, h, hP⟩

/-- Moving a task that does not satisfy `P` can only add what its new point satisfies. -/
theorem pending_set_iff (hold : ∀ t, tasks id = some t → ¬ P t) :
    Pending (tasks.set id new) P ↔ Pending tasks P ∨ ∃ t, new = some t ∧ P t := by
  constructor
  · rintro ⟨i, t, ht, hP⟩
    by_cases hi : i = id
    · subst hi
      rw [set, Function.update_self] at ht
      exact .inr ⟨t, ht, hP⟩
    · rw [set, Function.update_of_ne hi] at ht
      exact .inl ⟨i, t, ht, hP⟩
  · rintro (⟨i, t, ht, hP⟩ | ⟨t, rfl, hP⟩)
    · have hi : i ≠ id := by
        rintro rfl
        exact hold t ht hP
      exact ⟨i, t, by rw [set, Function.update_of_ne hi, ht], hP⟩
    · exact ⟨id, t, by rw [set, Function.update_self], hP⟩

/-- If the new point of the moved task satisfies `P`, every task still does. -/
theorem Each.set (h : Each tasks P) (hnew : ∀ t, new = some t → P t) : Each (tasks.set id new) P := by
  intro i t ht
  by_cases hi : i = id
  · subst hi
    rw [TaskTable.set, Function.update_self] at ht
    exact hnew t ht
  · rw [TaskTable.set, Function.update_of_ne hi] at ht
    exact h i t ht

end TaskTable
