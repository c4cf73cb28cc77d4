import Mathlib

/-!
# Runs of a labelled machine

A machine is a partial step function `step : σ → α → Option σ`; its labels carry everything the
step does not compute (who acts, clock readings, random bytes). `exec` folds it over a list of
labels, `Along c` says that every label of such a run meets `c` in the state before its step, and
`exec_invariant` is the induction that turns a fact about one step into a fact about every run.
`Visits` collects the states of a run, for facts about its past.
-/

namespace Exec

variable {σ α : Type*}

/-- The state after the labels `as`, if each of them is enabled when its turn comes. -/
def exec (step : σ → α → Option σ) : σ → List α → Option σ
  | s, [] => some s
  | s, a :: as => (step s a).bind fun s' => exec step s' as

/-- Every label of the run from `s` meets `c` in the state in which it is taken. -/
def Along (step : σ → α → Option σ) (c : σ → α → Prop) : σ → List α → Prop
  | _, [] => True
  | s, a :: as => c s a ∧ ∀ s', step s a = some s' → Along step c s' as

variable {step : σ → α → Option σ} {c : σ → α → Prop}

theorem exec_cons (s : σ) (a : α) (as : List α) :
    exec step s (a :: as) = (step s a).bind fun s' => exec step s' as := rfl

theorem exec_append (s : σ) (as bs : List α) :
    exec step s (as ++ bs) = (exec step s as).bind fun s' => exec step s' bs := by
  induction as generalizing s with
  | nil => rfl
  | cons a as ih =>
    simp only [List.cons_append, exec_cons]
    cases step s a with
    | none => rfl
    | some s' => exact ih s'

/-- A condition that holds of every state and label holds along every run. -/
theorem along_of_forall (h : ∀ s a, c s a) (s : σ) (as : List α) : Along step c s as := by
  induction as generalizing s with
  | nil => trivial
  | cons a as ih => exact ⟨h s a, fun s' _ => ih s'⟩

theorem Along.cons {s s' : σ} {a : α} {as : List α} (h : step s a = some s') (ha : c s a)
    (hrest : Along step c s' as) : Along step c s (a :: as) :=
  ⟨ha, fun _ ht => Option.some.inj (h.symm.trans ht) ▸ hrest⟩

/-- A condition that can be decided of a step can be decided along a run. -/
instance decidableAlong [∀ s a, Decidable (c s a)] : ∀ s as, Decidable (Along step c s as)
  | _, [] => isTrue trivial
  | s, a :: as =>
    match h : step s a with
    | none => decidable_of_iff (c s a) ⟨fun ha => ⟨ha, by simp [h]⟩, And.left⟩
    | some s' =>
      have := decidableAlong s' as
      decidable_of_iff (c s a ∧ Along step c s' as)
        ⟨fun hc => .cons h hc.1 hc.2, fun hc => ⟨hc.1, hc.2 s' h⟩⟩

theorem Along.mono {d : σ → α → Prop} (h : ∀ s a, c s a → d s a) {s : σ} {as : List α}
    (hc : Along step c s as) : Along step d s as := by
  induction as generalizing s with
  | nil => trivial
  | cons a as ih => exact ⟨h s a hc.1, fun s' hs' => ih (hc.2 s' hs')⟩

theorem Along.and {d : σ → α → Prop} {s : σ} {as : List α} (hc : Along step c s as)
    (hd : Along step d s as) : Along step (fun t a => c t a ∧ d t a) s as := by
  induction as generalizing s with
  | nil => trivial
  | cons a as ih => exact ⟨⟨hc.1, hd.1⟩, fun s' h => ih (hc.2 s' h) (hd.2 s' h)⟩

/-- The condition along a run holds along the rest of it. -/
theorem Along.of_append {s t : σ} {as bs : List α} (hc : Along step c s (as ++ bs))
    (h : exec step s as = some t) : Along step c t bs := by
  induction as generalizing s with
  | nil => exact Option.some.inj h ▸ hc
  | cons a as ih =>
    obtain ⟨s', hs', hrest⟩ := Option.bind_eq_some_iff.1 h
    exact ih (hc.2 s' hs') hrest

/-- What holds of every label holds along the run. -/
theorem Along.and_mem {P : α → Prop} {s : σ} {as : List α} (hc : Along step c s as)
    (hP : ∀ a ∈ as, P a) : Along step (fun t a => c t a ∧ P a) s as := by
  induction as generalizing s with
  | nil => trivial
  | cons a as ih =>
    exact ⟨⟨hc.1, hP a List.mem_cons_self⟩,
      fun s' h => ih (hc.2 s' h) fun b hb => hP b (List.mem_cons_of_mem a hb)⟩

/-- Two conditions that agree at every step from a state with the invariant agree along runs, if the
steps that meet them preserve it. -/
theorem Along.congr {I : σ → Prop} {d e : σ → α → Prop}
    (hstep : ∀ s a s', I s → c s a → e s a → step s a = some s' → I s')
    (hiff : ∀ s a, I s → c s a → (d s a ↔ e s a)) {s : σ} {as : List α} (hI : I s)
    (hc : Along step c s as) : Along step d s as ↔ Along step e s as := by
  induction as generalizing s with
  | nil => exact Iff.rfl
  | cons a as ih =>
    have hhead := hiff s a hI hc.1
    have hrest : e s a → ∀ s', step s a = some s' → (Along step d s' as ↔ Along step e s' as) :=
      fun he s' h => ih (hstep s a s' hI hc.1 he h) (hc.2 s' h)
    constructor
    · rintro ⟨hd, htail⟩
      have he := hhead.1 hd
      exact ⟨he, fun s' h => (hrest he s' h).1 (htail s' h)⟩
    · rintro ⟨he, htail⟩
      exact ⟨hhead.2 he, fun s' h => (hrest he s' h).2 (htail s' h)⟩

/-- What every step that meets `c` preserves, every run along `c` preserves. -/
theorem exec_invariant {I : σ → Prop}
    (hstep : ∀ s a s', I s → c s a → step s a = some s' → I s') {s s' : σ} {as : List α}
    (hI : I s) (hc : Along step c s as) (h : exec step s as = some s') : I s' := by
  induction as generalizing s with
  | nil => exact Option.some.inj h ▸ hI
  | cons a as ih =>
    obtain ⟨t, ht, hrest⟩ := Option.bind_eq_some_iff.1 h
    exact ih (hstep s a t hI hc.1 ht) (hc.2 t ht) hrest

theorem exec_append_eq_some {s u : σ} {as bs : List α} (h : exec step s (as ++ bs) = some u) :
    ∃ t, exec step s as = some t ∧ exec step t bs = some u := by
  rw [exec_append] at h
  exact Option.bind_eq_some_iff.1 h

theorem Along.of_prefix {s : σ} {as bs : List α} (hc : Along step c s (as ++ bs)) :
    Along step c s as := by
  induction as generalizing s with
  | nil => trivial
  | cons a as ih => exact ⟨hc.1, fun s' h => ih (hc.2 s' h)⟩

/-! ## The states of a run -/

/-- The run from `s` passes through `t`. -/
def Visits (step : σ → α → Option σ) (s : σ) (as : List α) (t : σ) : Prop :=
  ∃ pre, pre <+: as ∧ exec step s pre = some t

theorem visits_self (s : σ) (as : List α) : Visits step s as s := ⟨[], List.nil_prefix, rfl⟩

theorem Visits.cons {s s' t : σ} {a : α} {as : List α} (h : step s a = some s')
    (ht : Visits step s' as t) : Visits step s (a :: as) t := by
  obtain ⟨pre, hpre, hexec⟩ := ht
  exact ⟨a :: pre, List.cons_prefix_cons.2 ⟨rfl, hpre⟩, by rw [exec_cons, h]; exact hexec⟩

/-- Along a run one may use that the states are those it passes through. -/
theorem Along.visits {P : σ → Prop} {s : σ} {as : List α} (hc : Along step c s as)
    (hP : ∀ t, Visits step s as t → P t) : Along step (fun t a => c t a ∧ P t) s as := by
  induction as generalizing s with
  | nil => trivial
  | cons a as ih =>
    exact ⟨⟨hc.1, hP s (visits_self s _)⟩,
      fun s' h => ih (hc.2 s' h) fun t ht => hP t (ht.cons h)⟩

end Exec
