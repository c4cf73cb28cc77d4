import Mathlib

/-!
# Attempts

An attempt may fail half-way: it returns the state it reached together with its result. A sequence
of attempts stops at the first one that fails and keeps what the earlier ones did.
-/

/-- A computation on `σ` that may fail with an error in `ε`. -/
abbrev Attempt (σ ε : Type) := σ → Except ε Unit × σ

namespace Attempt

variable {σ τ ε α : Type}

/-- An attempt that cannot fail. -/
def write (f : σ → σ) : Attempt σ ε := fun s => (.ok (), f s)

/-- An attempt that fails or writes everything at once. -/
def commit (f : σ → Except ε σ) : Attempt σ ε := fun s =>
  match f s with
  | .ok t => (.ok (), t)
  | .error e => (.error e, s)

def andThen (a b : Attempt σ ε) : Attempt σ ε := fun s =>
  match a s with
  | (.ok (), t) => b t
  | (.error e, t) => (.error e, t)

/-- The attempt `a` on a part of the state. -/
def zoom (get : σ → τ) (set : σ → τ → σ) (a : Attempt τ ε) : Attempt σ ε := fun s =>
  ((a (get s)).1, set s (a (get s)).2)

/-- Runs the attempts in order up to the first failure. -/
def sequence : List (Attempt σ ε) → Attempt σ ε
  | [] => write id
  | a :: as => a.andThen (sequence as)

/-- The attempt passes from `s` to `t`. -/
def Passes (a : Attempt σ ε) (s t : σ) : Prop := a s = (.ok (), t)

theorem passes_write {f : σ → σ} {s t : σ} : (write f : Attempt σ ε).Passes s t ↔ f s = t := by
  simp [Passes, write]

theorem passes_commit {f : σ → Except ε σ} {s t : σ} : (commit f).Passes s t ↔ f s = .ok t := by
  unfold Passes commit
  cases f s with
  | ok u => simp
  | error e => simp

theorem passes_zoom {get : σ → τ} {set : σ → τ → σ} {a : Attempt τ ε} {s t : σ} :
    (zoom get set a).Passes s t ↔ ∃ u, a.Passes (get s) u ∧ set s u = t := by
  unfold Passes zoom
  rcases a (get s) with ⟨r, u⟩
  simp only [Prod.mk.injEq]
  exact ⟨fun ⟨hr, ht⟩ => ⟨u, ⟨hr, rfl⟩, ht⟩, fun ⟨_, ⟨hr, hu⟩, ht⟩ => ⟨hr, hu ▸ ht⟩⟩

theorem passes_andThen {a b : Attempt σ ε} {s t : σ} :
    (a.andThen b).Passes s t ↔ ∃ u, a.Passes s u ∧ b.Passes u t := by
  unfold Passes andThen
  rcases a s with ⟨(e | u), w⟩
  · simp
  · simp

theorem passes_nil (s : σ) : (sequence ([] : List (Attempt σ ε))).Passes s s := rfl

theorem passes_cons {a : Attempt σ ε} {as : List (Attempt σ ε)} {s t : σ} :
    (sequence (a :: as)).Passes s t ↔ ∃ u, a.Passes s u ∧ (sequence as).Passes u t :=
  passes_andThen

theorem Passes.sequence_cons {a : Attempt σ ε} {s t : σ} (h : a.Passes s t)
    (as : List (Attempt σ ε)) : sequence (a :: as) s = sequence as t := by
  unfold Passes at h
  simp only [sequence, andThen, h]

theorem sequence_cons_of_error {a : Attempt σ ε} {s t : σ} {e : ε} (h : a s = (.error e, t))
    (as : List (Attempt σ ε)) : sequence (a :: as) s = (.error e, t) := by
  simp only [sequence, andThen, h]

theorem sequence_append (as bs : List (Attempt σ ε)) :
    sequence (as ++ bs) = (sequence as).andThen (sequence bs) := by
  induction as with
  | nil => rfl
  | cons a as ih =>
    funext s
    simp only [List.cons_append, sequence, andThen, ih]
    rcases a s with ⟨(e | u), t⟩
    · rfl
    · rfl

theorem passes_append {as bs : List (Attempt σ ε)} {s t : σ} :
    (sequence (as ++ bs)).Passes s t ↔ ∃ u, (sequence as).Passes s u ∧ (sequence bs).Passes u t := by
  rw [sequence_append, passes_andThen]

/-! ## What an attempt preserves -/

/-- The attempt leads from `I` to `I`, whether it passes or fails. -/
def Preserves (I : σ → Prop) (a : Attempt σ ε) : Prop := ∀ s, I s → I (a s).2

theorem preserves_sequence {I : σ → Prop} {as : List (Attempt σ ε)}
    (h : ∀ a ∈ as, Preserves I a) : Preserves I (sequence as) := by
  induction as with
  | nil => exact fun _ hs => hs
  | cons a as ih =>
    obtain ⟨ha, has⟩ := List.forall_mem_cons.1 h
    intro s hs
    have hfirst := ha s hs
    simp only [sequence, andThen]
    rcases hrun : a s with ⟨(e | u), t⟩
    · rw [hrun] at hfirst
      exact hfirst
    · rw [hrun] at hfirst
      exact ih has t hfirst

/-! ## What an attempt leaves alone -/

/-- The attempt does not change what `f` sees of the state, whether it passes or fails. -/
def KeepsView (f : σ → α) (a : Attempt σ ε) : Prop := ∀ s, f (a s).2 = f s

variable {f : σ → α}

theorem keeps_commit {g : σ → Except ε σ} (h : ∀ s t, g s = .ok t → f t = f s) :
    KeepsView f (commit g) := by
  intro s
  unfold commit
  cases hg : g s with
  | error e => rfl
  | ok t => exact h s t hg

theorem keeps_sequence {as : List (Attempt σ ε)} (h : ∀ a ∈ as, KeepsView f a) :
    KeepsView f (sequence as) := by
  induction as with
  | nil => exact fun _ => rfl
  | cons a as ih =>
    obtain ⟨ha, has⟩ := List.forall_mem_cons.1 h
    intro s
    have hfirst := ha s
    simp only [sequence, andThen]
    rcases hs : a s with ⟨(e | u), t⟩
    · rw [hs] at hfirst
      exact hfirst
    · rw [hs] at hfirst
      exact (ih has t).trans hfirst

end Attempt
