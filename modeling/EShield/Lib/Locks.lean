import EShield.Lib.Exec

/-!
# Tasks that lock

A task takes and gives back guards in the order of its program. It gets a guard once no task holds one
that conflicts with it, and may leave early, upon which it gives back what it holds. Tasks are
deadlocked if each of them waits for a guard that conflicts with one in the hands of another of them,
or in its own.
-/

namespace Locks

open Exec

variable {L P : Type*} [DecidableEq L]

/-- A lock in the hands of a task, for itself or shared with readers. -/
structure Guard (L : Type*) where
  lock : L
  shared : Bool
  deriving DecidableEq

/-- Two guards that are not held at a time. -/
def Guard.Conflicts (g g' : Guard L) : Prop := g.lock = g'.lock ∧ ¬ (g.shared ∧ g'.shared)

instance (g g' : Guard L) : Decidable (g.Conflicts g') := inferInstanceAs (Decidable (_ ∧ _))

omit [DecidableEq L] in
theorem Guard.Conflicts.symm {g g' : Guard L} (h : g.Conflicts g') : g'.Conflicts g :=
  ⟨h.1.symm, fun hshared => h.2 hshared.symm⟩

inductive LockAct (L : Type*) where
  | acquire (g : Guard L)
  | release (g : Guard L)
  deriving DecidableEq

structure Task (L : Type*) where
  /-- The guards it holds, the latest first. -/
  held : List (Guard L)
  todo : List (LockAct L)
  deriving DecidableEq

/-- The guard that the task asks for. -/
def Task.wanted (t : Task L) : Option (Guard L) :=
  match t.todo with
  | .acquire g :: _ => some g
  | _ => none

inductive Event (P : Type*) where
  | start (p : P)
  | advance (i : Nat)
  | leave (i : Nat)

/-- One task goes on: it starts, does what is next, or leaves early. -/
def lockStep (program : P → List (LockAct L)) (tasks : List (Task L)) :
    Event P → Option (List (Task L))
  | .start p => some (tasks ++ [{ held := [], todo := program p }])
  | .advance i =>
    match tasks[i]? with
    | none => none
    | some t =>
      match t.todo with
      | [] => none
      | .acquire g :: rest =>
        if ∃ u ∈ tasks, ∃ g' ∈ u.held, g'.Conflicts g then none
        else some (tasks.set i { held := g :: t.held, todo := rest })
      | .release g :: rest => some (tasks.set i { held := t.held.erase g, todo := rest })
  | .leave i =>
    match tasks[i]? with
    | none => none
    | some t => some (tasks.set i { held := t.held, todo := t.held.map .release })

/-- Some tasks wait for each other, or one for itself. -/
def Deadlocked (tasks : List (Task L)) : Prop :=
  ∃ S : Set Nat, S.Nonempty ∧ ∀ i ∈ S, ∃ t g, tasks[i]? = some t ∧ t.wanted = some g ∧
    ∃ j ∈ S, ∃ u, tasks[j]? = some u ∧ ∃ g' ∈ u.held, g'.Conflicts g

/-! ## Steps -/

variable {program : P → List (LockAct L)} {tasks tasks' : List (Task L)} {e : Event P} {i j : Nat}
  {t t' u : Task L} {g : Guard L}

/-- How a task changes. -/
inductive Moves (tasks : List (Task L)) (i : Nat) : Event P → Task L → Task L → Prop where
  | acquires (held : List (Guard L)) (g : Guard L) (rest : List (LockAct L))
    (hfree : ∀ u ∈ tasks, ∀ g' ∈ u.held, ¬ g'.Conflicts g) :
    Moves tasks i (.advance i) ⟨held, .acquire g :: rest⟩ ⟨g :: held, rest⟩
  | releases (held : List (Guard L)) (g : Guard L) (rest : List (LockAct L)) :
    Moves tasks i (.advance i) ⟨held, .release g :: rest⟩ ⟨held.erase g, rest⟩
  | leaves (held : List (Guard L)) (todo : List (LockAct L)) :
    Moves tasks i (.leave i) ⟨held, todo⟩ ⟨held, held.map .release⟩

theorem lockStep_cases (h : lockStep program tasks e = some tasks') :
    (∃ p, e = .start p ∧ tasks' = tasks ++ [{ held := [], todo := program p }]) ∨
      ∃ i t t', tasks[i]? = some t ∧ Moves tasks i e t t' ∧ tasks' = tasks.set i t' := by
  cases e with
  | start p => exact .inl ⟨p, rfl, (Option.some.inj h).symm⟩
  | advance i =>
    rw [lockStep] at h
    rcases ht : tasks[i]? with _ | ⟨held, todo⟩
    · rw [ht] at h
      cases h
    · rw [ht] at h
      rcases todo with _ | ⟨g | g, rest⟩
      · cases h
      · dsimp only at h
        split at h
        · cases h
        · rename_i hfree
          refine .inr ⟨i, _, _, ht, .acquires held g rest ?_, (Option.some.inj h).symm⟩
          exact fun u hu g' hg' hconf => hfree ⟨u, hu, g', hg', hconf⟩
      · exact .inr ⟨i, _, _, ht, .releases held g rest, (Option.some.inj h).symm⟩
  | leave i =>
    rw [lockStep] at h
    rcases ht : tasks[i]? with _ | ⟨held, todo⟩
    · rw [ht] at h
      cases h
    · rw [ht] at h
      exact .inr ⟨i, _, _, ht, .leaves held todo, (Option.some.inj h).symm⟩

/-- A task after a step: new, moved, or as it was. -/
theorem getElem?_lockStep (h : lockStep program tasks e = some tasks') (hu : tasks'[j]? = some u) :
    (∃ p, e = .start p ∧ u = { held := [], todo := program p }) ∨
      (∃ t, tasks[j]? = some t ∧ Moves tasks j e t u) ∨ tasks[j]? = some u := by
  rcases lockStep_cases h with ⟨p, he, rfl⟩ | ⟨i, t, t', ht, hmove, rfl⟩
  · rw [List.getElem?_append] at hu
    split at hu
    · exact .inr (.inr hu)
    · exact .inl ⟨p, he, List.mem_singleton.1 (List.mem_of_getElem? hu)⟩
  · rw [List.getElem?_set] at hu
    split at hu
    · rename_i hij
      subst hij
      split at hu
      · cases hu
        exact .inr (.inl ⟨t, ht, hmove⟩)
      · cases hu
    · exact .inr (.inr hu)

/-! ## Exclusion -/

/-- What two tasks hold does not conflict. -/
def Excludes (tasks : List (Task L)) : Prop :=
  ∀ (i j : Nat) (t u : Task L), i ≠ j → tasks[i]? = some t → tasks[j]? = some u →
    ∀ g ∈ t.held, ∀ g' ∈ u.held, ¬ g.Conflicts g'

/-- A guard that a task holds after a move it has held before, or just got. -/
theorem Moves.mem_held (hmove : Moves tasks i e t t') (hg : g ∈ t'.held) :
    g ∈ t.held ∨ ∀ u ∈ tasks, ∀ g' ∈ u.held, ¬ g'.Conflicts g := by
  cases hmove with
  | acquires held g' rest hfree =>
    rcases List.mem_cons.1 hg with rfl | hheld
    · exact .inr hfree
    · exact .inl hheld
  | releases held g' rest => exact .inl (List.mem_of_mem_erase hg)
  | leaves held todo => exact .inl hg

/-- A guard that a task holds after a step it has held before, or is free. -/
theorem mem_held_lockStep (h : lockStep program tasks e = some tasks') (hu : tasks'[j]? = some u)
    (hg : g ∈ u.held) :
    (∃ t, tasks[j]? = some t ∧ g ∈ t.held) ∨
      (∃ t, tasks[j]? = some t ∧ Moves tasks j e t u) ∧
        ∀ v ∈ tasks, ∀ g' ∈ v.held, ¬ g'.Conflicts g := by
  rcases getElem?_lockStep h hu with ⟨p, -, rfl⟩ | ⟨t, ht, hmove⟩ | hsame
  · cases hg
  · rcases hmove.mem_held hg with hheld | hfree
    · exact .inl ⟨t, ht, hheld⟩
    · exact .inr ⟨⟨t, ht, hmove⟩, hfree⟩
  · exact .inl ⟨u, hsame, hg⟩

/-- One task moves at a time. -/
theorem Moves.unique {i j : Nat} {t t' u u' : Task L} (hi : Moves tasks i e t t')
    (hj : Moves tasks j e u u') : i = j := by
  cases hi with
  | acquires => cases hj <;> rfl
  | releases => cases hj <;> rfl
  | leaves => cases hj; rfl

theorem excludes_step (hexcl : Excludes tasks) (h : lockStep program tasks e = some tasks') :
    Excludes tasks' := by
  intro i j t u hij ht hu g hg g' hg' hconf
  rcases mem_held_lockStep h ht hg with ⟨t₀, ht₀, hheld⟩ | ⟨⟨t₀, ht₀, hmove⟩, hfree⟩
  · rcases mem_held_lockStep h hu hg' with ⟨u₀, hu₀, hheld'⟩ | ⟨-, hfree'⟩
    · exact hexcl i j t₀ u₀ hij ht₀ hu₀ g hheld g' hheld' hconf
    · exact hfree' t₀ (List.mem_of_getElem? ht₀) g hheld hconf
  · rcases mem_held_lockStep h hu hg' with ⟨u₀, hu₀, hheld'⟩ | ⟨⟨u₀, hu₀, hmove'⟩, -⟩
    · exact hfree u₀ (List.mem_of_getElem? hu₀) g' hheld' hconf.symm
    · exact hij (hmove.unique hmove')

/-! ## Programs that keep to a rule -/

/-- At each acquisition that is still to be done, `rule` admits the guard beside those held then. -/
def Obeys (rule : List (Guard L) → Guard L → Prop) : List (Guard L) → List (LockAct L) → Prop
  | _, [] => True
  | held, .acquire g :: rest => rule held g ∧ Obeys rule (g :: held) rest
  | held, .release g :: rest => Obeys rule (held.erase g) rest

instance obeysDecidable (rule : List (Guard L) → Guard L → Prop) [∀ held g, Decidable (rule held g)] :
    ∀ held todo, Decidable (Obeys rule held todo)
  | _, [] => inferInstanceAs (Decidable True)
  | held, .acquire g :: rest =>
    @instDecidableAnd _ _ _ (obeysDecidable rule (g :: held) rest)
  | held, .release g :: rest => obeysDecidable rule (held.erase g) rest

variable {rule : List (Guard L) → Guard L → Prop} {held : List (Guard L)} {p q : List (LockAct L)}

/-- What a task holds once it has done `todo`. -/
def heldAfter : List (Guard L) → List (LockAct L) → List (Guard L)
  | held, [] => held
  | held, .acquire g :: rest => heldAfter (g :: held) rest
  | held, .release g :: rest => heldAfter (held.erase g) rest

theorem obeys_append :
    Obeys rule held (p ++ q) ↔ Obeys rule held p ∧ Obeys rule (heldAfter held p) q := by
  induction p generalizing held with
  | nil => exact ⟨fun h => ⟨trivial, h⟩, fun h => h.2⟩
  | cons a p ih =>
    cases a with
    | acquire g =>
      rw [List.cons_append, Obeys, Obeys, heldAfter, ih, and_assoc]
    | release g => exact ih

theorem heldAfter_append : heldAfter held (p ++ q) = heldAfter (heldAfter held p) q := by
  induction p generalizing held with
  | nil => rfl
  | cons a p ih =>
    cases a with
    | acquire g => exact ih
    | release g => exact ih

/-- Giving back takes nothing. -/
theorem obeys_releases (gs : List (Guard L)) : Obeys rule held (gs.map .release) := by
  induction gs generalizing held with
  | nil => trivial
  | cons g gs ih => exact ih

/-- A task takes only what it was going to take before. -/
theorem Moves.acquire_mem (hmove : Moves tasks i e t t') (hg : .acquire g ∈ t'.todo) :
    .acquire g ∈ t.todo := by
  cases hmove with
  | acquires held g' rest => exact List.mem_cons_of_mem _ hg
  | releases held g' rest => exact List.mem_cons_of_mem _ hg
  | leaves held todo =>
    obtain ⟨g', -, heq⟩ := List.mem_map.1 hg
    cases heq

theorem Moves.obeys (hmove : Moves tasks i e t t') (hobeys : Obeys rule t.held t.todo) :
    Obeys rule t'.held t'.todo := by
  cases hmove with
  | acquires held g rest => exact hobeys.2
  | releases held g rest => exact hobeys
  | leaves held todo => exact obeys_releases held

/-- All tasks keep to the rule if all programs do. -/
theorem obeys_step (hprograms : ∀ p, Obeys rule [] (program p))
    (hobeys : ∀ (i : Nat) (t : Task L), tasks[i]? = some t → Obeys rule t.held t.todo)
    (h : lockStep program tasks e = some tasks') (ht : tasks'[i]? = some t) :
    Obeys rule t.held t.todo := by
  rcases getElem?_lockStep h ht with ⟨p, -, rfl⟩ | ⟨t₀, ht₀, hmove⟩ | hsame
  · exact hprograms p
  · exact hmove.obeys (hobeys i t₀ ht₀)
  · exact hobeys i t hsame

/-- The rule admits the guard that a task asks for. -/
theorem rule_of_wanted (hobeys : Obeys rule t.held t.todo) (hg : t.wanted = some g) :
    rule t.held g := by
  obtain ⟨held, todo⟩ := t
  rcases todo with _ | ⟨g' | g', rest⟩
  · cases hg
  · cases hg
    exact hobeys.1
  · cases hg

omit [DecidableEq L] in
theorem acquire_mem_of_wanted (hg : t.wanted = some g) : .acquire g ∈ t.todo := by
  obtain ⟨held, todo⟩ := t
  rcases todo with _ | ⟨g' | g', rest⟩
  · cases hg
  · cases hg
    exact List.mem_cons_self
  · cases hg

/-! ## Critical sections -/

/-- The guard is held while `body` runs. -/
def scope (g : Guard L) (body : List (LockAct L)) : List (LockAct L) :=
  .acquire g :: (body ++ [.release g])

/-- What a task holds is the same before and behind these. -/
def Balanced (p : List (LockAct L)) : Prop := ∀ held, heldAfter held p = held

theorem balanced_nil : Balanced ([] : List (LockAct L)) := fun _ => rfl

theorem Balanced.scope (h : Balanced p) (g : Guard L) : Balanced (scope g p) := by
  intro held
  rw [Locks.scope, heldAfter, heldAfter_append, h, heldAfter, List.erase_cons_head]
  rfl

theorem Balanced.append (hp : Balanced p) (hq : Balanced q) : Balanced (p ++ q) := by
  intro held
  rw [heldAfter_append, hp, hq]

theorem balanced_flatten {ps : List (List (LockAct L))} (h : ∀ p ∈ ps, Balanced p) :
    Balanced ps.flatten := by
  induction ps with
  | nil => exact balanced_nil
  | cons p ps ih =>
    rw [List.flatten_cons]
    exact (h p List.mem_cons_self).append (ih fun q hq => h q (List.mem_cons_of_mem p hq))

theorem Balanced.obeys_append (hp : Balanced p) :
    Obeys rule held (p ++ q) ↔ Obeys rule held p ∧ Obeys rule held q := by
  rw [Locks.obeys_append, hp]

theorem obeys_flatten {ps : List (List (LockAct L))}
    (h : ∀ p ∈ ps, Balanced p ∧ Obeys rule held p) : Obeys rule held ps.flatten := by
  induction ps with
  | nil => trivial
  | cons p ps ih =>
    obtain ⟨hp, hobeys⟩ := h p List.mem_cons_self
    rw [List.flatten_cons, hp.obeys_append]
    exact ⟨hobeys, ih fun q hq => h q (List.mem_cons_of_mem p hq)⟩

/-! ## Deadlocks -/

omit [DecidableEq L] in
/-- Among deadlocked tasks one waits for what another holds that itself waits for a lock which does not
come behind that one. -/
theorem Deadlocked.breaks_order (hdead : Deadlocked tasks) (rank : L → Nat) :
    ∃ (i j : Nat) (t u : Task L) (g g' g₂ : Guard L), tasks[i]? = some t ∧ tasks[j]? = some u ∧
      t.wanted = some g ∧ g' ∈ u.held ∧ g'.Conflicts g ∧ u.wanted = some g₂ ∧
      rank g₂.lock ≤ rank g'.lock := by
  obtain ⟨S, hne, hwaits⟩ := hdead
  let height : Nat → Nat := fun i => ((tasks[i]?.bind Task.wanted).map fun g => rank g.lock).getD 0
  have hheight : ∀ i t g, tasks[i]? = some t → t.wanted = some g → height i = rank g.lock := by
    intro i t g ht hg
    simp only [height, ht, Option.bind_some, hg, Option.map_some, Option.getD_some]
  have hfinite : S.Finite := by
    refine (Set.finite_Iio tasks.length).subset fun i hi => ?_
    obtain ⟨t, -, ht, -⟩ := hwaits i hi
    exact (List.getElem?_eq_some_iff.1 ht).1
  obtain ⟨i, hi, hmax⟩ := Set.exists_max_image S height hfinite hne
  obtain ⟨t, g, ht, hg, j, hj, u, hu, g', hg', hconf⟩ := hwaits i hi
  obtain ⟨u', g₂, hu', hg₂, -⟩ := hwaits j hj
  cases hu.symm.trans hu'
  refine ⟨i, j, t, u, g, g', g₂, ht, hu, hg, hg', hconf, hg₂, ?_⟩
  have hle := hmax j hj
  rw [hheight i t g ht hg, hheight j u g₂ hu hg₂, ← hconf.1] at hle
  exact hle

end Locks
