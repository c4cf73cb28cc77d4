import Mathlib

/-!
# Walks that restart after a pause

A height goes up and down by one, never below zero, and starts again from zero after a pause. It is the
largest excess of ups over downs in a stretch without a pause that ends at the present, and never more
than the ups that no down answers.
-/

namespace IdleWalk

variable {T : Type}

structure Event (T : Type) where
  time : T
  up : Bool

structure State (T : Type) where
  height : Nat
  last : T

/-- `idle last now` says that the pause between two events is long enough to start again. -/
def next (idle : T → T → Prop) [DecidableRel idle] (s : State T) (e : Event T) : State T :=
  let height := if idle s.last e.time then 0 else s.height
  { height := if e.up then height + 1 else height - 1, last := e.time }

def walk (idle : T → T → Prop) [DecidableRel idle] (s : State T) (es : List (Event T)) : State T :=
  es.foldl (next idle) s

def ups (es : List (Event T)) : Nat := es.countP (·.up)

def downs (es : List (Event T)) : Nat := es.countP (!·.up)

/-- No pause between the events of a stretch. -/
def Unbroken (idle : T → T → Prop) (es : List (Event T)) : Prop :=
  es.IsChain fun e e' => ¬ idle e.time e'.time

section counts

variable (es : List (Event T)) (e : Event T)

theorem ups_snoc : ups (es ++ [e]) = ups es + if e.up then 1 else 0 := by
  rw [ups, List.countP_append, List.countP_singleton]
  rfl

theorem downs_snoc : downs (es ++ [e]) = downs es + if e.up then 0 else 1 := by
  rw [downs, List.countP_append, List.countP_singleton]
  cases e.up <;> rfl

end counts

variable {idle : T → T → Prop} [DecidableRel idle] {s : State T} {es before : List (Event T)}
  {e : Event T}

theorem walk_snoc : walk idle s (es ++ [e]) = next idle (walk idle s es) e := by
  rw [walk, List.foldl_append]
  rfl

theorem last_walk_snoc : (walk idle s (es ++ [e])).last = e.time := by
  rw [walk_snoc]
  rfl

/-- Where a walk is in time depends on its last event only. -/
theorem last_walk_append (hne : es ≠ []) :
    (walk idle s (before ++ es)).last = (walk idle s es).last := by
  cases es using List.reverseRecOn with
  | nil => exact absurd rfl hne
  | append_singleton es e => rw [← List.append_assoc, last_walk_snoc, last_walk_snoc]

theorem unbroken_snoc (hne : es ≠ []) :
    Unbroken idle (es ++ [e]) ↔ Unbroken idle es ∧ ¬ idle (walk idle s es).last e.time := by
  cases es using List.reverseRecOn with
  | nil => exact absurd rfl hne
  | append_singleton es e' =>
    rw [last_walk_snoc, Unbroken, List.isChain_append, List.getLast?_concat]
    simp [Unbroken]

/-- The height is no more than the excess of some stretch up to the present. -/
theorem exists_stretch (hstart : s.height = 0) (es : List (Event T)) :
    ∃ before stretch, es = before ++ stretch ∧ Unbroken idle stretch ∧
      (walk idle s es).height + downs stretch ≤ ups stretch := by
  induction es using List.reverseRecOn with
  | nil =>
    refine ⟨[], [], rfl, List.isChain_nil, ?_⟩
    show s.height + 0 ≤ 0
    omega
  | append_singleton es e ih =>
    obtain ⟨before, stretch, rfl, hunbroken, hheight⟩ := ih
    -- a stretch that begins with this event
    have halone : ∀ h ≤ (if e.up then 1 else 0), ∃ before' stretch',
        before ++ stretch ++ [e] = before' ++ stretch' ∧ Unbroken idle stretch' ∧
          h + downs stretch' ≤ ups stretch' := by
      intro h hle
      cases hup : e.up with
      | true =>
        refine ⟨before ++ stretch, [e], rfl, List.isChain_singleton _, ?_⟩
        simp only [downs, ups, List.countP_singleton, hup] at hle ⊢
        simpa using hle
      | false =>
        refine ⟨before ++ stretch ++ [e], [], (List.append_nil _).symm, List.isChain_nil, ?_⟩
        simp only [hup] at hle
        simpa [downs, ups] using hle
    rw [walk_snoc, next]
    dsimp only
    by_cases hpause : idle (walk idle s (before ++ stretch)).last e.time
    · rw [if_pos hpause]
      refine halone _ ?_
      split <;> omega
    · rw [if_neg hpause]
      by_cases hzero : (walk idle s (before ++ stretch)).height = 0
      · rw [hzero]
        refine halone _ ?_
        split <;> omega
      · refine ⟨before, stretch ++ [e], List.append_assoc _ _ _, ?_, ?_⟩
        · have hne : stretch ≠ [] := by
            rintro rfl
            simp only [downs, ups, List.countP_nil] at hheight
            omega
          rw [last_walk_append hne] at hpause
          exact (unbroken_snoc hne).2 ⟨hunbroken, hpause⟩
        · rw [ups_snoc, downs_snoc]
          split <;> omega

/-- The height is at least the excess of every stretch up to the present. -/
theorem stretch_le {stretch : List (Event T)} (hunbroken : Unbroken idle stretch) :
    ups stretch ≤ (walk idle s (before ++ stretch)).height + downs stretch := by
  induction stretch using List.reverseRecOn with
  | nil => exact Nat.zero_le _
  | append_singleton stretch e ih =>
    rw [← List.append_assoc, walk_snoc, next, ups_snoc, downs_snoc]
    dsimp only
    by_cases hne : stretch = []
    · subst hne
      simp only [ups, downs, List.countP_nil]
      split <;> omega
    · obtain ⟨hunbroken, hpause⟩ := (unbroken_snoc (s := s) hne).1 hunbroken
      have hheight := ih hunbroken
      rw [last_walk_append hne, if_neg hpause]
      split <;> omega

/-! ## Answered ups -/

/-- Each answer is a later down, and answers one up only. -/
structure Matching (es : List (Event T)) (answers : Nat → Option Nat) : Prop where
  later : ∀ i j, answers j = some i → i < j
  down : ∀ i j, answers j = some i → ∃ e, es[j]? = some e ∧ e.up = false

/-- The ups among the first `n` events that none of these answers. -/
def unanswered (es : List (Event T)) (answers : Nat → Option Nat) (n : Nat) : Finset Nat :=
  (Finset.range n).filter fun i =>
    (∃ e ∈ es[i]?, e.up = true) ∧ ∀ j < n, answers j ≠ some i

theorem mem_unanswered {answers : Nat → Option Nat} {n i : Nat} :
    i ∈ unanswered es answers n ↔
      i < n ∧ (∃ e, es[i]? = some e ∧ e.up = true) ∧ ∀ j < n, answers j ≠ some i := by
  simp [unanswered]

/-- The height after `n` events is at most the number of unanswered ups. -/
theorem height_le_unanswered {answers : Nat → Option Nat} (hstart : s.height = 0)
    (hmatch : Matching es answers) {n : Nat} (hn : n ≤ es.length) :
    (walk idle s (es.take n)).height ≤ (unanswered es answers n).card := by
  induction n with
  | zero => exact hstart.le
  | succ n ih =>
    have hlt : n < es.length := hn
    have hheight := ih (Nat.le_of_lt hlt)
    have hget : es[n]? = some es[n] := List.getElem?_eq_getElem hlt
    rw [List.take_succ_eq_append_getElem hlt, walk_snoc, next]
    dsimp only
    cases hup : es[n].up with
    | true =>
      have hstays : insert n (unanswered es answers n) ⊆ unanswered es answers (n + 1) := by
        intro i hi
        have hnone : answers n = none := by
          cases hans : answers n with
          | none => rfl
          | some k =>
            obtain ⟨e, he, hdown⟩ := hmatch.down k n hans
            rw [hget] at he
            cases he
            rw [hup] at hdown
            cases hdown
        rw [mem_unanswered]
        rcases Finset.mem_insert.1 hi with rfl | hi
        · refine ⟨Nat.lt_succ_self _, ⟨_, hget, hup⟩, fun j hj hans => ?_⟩
          have hlater := hmatch.later _ _ hans
          omega
        · obtain ⟨hin, hisup, hopen⟩ := mem_unanswered.1 hi
          refine ⟨Nat.lt_succ_of_lt hin, hisup, fun j hj => ?_⟩
          rcases Nat.lt_succ_iff_lt_or_eq.1 hj with hj | rfl
          · exact hopen j hj
          · rw [hnone]
            exact (Option.some_ne_none _).symm
      have hfresh : n ∉ unanswered es answers n := fun h =>
        Nat.lt_irrefl n (mem_unanswered.1 h).1
      have hcard := Finset.card_le_card hstays
      rw [Finset.card_insert_of_notMem hfresh] at hcard
      rw [if_pos rfl]
      split <;> omega
    | false =>
      have hkept : (unanswered es answers n).erase ((answers n).getD n) ⊆
          unanswered es answers (n + 1) := by
        intro i hi
        obtain ⟨hne, hi⟩ := Finset.mem_erase.1 hi
        obtain ⟨hin, hisup, hopen⟩ := mem_unanswered.1 hi
        refine mem_unanswered.2 ⟨Nat.lt_succ_of_lt hin, hisup, fun j hj => ?_⟩
        rcases Nat.lt_succ_iff_lt_or_eq.1 hj with hj | rfl
        · exact hopen j hj
        · intro hans
          rw [hans] at hne
          exact hne rfl
      have hcard := Finset.card_le_card hkept
      have herase := Finset.pred_card_le_card_erase (s := unanswered es answers n)
        (a := (answers n).getD n)
      rw [if_neg Bool.false_ne_true]
      split <;> omega

end IdleWalk
