import Mathlib

/-!
# Checks

Validation code is a sequence of checks, each of which passes or reports an error. The equations
here say when such a sequence passes, so that a proof about an accepted value reads off the checks
it went through.
-/

namespace Checks

variable {ε α β : Type}

/-- Passes unless `p`. -/
def rejectIf (p : Prop) [Decidable p] (e : ε) : Except ε Unit := if p then .error e else .ok ()

/-- The value, or the error `e` in its absence. -/
def required (o : Option α) (e : ε) : Except ε α :=
  match o with
  | some a => .ok a
  | none => .error e

/-- Passes if `x` succeeds. -/
def succeeds {ε' : Type} (x : Except ε' α) (e : ε) : Except ε Unit :=
  match x with
  | .ok _ => .ok ()
  | .error _ => .error e

/-- Runs the check on each element in turn. -/
def all (check : α → Except ε Unit) : List α → Except ε Unit
  | [] => .ok ()
  | a :: as => check a >>= fun _ => all check as

theorem bind_eq_ok {x : Except ε α} {f : α → Except ε β} {b : β} :
    (x >>= f) = .ok b ↔ ∃ a, x = .ok a ∧ f a = .ok b := by
  cases x with
  | error e => simp [Bind.bind, Except.bind]
  | ok a => simp [Bind.bind, Except.bind]

/-- The same for a check, which has nothing to report when it passes. -/
theorem check_bind_eq_ok {x : Except ε Unit} {f : Unit → Except ε β} {b : β} :
    (x >>= f) = .ok b ↔ x = .ok () ∧ f () = .ok b := by
  rw [bind_eq_ok]
  exact ⟨fun ⟨_, hx, hf⟩ => ⟨hx, hf⟩, fun ⟨hx, hf⟩ => ⟨(), hx, hf⟩⟩

theorem rejectIf_pos {p : Prop} [Decidable p] (h : p) (e : ε) : rejectIf p e = .error e := if_pos h

theorem rejectIf_neg {p : Prop} [Decidable p] (h : ¬ p) (e : ε) : rejectIf p e = .ok () := if_neg h

theorem rejectIf_eq_ok {p : Prop} [Decidable p] {e : ε} : rejectIf p e = .ok () ↔ ¬ p := by
  unfold rejectIf
  by_cases h : p
  · simp [h]
  · simp [h]

theorem required_eq_ok {o : Option α} {e : ε} {a : α} : required o e = .ok a ↔ o = some a := by
  cases o with
  | none => simp [required]
  | some b => simp [required]

theorem succeeds_eq_ok {ε' : Type} {x : Except ε' α} {e : ε} :
    succeeds x e = .ok () ↔ ∃ a, x = .ok a := by
  cases x with
  | error e => simp [succeeds]
  | ok a => simp [succeeds]

theorem all_eq_ok {check : α → Except ε Unit} {as : List α} :
    all check as = .ok () ↔ ∀ a ∈ as, check a = .ok () := by
  induction as with
  | nil => simp [all]
  | cons a as ih => rw [all, check_bind_eq_ok, ih, List.forall_mem_cons]

/-- The same for checks that know the number of their element. -/
theorem all_zipIdx_eq_ok {check : α × Nat → Except ε Unit} {as : List α} :
    all check as.zipIdx = .ok () ↔ ∀ i a, as[i]? = some a → check (a, i) = .ok () := by
  rw [all_eq_ok]
  constructor
  · intro h i a ha
    exact h (a, i) (List.mem_zipIdx_iff_getElem?.2 ha)
  · rintro h ⟨a, i⟩ ha
    exact h i a (List.mem_zipIdx_iff_getElem?.1 ha)

/-- A choice of results for each element. -/
theorem exists_forall₂ {R : α → β → Prop} {as : List α} (h : ∀ a ∈ as, ∃ b, R a b) :
    ∃ bs, List.Forall₂ R as bs := by
  induction as with
  | nil => exact ⟨[], .nil⟩
  | cons a as ih =>
    obtain ⟨b, hb⟩ := h a List.mem_cons_self
    obtain ⟨bs, hbs⟩ := ih fun a' ha' => h a' (List.mem_cons_of_mem a ha')
    exact ⟨b :: bs, .cons hb hbs⟩

theorem mapM_eq_ok {f : α → Except ε β} {as : List α} {bs : List β} :
    as.mapM f = .ok bs ↔ List.Forall₂ (fun a b => f a = .ok b) as bs := by
  induction as generalizing bs with
  | nil =>
    rw [List.mapM_nil, List.forall₂_nil_left_iff]
    exact ⟨fun h => (Except.ok.inj h).symm, fun h => h ▸ rfl⟩
  | cons a as ih =>
    rw [List.mapM_cons, bind_eq_ok]
    constructor
    · rintro ⟨b, hb, h⟩
      obtain ⟨bs', hbs, h⟩ := bind_eq_ok.1 h
      rw [← Except.ok.inj h]
      exact .cons hb (ih.1 hbs)
    · intro h
      cases h with
      | cons hb hbs => exact ⟨_, hb, bind_eq_ok.2 ⟨_, ih.2 hbs, rfl⟩⟩

theorem mapM_eq_ok_mem {f : α → Except ε β} {as : List α} {bs : List β} {a : α}
    (h : as.mapM f = .ok bs) (ha : a ∈ as) : ∃ b, f a = .ok b := by
  have hall : List.Forall₂ (fun a b => (∃ c, f a = .ok c) ∧ f a = .ok b) as bs :=
    (mapM_eq_ok.1 h).imp fun a b hab => ⟨⟨b, hab⟩, hab⟩
  exact ((List.forall₂_and_left as bs).1 hall).1 a ha

/-- Each result is that of some element. -/
theorem mapM_eq_ok_mem_result {f : α → Except ε β} {as : List α} {bs : List β} {b : β}
    (h : as.mapM f = .ok bs) (hb : b ∈ bs) : ∃ a ∈ as, f a = .ok b := by
  have hall := mapM_eq_ok.1 h
  induction hall with
  | nil => cases hb
  | cons hab hrest ih =>
    rcases List.mem_cons.1 hb with rfl | hb
    · exact ⟨_, List.mem_cons_self, hab⟩
    · obtain ⟨a, ha, hfa⟩ := ih (mapM_eq_ok.2 hrest) hb
      exact ⟨a, List.mem_cons_of_mem _ ha, hfa⟩

/-- The result of each element is there. -/
theorem mapM_eq_ok_of_mem {f : α → Except ε β} {as : List α} {bs : List β} {a : α} {b : β}
    (h : as.mapM f = .ok bs) (ha : a ∈ as) (hab : f a = .ok b) : b ∈ bs := by
  have hall := mapM_eq_ok.1 h
  induction hall with
  | nil => cases ha
  | cons hac hrest ih =>
    rcases List.mem_cons.1 ha with rfl | ha
    · rw [hab] at hac
      cases hac
      exact List.mem_cons_self
    · exact List.mem_cons_of_mem _ (ih (mapM_eq_ok.2 hrest) ha)

/-! ## Accumulating -/

section Accumulate

variable {f : β → α → Except ε β} {size : β → Nat} {as : List α} {b c : β}

/-- What no step makes smaller, no run makes smaller. -/
theorem foldlM_le (hstep : ∀ b a c, f b a = .ok c → size b ≤ size c) (h : as.foldlM f b = .ok c) :
    size b ≤ size c := by
  induction as generalizing b with
  | nil =>
    cases h
    exact le_rfl
  | cons a as ih =>
    rw [List.foldlM_cons] at h
    obtain ⟨d, hd, h⟩ := bind_eq_ok.1 h
    exact (hstep b a d hd).trans (ih h)

/-- If one of the steps makes it larger, so does the run. -/
theorem foldlM_lt (hstep : ∀ b a c, f b a = .ok c → size b ≤ size c) {a : α} (ha : a ∈ as)
    (hgrows : ∀ b c, f b a = .ok c → size b < size c) (h : as.foldlM f b = .ok c) :
    size b < size c := by
  obtain ⟨pre, post, rfl⟩ := List.append_of_mem ha
  rw [List.foldlM_append] at h
  obtain ⟨d, hd, h⟩ := bind_eq_ok.1 h
  rw [List.foldlM_cons] at h
  obtain ⟨e, he, h⟩ := bind_eq_ok.1 h
  calc size b ≤ size d := foldlM_le hstep hd
    _ < size e := hgrows d e he
    _ ≤ size c := foldlM_le hstep h

end Accumulate

end Checks
