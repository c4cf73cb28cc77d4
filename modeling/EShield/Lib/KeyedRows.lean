import EShield.Lib.LastWrite

/-!
# Rows with a key

A map whose rows are walked in some order: `upsert` puts a row in the place of the one with the same
key, so that no key stands twice. After a list of writes the row of a key is the last one written for
it.
-/

namespace KeyedRows

open LastWrite

variable {α κ : Type*} [DecidableEq κ] {key : α → κ} {rows : List α} {a row : α}

/-- No two rows have the same key. -/
def Keyed (key : α → κ) (rows : List α) : Prop := (rows.map key).Nodup

/-- Writes a row in place of the one with its key. -/
def upsert (key : α → κ) (rows : List α) (row : α) : List α := rows.filter (key · ≠ key row) ++ [row]

theorem mem_upsert : a ∈ upsert key rows row ↔ a = row ∨ (a ∈ rows ∧ key a ≠ key row) := by
  simp [upsert, or_comm]

omit [DecidableEq κ] in
theorem keyed_nil : Keyed key ([] : List α) := List.nodup_nil

omit [DecidableEq κ] in
theorem Keyed.filter (h : Keyed key rows) (p : α → Bool) : Keyed key (rows.filter p) :=
  h.sublist (List.filter_sublist.map _)

theorem Keyed.upsert (h : Keyed key rows) (row : α) : Keyed key (upsert key rows row) := by
  unfold Keyed KeyedRows.upsert
  rw [List.map_append, List.nodup_append]
  refine ⟨h.filter _, List.nodup_singleton _, ?_⟩
  intro k hk l hl
  obtain ⟨a, ha, rfl⟩ := List.mem_map.1 hk
  rw [List.mem_singleton.1 hl]
  exact of_decide_eq_true (List.mem_filter.1 ha).2

omit [DecidableEq κ] in
/-- A key has one row. -/
theorem Keyed.eq_of_key (h : Keyed key rows) {b : α} (ha : a ∈ rows) (hb : b ∈ rows)
    (hkey : key a = key b) : a = b := List.inj_on_of_nodup_map h ha hb hkey

/-- What is in the rows after a list of writes is the last write for its key. -/
theorem mem_foldl_upsert (writes : List α) :
    a ∈ writes.foldl (upsert key) [] ↔ lastOf (fun b => key b = key a) writes = some a := by
  induction writes using List.reverseRecOn with
  | nil => simp [lastOf_nil]
  | append_singleton writes row ih =>
    rw [List.foldl_append, List.foldl_cons, List.foldl_nil, mem_upsert, lastOf_concat, ih]
    by_cases hkey : key row = key a
    · rw [if_pos hkey]
      constructor
      · rintro (rfl | ⟨-, hne⟩)
        · rfl
        · exact absurd hkey.symm hne
      · rintro ⟨⟩
        exact .inl rfl
    · rw [if_neg hkey]
      constructor
      · rintro (rfl | ⟨h, -⟩)
        · exact absurd rfl hkey
        · exact h
      · exact fun h => .inr ⟨h, Ne.symm hkey⟩

end KeyedRows
