import Mathlib

/-!
# Stamped feeds and cursors

Rows carry a stamp, and a reader asks again and again for what is stamped after its cursor. A page is
filled up to a limit and then to the end of a group of equal stamps, so that the cursor, the last
stamp of the page, separates what was returned from what was not. `Complete` is the invariant of such
a reader: it has received every row stamped at or before its cursor.
-/

namespace Feed

variable {T α : Type*} [LinearOrder T]

/-! ## Pages -/

/-- Fills a page of which `taken` rows are there: once `limit` is reached the stamp of the next row
becomes the cutoff, and the rows of that stamp are the last ones. -/
def fill (limit : Nat) : Option T → Nat → List (T × α) → List (T × α)
  | _, _, [] => []
  | some cutoff, taken, r :: rest =>
    if r.1 ≠ cutoff then [] else r :: fill limit (some cutoff) (taken + 1) rest
  | none, taken, r :: rest =>
    r :: fill limit (if taken ≥ limit then some r.1 else none) (taken + 1) rest

/-- The page of the rows stamped after `since`. -/
def page (limit : Nat) (since : T) (rows : List (T × α)) : List (T × α) :=
  fill limit none 0 (rows.filter fun r => since < r.1)

/-- The cursor behind a page: its last stamp, or `since` when it is empty. -/
def cursor (since : T) (p : List (T × α)) : T := (p.getLast?.map Prod.fst).getD since

/-- Rows in the order of their stamps. -/
def Sorted (rows : List (T × α)) : Prop := rows.Pairwise fun a b => a.1 ≤ b.1

variable {limit taken : Nat} {since cutoff c : T} {rows : List (T × α)}

/-- Behind a cutoff the page ends with the group of that stamp. -/
theorem fill_some (limit taken : Nat) (hs : Sorted rows) (hc : ∀ r ∈ rows, cutoff ≤ r.1) :
    ∃ rest, rows = fill limit (some cutoff) taken rows ++ rest ∧
      (∀ y ∈ fill limit (some cutoff) taken rows, y.1 = cutoff) ∧ ∀ x ∈ rest, cutoff < x.1 := by
  induction rows generalizing taken with
  | nil => exact ⟨[], by simp [fill], by simp [fill], by simp⟩
  | cons r rows ih =>
    obtain ⟨hr, hrows⟩ := List.pairwise_cons.1 hs
    by_cases heq : r.1 = cutoff
    · obtain ⟨rest, happ, hfill, hrest⟩ :=
        ih (taken + 1) hrows fun x hx => hc x (List.mem_cons_of_mem _ hx)
      rw [fill, if_neg (not_not.2 heq)]
      refine ⟨rest, by rw [List.cons_append, ← happ], ?_, hrest⟩
      intro y hy
      rcases List.mem_cons.1 hy with rfl | hy
      · exact heq
      · exact hfill y hy
    · have hlt : cutoff < r.1 := lt_of_le_of_ne (hc r List.mem_cons_self) (Ne.symm heq)
      rw [fill, if_pos heq]
      refine ⟨r :: rows, rfl, by simp, ?_⟩
      intro x hx
      rcases List.mem_cons.1 hx with rfl | hx
      · exact hlt
      · exact lt_of_lt_of_le hlt (hr x hx)

/-- A page is a beginning of the rows; what it leaves out is stamped after all it holds, and it is
empty only if there are no rows. -/
theorem fill_none (limit taken : Nat) (hs : Sorted rows) :
    ∃ rest, rows = fill limit none taken rows ++ rest ∧
      (∀ x ∈ rest, ∀ y ∈ fill limit none taken rows, y.1 < x.1) ∧
      (fill limit none taken rows = [] → rows = []) := by
  induction rows generalizing taken with
  | nil => exact ⟨[], by simp [fill], by simp, fun _ => rfl⟩
  | cons r rows ih =>
    obtain ⟨hr, hrows⟩ := List.pairwise_cons.1 hs
    by_cases hfull : taken ≥ limit
    · obtain ⟨rest, happ, hfill, hrest⟩ :=
        fill_some limit (taken + 1) hrows hr
      rw [fill, if_pos hfull]
      refine ⟨rest, by rw [List.cons_append, ← happ], ?_, by simp⟩
      intro x hx y hy
      rcases List.mem_cons.1 hy with rfl | hy
      · exact hrest x hx
      · rw [hfill y hy]
        exact hrest x hx
    · obtain ⟨rest, happ, hlt, hnil⟩ := ih (taken + 1) hrows
      rw [fill, if_neg hfull]
      refine ⟨rest, by rw [List.cons_append, ← happ], ?_, by simp⟩
      intro x hx y hy
      rcases List.mem_cons.1 hy with rfl | hy
      · -- the rest of the page is not empty, for rows are left
        obtain ⟨z, hz⟩ : ∃ z, z ∈ fill limit none (taken + 1) rows := by
          apply List.exists_mem_of_ne_nil
          intro hempty
          have hrow : x ∈ rows := by
            rw [happ]
            exact List.mem_append_right _ hx
          rw [hnil hempty] at hrow
          cases hrow
        exact lt_of_le_of_lt (hr z (by rw [happ]; exact List.mem_append_left _ hz)) (hlt x hx z hz)
      · exact hlt x hx y hy

/-- What a reader may rely on: the page holds exactly the rows stamped after `since` up to the new
cursor, and only an empty page leaves the cursor where it was. -/
theorem page_spec (hs : Sorted rows) (limit : Nat) (since : T) :
    since ≤ cursor since (page limit since rows) ∧
      (∀ r, r ∈ page limit since rows ↔
        r ∈ rows ∧ since < r.1 ∧ r.1 ≤ cursor since (page limit since rows)) ∧
      (page limit since rows = [] → ∀ r ∈ rows, r.1 ≤ since) := by
  have hs' : Sorted (rows.filter fun r => since < r.1) := hs.filter _
  obtain ⟨rest, happ, hlt, hnil⟩ := fill_none limit 0 hs'
  rw [show fill limit none 0 (rows.filter fun r => since < r.1) = page limit since rows from rfl]
    at happ hlt hnil
  have hmem : ∀ r, r ∈ page limit since rows ∨ r ∈ rest ↔ r ∈ rows ∧ since < r.1 := by
    intro r
    rw [← List.mem_append, ← happ]
    simp
  have hempty : page limit since rows = [] → ∀ r ∈ rows, r.1 ≤ since := by
    intro h r hr
    by_contra hgt
    have hrow : r ∈ rows.filter fun r => since < r.1 := by simpa using ⟨hr, not_le.1 hgt⟩
    rw [hnil h] at hrow
    cases hrow
  refine ⟨?_, ?_, hempty⟩
  · unfold cursor
    cases hlast : (page limit since rows).getLast? with
    | none => exact le_rfl
    | some last => exact le_of_lt ((hmem last).1 (.inl (List.mem_of_getLast? hlast))).2
  · intro r
    cases hlast : (page limit since rows).getLast? with
    | none =>
      rw [List.getLast?_eq_none_iff] at hlast
      rw [hlast]
      refine ⟨by simp, fun ⟨hr, hsince, _⟩ => ?_⟩
      exact absurd (hempty hlast r hr) (not_le.2 hsince)
    | some last =>
      have hmax : ∀ y ∈ page limit since rows, y.1 ≤ last.1 := by
        obtain ⟨init, hinit⟩ := List.getLast?_eq_some_iff.1 hlast
        have hpage : Sorted (page limit since rows) := by
          rw [Sorted, happ] at hs'
          exact (List.pairwise_append.1 hs').1
        rw [hinit, Sorted] at hpage
        intro y hy
        rw [hinit, List.mem_append, List.mem_singleton] at hy
        rcases hy with hy | rfl
        · exact (List.pairwise_append.1 hpage).2.2 y hy last List.mem_cons_self
        · exact le_rfl
      have hcursor : cursor since (page limit since rows) = last.1 := by simp [cursor, hlast]
      rw [hcursor]
      constructor
      · intro hr
        obtain ⟨hrow, hsince⟩ := (hmem r).1 (.inl hr)
        exact ⟨hrow, hsince, hmax r hr⟩
      · rintro ⟨hrow, hsince, hle⟩
        rcases (hmem r).2 ⟨hrow, hsince⟩ with hr | hr
        · exact hr
        · exact absurd (hlt r hr last (List.mem_of_getLast? hlast)) (not_lt.2 hle)

/-- A page is a stretch of the rows, in their order and with every group of equal stamps whole. -/
theorem page_eq_filter (hs : Sorted rows) (limit : Nat) (since : T) :
    page limit since rows =
      rows.filter fun r => since < r.1 ∧ r.1 ≤ cursor since (page limit since rows) := by
  obtain ⟨_, hmem, hempty⟩ := page_spec hs limit since
  obtain ⟨rest, happ, hlt, _⟩ := fill_none limit 0 (hs.filter fun r => since < r.1)
  rw [show fill limit none 0 (rows.filter fun r => since < r.1) = page limit since rows from rfl]
    at happ hlt
  have hsplit : (rows.filter fun r => since < r.1 ∧ r.1 ≤ cursor since (page limit since rows)) =
      (page limit since rows ++ rest).filter
        fun r => r.1 ≤ cursor since (page limit since rows) := by
    rw [← happ, List.filter_filter]
    refine List.filter_congr fun r _ => ?_
    rw [Bool.decide_and, Bool.and_comm]
  have hpage : (page limit since rows).filter
      (fun r => r.1 ≤ cursor since (page limit since rows)) = page limit since rows :=
    List.filter_eq_self.2 fun r hr => decide_eq_true ((hmem r).1 hr).2.2
  have hrest : rest.filter (fun r => r.1 ≤ cursor since (page limit since rows)) = [] := by
    refine List.filter_eq_nil_iff.2 fun r hr hle => ?_
    have hrow : r ∈ rows.filter fun r => since < r.1 := by
      rw [happ]
      exact List.mem_append_right _ hr
    obtain ⟨hrow, hsince⟩ := List.mem_filter.1 hrow
    have hin := (hmem r).2 ⟨hrow, of_decide_eq_true hsince, of_decide_eq_true hle⟩
    exact lt_irrefl _ (hlt r hr r hin)
  rw [hsplit, List.filter_append, hpage, hrest, List.append_nil]

theorem min_le_length_fill (limit taken : Nat) (rows : List (T × α)) :
    min (limit - taken) rows.length ≤ (fill limit none taken rows).length := by
  induction rows generalizing taken with
  | nil => simp
  | cons r rows ih =>
    rw [fill, List.length_cons, List.length_cons]
    by_cases hfull : taken ≥ limit
    · omega
    · rw [if_neg hfull]
      have hrest := ih (taken + 1)
      omega

omit [LinearOrder T] in
/-- The cursor behind a page is that of a row of the page, or the old one. -/
theorem cursor_eq (since : T) (p : List (T × α)) :
    cursor since p = since ∨ ∃ r ∈ p, r.1 = cursor since p := by
  unfold cursor
  cases hlast : p.getLast? with
  | none => exact .inl rfl
  | some last => exact .inr ⟨last, List.mem_of_getLast? hlast, rfl⟩

/-! ## Progress -/

/-- How many rows are stamped after `c`. -/
def pending (c : T) (rows : List (T × α)) : Nat := (rows.filter fun r => c < r.1).length

theorem pending_anti {c c' : T} (h : c ≤ c') (rows : List (T × α)) :
    pending c' rows ≤ pending c rows := by
  refine (List.monotone_filter_right rows fun x hx => ?_).length_le
  simp only [decide_eq_true_eq] at hx ⊢
  exact lt_of_le_of_lt h hx

theorem le_of_pending_eq_zero (h : pending c rows = 0) {r : T × α} (hr : r ∈ rows) : r.1 ≤ c := by
  rw [pending, List.length_eq_zero_iff, List.filter_eq_nil_iff] at h
  simpa using h r hr

/-- A page is as long as the limit, unless fewer rows are left. -/
theorem min_le_length_page (limit : Nat) (since : T) (rows : List (T × α)) :
    min limit (pending since rows) ≤ (page limit since rows).length :=
  min_le_length_fill limit 0 _

/-- A page takes rows off what is pending, as long as anything is. -/
theorem pending_cursor_lt (hs : Sorted rows) (limit : Nat) (since : T)
    (h : pending since rows ≠ 0) :
    pending (cursor since (page limit since rows)) rows < pending since rows := by
  obtain ⟨hle, hpage, hempty⟩ := page_spec hs limit since
  have hne : page limit since rows ≠ [] := by
    intro hnil
    apply h
    rw [pending, List.length_eq_zero_iff, List.filter_eq_nil_iff]
    intro r hr
    simpa using hempty hnil r hr
  obtain ⟨r, hr⟩ := List.exists_mem_of_ne_nil _ hne
  obtain ⟨hrow, hsince, hcur⟩ := (hpage r).1 hr
  have hsub : (rows.filter fun r => cursor since (page limit since rows) < r.1).Sublist
      (rows.filter fun r => since < r.1) := by
    refine List.monotone_filter_right _ fun x hx => ?_
    simp only [decide_eq_true_eq] at hx ⊢
    exact lt_of_le_of_lt hle hx
  refine lt_of_le_of_ne hsub.length_le fun heq => ?_
  have hr' : r ∈ rows.filter fun r => since < r.1 := by simpa using ⟨hrow, hsince⟩
  rw [← hsub.eq_of_length heq] at hr'
  simp [not_lt.2 hcur] at hr'

/-! ## Asking until nothing is left -/

/-- Asks `n` times, each time with the cursor that the answer before gave. -/
def drain {β : Type*} (ask : T → List β × T) : Nat → T → List β × T
  | 0, c => ([], c)
  | n + 1, c =>
    let r := ask c
    let rest := drain ask n r.2
    (r.1 ++ rest.1, rest.2)

/-- The answers page through the rows: each is the stretch of the rows from the old cursor to the new
one and as long as the limit while rows are left; asked again and again they end after as many
questions as rows are left, and together they are these rows. -/
structure PagesThrough (ask : T → List α × T) (rows : List (T × α)) (limit : Nat) : Prop where
  exact : ∀ c, (ask c).1 = (rows.filter fun r => c < r.1 ∧ r.1 ≤ (ask c).2).map Prod.snd
  forward : ∀ c, c ≤ (ask c).2
  enough : ∀ c, min limit (pending c rows) ≤ (ask c).1.length
  all : ∀ c n, pending c rows ≤ n →
    (drain ask n c).1 = (rows.filter fun r => c < r.1).map Prod.snd ∧
      ask (drain ask n c).2 = ([], (drain ask n c).2)

/-- Two adjacent stretches of sorted rows are one. -/
theorem filter_append_filter (hs : Sorted rows) {c c' : T} (h : c ≤ c') :
    (rows.filter fun r => c < r.1 ∧ r.1 ≤ c') ++ (rows.filter fun r => c' < r.1) =
      rows.filter fun r => c < r.1 := by
  induction rows with
  | nil => rfl
  | cons r rows ih =>
    obtain ⟨hr, hrows⟩ := List.pairwise_cons.1 hs
    have ih := ih hrows
    rcases le_or_gt r.1 c' with hle | hgt
    · by_cases hc : c < r.1
      · simp only [List.filter_cons, hc, hle, not_lt.2 hle, and_self, decide_true, decide_false,
          if_true, Bool.false_eq_true, if_false, List.cons_append, ih]
      · simp only [List.filter_cons, hc, not_lt.2 hle, false_and, decide_false, Bool.false_eq_true,
          if_false, ih]
    · -- from the first row beyond `c'` on there is nothing in the lower stretch
      have hnil : ((r :: rows).filter fun r => c < r.1 ∧ r.1 ≤ c') = [] := by
        refine List.filter_eq_nil_iff.2 fun x hx hin => ?_
        have hle := (of_decide_eq_true hin).2
        rcases List.mem_cons.1 hx with rfl | hx
        · exact absurd hle (not_le.2 hgt)
        · exact absurd hle (not_le.2 (lt_of_lt_of_le hgt (hr x hx)))
      rw [hnil, List.nil_append]
      refine List.filter_congr fun x hx => decide_eq_decide.2 ?_
      have hgt' : c' < x.1 := by
        rcases List.mem_cons.1 hx with rfl | hx
        · exact hgt
        · exact lt_of_lt_of_le hgt (hr x hx)
      exact iff_of_true hgt' (lt_of_le_of_lt h hgt')

/-- A reader that takes pages pages through the rows. -/
theorem pagesThrough_page (hs : Sorted rows) (limit : Nat) :
    PagesThrough
      (fun c => ((page limit c rows).map Prod.snd, cursor c (page limit c rows))) rows limit where
  exact c := congrArg (List.map Prod.snd) (page_eq_filter hs limit c)
  forward c := (page_spec hs limit c).1
  enough c := by
    rw [List.length_map]
    exact min_le_length_page limit c rows
  all c n hn := by
    induction n generalizing c with
    | zero =>
      have hnil : (rows.filter fun r => c < r.1) = [] := List.length_eq_zero_iff.1 (Nat.le_zero.1 hn)
      refine ⟨by rw [hnil]; rfl, ?_⟩
      have hpage : page limit c rows = [] := by rw [page, hnil, fill]
      rw [drain, hpage]
      rfl
    | succ n ih =>
      have hless : pending (cursor c (page limit c rows)) rows ≤ n := by
        by_cases hzero : pending c rows = 0
        · have hanti := pending_anti (page_spec hs limit c).1 rows
          omega
        · have hlt := pending_cursor_lt hs limit c hzero
          omega
      obtain ⟨hrest, hend⟩ := ih (cursor c (page limit c rows)) hless
      have hjoin := filter_append_filter hs (page_spec hs limit c).1
      rw [← page_eq_filter hs limit c] at hjoin
      refine ⟨?_, hend⟩
      rw [drain, hrest, ← List.map_append, hjoin]

section map

variable {β : Type*} {ask : T → List α × T}

omit [LinearOrder T] in
theorem drain_map (ask : T → List α × T) (f : α → β) (n : Nat) (c : T) :
    drain (fun c => ((ask c).1.map f, (ask c).2)) n c =
      ((drain ask n c).1.map f, (drain ask n c).2) := by
  induction n generalizing c with
  | zero => rfl
  | succ n ih => simp only [drain, ih, List.map_append]

omit [LinearOrder T] in
theorem filter_map_snd (f : α → β) (P : T → Bool) (rows : List (T × α)) :
    ((rows.map fun r => (r.1, f r.2)).filter fun r => P r.1).map Prod.snd =
      ((rows.filter fun r => P r.1).map Prod.snd).map f := by
  rw [List.filter_map, List.map_map, List.map_map]
  rfl

theorem pending_map (f : α → β) (c : T) (rows : List (T × α)) :
    pending c (rows.map fun r => (r.1, f r.2)) = pending c rows := by
  rw [pending, List.filter_map, List.length_map]
  rfl

/-- A reader that is given a part of each row pages through these parts. -/
theorem PagesThrough.map (h : PagesThrough ask rows limit) (f : α → β) :
    PagesThrough (fun c => ((ask c).1.map f, (ask c).2)) (rows.map fun r => (r.1, f r.2))
      limit where
  exact c := by
    have hexact := filter_map_snd f (fun s => c < s ∧ s ≤ (ask c).2) rows
    rw [← h.exact c] at hexact
    exact hexact.symm
  forward := h.forward
  enough c := by
    rw [pending_map, List.length_map]
    exact h.enough c
  all c n hn := by
    rw [pending_map] at hn
    obtain ⟨hall, hend⟩ := h.all c n hn
    rw [drain_map, filter_map_snd f (fun s => c < s), hall, hend]
    exact ⟨rfl, rfl⟩

end map

/-! ## Complete readers -/

section complete

variable {K V : Type*} {stamp : K → V → T} {rows rows' received received' : K → V → Prop}

/-- Every row stamped at or before the cursor has been received. -/
def Complete (stamp : K → V → T) (rows received : K → V → Prop) (c : T) : Prop :=
  ∀ k v, rows k v → stamp k v ≤ c → received k v

/-- Rows may go, and new ones come if they are stamped after the cursor. -/
theorem Complete.write (h : Complete stamp rows received c)
    (hrows : ∀ k v, rows' k v → rows k v ∨ c < stamp k v) : Complete stamp rows' received c := by
  intro k v hrow hle
  rcases hrows k v hrow with hold | hlt
  · exact h k v hold hle
  · exact absurd hle (not_le.2 hlt)

/-- The cursor may move over rows that have been received. -/
theorem Complete.advance (h : Complete stamp rows received c) {c' : T}
    (hreceived : ∀ k v, rows k v → received k v → received' k v)
    (hnew : ∀ k v, rows k v → c < stamp k v → stamp k v ≤ c' → received' k v) :
    Complete stamp rows received' c' := by
  intro k v hrow hle
  rcases le_or_gt (stamp k v) c with hold | hgt
  · exact hreceived k v hrow (h k v hrow hold)
  · exact hnew k v hrow hgt hle

/-- When nothing is stamped after the cursor, everything has been received. -/
theorem Complete.done (h : Complete stamp rows received c)
    (hdone : ∀ k v, rows k v → stamp k v ≤ c) {k : K} {v : V} (hrow : rows k v) :
    received k v :=
  h k v hrow (hdone k v hrow)

end complete

end Feed
