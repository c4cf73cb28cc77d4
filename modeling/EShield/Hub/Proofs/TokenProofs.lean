import EShield.Hub.Auth

/-!
# Whom a token file lets in

A file is read if each of its lines is blank, a comment or a name with a token; otherwise the error names
the first line that is not. What counts for a node is its last line, and a caller is taken for a node only
if it shows the token on that line.
-/

namespace EShield.Hub

open Checks KeyedRows LastWrite Lines
open Text (splitOnce)

/-- Neither blank nor a comment. -/
def Significant (line : List Char) : Prop := trim line ≠ [] ∧ (trim line).head? ≠ some '#'

instance (line : List Char) : Decidable (Significant line) := inferInstanceAs (Decidable (_ ∧ _))

/-- The name and the token in a line. -/
def tokenOf (line : List Char) : Option (String × String) :=
  if Significant line then
    (splitOnce ':' (trim line)).bind fun r =>
      if trim r.1 = [] ∨ trim r.2 = [] then none
      else some (String.ofList (trim r.1), String.ofList (trim r.2))
  else none

/-- The last line of a node has this token. -/
def LastToken (content : List Char) (name token : String) : Prop :=
  lastOf (fun r => r.1 = name) ((lines content).filterMap tokenOf) = some (name, token)

/-- What is wrong with line `i`. -/
def IsLineError (path : String) (i : Nat) (e : String) : Prop :=
  e = s!"{path}:{i + 1}: expected `node_name:token`" ∨
    e = s!"{path}:{i + 1}: node_name and token cannot be empty"

variable {path : String} {tokens tokens' : NodeTokens} {line : List Char} {i : Nat}

/-! ## One line -/

theorem insertTokenLine_passed_over (h : ¬ Significant line) :
    insertTokenLine path tokens (line, i) = .ok tokens := by
  have hskip : trim line = [] ∨ (trim line).head? = some '#' := by
    by_contra hno
    exact h (not_or.1 hno)
  exact if_pos hskip

theorem insertTokenLine_significant (path : String) (tokens : NodeTokens) (i : Nat)
    (h : Significant line) :
    match tokenOf line with
    | some r => insertTokenLine path tokens (line, i) = .ok (tokens.insert r.1 r.2)
    | none => ∃ e, insertTokenLine path tokens (line, i) = .error e ∧ IsLineError path i e := by
  have hread : ¬ (trim line = [] ∨ (trim line).head? = some '#') := not_or.2 h
  unfold tokenOf insertTokenLine
  rw [if_pos h]
  simp only [hread, if_false]
  cases hsplit : splitOnce ':' (trim line) with
  | none => exact ⟨_, rfl, .inl rfl⟩
  | some r =>
    simp only [Option.bind_some]
    by_cases hempty : trim r.1 = [] ∨ trim r.2 = []
    · rw [if_pos hempty]
      refine ⟨_, ?_, .inr rfl⟩
      show (rejectIf (trim r.1 = [] ∨ trim r.2 = []) _ >>= fun _ => _) = _
      rw [rejectIf_pos hempty]
      rfl
    · rw [if_neg hempty]
      show (rejectIf (trim r.1 = [] ∨ trim r.2 = []) _ >>= fun _ => _) = _
      rw [rejectIf_neg hempty]
      rfl

/-- A line that is passed over has no token. -/
theorem tokenOf_passed_over (h : ¬ Significant line) : tokenOf line = none := if_neg h

/-! ## The file -/

/-- Line `i` is the first that cannot be read. -/
structure FirstBadLine (ls : List (List Char)) (i : Nat) (line : List Char) : Prop where
  at_i : ls[i]? = some line
  significant : Significant line
  no_token : tokenOf line = none
  first : ∀ j < i, ∀ l, ls[j]? = some l → Significant l → tokenOf l ≠ none

/-- A bad line behind a good one. -/
theorem FirstBadLine.cons {ls : List (List Char)} {first : List Char} (h : FirstBadLine ls i line)
    (hgood : Significant first → tokenOf first ≠ none) : FirstBadLine (first :: ls) (i + 1) line where
  at_i := h.at_i
  significant := h.significant
  no_token := h.no_token
  first := by
    intro j hj l hl hsig
    cases j with
    | zero =>
      cases hl
      exact hgood hsig
    | succ j => exact h.first j (Nat.lt_of_succ_lt_succ hj) l hl hsig

/-- The lines are read to their end if each significant one has a token, and up to the first that has
none. -/
theorem foldlM_insertTokenLine (path : String) (ls : List (List Char)) (k : Nat)
    (tokens : NodeTokens) :
    match (ls.zipIdx k).foldlM (insertTokenLine path) tokens with
    | .ok tokens' =>
      (∀ line ∈ ls, Significant line → tokenOf line ≠ none) ∧
        tokens'.rows = (ls.filterMap tokenOf).foldl (upsert Prod.fst) tokens.rows
    | .error e => ∃ i line, FirstBadLine ls i line ∧ IsLineError path (k + i) e := by
  induction ls generalizing k tokens with
  | nil => exact ⟨by simp, rfl⟩
  | cons line ls ih =>
    -- the rest of the file, behind a line that has been read
    have hrest : ∀ tokens' : NodeTokens, (Significant line → tokenOf line ≠ none) →
        tokens'.rows = ((tokenOf line).toList).foldl (upsert Prod.fst) tokens.rows →
        match (ls.zipIdx (k + 1)).foldlM (insertTokenLine path) tokens' with
        | .ok tokens'' =>
          (∀ l ∈ line :: ls, Significant l → tokenOf l ≠ none) ∧
            tokens''.rows =
              ((line :: ls).filterMap tokenOf).foldl (upsert Prod.fst) tokens.rows
        | .error e => ∃ i l, FirstBadLine (line :: ls) i l ∧ IsLineError path (k + i) e := by
      intro tokens' hgood hrows
      have hls := ih (k + 1) tokens'
      split at hls
      · refine ⟨List.forall_mem_cons.2 ⟨hgood, hls.1⟩, ?_⟩
        rw [hls.2, hrows, ← List.foldl_append]
        congr 1
        cases htoken : tokenOf line with
        | none => simp [List.filterMap_cons_none htoken]
        | some r => simp [List.filterMap_cons_some htoken]
      · obtain ⟨i, l, hbad, he⟩ := hls
        rw [Nat.add_assoc, Nat.add_comm 1 i] at he
        exact ⟨i + 1, l, hbad.cons hgood, he⟩
    rw [List.zipIdx_cons, List.foldlM_cons]
    by_cases hsig : Significant line
    · have hline := insertTokenLine_significant path tokens k hsig
      cases htoken : tokenOf line with
      | some r =>
        rw [htoken] at hline
        rw [hline]
        refine hrest _ (fun _ => by simp [htoken]) ?_
        rw [htoken]
        rfl
      | none =>
        rw [htoken] at hline
        obtain ⟨e, hline, he⟩ := hline
        rw [hline]
        exact ⟨0, line, ⟨rfl, hsig, htoken, fun j hj => absurd hj (Nat.not_lt_zero j)⟩, he⟩
    · rw [insertTokenLine_passed_over hsig]
      refine hrest tokens (fun h => absurd h hsig) ?_
      rw [tokenOf_passed_over hsig]
      rfl

/-- The names in a file with their tokens. -/
theorem mem_loadNodeTokens {content : List Char} (h : loadNodeTokens path content = .ok tokens)
    (name token : String) : (name, token) ∈ tokens.rows ↔ LastToken content name token := by
  have hall := foldlM_insertTokenLine path (lines content) 0 .empty
  rw [loadNodeTokens] at h
  rw [h] at hall
  rw [hall.2]
  exact mem_foldl_upsert _

/-! ## Callers -/

/-- The last of the rows with a token. -/
theorem foldl_matched (rows : List (String × String)) (token : String) (matched : Option String) :
    rows.foldl (fun m r => if token = r.2 then some r.1 else m) matched =
      ((lastOf (fun r => token = r.2) rows).map Prod.fst).or matched := by
  induction rows using List.reverseRecOn with
  | nil => rfl
  | append_singleton rows r ih =>
    rw [List.foldl_append, List.foldl_cons, List.foldl_nil, lastOf_concat, ih]
    by_cases hr : token = r.2
    · rw [if_pos hr, if_pos hr]
      rfl
    · rw [if_neg hr, if_neg hr]

theorem authenticate_eq_some_some {a : HubAuth} {provided : Option String} {n : String} :
    a.authenticate provided = some (some n) ↔
      presentedToken provided ≠ "" ∧ presentedToken provided ≠ a.masterToken ∧
        lastOf (fun r => presentedToken provided = r.2) a.nodeTokens.rows =
          some (n, presentedToken provided) := by
  unfold HubAuth.authenticate
  dsimp only
  by_cases hempty : presentedToken provided = ""
  · simp [hempty]
  · by_cases hmaster : presentedToken provided = a.masterToken
    · simp [hmaster]
    · rw [if_neg hempty, if_neg hmaster, foldl_matched, Option.or_none]
      simp only [ne_eq, hempty, hmaster, not_false_eq_true, true_and, Option.map_eq_some_iff,
        Option.some.injEq, exists_eq_right]
      constructor
      · rintro ⟨⟨m, token⟩, hlast, rfl⟩
        rw [hlast, lastOf_sat hlast]
      · exact fun hlast => ⟨_, hlast, rfl⟩

/-- A file is read exactly if all its lines can be, and otherwise the error names the first that cannot;
with what is read, in whatever order the map of it is walked, a caller is taken for a node only if the
token it shows is neither empty nor the master token and is that on the last line of the node, and if so
and the token is on no other node's last line, it is taken for the node. -/
theorem token_file_decides_who_calls (path : String) (content : List Char) :
    match loadNodeTokens path content with
    | .ok tokens =>
      (∀ line ∈ lines content, Significant line → tokenOf line ≠ none) ∧
        ∀ walked : NodeTokens, walked.rows.Perm tokens.rows →
          ∀ (masterToken : String) (provided : Option String) (n : String),
            let token := presentedToken provided
            let taken :=
              HubAuth.authenticate { masterToken := masterToken, nodeTokens := walked } provided =
                some (some n)
            (taken → token ≠ "" ∧ token ≠ masterToken ∧ LastToken content n token) ∧
              (token ≠ "" → token ≠ masterToken → LastToken content n token →
                (∀ m, LastToken content m token → m = n) → taken)
    | .error e => ∃ i line, FirstBadLine (lines content) i line ∧ IsLineError path i e := by
  have hall := foldlM_insertTokenLine path (lines content) 0 .empty
  cases hload : loadNodeTokens path content with
  | error e =>
    rw [loadNodeTokens] at hload
    rw [hload] at hall
    simpa only [Nat.zero_add] using hall
  | ok tokens =>
    have hloaded := mem_loadNodeTokens hload
    rw [loadNodeTokens] at hload
    rw [hload] at hall
    refine ⟨hall.1, fun walked hperm masterToken provided n => ?_⟩
    have hmem : ∀ name token, (name, token) ∈ walked.rows ↔ LastToken content name token :=
      fun name token => hperm.mem_iff.trans (hloaded name token)
    refine ⟨fun htaken => ?_, fun hempty hmaster hlast honly => ?_⟩
    · obtain ⟨hempty, hmaster, hlast⟩ := authenticate_eq_some_some.1 htaken
      exact ⟨hempty, hmaster, (hmem n _).1 (mem_of_lastOf hlast)⟩
    · refine authenticate_eq_some_some.2 ⟨hempty, hmaster, ?_⟩
      cases hfound : lastOf (fun r => presentedToken provided = r.2) walked.rows with
      | none => exact absurd rfl (lastOf_eq_none_iff.1 hfound _ ((hmem n _).2 hlast))
      | some r =>
        obtain ⟨pre, post, hrows, hshown, -⟩ := lastOf_eq_some_iff.1 hfound
        obtain ⟨m, token⟩ := r
        subst hshown
        rw [honly m ((hmem m _).1 (mem_of_lastOf hfound))]

end EShield.Hub
