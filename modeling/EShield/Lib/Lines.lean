import Mathlib

/-!
# Files of lines

`str::lines` and its inverse for lines without line breaks in them. As elsewhere a text is the list of
its characters.
-/

namespace Lines

/-- `char::is_whitespace`. -/
def isWhitespace (c : Char) : Bool :=
  let n := c.toNat
  (9 ≤ n && n ≤ 13) || n = 0x20 || n = 0x85 || n = 0xA0 || n = 0x1680 || (0x2000 ≤ n && n ≤ 0x200A) ||
    n = 0x2028 || n = 0x2029 || n = 0x202F || n = 0x205F || n = 0x3000

/-- `str::trim` leaves nothing of the line. -/
def isBlank (line : List Char) : Bool := line.all isWhitespace

/-- `str::trim`. -/
def trim (line : List Char) : List Char := (line.dropWhile isWhitespace).rdropWhile isWhitespace

/-- `str::split_whitespace`. -/
def splitWhitespace (cs : List Char) : List (List Char) :=
  (cs.splitOnP isWhitespace).filter (· ≠ [])

/-- The lines of a text, behind the characters `read` of its first line in reverse order. -/
def linesFrom : (read cs : List Char) → List (List Char)
  | read, [] => if read.isEmpty then [] else [read.reverse]
  | read, c :: cs =>
    if c = '\n' then
      let line := if read.head? = some '\r' then read.tail else read
      line.reverse :: linesFrom [] cs
    else linesFrom (c :: read) cs

/-- `str::lines`: a line ends at a line feed, and a carriage return before it is not part of it. -/
def lines (cs : List Char) : List (List Char) := linesFrom [] cs

/-- Every line with its line feed. -/
def unlines (ls : List (List Char)) : List Char := ls.flatMap fun l => l ++ ['\n']

/-- The length in bytes. -/
def utf8Len (cs : List Char) : Nat := (cs.map Char.utf8Size).sum

@[simp] theorem unlines_nil : unlines [] = [] := rfl

@[simp] theorem unlines_cons (l : List Char) (ls : List (List Char)) :
    unlines (l :: ls) = l ++ '\n' :: unlines ls := by
  simp [unlines]

@[simp] theorem unlines_append (ls ms : List (List Char)) :
    unlines (ls ++ ms) = unlines ls ++ unlines ms := by
  simp [unlines]

/-- Without a line break in it. -/
def Unbroken (l : List Char) : Prop := '\n' ∉ l ∧ '\r' ∉ l

theorem linesFrom_append {read l : List Char} (hread : '\r' ∉ read) (hl : Unbroken l)
    (cs : List Char) : linesFrom read (l ++ '\n' :: cs) = (read.reverse ++ l) :: lines cs := by
  induction l generalizing read with
  | nil =>
    have hhead : read.head? ≠ some '\r' := fun h => hread (List.mem_of_head? h)
    rw [List.nil_append, linesFrom, if_pos rfl, if_neg hhead, List.append_nil]
    rfl
  | cons c l ih =>
    obtain ⟨hnewline, hreturn⟩ := hl
    rw [List.mem_cons, not_or] at hnewline hreturn
    have hread' : '\r' ∉ c :: read := by
      rw [List.mem_cons, not_or]
      exact ⟨hreturn.1, hread⟩
    rw [List.cons_append, linesFrom, if_neg (Ne.symm hnewline.1), ih hread' ⟨hnewline.2, hreturn.2⟩,
      List.reverse_cons, List.append_assoc]
    rfl

theorem lines_unlines {ls : List (List Char)} (h : ∀ l ∈ ls, Unbroken l) :
    lines (unlines ls) = ls := by
  induction ls with
  | nil => rfl
  | cons l ls ih =>
    obtain ⟨hl, hrest⟩ := List.forall_mem_cons.1 h
    rw [unlines_cons, lines, linesFrom_append List.not_mem_nil hl, ih hrest]
    rfl

/-- The lines behind a line feed are lines of the whole text. -/
theorem linesFrom_newline (read cs rest : List Char) :
    ∃ ls, linesFrom read (cs ++ '\n' :: rest) = ls ++ lines rest := by
  induction cs generalizing read with
  | nil =>
    rw [List.nil_append, linesFrom, if_pos rfl]
    exact ⟨[_], rfl⟩
  | cons c cs ih =>
    rw [List.cons_append, linesFrom]
    by_cases hc : c = '\n'
    · obtain ⟨ls, hls⟩ := ih []
      rw [if_pos hc, hls]
      exact ⟨_ :: ls, rfl⟩
    · rw [if_neg hc]
      exact ih (c :: read)

/-- Nothing is trimmed where there is no space at either end. -/
theorem trim_eq_self {first last : Char} {cs : List Char} (hfirst : isWhitespace first = false)
    (hlast : isWhitespace last = false) : trim (first :: (cs ++ [last])) = first :: (cs ++ [last]) := by
  rw [trim, List.dropWhile_cons, if_neg (by simp [hfirst]), ← List.cons_append,
    List.rdropWhile_concat, if_neg (by simp [hlast])]

theorem utf8Len_le (cs : List Char) : utf8Len cs ≤ 4 * cs.length := by
  induction cs with
  | nil => rfl
  | cons c cs ih =>
    have hc := c.utf8Size_le_four
    simp only [utf8Len, List.map_cons, List.sum_cons, List.length_cons] at ih ⊢
    omega

theorem length_le_utf8Len (cs : List Char) : cs.length ≤ utf8Len cs := by
  induction cs with
  | nil => rfl
  | cons c cs ih =>
    have hc := c.utf8Size_pos
    simp only [utf8Len, List.map_cons, List.sum_cons, List.length_cons] at ih ⊢
    omega

end Lines
