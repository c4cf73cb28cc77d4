import Mathlib

/-!
# Text

The operations on text that configuration code makes: lower case for keywords, splitting at a
separator, unsigned numbers in decimal, and the directory of a path. A text is taken as the list of its
characters.
-/

namespace Text

/-- The text in lower case. Only ASCII letters change: a keyword of ASCII letters other than `k` is
the lower case of no text with other characters in it. -/
def lowercase (s : String) : List Char := s.toList.map Char.toLower

def uppercase (s : String) : List Char := s.toList.map Char.toUpper

/-- `split_once`: what stands before and behind the first `sep`. -/
def splitOnce (sep : Char) (cs : List Char) : Option (List Char × List Char) :=
  match cs.dropWhile (· ≠ sep) with
  | [] => none
  | _ :: rest => some (cs.takeWhile (· ≠ sep), rest)

/-- The value of a digit in `radix` up to sixteen. -/
def digitVal (radix : Nat) (c : Char) : Option Nat :=
  let value :=
    if c.isDigit then some (c.toNat - '0'.toNat)
    else if 'a' ≤ c ∧ c ≤ 'f' then some (c.toNat - 'a'.toNat + 10)
    else if 'A' ≤ c ∧ c ≤ 'F' then some (c.toNat - 'A'.toNat + 10)
    else none
  value.filter (· < radix)

/-- The value of a non-empty string of digits. -/
def digitsVal (radix : Nat) (cs : List Char) : Option Nat :=
  if cs = [] then none
  else cs.foldlM (fun n c => (digitVal radix c).map fun d => radix * n + d) 0

/-- `str::parse` at an unsigned type of `bits` bits: digits behind an optional plus sign. -/
def parseUnsigned (bits : Nat) (cs : List Char) : Option Nat :=
  let digits :=
    match cs with
    | '+' :: rest => rest
    | cs => cs
  (digitsVal 10 digits).filter (· < 2 ^ bits)

/-- A part of a path that `Path::components` passes over. -/
def PassedOver (part : List Char) : Prop := part = [] ∨ part = ['.']

instance : DecidablePred PassedOver := fun _ => inferInstanceAs (Decidable (_ ∨ _))

/-- `Path::parent`, of a path with `/` between its parts: without the last part. A path that is the root or
empty has none. -/
def parentPath (path : List Char) : Option (List Char) :=
  -- the root, or the present directory where it is written
  let (start, body) :=
    match path with
    | '/' :: rest => (['/'], rest)
    | ['.'] => (['.'], [])
    | '.' :: '/' :: rest => (['.'], '/' :: rest)
    | path => ([], path)
  let parts := (body.splitOn '/').rdropWhile fun part => decide (PassedOver part)
  if parts = [] then if start = ['.'] then some [] else none
  else
    some (start ++
      ['/'].intercalate (parts.dropLast.rdropWhile fun part => decide (PassedOver part)))

example : parentPath "/var/lib//rules.redb".toList = some "/var/lib".toList := by decide

theorem splitOnce_append {sep : Char} {before : List Char} (h : sep ∉ before) (behind : List Char) :
    splitOnce sep (before ++ sep :: behind) = some (before, behind) := by
  have hbefore : ∀ c ∈ before, decide (c ≠ sep) = true := fun c hc =>
    decide_eq_true fun heq => h (heq ▸ hc)
  unfold splitOnce
  rw [List.dropWhile_append_of_pos hbefore, List.takeWhile_append_of_pos hbefore]
  simp

theorem splitOnce_of_not_mem {sep : Char} {cs : List Char} (h : sep ∉ cs) : splitOnce sep cs = none := by
  have hall : cs.dropWhile (· ≠ sep) = [] :=
    List.dropWhile_eq_nil_iff.2 fun c hc => decide_eq_true fun heq => h (heq ▸ hc)
  rw [splitOnce, hall]

/-- The halves of a text at its first `sep`. -/
theorem splitOnce_eq_some_iff {sep : Char} {cs before behind : List Char} :
    splitOnce sep cs = some (before, behind) ↔ cs = before ++ sep :: behind ∧ sep ∉ before := by
  constructor
  · intro h
    by_cases hmem : sep ∈ cs
    · obtain ⟨as, bs, rfl, has⟩ := List.eq_append_cons_of_mem hmem
      rw [splitOnce_append has] at h
      cases h
      exact ⟨rfl, has⟩
    · rw [splitOnce_of_not_mem hmem] at h
      cases h
  · rintro ⟨rfl, h⟩
    exact splitOnce_append h behind

theorem splitOnce_eq_none_iff {sep : Char} {cs : List Char} : splitOnce sep cs = none ↔ sep ∉ cs := by
  refine ⟨fun h hmem => ?_, splitOnce_of_not_mem⟩
  obtain ⟨as, bs, rfl, has⟩ := List.eq_append_cons_of_mem hmem
  rw [splitOnce_append has] at h
  cases h

end Text
