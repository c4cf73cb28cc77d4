import Mathlib

/-!
# JSON values and their compact text

Values as `serde_json` holds them and the text it prints for them, which no two values share. A text is
the list of its characters; a printed number ends where the next character is not one of a number.
-/

/-- A finite number with a fraction or an exponent, given by its shortest text. -/
structure Json.FloatText where
  text : List Char
  number : ∀ c ∈ text, c.isDigit ∨ c ∈ ['-', '+', '.', 'e']
  fractional : '.' ∈ text ∨ 'e' ∈ text

inductive Json.Number where
  | posInt (n : UInt64)
  /-- The integer `-(m + 1)`. -/
  | negInt (m : Fin (2 ^ 63))
  | float (x : Json.FloatText)

inductive Json where
  | null
  | bool (b : Bool)
  | num (n : Json.Number)
  | str (s : List Char)
  | arr (xs : List Json)
  /-- The members in the order of their keys. -/
  | obj (members : List (String × Json))

namespace Json

/-! ## Printing -/

def hexDigit (n : Nat) : Char := Nat.digitChar n

/-- A character of a string, with the escapes that JSON asks for. -/
def escape (c : Char) : List Char :=
  if c = '"' then ['\\', '"']
  else if c = '\\' then ['\\', '\\']
  else if c.toNat = 8 then ['\\', 'b']
  else if c = '\t' then ['\\', 't']
  else if c = '\n' then ['\\', 'n']
  else if c.toNat = 12 then ['\\', 'f']
  else if c = '\r' then ['\\', 'r']
  else if c.toNat < 32 then
    ['\\', 'u', '0', '0', hexDigit (c.toNat / 16), hexDigit (c.toNat % 16)]
  else [c]

def printStr (s : List Char) : List Char := '"' :: (s.flatMap escape ++ ['"'])

/-- An unsigned number in decimal. -/
def printNat (n : Nat) : List Char := Nat.toDigits 10 n

def Number.print : Number → List Char
  | .posInt n => printNat n.toNat
  | .negInt m => '-' :: printNat (m.val + 1)
  | .float x => x.text

mutual

/-- `serde_json::to_string`. -/
def print : Json → List Char
  | null => ['n', 'u', 'l', 'l']
  | bool b => if b then ['t', 'r', 'u', 'e'] else ['f', 'a', 'l', 's', 'e']
  | num n => n.print
  | str s => printStr s
  | arr [] => ['[', ']']
  | arr (x :: xs) => '[' :: (print x ++ printItems xs)
  | obj [] => ['{', '}']
  | obj ((k, v) :: members) => '{' :: (printStr k.toList ++ ':' :: (print v ++ printMembers members))

/-- What stands behind an item of an array. -/
def printItems : List Json → List Char
  | [] => [']']
  | x :: xs => ',' :: (print x ++ printItems xs)

/-- What stands behind a member of an object. -/
def printMembers : List (String × Json) → List Char
  | [] => ['}']
  | (k, v) :: members => ',' :: (printStr k.toList ++ ':' :: (print v ++ printMembers members))

end

/-! ## Strings -/

def hexVal (c : Char) : Nat := if c.isDigit then c.toNat - 48 else c.toNat - 87

/-- Takes one character of a string off the text. -/
def unescape : List Char → Option (Char × List Char)
  | '\\' :: 'u' :: '0' :: '0' :: a :: b :: cs => some (Char.ofNat (16 * hexVal a + hexVal b), cs)
  | '\\' :: 'b' :: cs => some (Char.ofNat 8, cs)
  | '\\' :: 't' :: cs => some ('\t', cs)
  | '\\' :: 'n' :: cs => some ('\n', cs)
  | '\\' :: 'f' :: cs => some (Char.ofNat 12, cs)
  | '\\' :: 'r' :: cs => some ('\r', cs)
  | '\\' :: c :: cs => some (c, cs)
  | c :: cs => some (c, cs)
  | [] => none

theorem hexVal_hexDigit : ∀ n < 16, hexVal (hexDigit n) = n := by decide

theorem unescape_escape (c : Char) (cs : List Char) : unescape (escape c ++ cs) = some (c, cs) := by
  have hcode : ∀ n, c.toNat = n → Char.ofNat n = c := fun n h => by rw [← h, Char.ofNat_toNat]
  unfold escape
  split_ifs with h₁ h₂ h₃ h₄ h₅ h₆ h₇ h₈
  · rw [h₁]
    rfl
  · rw [h₂]
    rfl
  · rw [← hcode 8 h₃]
    rfl
  · rw [h₄]
    rfl
  · rw [h₅]
    rfl
  · rw [← hcode 12 h₆]
    rfl
  · rw [h₇]
    rfl
  · have hhigh := hexVal_hexDigit (c.toNat / 16) (by omega)
    have hlow := hexVal_hexDigit (c.toNat % 16) (by omega)
    simp only [List.cons_append, List.nil_append, unescape, hhigh, hlow]
    rw [hcode _ (by omega)]
  · simp only [List.cons_append, List.nil_append]
    unfold unescape
    split <;> simp_all

/-- No character of a string is printed as the closing quote. -/
theorem escape_append_ne_quote (c : Char) (cs ds : List Char) : escape c ++ cs ≠ '"' :: ds := by
  intro h
  have hread := congrArg unescape h
  rw [unescape_escape] at hread
  obtain ⟨rfl, rfl⟩ : c = '"' ∧ cs = ds := by simpa [unescape] using hread
  simp [escape] at h

theorem length_printStr_le (s : List Char) : (printStr s).length ≤ 6 * s.length + 2 := by
  have hescape : ∀ c, (escape c).length ≤ 6 := by
    intro c
    unfold escape
    split_ifs <;> exact Nat.le_of_ble_eq_true rfl
  have hescaped : (s.flatMap escape).length ≤ 6 * s.length := by
    induction s with
    | nil => exact Nat.zero_le _
    | cons c s ih =>
      have hc := hescape c
      rw [List.flatMap_cons, List.length_append, List.length_cons]
      omega
  rw [printStr, List.length_cons, List.length_append, List.length_singleton]
  omega

/-- A printed string shows where it ends. -/
theorem printStr_append_inj {s t r r' : List Char} (h : printStr s ++ r = printStr t ++ r') :
    s = t ∧ r = r' := by
  simp only [printStr, List.cons_append, List.append_assoc, List.nil_append, List.cons.injEq,
    true_and] at h
  induction s generalizing t with
  | nil =>
    cases t with
    | nil => exact ⟨rfl, (List.cons.inj h).2⟩
    | cons d t =>
      rw [List.flatMap_cons, List.append_assoc] at h
      exact absurd h.symm (escape_append_ne_quote d _ _)
  | cons c s ih =>
    cases t with
    | nil =>
      rw [List.flatMap_cons, List.append_assoc] at h
      exact absurd h (escape_append_ne_quote c _ _)
    | cons d t =>
      rw [List.flatMap_cons, List.flatMap_cons, List.append_assoc, List.append_assoc] at h
      have hread := congrArg unescape h
      rw [unescape_escape, unescape_escape, Option.some.injEq, Prod.mk.injEq] at hread
      obtain ⟨rfl, hrest⟩ := ih hread.2
      exact ⟨by rw [hread.1], hrest⟩

/-! ## Numbers -/

def NumberChar (c : Char) : Prop := c.isDigit ∨ c ∈ ['-', '+', '.', 'e']

instance (c : Char) : Decidable (NumberChar c) := inferInstanceAs (Decidable (_ ∨ _))

/-- A number that stands before `r` ends there. -/
def Stops (r : List Char) : Prop := ∀ c cs, r = c :: cs → ¬ NumberChar c

theorem stops_nil : Stops [] := by
  intro c cs h
  cases h

theorem stops_cons {c : Char} (h : ¬ NumberChar c) (cs : List Char) : Stops (c :: cs) := by
  rintro c' cs' h'
  cases h'
  exact h

theorem number_append_inj {t u r s : List Char} (ht : ∀ c ∈ t, NumberChar c)
    (hu : ∀ c ∈ u, NumberChar c) (hr : Stops r) (hs : Stops s) (h : t ++ r = u ++ s) :
    t = u ∧ r = s := by
  induction t generalizing u with
  | nil =>
    cases u with
    | nil => exact ⟨rfl, h⟩
    | cons d u => exact absurd (hu d List.mem_cons_self) (hr d (u ++ s) h)
  | cons c t ih =>
    cases u with
    | nil => exact absurd (ht c List.mem_cons_self) (hs c (t ++ r) h.symm)
    | cons d u =>
      obtain ⟨hhead, htail⟩ := List.cons.inj h
      obtain ⟨htext, hrest⟩ := ih (fun x hx => ht x (List.mem_cons_of_mem c hx))
        (fun x hx => hu x (List.mem_cons_of_mem d hx)) htail
      exact ⟨by rw [hhead, htext], hrest⟩

theorem isDigit_of_mem_printNat {n : Nat} {c : Char} (h : c ∈ printNat n) : c.isDigit :=
  Nat.isDigit_of_mem_toDigits (by decide) (by decide) h

theorem printNat_inj {m n : Nat} (h : printNat m = printNat n) : m = n := by
  have hread := congrArg (fun cs => Nat.ofDigitChars 10 cs 0) h
  simp only [printNat, Nat.ofDigitChars_ten_toDigits] at hread
  exact hread

theorem Number.char_of_mem_print {n : Number} : ∀ c ∈ n.print, NumberChar c := by
  cases n with
  | posInt n => exact fun c hc => .inl (isDigit_of_mem_printNat hc)
  | negInt m =>
    refine List.forall_mem_cons.2 ⟨.inr (by decide), fun c hc => ?_⟩
    exact .inl (isDigit_of_mem_printNat hc)
  | float x => exact x.number

/-- Only a float has a point or an exponent in its text. -/
theorem FloatText.text_ne {x : FloatText} {t : List Char} (ht : ∀ c ∈ t, c.isDigit ∨ c = '-') :
    x.text ≠ t := by
  rintro rfl
  rcases x.fractional with hpoint | hexp
  · exact absurd (ht '.' hpoint) (by decide)
  · exact absurd (ht 'e' hexp) (by decide)

theorem posInt_chars {n : Nat} : ∀ c ∈ printNat n, c.isDigit ∨ c = '-' :=
  fun _ hc => .inl (isDigit_of_mem_printNat hc)

theorem negInt_chars {n : Nat} : ∀ c ∈ '-' :: printNat n, c.isDigit ∨ c = '-' :=
  List.forall_mem_cons.2 ⟨.inr rfl, posInt_chars⟩

theorem negInt_text_ne {m n : Nat} : '-' :: printNat m ≠ printNat n := by
  intro h
  have hdash : '-' ∈ printNat n := by
    rw [← h]
    exact List.mem_cons_self
  exact absurd (isDigit_of_mem_printNat hdash) (by decide)

theorem Number.print_inj {m n : Number} (h : m.print = n.print) : m = n := by
  cases m with
  | posInt a =>
    cases n with
    | posInt b => rw [UInt64.toNat_inj.1 (printNat_inj h)]
    | negInt b => exact absurd h.symm negInt_text_ne
    | float y => exact absurd h.symm (FloatText.text_ne posInt_chars)
  | negInt a =>
    cases n with
    | posInt b => exact absurd h negInt_text_ne
    | negInt b =>
      have hval := printNat_inj (List.cons.inj h).2
      rw [Fin.ext (Nat.succ.inj hval)]
    | float y => exact absurd h.symm (FloatText.text_ne negInt_chars)
  | float x =>
    cases n with
    | posInt b => exact absurd h (FloatText.text_ne posInt_chars)
    | negInt b => exact absurd h (FloatText.text_ne negInt_chars)
    | float y =>
      cases x
      cases y
      cases h
      rfl

theorem Number.print_ne_nil (n : Number) : n.print ≠ [] := by
  cases n with
  | posInt a => exact Nat.toDigits_ne_nil
  | negInt a => exact List.cons_ne_nil _ _
  | float x =>
    intro h
    have h : x.text = [] := h
    rcases x.fractional with hpoint | hexp
    · rw [h] at hpoint
      cases hpoint
    · rw [h] at hexp
      cases hexp

/-! ## Values -/

/-- What the first character of a text tells of its value. -/
def leadKind (c : Char) : Nat := if NumberChar c then 0 else c.toNat

def kind : Json → Nat
  | null => 'n'.toNat
  | bool true => 't'.toNat
  | bool false => 'f'.toNat
  | num _ => 0
  | str _ => '"'.toNat
  | arr _ => '['.toNat
  | obj _ => '{'.toNat

theorem exists_print_eq_cons (v : Json) : ∃ c cs, print v = c :: cs ∧ leadKind c = kind v := by
  cases v with
  | null => exact ⟨'n', _, by rw [print], rfl⟩
  | bool b =>
    cases b with
    | false => exact ⟨'f', _, by rw [print]; rfl, rfl⟩
    | true => exact ⟨'t', _, by rw [print]; rfl, rfl⟩
  | num n =>
    obtain ⟨c, cs, hn⟩ := List.exists_cons_of_ne_nil n.print_ne_nil
    have hc : NumberChar c := Number.char_of_mem_print c (by rw [hn]; exact List.mem_cons_self)
    exact ⟨c, cs, by rw [print, hn], if_pos hc⟩
  | str s => exact ⟨'"', _, by rw [print, printStr], rfl⟩
  | arr xs =>
    cases xs with
    | nil => exact ⟨'[', _, by rw [print], rfl⟩
    | cons x xs => exact ⟨'[', _, by rw [print], rfl⟩
  | obj members =>
    cases members with
    | nil => exact ⟨'{', _, by rw [print], rfl⟩
    | cons m members => exact ⟨'{', _, by rw [print], rfl⟩

theorem print_append_ne_bracket (v : Json) (r s : List Char) : print v ++ r ≠ ']' :: s := by
  intro h
  obtain ⟨c, cs, hv, hkind⟩ := exists_print_eq_cons v
  rw [hv, List.cons_append] at h
  rw [(List.cons.inj h).1] at hkind
  rcases v with _ | (_ | _) | _ | _ | _ | _ <;> cases hkind

theorem kind_eq_of_append {v w : Json} {r s : List Char} (h : print v ++ r = print w ++ s) :
    kind v = kind w := by
  obtain ⟨c, cs, hv, hkind⟩ := exists_print_eq_cons v
  obtain ⟨d, ds, hw, hkind'⟩ := exists_print_eq_cons w
  rw [hv, hw, List.cons_append, List.cons_append] at h
  rw [← hkind, ← hkind', (List.cons.inj h).1]

theorem stops_printItems (xs : List Json) (r : List Char) : Stops (printItems xs ++ r) := by
  cases xs with
  | nil => exact stops_cons (by decide) _
  | cons x xs =>
    rw [printItems]
    exact stops_cons (by decide) _

theorem stops_printMembers (members : List (String × Json)) (r : List Char) :
    Stops (printMembers members ++ r) := by
  cases members with
  | nil => exact stops_cons (by decide) _
  | cons m members =>
    rw [printMembers]
    exact stops_cons (by decide) _

/-- Values whose texts begin alike have one shape. -/
theorem shape_of_kind {v w : Json} (h : kind v = kind w) :
    (v = null ∧ w = null) ∨ (∃ b, v = bool b ∧ w = bool b) ∨ (∃ m n, v = num m ∧ w = num n) ∨
      (∃ s t, v = str s ∧ w = str t) ∨ (∃ xs ys, v = arr xs ∧ w = arr ys) ∨
      ∃ ms ns, v = obj ms ∧ w = obj ns := by
  rcases v with _ | (_ | _) | m | s | xs | ms <;> rcases w with _ | (_ | _) | n | t | ys | ns <;>
    first
    | (simp [kind] at h; done)
    | simp

mutual

/-- A printed value shows where it ends, and which value it is. -/
theorem print_append_inj : ∀ (v w : Json) {r s : List Char}, Stops r → Stops s →
    print v ++ r = print w ++ s → v = w ∧ r = s
  | null, w, r, s, _, _, h => by
    obtain rfl : w = null := by simpa using shape_of_kind (kind_eq_of_append h)
    exact ⟨rfl, List.append_cancel_left h⟩
  | bool b, w, r, s, _, _, h => by
    obtain rfl : w = bool b := by simpa using shape_of_kind (kind_eq_of_append h)
    exact ⟨rfl, List.append_cancel_left h⟩
  | num m, w, r, s, hr, hs, h => by
    obtain ⟨n, rfl⟩ : ∃ n, w = num n := by simpa using shape_of_kind (kind_eq_of_append h)
    rw [print, print] at h
    obtain ⟨htext, hrest⟩ := number_append_inj m.char_of_mem_print n.char_of_mem_print hr hs h
    exact ⟨by rw [Number.print_inj htext], hrest⟩
  | str t, w, r, s, _, _, h => by
    obtain ⟨u, rfl⟩ : ∃ u, w = str u := by simpa using shape_of_kind (kind_eq_of_append h)
    rw [print, print] at h
    obtain ⟨htext, hrest⟩ := printStr_append_inj h
    exact ⟨by rw [htext], hrest⟩
  | arr [], w, r, s, _, _, h => by
    obtain ⟨ys, rfl⟩ : ∃ ys, w = arr ys := by simpa using shape_of_kind (kind_eq_of_append h)
    cases ys with
    | nil => exact ⟨rfl, List.append_cancel_left h⟩
    | cons y ys =>
      simp only [print, List.cons_append, List.nil_append, List.append_assoc] at h
      exact absurd (List.cons.inj h).2.symm (print_append_ne_bracket y _ _)
  | arr (x :: xs), w, r, s, _, _, h => by
    obtain ⟨ys, rfl⟩ : ∃ ys, w = arr ys := by simpa using shape_of_kind (kind_eq_of_append h)
    cases ys with
    | nil =>
      rw [print, print, List.cons_append, List.append_assoc] at h
      exact absurd (List.cons.inj h).2 (print_append_ne_bracket x _ _)
    | cons y ys =>
      rw [print, print, List.cons_append, List.cons_append, List.append_assoc, List.append_assoc,
        List.cons.injEq] at h
      obtain ⟨rfl, hrest⟩ := print_append_inj x y (stops_printItems xs r) (stops_printItems ys s) h.2
      obtain ⟨rfl, hend⟩ := printItems_append_inj xs ys hrest
      exact ⟨rfl, hend⟩
  | obj [], w, r, s, _, _, h => by
    obtain ⟨ns, rfl⟩ : ∃ ns, w = obj ns := by simpa using shape_of_kind (kind_eq_of_append h)
    cases ns with
    | nil => exact ⟨rfl, List.append_cancel_left h⟩
    | cons n ns =>
      rw [print, print] at h
      cases h
  | obj ((k, v) :: ms), w, r, s, _, _, h => by
    obtain ⟨ns, rfl⟩ : ∃ ns, w = obj ns := by simpa using shape_of_kind (kind_eq_of_append h)
    cases ns with
    | nil =>
      rw [print, print] at h
      cases h
    | cons n ns =>
      obtain ⟨l, w⟩ := n
      simp only [print, List.cons_append, List.append_assoc, List.cons.injEq, true_and] at h
      obtain ⟨hkey, hrest⟩ := printStr_append_inj h
      obtain rfl := String.toList_inj.1 hkey
      obtain ⟨rfl, hmembers⟩ := print_append_inj v w (stops_printMembers ms r) (stops_printMembers ns s)
        (List.cons.inj hrest).2
      obtain ⟨rfl, hend⟩ := printMembers_append_inj ms ns hmembers
      exact ⟨rfl, hend⟩

theorem printItems_append_inj : ∀ (xs ys : List Json) {r s : List Char},
    printItems xs ++ r = printItems ys ++ s → xs = ys ∧ r = s
  | [], ys, r, s, h => by
    cases ys with
    | nil => exact ⟨rfl, List.append_cancel_left h⟩
    | cons y ys =>
      rw [printItems, printItems] at h
      cases h
  | x :: xs, ys, r, s, h => by
    cases ys with
    | nil =>
      rw [printItems, printItems] at h
      cases h
    | cons y ys =>
      rw [printItems, printItems, List.cons_append, List.cons_append, List.append_assoc,
        List.append_assoc, List.cons.injEq] at h
      obtain ⟨rfl, hrest⟩ := print_append_inj x y (stops_printItems xs r) (stops_printItems ys s) h.2
      obtain ⟨rfl, hend⟩ := printItems_append_inj xs ys hrest
      exact ⟨rfl, hend⟩

theorem printMembers_append_inj : ∀ (ms ns : List (String × Json)) {r s : List Char},
    printMembers ms ++ r = printMembers ns ++ s → ms = ns ∧ r = s
  | [], ns, r, s, h => by
    cases ns with
    | nil => exact ⟨rfl, List.append_cancel_left h⟩
    | cons n ns =>
      rw [printMembers, printMembers] at h
      cases h
  | (k, v) :: ms, ns, r, s, h => by
    cases ns with
    | nil =>
      rw [printMembers, printMembers] at h
      cases h
    | cons n ns =>
      obtain ⟨l, w⟩ := n
      simp only [printMembers, List.cons_append, List.append_assoc, List.cons.injEq, true_and] at h
      obtain ⟨hkey, hrest⟩ := printStr_append_inj h
      obtain rfl := String.toList_inj.1 hkey
      obtain ⟨rfl, hmembers⟩ := print_append_inj v w (stops_printMembers ms r) (stops_printMembers ns s)
        (List.cons.inj hrest).2
      obtain ⟨rfl, hend⟩ := printMembers_append_inj ms ns hmembers
      exact ⟨rfl, hend⟩

end

theorem print_injective {v w : Json} (h : print v = print w) : v = w :=
  (print_append_inj v w stops_nil stops_nil (congrArg (· ++ []) h)).1

/-! ## Lines -/

/-- Not a control character. -/
def Printed (cs : List Char) : Prop := ∀ c ∈ cs, 32 ≤ c.toNat

theorem printed_nil : Printed [] := List.forall_mem_nil _

theorem Printed.append {cs ds : List Char} (h : Printed cs) (h' : Printed ds) : Printed (cs ++ ds) :=
  List.forall_mem_append.2 ⟨h, h'⟩

theorem Printed.cons {c : Char} {cs : List Char} (hc : 32 ≤ c.toNat) (h : Printed cs) :
    Printed (c :: cs) := List.forall_mem_cons.2 ⟨hc, h⟩

theorem printed_hexDigit : ∀ n < 16, 32 ≤ (hexDigit n).toNat := by decide

theorem printed_escape (c : Char) : Printed (escape c) := by
  unfold escape
  split_ifs with h₁ h₂ h₃ h₄ h₅ h₆ h₇ h₈
  iterate 7 simp [Printed]
  · have hhigh := printed_hexDigit (c.toNat / 16) (by omega)
    have hlow := printed_hexDigit (c.toNat % 16) (by omega)
    have hmark : Printed ['\\', 'u', '0', '0'] := by simp [Printed]
    exact hmark.append (.cons hhigh (.cons hlow printed_nil))
  · exact .cons (by omega) printed_nil

theorem printed_printStr (s : List Char) : Printed (printStr s) := by
  refine .cons (by decide) (.append ?_ (.cons (by decide) printed_nil))
  intro c hc
  obtain ⟨d, _, hd⟩ := List.mem_flatMap.1 hc
  exact printed_escape d c hd

theorem printed_number (n : Number) : Printed n.print := by
  intro c hc
  rcases n.char_of_mem_print c hc with hdigit | hsign
  · rw [Char.isDigit, Bool.and_eq_true, decide_eq_true_eq] at hdigit
    have hlow : 48 ≤ c.toNat := hdigit.1
    omega
  · simp only [List.mem_cons, List.not_mem_nil, or_false] at hsign
    rcases hsign with rfl | rfl | rfl | rfl <;> decide

mutual

/-- A printed value has no control characters in it. -/
theorem printed_print : ∀ v : Json, Printed (print v)
  | null => by simp [Printed, print]
  | bool true => by simp [Printed, print]
  | bool false => by simp [Printed, print]
  | num n => by rw [print]; exact printed_number n
  | str s => by rw [print]; exact printed_printStr s
  | arr [] => by simp [Printed, print]
  | arr (x :: xs) => by
    rw [print]
    exact .cons (by decide) ((printed_print x).append (printed_printItems xs))
  | obj [] => by simp [Printed, print]
  | obj ((k, v) :: ms) => by
    rw [print]
    refine .cons (by decide) ((printed_printStr _).append (.cons (by decide) ?_))
    exact (printed_print v).append (printed_printMembers ms)

theorem printed_printItems : ∀ xs : List Json, Printed (printItems xs)
  | [] => by simp [Printed, printItems]
  | x :: xs => by
    rw [printItems]
    exact .cons (by decide) ((printed_print x).append (printed_printItems xs))

theorem printed_printMembers : ∀ ms : List (String × Json), Printed (printMembers ms)
  | [] => by simp [Printed, printMembers]
  | (k, v) :: ms => by
    rw [printMembers]
    refine .cons (by decide) ((printed_printStr _).append (.cons (by decide) ?_))
    exact (printed_print v).append (printed_printMembers ms)

end

/-! ## Access -/

/-- `Value::get` at a key. -/
def get? (key : String) : Json → Option Json
  | obj members => members.lookup key
  | _ => none

def asU64 : Json → Option UInt64
  | num (.posInt n) => some n
  | _ => none

def asStr : Json → Option (List Char)
  | str s => some s
  | _ => none

/-- `Map::insert`. -/
def insertMember (key : String) (v : Json) : List (String × Json) → List (String × Json)
  | [] => [(key, v)]
  | (k, w) :: members =>
    if key = k then (key, v) :: members
    else if key < k then (key, v) :: (k, w) :: members
    else (k, w) :: insertMember key v members

/-! ## Values that are read back -/

mutual

/-- No number with a fraction, ascending keys, and arrays and objects at most `depth` deep. -/
def Plain : (depth : Nat) → Json → Prop
  | _, null => True
  | _, bool _ => True
  | _, num n => ∀ x, n ≠ .float x
  | _, str _ => True
  | 0, arr _ => False
  | depth + 1, arr xs => PlainItems depth xs
  | 0, obj _ => False
  | depth + 1, obj members => (members.map Prod.fst).Pairwise (· < ·) ∧ PlainMembers depth members

def PlainItems : (depth : Nat) → List Json → Prop
  | _, [] => True
  | depth, x :: xs => Plain depth x ∧ PlainItems depth xs

def PlainMembers : (depth : Nat) → List (String × Json) → Prop
  | _, [] => True
  | depth, (_, v) :: members => Plain depth v ∧ PlainMembers depth members

end

end Json
