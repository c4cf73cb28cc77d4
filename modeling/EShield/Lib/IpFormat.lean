import EShield.Lib.IpText

/-!
# Printing IP addresses

The texts in which the standard library prints addresses, which its parser reads back.
-/

namespace IpText

open Text

/-! ## Printers -/

/-- The four octets of an address, the first one most significant. -/
def octets (addr : BitVec 32) : List (BitVec 8) :=
  [addr.extractLsb' 24 8, addr.extractLsb' 16 8, addr.extractLsb' 8 8, addr.extractLsb' 0 8]

def formatIpv4 (addr : BitVec 32) : List Char :=
  (octets addr).map (fun o => Nat.toDigits 10 o.toNat) |>.intersperse ['.'] |>.flatten

/-- The eight segments of an address. -/
def segments (addr : BitVec 128) : List (BitVec 16) :=
  (List.range 8).map fun i => addr.extractLsb' (16 * (7 - i)) 16

/-- A run of zero segments. -/
structure Span where
  start : Nat := 0
  len : Nat := 0
  deriving DecidableEq, Repr

/-- The first of the longest runs of zeros; `i` is the number of the segment at the front. -/
def longestZeros : (segments : List (BitVec 16)) → (i : Nat) → (longest current : Span) → Span
  | [], _, longest, _ => longest
  | segment :: rest, i, longest, current =>
    if segment = 0 then
      let current : Span :=
        { start := if current.len = 0 then i else current.start, len := current.len + 1 }
      longestZeros rest (i + 1) (if current.len > longest.len then current else longest) current
    else longestZeros rest (i + 1) longest {}

/-- Segments in hexadecimal, colons between them. -/
def fmtSubslice : List (BitVec 16) → List Char
  | [] => []
  | first :: tail =>
    Nat.toDigits 16 first.toNat ++ tail.flatMap fun segment => ':' :: Nat.toDigits 16 segment.toNat

/-- `to_ipv4_mapped`: the address is `::ffff:a.b.c.d`. -/
def toIpv4Mapped (addr : BitVec 128) : Option (BitVec 32) :=
  if addr.extractLsb' 32 96 = 0xffff then some (addr.extractLsb' 0 32) else none

def formatIpv6 (addr : BitVec 128) : List Char :=
  match toIpv4Mapped addr with
  | some ipv4 => "::ffff:".toList ++ formatIpv4 ipv4
  | none =>
    let segments := segments addr
    let zeroes := longestZeros segments 0 {} {}
    if zeroes.len > 1 then
      fmtSubslice (segments.take zeroes.start) ++ "::".toList ++
        fmtSubslice (segments.drop (zeroes.start + zeroes.len))
    else fmtSubslice segments

def formatIpAddr : IpAddr → List Char
  | .v4 addr => formatIpv4 addr
  | .v6 addr => formatIpv6 addr

example : formatIpv6 0x20010db8000000000000000001020304 = "2001:db8::102:304".toList := by
  decide +kernel

example : formatIpv6 0x00000000000000000000ffff01020304 = "::ffff:1.2.3.4".toList := by decide +kernel

/-! ## Digits -/

theorem digitVal_digitChar : ∀ d < 16, digitVal 16 d.digitChar = some d := by decide

theorem digitVal_digitChar_ten : ∀ d < 10, digitVal 10 d.digitChar = some d := by decide

/-- The two radices in which addresses are written. -/
def IsRadix (b : Nat) : Prop := 1 < b ∧ ∀ d < b, digitVal b d.digitChar = some d

theorem isRadix_ten : IsRadix 10 := ⟨by decide, digitVal_digitChar_ten⟩

theorem isRadix_sixteen : IsRadix 16 := ⟨by decide, digitVal_digitChar⟩

/-- A digit on the right. -/
theorem digitsVal_snoc {b : Nat} {cs : List Char} {c : Char} {n d : Nat} (hcs : digitsVal b cs = some n)
    (hc : digitVal b c = some d) : digitsVal b (cs ++ [c]) = some (b * n + d) := by
  unfold digitsVal at hcs ⊢
  split at hcs
  · cases hcs
  · rw [if_neg (by simp), List.foldlM_append, hcs]
    simp [hc]

/-- The digits of a number are read back. -/
theorem digitsVal_toDigits {b : Nat} (hb : IsRadix b) (n : Nat) :
    digitsVal b (Nat.toDigits b n) = some n := by
  induction n using Nat.strong_induction_on with
  | _ n ih =>
    rcases Nat.lt_or_ge n b with hlt | hge
    · rw [Nat.toDigits_of_lt_base hlt]
      simp [digitsVal, hb.2 n hlt]
    · rw [Nat.toDigits_of_base_le hb.1 hge]
      have hdiv : n / b < n := Nat.div_lt_self (by have := hb.1; omega) hb.1
      have hmod : n % b < b := Nat.mod_lt n (by have := hb.1; omega)
      rw [digitsVal_snoc (ih (n / b) hdiv) (hb.2 _ hmod), Nat.div_add_mod]

theorem isDigit_of_mem_toDigits {b n : Nat} (hb : IsRadix b) {c : Char}
    (hc : c ∈ Nat.toDigits b n) : (digitVal b c).isSome := by
  induction n using Nat.strong_induction_on with
  | _ n ih =>
    rcases Nat.lt_or_ge n b with hlt | hge
    · rw [Nat.toDigits_of_lt_base hlt, List.mem_singleton] at hc
      rw [hc, hb.2 n hlt]
      rfl
    · rw [Nat.toDigits_of_base_le hb.1 hge, List.mem_append, List.mem_singleton] at hc
      rcases hc with hc | rfl
      · exact ih (n / b) (Nat.div_lt_self (by have := hb.1; omega) hb.1) hc
      · rw [hb.2 _ (Nat.mod_lt n (by have := hb.1; omega))]
        rfl

/-- The text behind a number does not go on with a digit. -/
def EndsNumber (b : Nat) (rest : List Char) : Prop := ∀ c ∈ rest.head?, digitVal b c = none

theorem takeWhile_toDigits {b n : Nat} (hb : IsRadix b) {rest : List Char} (hrest : EndsNumber b rest) :
    (Nat.toDigits b n ++ rest).takeWhile (fun c => (digitVal b c).isSome) = Nat.toDigits b n := by
  rw [List.takeWhile_append_of_pos fun c hc => isDigit_of_mem_toDigits hb hc]
  cases rest with
  | nil => simp
  | cons c rest => simp [hrest c rfl]

/-- Only the number zero starts with a zero. -/
theorem head_toDigits {b n : Nat} (hb : IsRadix b) (hn : 0 < n) :
    (Nat.toDigits b n).head? ≠ some '0' := by
  induction n using Nat.strong_induction_on with
  | _ n ih =>
    rcases Nat.lt_or_ge n b with hlt | hge
    · rw [Nat.toDigits_of_lt_base hlt]
      intro heq
      have hval := hb.2 n hlt
      rw [show n.digitChar = Nat.digitChar 0 from Option.some.inj heq,
        hb.2 0 (by have := hb.1; omega)] at hval
      have hzero := Option.some.inj hval
      omega
    · rw [Nat.toDigits_of_base_le hb.1 hge, List.head?_append_of_ne_nil _ Nat.toDigits_ne_nil]
      exact ih (n / b) (Nat.div_lt_self hn hb.1) (Nat.div_pos hge (by have := hb.1; omega))

/-- A printed number is read back, if it is in range and what follows ends it. -/
theorem readNumber_toDigits {b : Nat} {rest : List Char} (n maxDigits bound : Nat) (zeros : Bool)
    (hb : IsRadix b) (hmax : 0 < maxDigits) (hlen : n < b ^ maxDigits) (hbound : n < bound)
    (hrest : EndsNumber b rest) :
    readNumber b maxDigits zeros bound (Nat.toDigits b n ++ rest) = some (n, rest) := by
  have hdigits : (Nat.toDigits b n).length ≤ maxDigits :=
    (Nat.length_toDigits_le_iff hb.1 hmax).2 hlen
  have hzero : ¬ ((!zeros && (Nat.toDigits b n).head? = some '0' &&
      1 < (Nat.toDigits b n).length) = true) := by
    intro hlead
    simp only [Bool.and_eq_true, decide_eq_true_eq] at hlead
    rcases Nat.eq_zero_or_pos n with rfl | hpos
    · rw [Nat.toDigits_zero] at hlead
      exact absurd hlead.2 (by decide)
    · exact head_toDigits hb hpos hlead.1.2
  unfold readNumber
  dsimp only
  rw [takeWhile_toDigits hb hrest, if_neg (by omega), if_neg hzero, digitsVal_toDigits hb]
  simp [hbound]

/-! ## IPv4 -/

theorem endsNumber_nil (b : Nat) : EndsNumber b [] := fun _ hc => by cases hc

theorem endsNumber_dot {b : Nat} (hb : b = 10 ∨ b = 16) (rest : List Char) :
    EndsNumber b ('.' :: rest) := by
  rintro c ⟨⟩
  rcases hb with rfl | rfl <;> rfl

theorem endsNumber_colon {b : Nat} (hb : b = 10 ∨ b = 16) (rest : List Char) :
    EndsNumber b (':' :: rest) := by
  rintro c ⟨⟩
  rcases hb with rfl | rfl <;> rfl

theorem readOctet (o : BitVec 8) {rest : List Char} (hrest : EndsNumber 10 rest) :
    readNumber 10 3 false 256 (Nat.toDigits 10 o.toNat ++ rest) = some (o.toNat, rest) :=
  readNumber_toDigits _ _ _ _ isRadix_ten (by decide) (by have := o.isLt; omega) (by have := o.isLt; omega)
    hrest

theorem octets_append (addr : BitVec 32) :
    addr.extractLsb' 24 8 ++ addr.extractLsb' 16 8 ++ addr.extractLsb' 8 8 ++
      addr.extractLsb' 0 8 = addr := by
  refine BitVec.eq_of_getLsbD_eq fun i hi => ?_
  simp only [BitVec.getLsbD_append, BitVec.getLsbD_extractLsb']
  grind

theorem readIpv4Addr_octets (a b c d : BitVec 8) {rest : List Char} (hrest : EndsNumber 10 rest) :
    readIpv4Addr (Nat.toDigits 10 a.toNat ++ '.' :: (Nat.toDigits 10 b.toNat ++ '.' ::
        (Nat.toDigits 10 c.toNat ++ '.' :: (Nat.toDigits 10 d.toNat ++ rest)))) =
      some (a ++ b ++ c ++ d, rest) := by
  have hdot := endsNumber_dot (b := 10) (.inl rfl)
  simp [readIpv4Addr, readSeparator, readGivenChar, readOctet _ (hdot _), readOctet _ hrest]

/-- A printed IPv4 address is read back. -/
theorem readIpv4Addr_format (addr : BitVec 32) {rest : List Char} (hrest : EndsNumber 10 rest) :
    readIpv4Addr (formatIpv4 addr ++ rest) = some (addr, rest) := by
  have hread := readIpv4Addr_octets (addr.extractLsb' 24 8) (addr.extractLsb' 16 8)
    (addr.extractLsb' 8 8) (addr.extractLsb' 0 8) hrest
  rw [octets_append] at hread
  simpa only [formatIpv4, octets, List.map_cons, List.map_nil, List.intersperse_cons_cons,
    List.intersperse_singleton, List.flatten_cons, List.flatten_nil, List.append_assoc,
    List.singleton_append, List.append_nil, List.cons_append, List.nil_append] using hread

/-- What a number reader leaves is the end of the text. -/
theorem suffix_of_readNumber {b maxDigits bound n : Nat} {zeros : Bool} {cs rest : List Char}
    (h : readNumber b maxDigits zeros bound cs = some (n, rest)) : rest <:+ cs := by
  unfold readNumber at h
  dsimp only at h
  split at h
  · cases h
  · split at h
    · cases h
    · obtain ⟨_, _, heq⟩ := Option.map_eq_some_iff.1 h
      cases heq
      exact List.drop_suffix _ cs

/-- There is no IPv4 address without a dot. -/
theorem dot_mem_of_readIpv4Addr {cs rest : List Char} {addr : BitVec 32}
    (h : readIpv4Addr cs = some (addr, rest)) : '.' ∈ cs := by
  unfold readIpv4Addr at h
  dsimp only at h
  obtain ⟨⟨a, cs₁⟩, hfirst, h⟩ := Option.bind_eq_some_iff.1 h
  obtain ⟨⟨b, cs₂⟩, hsecond, -⟩ := Option.bind_eq_some_iff.1 h
  have hsuffix : cs₁ <:+ cs := suffix_of_readNumber hfirst
  cases cs₁ with
  | nil => cases hsecond
  | cons c cs₁ =>
    by_cases hc : c = '.'
    · exact hsuffix.subset (by simp [hc])
    · simp [readSeparator, readGivenChar, hc] at hsecond

theorem readIpv4Addr_eq_none {cs : List Char} (hdot : '.' ∉ cs) : readIpv4Addr cs = none := by
  cases h : readIpv4Addr cs with
  | none => rfl
  | some r => exact absurd (dot_mem_of_readIpv4Addr h) hdot

/-! ## IPv6 -/

/-- The groups behind the first one. -/
def tailText (groups : List (BitVec 16)) : List Char :=
  groups.flatMap fun segment => ':' :: Nat.toDigits 16 segment.toNat

/-- The text of groups of which the first one has number `i`. -/
def groupsText (i : Nat) (groups : List (BitVec 16)) : List Char :=
  if i > 0 then tailText groups else fmtSubslice groups

/-- No further group stands at the front of the text. -/
def EndsGroups (rest : List Char) : Prop :=
  ∀ i, readSeparator ':' i (readNumber 16 4 true (2 ^ 16)) rest = none

theorem readNumber_colon (rest : List Char) : readNumber 16 4 true (2 ^ 16) (':' :: rest) = none := by
  have hcolon : (digitVal 16 ':').isSome = false := by decide
  simp [readNumber, hcolon, digitsVal]

theorem endsGroups_nil : EndsGroups [] := by
  intro i
  unfold readSeparator
  split <;> rfl

theorem endsGroups_double (rest : List Char) : EndsGroups (':' :: ':' :: rest) := by
  intro i
  unfold readSeparator
  split
  · exact readNumber_colon rest
  · exact readNumber_colon _

theorem readSeparator_ipv4_eq_none {cs : List Char} (hdot : '.' ∉ cs) (i : Nat) :
    readSeparator ':' i readIpv4Addr cs = none := by
  unfold readSeparator
  split
  · cases cs with
    | nil => rfl
    | cons c cs =>
      have hrest := readIpv4Addr_eq_none fun h => hdot (List.mem_cons_of_mem c h)
      by_cases hc : c = ':'
      · simp [readGivenChar, hc, hrest]
      · simp [readGivenChar, hc]
  · exact readIpv4Addr_eq_none hdot

theorem endsNumber_tailText {rest : List Char} (hrest : EndsNumber 16 rest)
    (groups : List (BitVec 16)) : EndsNumber 16 (tailText groups ++ rest) := by
  cases groups with
  | nil => exact hrest
  | cons g groups => exact endsNumber_colon (.inr rfl) _

/-- Printed groups are read back, up to the end of them or to the last one that there is room for. -/
theorem readGroups_format {groups : List (BitVec 16)} {n i : Nat} {rest : List Char}
    (hroom : groups.length ≤ n) (hend : groups.length = n ∨ EndsGroups rest)
    (hdot : '.' ∉ groupsText i groups ++ rest) (hrest : EndsNumber 16 rest) :
    readGroups n i (groupsText i groups ++ rest) = (groups, false, rest) := by
  induction groups generalizing n i with
  | nil =>
    have htext : groupsText i [] ++ rest = rest := by
      unfold groupsText
      split <;> rfl
    rw [htext] at hdot ⊢
    cases n with
    | zero => rfl
    | succ n =>
      have hstop := (hend.resolve_left (by simp)) i
      simp only [readGroups, readSeparator_ipv4_eq_none hdot, ite_self, hstop]
  | cons g groups ih =>
    obtain ⟨n, rfl⟩ : ∃ k, n = k + 1 := ⟨n - 1, by simp at hroom; omega⟩
    have hread : readSeparator ':' i (readNumber 16 4 true (2 ^ 16))
        (groupsText i (g :: groups) ++ rest) = some (g.toNat, tailText groups ++ rest) := by
      have hnumber := readNumber_toDigits g.toNat 4 (2 ^ 16) true isRadix_sixteen (by decide)
        g.isLt g.isLt (endsNumber_tailText hrest groups)
      unfold readSeparator groupsText
      split
      · simpa [tailText, readGivenChar] using hnumber
      · simpa [fmtSubslice, tailText] using hnumber
    have hrestDot : '.' ∉ groupsText (i + 1) groups ++ rest := by
      intro h
      refine hdot ?_
      have htext : ∃ front, groupsText i (g :: groups) = front ++ tailText groups := by
        unfold groupsText
        split
        · exact ⟨':' :: Nat.toDigits 16 g.toNat, by simp [tailText]⟩
        · exact ⟨Nat.toDigits 16 g.toNat, rfl⟩
      obtain ⟨front, htext⟩ := htext
      rw [htext, List.append_assoc]
      exact List.mem_append_right front h
    have hih := ih (n := n) (i := i + 1) (by simpa using hroom) (by simpa using hend) hrestDot
    simp only [groupsText, if_pos (Nat.succ_pos i)] at hih
    simp only [readGroups, readSeparator_ipv4_eq_none hdot, ite_self, hread, hih,
      BitVec.ofNat_toNat, BitVec.setWidth_eq]

/-! ### The zeros -/

/-- The segments of the span are there, and all zero. -/
def IsZeroSpan (segments : List (BitVec 16)) (span : Span) : Prop :=
  ∀ j < span.len, segments[span.start + j]? = some 0

theorem longestZeros_isZeroSpan {all rest : List (BitVec 16)} {i : Nat} {longest current : Span}
    (hrest : all.drop i = rest) (hlongest : IsZeroSpan all longest)
    (hcurrent : IsZeroSpan all current) (hend : 0 < current.len → current.start + current.len = i) :
    IsZeroSpan all (longestZeros rest i longest current) := by
  induction rest generalizing i longest current with
  | nil => exact hlongest
  | cons segment rest ih =>
    have hget : all[i]? = some segment := by
      rw [← List.head?_drop, hrest]
      rfl
    have hdrop : all.drop (i + 1) = rest := by
      rw [← List.tail_drop, hrest]
      rfl
    unfold longestZeros
    split
    · rename_i hzero
      have hspan : IsZeroSpan all
            { start := if current.len = 0 then i else current.start, len := current.len + 1 } ∧
          (if current.len = 0 then i else current.start) + (current.len + 1) = i + 1 := by
        by_cases hlen : current.len = 0
        · refine ⟨fun j hj => ?_, by simp [hlen]⟩
          obtain rfl : j = 0 := by simp only [hlen] at hj; omega
          simpa [hlen, hzero] using hget
        · have hstart := hend (by omega)
          refine ⟨fun j hj => ?_, by rw [if_neg hlen]; omega⟩
          simp only [if_neg hlen] at hj ⊢
          rcases Nat.lt_or_ge j current.len with hlt | hge
          · exact hcurrent j hlt
          · rw [show current.start + j = i by omega, hget, hzero]
      refine ih hdrop ?_ hspan.1 fun _ => hspan.2
      by_cases hlonger : current.len + 1 > longest.len
      · rw [if_pos hlonger]
        exact hspan.1
      · rw [if_neg hlonger]
        exact hlongest
    · exact ih hdrop hlongest (fun j hj => absurd hj (Nat.not_lt_zero j)) fun hlen => by cases hlen

/-- A zero span can be written as zeros. -/
theorem replace_zeros {segments : List (BitVec 16)} {span : Span} (hspan : IsZeroSpan segments span) :
    segments.take span.start ++ List.replicate span.len 0 ++ segments.drop (span.start + span.len) =
      segments := by
  have hzeros : (segments.drop span.start).take span.len = List.replicate span.len 0 := by
    refine List.ext_getElem? fun j => ?_
    rw [List.getElem?_take, List.getElem?_drop, List.getElem?_replicate]
    split
    · exact hspan j ‹_›
    · rfl
  rw [← hzeros, ← List.drop_drop, List.append_assoc, List.take_append_drop, List.take_append_drop]

theorem length_segments (addr : BitVec 128) : (segments addr).length = 8 := by simp [segments]

/-- One more segment behind those in front of it. -/
theorem shift_or_segment (addr : BitVec 128) (s : Nat) :
    ((addr >>> (s + 16)) <<< 16) ||| (addr.extractLsb' s 16).setWidth 128 = addr >>> s := by
  refine BitVec.eq_of_getLsbD_eq fun i hi => ?_
  simp only [BitVec.getLsbD_or, BitVec.getLsbD_shiftLeft, BitVec.getLsbD_ushiftRight,
    BitVec.getLsbD_setWidth, BitVec.getLsbD_extractLsb']
  grind

theorem joinGroups_segments (addr : BitVec 128) : joinGroups (segments addr) = addr := by
  have hjoin : ∀ k ≤ 8, joinGroups ((List.range k).map fun i => addr.extractLsb' (16 * (7 - i)) 16) =
      addr >>> (16 * (8 - k)) := by
    intro k
    induction k with
    | zero =>
      intro _
      refine BitVec.eq_of_getLsbD_eq fun i hi => ?_
      simp [joinGroups]
    | succ k ih =>
      intro hk
      have hfold := ih (by omega)
      unfold joinGroups at hfold ⊢
      rw [List.range_succ, List.map_append, List.foldl_append, hfold,
        show 16 * (8 - k) = 16 * (7 - k) + 16 by omega,
        show 16 * (8 - (k + 1)) = 16 * (7 - k) by omega]
      exact shift_or_segment addr _
  simpa [segments] using hjoin 8 (Nat.le_refl 8)

/-! ### Addresses -/

theorem dot_not_mem_toDigits (segment : BitVec 16) : '.' ∉ Nat.toDigits 16 segment.toNat := by
  intro h
  have hdigit := isDigit_of_mem_toDigits isRadix_sixteen h
  exact absurd hdigit (by decide)

theorem dot_not_mem_tailText (groups : List (BitVec 16)) : '.' ∉ tailText groups := by
  simp [tailText, dot_not_mem_toDigits]

theorem dot_not_mem_fmtSubslice (groups : List (BitVec 16)) : '.' ∉ fmtSubslice groups := by
  cases groups with
  | nil => simp [fmtSubslice]
  | cons g groups =>
    rw [fmtSubslice, List.mem_append, not_or]
    exact ⟨dot_not_mem_toDigits g, dot_not_mem_tailText groups⟩

/-- The groups at the front of a text are read. -/
theorem readGroups_front (groups : List (BitVec 16)) (n : Nat) (rest : List Char)
    (hroom : groups.length ≤ n) (hend : groups.length = n ∨ EndsGroups rest) (hdot : '.' ∉ rest)
    (hrest : EndsNumber 16 rest) :
    readGroups n 0 (fmtSubslice groups ++ rest) = (groups, false, rest) := by
  refine readGroups_format (i := 0) hroom hend ?_ hrest
  rw [groupsText, if_neg (Nat.lt_irrefl 0), List.mem_append, not_or]
  exact ⟨dot_not_mem_fmtSubslice groups, hdot⟩

/-- A segment is one of the high part of the address or of the low part. -/
theorem extract_high (addr : BitVec 128) {s : Nat} (hs : s + 16 ≤ 96) :
    addr.extractLsb' (32 + s) 16 = (addr.extractLsb' 32 96).extractLsb' s 16 := by
  refine BitVec.eq_of_getLsbD_eq fun i hi => ?_
  have hin : s + i < 96 := Nat.lt_of_lt_of_le (Nat.add_lt_add_left hi s) hs
  simp only [BitVec.getLsbD_extractLsb']
  grind

theorem extract_low (addr : BitVec 128) {s : Nat} (hs : s + 16 ≤ 32) :
    addr.extractLsb' s 16 = (addr.extractLsb' 0 32).extractLsb' s 16 := by
  refine BitVec.eq_of_getLsbD_eq fun i hi => ?_
  have hin : s + i < 32 := Nat.lt_of_lt_of_le (Nat.add_lt_add_left hi s) hs
  simp only [BitVec.getLsbD_extractLsb']
  grind

/-- The segments of an address that maps an IPv4 address. -/
theorem segments_mapped {addr : BitVec 128} (hmapped : addr.extractLsb' 32 96 = 0xffff) :
    segments addr = List.replicate 5 0 ++
      [0xffff, (addr.extractLsb' 0 32).extractLsb' 16 16, (addr.extractLsb' 0 32).extractLsb' 0 16] := by
  have hhigh : ∀ s, s + 16 ≤ 96 →
      addr.extractLsb' (32 + s) 16 = (0xffff : BitVec 96).extractLsb' s 16 := by
    intro s hs
    rw [extract_high addr hs, hmapped]
  change [addr.extractLsb' (32 + 80) 16, addr.extractLsb' (32 + 64) 16, addr.extractLsb' (32 + 48) 16,
    addr.extractLsb' (32 + 32) 16, addr.extractLsb' (32 + 16) 16, addr.extractLsb' (32 + 0) 16,
    addr.extractLsb' 16 16, addr.extractLsb' 0 16] = _
  rw [hhigh 80 (by decide), hhigh 64 (by decide), hhigh 48 (by decide), hhigh 32 (by decide),
    hhigh 16 (by decide), hhigh 0 (by decide), extract_low addr (show 16 + 16 ≤ 32 by decide),
    extract_low addr (show 0 + 16 ≤ 32 by decide)]
  rfl

/-- What is read around a double colon. -/
theorem readIpv6Addr_double {cs rest rest' : List Char} {head tail : List (BitVec 16)} {ipv4 : Bool}
    (hhead : readGroups 8 0 cs = (head, false, ':' :: ':' :: rest)) (hlen : head.length ≠ 8)
    (htail : readGroups (8 - (head.length + 1)) 0 rest = (tail, ipv4, rest')) :
    readIpv6Addr cs =
      some (joinGroups (head ++ .replicate (8 - head.length - tail.length) 0 ++ tail), rest') := by
  unfold readIpv6Addr
  rw [hhead]
  dsimp only
  rw [if_neg hlen]
  simp only [Bool.false_eq_true, if_false, readGivenChar, if_true, Option.bind_eq_bind,
    Option.bind_some, htail]

/-- Behind the double colon of a mapped address one group is read, and then the IPv4 address. -/
theorem readGroups_mapped (ipv4 : BitVec 32) :
    readGroups 7 0 ("ffff:".toList ++ formatIpv4 ipv4) =
      ([0xffff, ipv4.extractLsb' 16 16, ipv4.extractLsb' 0 16], true, []) := by
  have hipv4 := readIpv4Addr_format ipv4 (endsNumber_nil 10)
  rw [List.append_nil] at hipv4
  have hgroup : readSeparator ':' 0 (readNumber 16 4 true (2 ^ 16))
      ("ffff:".toList ++ formatIpv4 ipv4) = some (0xffff, ':' :: formatIpv4 ipv4) := by
    have hread := readNumber_toDigits 0xffff 4 (2 ^ 16) true isRadix_sixteen (by decide)
      (by decide) (by decide) (endsNumber_colon (.inr rfl) (formatIpv4 ipv4))
    rwa [show Nat.toDigits 16 0xffff = ['f', 'f', 'f', 'f'] by decide] at hread
  have hfirst : readSeparator ':' 0 readIpv4Addr ("ffff:".toList ++ formatIpv4 ipv4) = none := by
    have hf : digitVal 10 'f' = none := by decide
    simp [readIpv4Addr, readSeparator, readNumber, hf, digitsVal]
  have hsecond : readSeparator ':' 1 readIpv4Addr (':' :: formatIpv4 ipv4) = some (ipv4, []) := by
    simp [readSeparator, readGivenChar, hipv4]
  rw [readGroups, if_pos (by decide), hfirst]
  dsimp only
  rw [hgroup]
  dsimp only
  rw [readGroups, if_pos (by decide), hsecond]
  rfl

theorem readIpv4Addr_colon (rest : List Char) : readIpv4Addr (':' :: rest) = none := by
  have hcolon : digitVal 10 ':' = none := by decide
  simp [readIpv4Addr, readSeparator, readNumber, hcolon, digitsVal]

/-- A printed IPv6 address is read back. -/
theorem readIpv6Addr_format (addr : BitVec 128) : readIpv6Addr (formatIpv6 addr) = some (addr, []) := by
  unfold formatIpv6
  split
  · rename_i ipv4 hmapped
    unfold toIpv4Mapped at hmapped
    split at hmapped
    · rename_i hhigh
      cases hmapped
      have hfront : readGroups 8 0 ("::ffff:".toList ++ formatIpv4 (addr.extractLsb' 0 32)) =
          ([], false, ':' :: ':' :: ("ffff:".toList ++ formatIpv4 (addr.extractLsb' 0 32))) := by
        have hipv4 : ∀ rest, readSeparator ':' 0 readIpv4Addr (':' :: rest) = none :=
          readIpv4Addr_colon
        have hnumber : ∀ rest,
            readSeparator ':' 0 (readNumber 16 4 true (2 ^ 16)) (':' :: rest) = none :=
          readNumber_colon
        change readGroups 8 0 (':' :: ':' :: ("ffff:".toList ++ formatIpv4 _)) = _
        rw [readGroups, if_pos (by decide), hipv4]
        dsimp only
        rw [hnumber]
      rw [readIpv6Addr_double hfront (by decide) (readGroups_mapped _)]
      have hjoin := joinGroups_segments addr
      rw [segments_mapped hhigh] at hjoin
      exact congrArg (fun a => some (a, [])) hjoin
    · cases hmapped
  · obtain ⟨zeroes, hzeroes⟩ : ∃ z, longestZeros (segments addr) 0 {} {} = z := ⟨_, rfl⟩
    have hspan : IsZeroSpan (segments addr) zeroes := by
      rw [← hzeroes]
      refine longestZeros_isZeroSpan rfl ?_ ?_ fun hlen => by cases hlen
      all_goals exact fun j hj => absurd hj (Nat.not_lt_zero j)
    have hsegments := replace_zeros hspan
    have hlength := length_segments addr
    dsimp only
    rw [hzeroes]
    split
    · rename_i hlong
      generalize (segments addr).take zeroes.start = head at hsegments
      generalize (segments addr).drop (zeroes.start + zeroes.len) = tail at hsegments
      have hlengths : head.length + zeroes.len + tail.length = 8 := by
        rw [← hlength, ← hsegments]
        simp [Nat.add_assoc]
      have hfront := readGroups_front head 8 (':' :: ':' :: fmtSubslice tail) (by omega)
        (.inr (endsGroups_double _)) (by simp [dot_not_mem_fmtSubslice])
        (endsNumber_colon (.inr rfl) _)
      have hback := readGroups_front tail (8 - (head.length + 1)) [] (by omega)
        (.inr endsGroups_nil) (by simp) (endsNumber_nil 16)
      rw [List.append_nil] at hback
      have htext : fmtSubslice head ++ "::".toList ++ fmtSubslice tail =
          fmtSubslice head ++ ':' :: ':' :: fmtSubslice tail := by simp
      rw [htext, readIpv6Addr_double hfront (by omega) hback,
        show 8 - head.length - tail.length = zeroes.len by omega, hsegments, joinGroups_segments]
    · have hread := readGroups_front (segments addr) 8 [] (by omega) (.inl hlength) (by simp)
        (endsNumber_nil 16)
      rw [List.append_nil] at hread
      simp only [readIpv6Addr, hread, if_pos hlength, joinGroups_segments]

/-- The text of an IPv6 address is none of an IPv4 address. -/
theorem readIpv4Addr_formatIpv6 (addr : BitVec 128) : readIpv4Addr (formatIpv6 addr) = none := by
  unfold formatIpv6
  split
  · exact readIpv4Addr_colon _
  · refine readIpv4Addr_eq_none ?_
    dsimp only
    split
    · simp [dot_not_mem_fmtSubslice]
    · exact dot_not_mem_fmtSubslice _

/-- A printed address is parsed to itself. -/
theorem parseIpAddr_format (addr : IpAddr) : parseIpAddr (formatIpAddr addr) = some addr := by
  cases addr with
  | v4 addr =>
    have hread := readIpv4Addr_format addr (endsNumber_nil 10)
    rw [List.append_nil] at hread
    simp [parseIpAddr, formatIpAddr, hread]
  | v6 addr =>
    simp [parseIpAddr, formatIpAddr, readIpv4Addr_formatIpv6, readIpv6Addr_format]

/-! ### Characters -/

/-- The text of an address is written with digits, dots and colons. -/
def IsAddressChar (c : Char) : Prop := (digitVal 16 c).isSome ∨ c = '.' ∨ c = ':'

theorem isAddressChar_decimal {n : Nat} {c : Char} (hc : c ∈ Nat.toDigits 10 n) :
    IsAddressChar c := by
  have hdigit := isDigit_of_mem_toDigits isRadix_ten hc
  unfold digitVal at hdigit
  obtain ⟨d, hd⟩ := Option.isSome_iff_exists.1 hdigit
  obtain ⟨hvalue, hlt⟩ := Option.filter_eq_some_iff.1 hd
  have hd' : d < 10 := by simpa using hlt
  refine .inl ?_
  unfold digitVal
  rw [hvalue]
  simp [Option.filter, show d < 16 by omega]

theorem isAddressChar_formatIpv4 {ipv4 : BitVec 32} {c : Char} (hc : c ∈ formatIpv4 ipv4) :
    IsAddressChar c := by
  simp only [formatIpv4, octets, List.map_cons, List.map_nil, List.intersperse_cons_cons,
    List.intersperse_singleton, List.flatten_cons, List.flatten_nil, List.append_nil,
    List.mem_append, List.mem_singleton] at hc
  rcases hc with h | h | h | h | h | h | h
  all_goals first
    | exact isAddressChar_decimal h
    | exact .inr (.inl h)

theorem isAddressChar_fmtSubslice {groups : List (BitVec 16)} {c : Char}
    (hc : c ∈ fmtSubslice groups) : IsAddressChar c := by
  cases groups with
  | nil => cases hc
  | cons g groups =>
    rcases List.mem_append.1 hc with hg | hg
    · exact .inl (isDigit_of_mem_toDigits isRadix_sixteen hg)
    · obtain ⟨g, -, hg⟩ := List.mem_flatMap.1 hg
      rcases List.mem_cons.1 hg with rfl | hg
      · exact .inr (.inr rfl)
      · exact .inl (isDigit_of_mem_toDigits isRadix_sixteen hg)

theorem isAddressChar_formatIpv6 {addr : BitVec 128} {c : Char} (hc : c ∈ formatIpv6 addr) :
    IsAddressChar c := by
  unfold formatIpv6 at hc
  split at hc
  · rcases List.mem_append.1 hc with hfront | hback
    · have hchars : c ∈ [':', ':', 'f', 'f', 'f', 'f', ':'] := hfront
      simp only [List.mem_cons, List.not_mem_nil, or_false] at hchars
      rcases hchars with rfl | rfl | rfl | rfl | rfl | rfl | rfl
      all_goals first
        | exact .inr (.inr rfl)
        | exact .inl (by decide)
    · exact isAddressChar_formatIpv4 hback
  · dsimp only at hc
    split at hc
    · rcases List.mem_append.1 hc with hc | hc
      · rcases List.mem_append.1 hc with hc | hc
        · exact isAddressChar_fmtSubslice hc
        · exact .inr (.inr (by simpa using hc))
      · exact isAddressChar_fmtSubslice hc
    · exact isAddressChar_fmtSubslice hc

theorem isAddressChar_format {addr : IpAddr} {c : Char} (hc : c ∈ formatIpAddr addr) :
    IsAddressChar c := by
  cases addr with
  | v4 addr => exact isAddressChar_formatIpv4 hc
  | v6 addr => exact isAddressChar_formatIpv6 hc

end IpText
