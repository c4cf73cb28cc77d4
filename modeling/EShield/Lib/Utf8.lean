import Mathlib

/-!
# Decoding with replacement

A text is read from bytes that need not be UTF-8: what is not a character is replaced. The bytes of a
text decode to it, and a line feed among the bytes ends whatever stands before it, so that what comes
behind it decodes as it does alone.
-/

namespace Utf8

/-- The bytes of a text. -/
def encode (cs : List Char) : List UInt8 := cs.flatMap String.utf8EncodeChar

/-- A byte from `lo` to `hi`, behind which `more` is counted. -/
def behindByte (lo hi : UInt8) (more : List UInt8 → Nat) : List UInt8 → Nat
  | [] => 0
  | b :: bs => if lo ≤ b ∧ b ≤ hi then more bs + 1 else 0

/-- How many bytes behind `b`, with which no character begins, are replaced together with it. -/
def behind (b : UInt8) : List UInt8 → Nat :=
  let one := behindByte 0x80 0xBF fun _ => 0
  let none := fun _ => 0
  if b < 0xE0 then none
  else if b = 0xE0 then behindByte 0xA0 0xBF none
  else if b = 0xED then behindByte 0x80 0x9F none
  else if b ≤ 0xEF then behindByte 0x80 0xBF none
  else if b = 0xF0 then behindByte 0x90 0xBF one
  else if b ≤ 0xF3 then behindByte 0x80 0xBF one
  else if b = 0xF4 then behindByte 0x80 0x8F one
  else none

/-- The character with which the bytes begin. -/
def decodeChar? (bs : List UInt8) : Option Char := bs.toByteArray.utf8DecodeChar? 0

/-- The text of the bytes, of which the first `skip` belong to a character before. -/
def decodeFrom : (skip : Nat) → List UInt8 → List Char
  | _, [] => []
  | skip + 1, _ :: bs => decodeFrom skip bs
  | 0, b :: bs =>
    match decodeChar? (b :: bs) with
    | some c => c :: decodeFrom (c.utf8Size - 1) bs
    | none => '\uFFFD' :: decodeFrom (behind b bs) bs

/-- `String::from_utf8_lossy`. -/
def decodeLossy (bs : List UInt8) : List Char := decodeFrom 0 bs

variable {b : UInt8} {bs rest : List UInt8} {c : Char} {cs : List Char}

@[simp] theorem encode_cons (c : Char) (cs : List Char) :
    encode (c :: cs) = String.utf8EncodeChar c ++ encode cs := by
  simp [encode]

@[simp] theorem encode_append (cs ds : List Char) : encode (cs ++ ds) = encode cs ++ encode ds := by
  simp [encode]

/-! ## The bytes of a character -/

theorem decodeChar?_encode (c : Char) (bs : List UInt8) :
    decodeChar? (String.utf8EncodeChar c ++ bs) = some c := by
  rw [decodeChar?, List.toByteArray_append]
  exact ByteArray.utf8DecodeChar?_utf8EncodeChar_append

/-- The bytes begin with those of their first character. -/
theorem exists_of_decodeChar? (h : decodeChar? bs = some c) :
    ∃ rest, bs = String.utf8EncodeChar c ++ rest := by
  obtain ⟨rest, hrest⟩ := ByteArray.exists_of_utf8DecodeChar?_eq_some h
  have hlist := congrArg (fun a => a.data.toList) hrest
  rw [ByteArray.toList_data_append, List.toList_data_toByteArray,
    List.toList_data_toByteArray] at hlist
  exact ⟨rest.data.toList, hlist⟩

/-- A character is one byte of its own value, or it has none below 128. -/
theorem utf8EncodeChar_cases (c : Char) :
    (∃ b : UInt8, String.utf8EncodeChar c = [b] ∧ b.toNat = c.toNat) ∨
      ∀ b ∈ String.utf8EncodeChar c, 0x80 ≤ b := by
  unfold String.utf8EncodeChar
  dsimp only
  split_ifs with hone htwo hthree
  · left
    refine ⟨_, rfl, ?_⟩
    change c.val.toNat % 256 = c.val.toNat
    omega
  all_goals
    right
    simp only [List.forall_mem_cons, List.not_mem_nil, UInt8.le_iff_toNat_le, UInt8.toNat_ofNat']
    simp
    omega

/-- Behind the first byte of a character there are none below 128. -/
theorem le_of_mem_tail {bs : List UInt8} (h : String.utf8EncodeChar c = b :: bs) :
    ∀ b' ∈ bs, 0x80 ≤ b' := by
  intro b' hmem
  rcases utf8EncodeChar_cases c with ⟨b'', hone, -⟩ | hall
  · rw [hone] at h
    cases h
    cases hmem
  · exact hall b' (by rw [h]; exact List.mem_cons_of_mem _ hmem)

/-- The line feed is the only character with its byte. -/
theorem newline_mem_utf8EncodeChar (c : Char) : 0x0A ∈ String.utf8EncodeChar c ↔ c = '\n' := by
  constructor
  · intro hmem
    rcases utf8EncodeChar_cases c with ⟨b, hone, hval⟩ | hall
    · rw [hone, List.mem_singleton] at hmem
      rw [← hmem] at hval
      exact Char.ext (UInt32.toNat_inj.1 hval.symm)
    · exact absurd (hall _ hmem) (by decide)
  · rintro rfl
    decide

theorem newline_mem_encode (cs : List Char) : 0x0A ∈ encode cs ↔ '\n' ∈ cs := by
  rw [encode, List.mem_flatMap]
  constructor
  · rintro ⟨c, hmem, hbyte⟩
    cases (newline_mem_utf8EncodeChar c).1 hbyte
    exact hmem
  · intro hmem
    exact ⟨_, hmem, (newline_mem_utf8EncodeChar _).2 rfl⟩

/-! ## Decoding -/

theorem decodeFrom_append (xs ys : List UInt8) : decodeFrom xs.length (xs ++ ys) = decodeLossy ys := by
  induction xs with
  | nil => rfl
  | cons x xs ih => exact ih

theorem decodeLossy_utf8EncodeChar (c : Char) (bs : List UInt8) :
    decodeLossy (String.utf8EncodeChar c ++ bs) = c :: decodeLossy bs := by
  have hlen := String.length_utf8EncodeChar c
  have hsize := c.utf8Size_pos
  have hdecode := decodeChar?_encode c bs
  revert hlen hdecode
  cases String.utf8EncodeChar c with
  | nil =>
    intro hlen _
    rw [List.length_nil] at hlen
    omega
  | cons b more =>
    intro hlen hdecode
    rw [List.cons_append] at hdecode ⊢
    have hskip : c.utf8Size - 1 = more.length := by
      rw [← hlen, List.length_cons]
      rfl
    rw [decodeLossy, decodeFrom, hdecode]
    dsimp only
    rw [hskip, decodeFrom_append]

/-- What is encoded is decoded. -/
theorem decodeLossy_encode_append (cs : List Char) (bs : List UInt8) :
    decodeLossy (encode cs ++ bs) = cs ++ decodeLossy bs := by
  induction cs with
  | nil => rfl
  | cons c cs ih =>
    rw [encode_cons, List.append_assoc, decodeLossy_utf8EncodeChar, ih]
    rfl

theorem decodeLossy_encode (cs : List Char) : decodeLossy (encode cs) = cs := by
  have h := decodeLossy_encode_append cs []
  rw [List.append_nil] at h
  rw [h]
  exact List.append_nil cs

/-- The bytes from 128 on at the beginning. -/
def high (bs : List UInt8) : Nat := (bs.takeWhile (0x80 ≤ ·)).length

theorem behindByte_le {lo hi : UInt8} {more : List UInt8 → Nat} (hlo : 0x80 ≤ lo)
    (hmore : ∀ bs, more bs ≤ high bs) (bs : List UInt8) : behindByte lo hi more bs ≤ high bs := by
  cases bs with
  | nil => exact Nat.zero_le _
  | cons b bs =>
    rw [behindByte]
    by_cases hb : lo ≤ b ∧ b ≤ hi
    · have hhigh : 0x80 ≤ b := UInt8.le_trans hlo hb.1
      rw [if_pos hb, high, List.takeWhile_cons, if_pos (decide_eq_true hhigh), List.length_cons]
      exact Nat.succ_le_succ (hmore bs)
    · rw [if_neg hb]
      exact Nat.zero_le _

/-- Only bytes from 128 on are replaced together with another. -/
theorem behind_le (b : UInt8) (bs : List UInt8) : behind b bs ≤ high bs := by
  have hnone : ∀ bs : List UInt8, 0 ≤ high bs := fun _ => Nat.zero_le _
  have hone : ∀ bs, behindByte 0x80 0xBF (fun _ => 0) bs ≤ high bs :=
    behindByte_le (by decide) hnone
  unfold behind
  split_ifs
  · exact hnone bs
  · exact behindByte_le (by decide) hnone bs
  · exact behindByte_le (by decide) hnone bs
  · exact behindByte_le (by decide) hnone bs
  · exact behindByte_le (by decide) hone bs
  · exact behindByte_le (by decide) hone bs
  · exact behindByte_le (by decide) hone bs
  · exact hnone bs

theorem high_append_newline (bs rest : List UInt8) : high (bs ++ 0x0A :: rest) ≤ bs.length := by
  induction bs with
  | nil => exact Nat.le_refl 0
  | cons b bs ih =>
    rw [List.cons_append, high, List.takeWhile_cons]
    split
    · exact Nat.succ_le_succ ih
    · exact Nat.zero_le _

/-- Behind a line feed, with which no character goes on, the decoding begins anew. -/
theorem decodeFrom_newline {skip : Nat} (hskip : skip ≤ bs.length) (rest : List UInt8) :
    ∃ cs, decodeFrom skip (bs ++ 0x0A :: rest) = cs ++ '\n' :: decodeLossy rest := by
  induction bs generalizing skip with
  | nil =>
    obtain rfl : skip = 0 := Nat.le_zero.1 hskip
    exact ⟨[], decodeLossy_utf8EncodeChar '\n' rest⟩
  | cons b bs ih =>
    cases skip with
    | succ skip => exact ih (Nat.le_of_succ_le_succ hskip)
    | zero =>
      have hnewline := high_append_newline bs rest
      rw [List.cons_append, decodeFrom]
      cases hdecode : decodeChar? (b :: (bs ++ 0x0A :: rest)) with
      | none =>
        obtain ⟨cs, hcs⟩ := ih ((behind_le b (bs ++ 0x0A :: rest)).trans hnewline)
        exact ⟨'\uFFFD' :: cs, by rw [List.cons_append, ← hcs]⟩
      | some c =>
        obtain ⟨more, hmore⟩ := exists_of_decodeChar? hdecode
        have hsize : c.utf8Size - 1 ≤ high (bs ++ 0x0A :: rest) := by
          have hlen := String.length_utf8EncodeChar c
          have htail := @le_of_mem_tail b c
          revert hmore hlen htail
          cases String.utf8EncodeChar c with
          | nil =>
            intro _ hlen _
            rw [← hlen]
            exact Nat.zero_le _
          | cons b' bs' =>
            intro hmore hlen htail
            rw [List.cons_append] at hmore
            obtain ⟨hb, hbs⟩ := List.cons.inj hmore
            rw [hbs, ← hlen, high, List.takeWhile_append_of_pos]
            · rw [List.length_append, List.length_cons]
              omega
            · intro x hx
              exact decide_eq_true (htail (by rw [hb]) x hx)
        obtain ⟨cs, hcs⟩ := ih (hsize.trans hnewline)
        exact ⟨c :: cs, by rw [List.cons_append, ← hcs]⟩

theorem decodeLossy_newline (bs rest : List UInt8) :
    ∃ cs, decodeLossy (bs ++ 0x0A :: rest) = cs ++ '\n' :: decodeLossy rest :=
  decodeFrom_newline (Nat.zero_le _) rest

end Utf8
