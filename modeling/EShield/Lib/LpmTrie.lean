import Mathlib

/-!
# Longest-prefix-match tries

A trie over keys of `w` bits is the list of its prefixes. A lookup asks whether some stored prefix
covers the key, and returns the value of the longest one.
-/

/-- A prefix: the `prefixLen` most significant bits of `data`. -/
structure LpmKey (w : Nat) where
  prefixLen : Nat
  data : BitVec w
  deriving DecidableEq, Repr

/-- `p` covers `k`: it is no longer than `k` and the two agree on the bits of `p`. -/
def LpmKey.Covers {w : Nat} (p k : LpmKey w) : Prop :=
  p.prefixLen ≤ k.prefixLen ∧ (p.data ^^^ k.data) >>> (w - p.prefixLen) = 0

instance {w : Nat} (p k : LpmKey w) : Decidable (p.Covers k) :=
  inferInstanceAs (Decidable (_ ∧ _))

/-- The same prefix: equally long and agreeing on its bits. What stands behind them in `data` does
not tell two prefixes apart. -/
def LpmKey.Same {w : Nat} (p q : LpmKey w) : Prop :=
  p.prefixLen = q.prefixLen ∧ p.data >>> (w - p.prefixLen) = q.data >>> (w - q.prefixLen)

instance {w : Nat} (p q : LpmKey w) : Decidable (p.Same q) :=
  inferInstanceAs (Decidable (_ ∧ _))

namespace LpmKey.Same

variable {w : Nat} {p q r : LpmKey w}

theorem refl (p : LpmKey w) : p.Same p := ⟨rfl, rfl⟩

theorem symm (h : p.Same q) : q.Same p := ⟨h.1.symm, h.2.symm⟩

theorem trans (h : p.Same q) (h' : q.Same r) : p.Same r := ⟨h.1.trans h'.1, h.2.trans h'.2⟩

end LpmKey.Same

theorem LpmKey.covers_iff_toNat {w : Nat} (p k : LpmKey w) :
    p.Covers k ↔ p.prefixLen ≤ k.prefixLen ∧
      p.data.toNat / 2 ^ (w - p.prefixLen) = k.data.toNat / 2 ^ (w - p.prefixLen) := by
  have hzero : (0 : BitVec w) = 0#w := rfl
  rw [Covers, hzero, BitVec.ushiftRight_xor_distrib, BitVec.xor_eq_zero_iff, ← BitVec.toNat_inj,
    BitVec.toNat_ushiftRight, BitVec.toNat_ushiftRight, Nat.shiftRight_eq_div_pow,
    Nat.shiftRight_eq_div_pow]

theorem LpmKey.same_iff_toNat {w : Nat} (p q : LpmKey w) :
    p.Same q ↔ p.prefixLen = q.prefixLen ∧
      p.data.toNat / 2 ^ (w - p.prefixLen) = q.data.toNat / 2 ^ (w - p.prefixLen) := by
  rw [Same]
  refine and_congr_right fun hlen => ?_
  rw [← hlen, ← BitVec.toNat_inj, BitVec.toNat_ushiftRight, BitVec.toNat_ushiftRight,
    Nat.shiftRight_eq_div_pow, Nat.shiftRight_eq_div_pow]

/-- The same prefix covers the same keys. -/
theorem LpmKey.Same.covers_iff {w : Nat} {p q : LpmKey w} (h : p.Same q) (k : LpmKey w) :
    p.Covers k ↔ q.Covers k := by
  obtain ⟨hlen, hbits⟩ := (LpmKey.same_iff_toNat p q).1 h
  rw [LpmKey.covers_iff_toNat, LpmKey.covers_iff_toNat, ← hlen, hbits]

/-- Two words agree behind a right shift when their leading bits do. -/
theorem ushiftRight_eq_iff_getMsbD {w n : Nat} (x y : BitVec w) (hn : n ≤ w) :
    x >>> (w - n) = y >>> (w - n) ↔ ∀ i < n, x.getMsbD i = y.getMsbD i := by
  constructor
  · intro h i hi
    have hbit := congrArg (fun z => BitVec.getMsbD z (i + (w - n))) h
    have hin : i + (w - n) < w := by omega
    have hnot : ¬ i + (w - n) < w - n := by omega
    simpa [BitVec.getMsbD_ushiftRight, hin, hnot] using hbit
  · intro h
    refine BitVec.eq_of_getMsbD_eq fun i hi => ?_
    rw [BitVec.getMsbD_ushiftRight, BitVec.getMsbD_ushiftRight]
    by_cases hlt : i < w - n
    · simp [hlt]
    · rw [h (i - (w - n)) (by omega)]

namespace LpmKey

variable {w : Nat} {p q : LpmKey w}

theorem covers_iff_getMsbD (hp : p.prefixLen ≤ w) (a : BitVec w) :
    p.Covers ⟨w, a⟩ ↔ ∀ i < p.prefixLen, p.data.getMsbD i = a.getMsbD i := by
  have hzero : (0 : BitVec w) = 0#w := rfl
  rw [Covers, hzero, BitVec.ushiftRight_xor_distrib, BitVec.xor_eq_zero_iff,
    ushiftRight_eq_iff_getMsbD _ _ hp]
  exact and_iff_right hp

/-- What covers more keys is no longer: behind the shorter prefix the keys take both bits. -/
theorem prefixLen_le_of_covers (hp : p.prefixLen ≤ w) (hq : q.prefixLen ≤ w)
    (h : ∀ a, p.Covers ⟨w, a⟩ → q.Covers ⟨w, a⟩) : q.prefixLen ≤ p.prefixLen := by
  by_contra hlong
  have hbit : ∀ i, (p.data ^^^ BitVec.twoPow w (w - 1 - p.prefixLen)).getMsbD i =
      (p.data.getMsbD i ^^ decide (i = p.prefixLen)) := by
    intro i
    rw [BitVec.getMsbD_xor, BitVec.getMsbD_eq_getLsbD (BitVec.twoPow _ _), BitVec.getLsbD_twoPow]
    congr 1
    rw [← Bool.decide_and, ← Bool.decide_and, decide_eq_decide]
    omega
  have hself := h p.data ((covers_iff_getMsbD hp _).2 fun i _ => rfl)
  have hflip := h (p.data ^^^ BitVec.twoPow w (w - 1 - p.prefixLen))
    ((covers_iff_getMsbD hp _).2 fun i hi => by
      rw [hbit, decide_eq_false (by omega), Bool.xor_false])
  have heq := ((covers_iff_getMsbD hq _).1 hself p.prefixLen (by omega)).symm.trans
    ((covers_iff_getMsbD hq _).1 hflip p.prefixLen (by omega))
  rw [hbit, decide_eq_true rfl] at heq
  simp at heq

/-- Prefixes are told apart by the keys they cover. -/
theorem same_iff_covers (hp : p.prefixLen ≤ w) (hq : q.prefixLen ≤ w) :
    p.Same q ↔ ∀ a, p.Covers ⟨w, a⟩ ↔ q.Covers ⟨w, a⟩ := by
  constructor
  · intro hsame a
    exact hsame.covers_iff _
  · intro h
    have hlen : p.prefixLen = q.prefixLen := le_antisymm
      (prefixLen_le_of_covers hq hp fun a => (h a).2)
      (prefixLen_le_of_covers hp hq fun a => (h a).1)
    have hown := (h p.data).1 ((covers_iff_getMsbD hp _).2 fun i _ => rfl)
    have hbits := (covers_iff_getMsbD hq _).1 hown
    refine ⟨hlen, ?_⟩
    rw [hlen, ushiftRight_eq_iff_getMsbD _ _ hq]
    intro i hi
    exact (hbits i hi).symm

end LpmKey

/-- The stored prefixes with their values. -/
abbrev LpmTrie (w : Nat) (V : Type) := List (LpmKey w × V)

namespace LpmTrie

variable {w : Nat} {V : Type}

/-- The longer of the best prefix so far and `e`. -/
def longer (best : Option (LpmKey w × V)) (e : LpmKey w × V) : Option (LpmKey w × V) :=
  match best with
  | some b => if b.1.prefixLen < e.1.prefixLen then some e else some b
  | none => some e

/-- The value of the longest stored prefix that covers `k`. -/
def get (t : LpmTrie w V) (k : LpmKey w) : Option V :=
  ((t.filter fun e => e.1.Covers k).foldl longer none).map Prod.snd

/-- The prefix `k` is stored. -/
def Holds (t : LpmTrie w V) (k : LpmKey w) : Prop := ∃ e ∈ t, e.1.Same k

instance (t : LpmTrie w V) (k : LpmKey w) : Decidable (t.Holds k) :=
  inferInstanceAs (Decidable (∃ e ∈ t, _))

def remove (t : LpmTrie w V) (k : LpmKey w) : LpmTrie w V := t.filter fun e => ¬ e.1.Same k

/-- Stores `v` at `k`, in place of what was stored there. -/
def insert (t : LpmTrie w V) (k : LpmKey w) (v : V) : LpmTrie w V := (k, v) :: t.remove k

theorem Holds.of_same {t : LpmTrie w V} {k k' : LpmKey w} (h : t.Holds k) (hk : k.Same k') :
    t.Holds k' := by
  obtain ⟨e, he, hek⟩ := h
  exact ⟨e, he, hek.trans hk⟩

theorem not_holds_nil (k : LpmKey w) : ¬ Holds ([] : LpmTrie w V) k := by
  simp [Holds]

theorem holds_remove {t : LpmTrie w V} {k q : LpmKey w} :
    (t.remove k).Holds q ↔ t.Holds q ∧ ¬ k.Same q := by
  constructor
  · rintro ⟨e, he, heq⟩
    obtain ⟨het, hek⟩ := List.mem_filter.1 he
    refine ⟨⟨e, het, heq⟩, fun hkq => ?_⟩
    exact (of_decide_eq_true hek) (heq.trans hkq.symm)
  · rintro ⟨⟨e, he, heq⟩, hkq⟩
    refine ⟨e, List.mem_filter.2 ⟨he, decide_eq_true fun hek => ?_⟩, heq⟩
    exact hkq (hek.symm.trans heq)

theorem holds_insert {t : LpmTrie w V} {k q : LpmKey w} {v : V} :
    (t.insert k v).Holds q ↔ k.Same q ∨ t.Holds q := by
  constructor
  · rintro ⟨e, he, heq⟩
    rcases List.mem_cons.1 he with rfl | he
    · exact .inl heq
    · exact .inr (holds_remove.1 ⟨e, he, heq⟩).1
  · intro h
    by_cases hkq : k.Same q
    · exact ⟨(k, v), List.mem_cons_self, hkq⟩
    · obtain ⟨e, he, heq⟩ := holds_remove.2 ⟨h.resolve_left hkq, hkq⟩
      exact ⟨e, List.mem_cons_of_mem _ he, heq⟩

theorem longer_isSome (best : Option (LpmKey w × V)) (e : LpmKey w × V) :
    (longer best e).isSome := by
  unfold longer
  cases best with
  | none => rfl
  | some b => simp only; split <;> rfl

theorem foldl_longer_isSome (t : LpmTrie w V) (best : Option (LpmKey w × V)) :
    (t.foldl longer best).isSome ↔ best.isSome ∨ t ≠ [] := by
  induction t generalizing best with
  | nil => simp
  | cons e t ih => simp [ih, longer_isSome]

/-- A lookup finds something exactly when a stored prefix covers the key. -/
theorem get_isSome_iff (t : LpmTrie w V) (k : LpmKey w) :
    (t.get k).isSome ↔ ∃ e ∈ t, e.1.Covers k := by
  rw [get, Option.isSome_map, foldl_longer_isSome]
  simp [List.filter_eq_nil_iff]

/-- A lookup finds something exactly when the trie holds a prefix that covers the key. -/
theorem get_isSome_iff_holds (t : LpmTrie w V) (k : LpmKey w) :
    (t.get k).isSome ↔ ∃ p, t.Holds p ∧ p.Covers k := by
  rw [get_isSome_iff]
  constructor
  · rintro ⟨e, he, hcovers⟩
    exact ⟨e.1, ⟨e, he, LpmKey.Same.refl _⟩, hcovers⟩
  · rintro ⟨p, ⟨e, he, hsame⟩, hcovers⟩
    exact ⟨e, he, (hsame.covers_iff k).2 hcovers⟩

end LpmTrie
