import Mathlib

/-!
# Bytes, bits and numbers

A byte list is read most significant first, as bits or as a number. Two lists of the same length agree
on their leading bits exactly when their numbers agree without the bits behind them.
-/

namespace Bytes

/-! ## Bits -/

/-- The number with these binary digits, the most significant first. -/
def ofBits (bits : List Bool) : Nat := bits.foldl (fun n b => 2 * n + b.toNat) 0

theorem foldl_bits (bits : List Bool) (n : Nat) :
    bits.foldl (fun n b => 2 * n + b.toNat) n = n * 2 ^ bits.length + ofBits bits := by
  induction bits generalizing n with
  | nil => simp [ofBits]
  | cons b bits ih =>
    rw [ofBits, List.foldl_cons, List.foldl_cons, ih, ih (2 * 0 + b.toNat), List.length_cons, pow_succ]
    ring

theorem ofBits_append (xs ys : List Bool) :
    ofBits (xs ++ ys) = ofBits xs * 2 ^ ys.length + ofBits ys := by
  rw [ofBits, List.foldl_append, foldl_bits]
  rfl

theorem ofBits_cons (b : Bool) (bits : List Bool) :
    ofBits (b :: bits) = b.toNat * 2 ^ bits.length + ofBits bits := by
  have happend := ofBits_append [b] bits
  rw [List.singleton_append] at happend
  rw [happend]
  simp [ofBits]

theorem ofBits_lt (bits : List Bool) : ofBits bits < 2 ^ bits.length := by
  induction bits with
  | nil => simp [ofBits]
  | cons b bits ih =>
    rw [ofBits_cons, List.length_cons, pow_succ]
    have hb : b.toNat ≤ 1 := Bool.toNat_le b
    have hmul : b.toNat * 2 ^ bits.length ≤ 1 * 2 ^ bits.length := Nat.mul_le_mul_right _ hb
    omega

/-- Digits of the same length are determined by their number. -/
theorem ofBits_inj {xs ys : List Bool} (hlen : xs.length = ys.length) :
    ofBits xs = ofBits ys ↔ xs = ys := by
  refine ⟨fun h => ?_, fun h => h ▸ rfl⟩
  induction xs generalizing ys with
  | nil => exact (List.length_eq_zero_iff.1 hlen.symm).symm
  | cons x xs ih =>
    cases ys with
    | nil => cases hlen
    | cons y ys =>
      have hlen' : xs.length = ys.length := Nat.succ.inj hlen
      rw [ofBits_cons, ofBits_cons, hlen'] at h
      have hxs := ofBits_lt xs
      have hys := ofBits_lt ys
      rw [hlen'] at hxs
      cases x <;> cases y <;> simp only [Bool.toNat_true, Bool.toNat_false, zero_mul, one_mul,
        zero_add] at h
      · rw [ih hlen' h]
      · omega
      · omega
      · rw [ih hlen' (by omega)]

/-- The leading digits are the number without those behind them. -/
theorem ofBits_take (bits : List Bool) (n : Nat) :
    ofBits (bits.take n) = ofBits bits / 2 ^ (bits.length - n) := by
  have hsplit := ofBits_append (bits.take n) (bits.drop n)
  rw [List.take_append_drop, List.length_drop] at hsplit
  have hlt := ofBits_lt (bits.drop n)
  rw [List.length_drop] at hlt
  rw [hsplit, Nat.mul_comm, Nat.mul_add_div (Nat.two_pow_pos _), Nat.div_eq_of_lt hlt, Nat.add_zero]

/-! ## Bytes -/

/-- The bits of a byte, the most significant first. -/
def bits (b : UInt8) : List Bool := (List.range 8).map fun i => b.toNat.testBit (7 - i)

@[simp] theorem length_bits (b : UInt8) : (bits b).length = 8 := by simp [bits]

theorem ofBits_bits (b : UInt8) : ofBits (bits b) = b.toNat := by
  have hall : ∀ n < 256, ofBits ((List.range 8).map fun i => n.testBit (7 - i)) = n := by
    decide +kernel
  exact hall b.toNat b.toNat_lt

/-- The bits of a list of bytes, in the order in which they are in memory. -/
def bitsOf (bytes : List UInt8) : List Bool := bytes.flatMap bits

@[simp] theorem length_bitsOf (bytes : List UInt8) : (bitsOf bytes).length = 8 * bytes.length := by
  induction bytes with
  | nil => rfl
  | cons b bytes ih =>
    rw [bitsOf, List.flatMap_cons, List.length_append, length_bits, ← bitsOf, ih, List.length_cons]
    omega

/-- The bytes as one number, the first byte most significant. -/
def beValue (bytes : List UInt8) : Nat := bytes.foldl (fun n b => 256 * n + b.toNat) 0

theorem foldl_bytes (bytes : List UInt8) (n : Nat) :
    bytes.foldl (fun n b => 256 * n + b.toNat) n = n * 256 ^ bytes.length + beValue bytes := by
  induction bytes generalizing n with
  | nil => simp [beValue]
  | cons b bytes ih =>
    rw [beValue, List.foldl_cons, List.foldl_cons, ih, ih (256 * 0 + b.toNat), List.length_cons,
      pow_succ]
    ring

theorem beValue_cons (b : UInt8) (bytes : List UInt8) :
    beValue (b :: bytes) = b.toNat * 256 ^ bytes.length + beValue bytes := by
  rw [beValue, List.foldl_cons, foldl_bytes]
  simp

theorem beValue_lt (bytes : List UInt8) : beValue bytes < 256 ^ bytes.length := by
  induction bytes with
  | nil => simp [beValue]
  | cons b bytes ih =>
    rw [beValue_cons, List.length_cons, pow_succ]
    have hb : b.toNat ≤ 255 := Nat.le_of_lt_succ b.toNat_lt
    have hmul : b.toNat * 256 ^ bytes.length ≤ 255 * 256 ^ bytes.length :=
      Nat.mul_le_mul_right _ hb
    omega

/-- Bytes of the same length are determined by their number. -/
theorem beValue_inj {xs ys : List UInt8} (hlen : xs.length = ys.length) :
    beValue xs = beValue ys ↔ xs = ys := by
  refine ⟨fun h => ?_, fun h => h ▸ rfl⟩
  induction xs generalizing ys with
  | nil => exact (List.length_eq_zero_iff.1 hlen.symm).symm
  | cons x xs ih =>
    cases ys with
    | nil => cases hlen
    | cons y ys =>
      have hlen' : xs.length = ys.length := Nat.succ.inj hlen
      rw [beValue_cons, beValue_cons, hlen'] at h
      have hxs := beValue_lt xs
      have hys := beValue_lt ys
      rw [hlen'] at hxs
      have hdiv := congrArg (· / 256 ^ ys.length) h
      have hmod := congrArg (· % 256 ^ ys.length) h
      have hpos : 0 < 256 ^ ys.length := Nat.pow_pos (by decide)
      simp only [Nat.mul_comm _ (256 ^ ys.length), Nat.mul_add_div hpos, Nat.mul_add_mod,
        Nat.div_eq_of_lt hxs, Nat.div_eq_of_lt hys, Nat.mod_eq_of_lt hxs, Nat.mod_eq_of_lt hys,
        Nat.add_zero] at hdiv hmod
      rw [UInt8.toNat_inj.1 hdiv, ih hlen' hmod]

theorem ofBits_bitsOf (bytes : List UInt8) : ofBits (bitsOf bytes) = beValue bytes := by
  induction bytes with
  | nil => rfl
  | cons b bytes ih =>
    have hbase : (2 : Nat) ^ (8 * bytes.length) = 256 ^ bytes.length := pow_mul 2 8 _
    rw [bitsOf, List.flatMap_cons, ofBits_append, ofBits_bits, ← bitsOf, ih, beValue_cons,
      length_bitsOf, hbase]

/-- The two lists agree on their first `n` bits. -/
def AgreeUpTo (n : Nat) (xs ys : List UInt8) : Prop := (bitsOf xs).take n = (bitsOf ys).take n

instance (n : Nat) (xs ys : List UInt8) : Decidable (AgreeUpTo n xs ys) :=
  inferInstanceAs (Decidable (_ = _))

/-- Leading bits of memory are leading bits of numbers. -/
theorem agreeUpTo_iff {xs ys : List UInt8} (hlen : xs.length = ys.length) (n : Nat) :
    AgreeUpTo n xs ys ↔
      beValue xs / 2 ^ (8 * xs.length - n) = beValue ys / 2 ^ (8 * xs.length - n) := by
  have htake : ((bitsOf xs).take n).length = ((bitsOf ys).take n).length := by
    rw [List.length_take, List.length_take, length_bitsOf, length_bitsOf, hlen]
  rw [AgreeUpTo, ← ofBits_inj htake, ofBits_take, ofBits_take, length_bitsOf, length_bitsOf,
    ofBits_bitsOf, ofBits_bitsOf, hlen]

/-! ## Numbers in memory -/

/-- The last `n` bytes of a number, the most significant first. -/
def beBytes (n x : Nat) : Vector UInt8 n := Vector.ofFn fun i => UInt8.ofNat (x / 256 ^ (n - 1 - i))

@[simp] theorem toList_beBytes_zero (x : Nat) : (beBytes 0 x).toList = [] := by
  rw [beBytes, Vector.toList_ofFn, List.ofFn_zero]

theorem toList_beBytes_succ (n x : Nat) :
    (beBytes (n + 1) x).toList = UInt8.ofNat (x / 256 ^ n) :: (beBytes n x).toList := by
  rw [beBytes, beBytes, Vector.toList_ofFn, Vector.toList_ofFn, List.ofFn_succ]
  congr 1
  refine List.ofFn_inj.2 (funext fun i => ?_)
  have hexp : n + 1 - 1 - i.succ.val = n - 1 - i.val := by
    rw [Fin.val_succ]
    omega
  rw [hexp]

theorem beValue_beBytes (n x : Nat) : beValue (beBytes n x).toList = x % 256 ^ n := by
  induction n with
  | zero =>
    rw [toList_beBytes_zero, pow_zero, Nat.mod_one]
    rfl
  | succ n ih =>
    have hbyte : (UInt8.ofNat (x / 256 ^ n)).toNat = x / 256 ^ n % 256 := by
      simp
    rw [toList_beBytes_succ, beValue_cons, ih, Vector.length_toList, hbyte, Nat.pow_succ,
      Nat.mod_mul]
    ring

theorem getElem_beBytes {n i : Nat} (x : Nat) (h : i < n) :
    (beBytes n x)[i] = UInt8.ofNat (x / 256 ^ (n - 1 - i)) := by
  simp [beBytes]

end Bytes
