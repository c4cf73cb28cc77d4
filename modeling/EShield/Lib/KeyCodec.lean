import EShield.Lib.Bytes

/-!
# Keys that are stored as bytes

An ordered table knows its keys only by what they are encoded to. An encoding that keeps the order makes
such a table the typed one: `Stores` says that the two list the same rows in the same order, and every
operation of tables keeps it.
-/

namespace Bytes

/-! ## Bytes in order -/

theorem compare_append {xs ys : List UInt8} (hlen : xs.length = ys.length) (xs' ys' : List UInt8) :
    compare (xs ++ xs') (ys ++ ys') = (compare xs ys).then (compare xs' ys') := by
  induction xs generalizing ys with
  | nil =>
    cases List.length_eq_zero_iff.1 hlen.symm
    rfl
  | cons x xs ih =>
    cases ys with
    | nil => cases hlen
    | cons y ys =>
      rw [List.cons_append, List.cons_append, List.compare_cons_cons, List.compare_cons_cons,
        ih (Nat.succ.inj hlen), Ordering.then_assoc]

/-- Machine words are ordered as their numbers are. -/
theorem compareOfLessAndEq_toNat {A : Type} [LT A] [DecidableLT A] [DecidableEq A] {toNat : A → Nat}
    {x y : A} (hlt : x < y ↔ toNat x < toNat y) (heq : x = y ↔ toNat x = toNat y) :
    compareOfLessAndEq x y = compare (toNat x) (toNat y) := by
  rcases Nat.lt_trichotomy (toNat x) (toNat y) with h | h | h
  · simp [compareOfLessAndEq, hlt.2 h, Nat.compare_eq_lt.2 h]
  · simp [compareOfLessAndEq, hlt, heq, h]
  · simp [compareOfLessAndEq, hlt, heq, Nat.compare_eq_gt.2 h, Nat.lt_asymm h, h.ne']

/-- Bytes of the same length are ordered as their numbers are. -/
theorem compare_eq_beValue {xs ys : List UInt8} (hlen : xs.length = ys.length) :
    compare xs ys = compare (beValue xs) (beValue ys) := by
  induction xs generalizing ys with
  | nil =>
    cases List.length_eq_zero_iff.1 hlen.symm
    rfl
  | cons x xs ih =>
    cases ys with
    | nil => cases hlen
    | cons y ys =>
      have hlen' : xs.length = ys.length := Nat.succ.inj hlen
      have hxs := beValue_lt xs
      have hys := beValue_lt ys
      rw [hlen'] at hxs
      have hxy : compare x y = compare x.toNat y.toNat :=
        compareOfLessAndEq_toNat UInt8.lt_iff_toNat_lt UInt8.toNat_inj.symm
      rw [List.compare_cons_cons, ih hlen', beValue_cons, beValue_cons, hlen', hxy]
      rcases Nat.lt_trichotomy x.toNat y.toNat with hlt | heq | hgt
      · have hmul := Nat.mul_le_mul_right (256 ^ ys.length) (Nat.succ_le_of_lt hlt)
        rw [Nat.succ_mul] at hmul
        have hsum : x.toNat * 256 ^ ys.length + beValue xs <
            y.toNat * 256 ^ ys.length + beValue ys := by omega
        rw [Nat.compare_eq_lt.2 hlt, Nat.compare_eq_lt.2 hsum]
        rfl
      · rw [heq, Nat.compare_eq_eq.2 rfl, Nat.compare_eq_ite_lt, Nat.compare_eq_ite_lt]
        simp
      · have hmul := Nat.mul_le_mul_right (256 ^ ys.length) (Nat.succ_le_of_lt hgt)
        rw [Nat.succ_mul] at hmul
        have hsum : y.toNat * 256 ^ ys.length + beValue ys <
            x.toNat * 256 ^ ys.length + beValue xs := by omega
        rw [Nat.compare_eq_gt.2 hgt, Nat.compare_eq_gt.2 hsum]
        rfl

theorem compare_beBytes {n x y : Nat} (hx : x < 256 ^ n) (hy : y < 256 ^ n) :
    compare (beBytes n x).toList (beBytes n y).toList = compare x y := by
  rw [compare_eq_beValue (by simp), beValue_beBytes, beValue_beBytes, Nat.mod_eq_of_lt hx,
    Nat.mod_eq_of_lt hy]

end Bytes

/-- An encoding under which the order of the codes is that of the keys. -/
structure KeyCodec (K B : Type) [Ord K] [Ord B] where
  encode : K → B
  compare_encode : ∀ a b, compare (encode a) (encode b) = compare a b

namespace KeyCodec

open Std

variable {K B V W : Type} [Ord K] [Ord B] [TransOrd K] [LawfulEqOrd K] [TransOrd B] [LawfulEqOrd B]
  (codec : KeyCodec K B)

omit [TransOrd K] [TransOrd B] in
theorem encode_inj {a b : K} : codec.encode a = codec.encode b ↔ a = b := by
  refine ⟨fun h => ?_, fun h => h ▸ rfl⟩
  have hcompare := codec.compare_encode a b
  rw [h, compare_self] at hcompare
  exact LawfulEqOrd.eq_of_compare hcompare.symm

/-- The rows of the encoded table are those of the typed one, with the values under `f`. -/
def Stores (f : V → W) (b : ExtTreeMap B W) (t : ExtTreeMap K V) : Prop :=
  b.toList = t.toList.map fun kv => (codec.encode kv.1, f kv.2)

variable {codec} {f : V → W} {b : ExtTreeMap B W} {t : ExtTreeMap K V}

theorem Stores.getElem? (h : codec.Stores f b t) (k : K) : b[codec.encode k]? = t[k]?.map f := by
  ext w
  rw [← ExtTreeMap.mem_toList_iff_getElem?_eq_some, show b.toList = _ from h, List.mem_map,
    Option.map_eq_some_iff]
  constructor
  · rintro ⟨⟨k', v⟩, hmem, heq⟩
    obtain ⟨hk, rfl⟩ := Prod.mk.inj heq
    cases codec.encode_inj.1 hk
    exact ⟨v, ExtTreeMap.mem_toList_iff_getElem?_eq_some.1 hmem, rfl⟩
  · rintro ⟨v, hv, rfl⟩
    exact ⟨(k, v), ExtTreeMap.mem_toList_iff_getElem?_eq_some.2 hv, rfl⟩

omit [LawfulEqOrd K] in
/-- No key of the encoded table is anything but a code. -/
theorem Stores.exists_encode (h : codec.Stores f b t) {x : B} {w : W} (hx : b[x]? = some w) :
    ∃ k, codec.encode k = x := by
  have hmem := ExtTreeMap.mem_toList_iff_getElem?_eq_some.2 hx
  rw [show b.toList = _ from h, List.mem_map] at hmem
  obtain ⟨kv, -, heq⟩ := hmem
  exact ⟨kv.1, congrArg Prod.fst heq⟩

/-- Two tables with the same rows list them in the same order. -/
theorem stores_iff :
    codec.Stores f b t ↔
      (∀ k, b[codec.encode k]? = t[k]?.map f) ∧ ∀ x w, b[x]? = some w → ∃ k, codec.encode k = x := by
  refine ⟨fun h => ⟨h.getElem?, fun x w hx => h.exists_encode hx⟩, fun ⟨hlookup, hcode⟩ => ?_⟩
  have hb : b.toList.Pairwise fun a c => compare a.1 c.1 = .lt := ExtTreeMap.ordered_keys_toList
  have ht : (t.toList.map fun kv => (codec.encode kv.1, f kv.2)).Pairwise
      fun a c => compare a.1 c.1 = .lt := by
    rw [List.pairwise_map]
    exact ExtTreeMap.ordered_keys_toList.imp fun h => (codec.compare_encode _ _).trans h
  have hirrefl : ∀ a : B × W, ¬ compare a.1 a.1 = .lt := fun a h => by
    rw [compare_self] at h
    cases h
  have hnodup : ∀ {l : List (B × W)}, (l.Pairwise fun a c => compare a.1 c.1 = .lt) → l.Nodup :=
    fun hl => hl.imp fun {a c} (h : compare a.1 c.1 = .lt) (heq : a = c) => hirrefl a (heq ▸ h)
  refine List.Perm.eq_of_pairwise (fun a c _ _ hac hca => ?_) hb ht
    ((List.perm_ext_iff_of_nodup (hnodup hb) (hnodup ht)).2 ?_)
  · exact absurd (TransCmp.lt_trans hac hca) (hirrefl a)
  · rintro ⟨x, w⟩
    rw [ExtTreeMap.mem_toList_iff_getElem?_eq_some, List.mem_map]
    constructor
    · intro hx
      obtain ⟨k, rfl⟩ := hcode x w hx
      rw [hlookup k] at hx
      obtain ⟨v, hv, rfl⟩ := Option.map_eq_some_iff.1 hx
      exact ⟨(k, v), ExtTreeMap.mem_toList_iff_getElem?_eq_some.2 hv, rfl⟩
    · rintro ⟨⟨k, v⟩, hmem, heq⟩
      obtain ⟨rfl, rfl⟩ := Prod.mk.inj heq
      rw [hlookup k, ExtTreeMap.mem_toList_iff_getElem?_eq_some.1 hmem]
      rfl

omit [LawfulEqOrd K] [LawfulEqOrd B] in
theorem stores_empty : codec.Stores f ∅ ∅ := rfl

theorem Stores.insert (h : codec.Stores f b t) (k : K) (v : V) :
    codec.Stores f (b.insert (codec.encode k) (f v)) (t.insert k v) := by
  rw [stores_iff]
  constructor
  · intro k'
    rw [ExtTreeMap.getElem?_insert, ExtTreeMap.getElem?_insert, codec.compare_encode, h.getElem? k']
    split_ifs <;> rfl
  · intro x w hx
    rw [ExtTreeMap.getElem?_insert] at hx
    split_ifs at hx with heq
    · exact ⟨k, LawfulEqOrd.eq_of_compare heq⟩
    · exact h.exists_encode hx

theorem Stores.erase (h : codec.Stores f b t) (k : K) :
    codec.Stores f (b.erase (codec.encode k)) (t.erase k) := by
  rw [stores_iff]
  constructor
  · intro k'
    rw [ExtTreeMap.getElem?_erase, ExtTreeMap.getElem?_erase, codec.compare_encode, h.getElem? k']
    split_ifs <;> rfl
  · intro x w hx
    rw [ExtTreeMap.getElem?_erase] at hx
    split_ifs at hx
    exact h.exists_encode hx

omit [LawfulEqOrd K] [LawfulEqOrd B] in
/-- The rows that one side drops are those that the other drops. -/
theorem Stores.filter {p : K → V → Bool} {q : B → W → Bool} (h : codec.Stores f b t)
    (hpq : ∀ k v, q (codec.encode k) (f v) = p k v) : codec.Stores f (b.filter q) (t.filter p) := by
  rw [Stores, ExtTreeMap.toList_filter, ExtTreeMap.toList_filter, show b.toList = _ from h,
    List.filter_map]
  exact congrArg _ (List.filter_congr fun kv _ => hpq kv.1 kv.2)

/-- Erasing the keys of some rows one after the other. -/
theorem getElem?_foldl_erase [DecidableEq K] (ks : List K) (t : ExtTreeMap K V) (k : K) :
    (ks.foldl ExtTreeMap.erase t)[k]? = if k ∈ ks then none else t[k]? := by
  induction ks generalizing t with
  | nil => simp
  | cons a ks ih =>
    rw [List.foldl_cons, ih, ExtTreeMap.getElem?_erase]
    by_cases hk : k ∈ ks
    · simp [hk]
    · by_cases ha : a = k
      · simp [ha, compare_self]
      · have hne : ¬ compare a k = .eq := fun heq => ha (LawfulEqOrd.eq_of_compare heq)
        simp [hk, hne, Ne.symm ha]

theorem foldl_erase_filter (t : ExtTreeMap K V) (p : K → V → Bool) :
    ((t.toList.filter fun kv => p kv.1 kv.2).map Prod.fst).foldl ExtTreeMap.erase t =
      t.filter fun k v => !p k v := by
  classical
  refine ExtTreeMap.ext_getElem? fun k => ?_
  rw [getElem?_foldl_erase, ExtTreeMap.getElem?_filter']
  cases hk : t[k]? with
  | none => simp
  | some v =>
    have hmem : k ∈ (t.toList.filter fun kv => p kv.1 kv.2).map Prod.fst ↔ p k v = true := by
      rw [List.mem_map]
      constructor
      · rintro ⟨⟨k', v'⟩, hrow, rfl⟩
        obtain ⟨hrow, hp⟩ := List.mem_filter.1 hrow
        rw [ExtTreeMap.mem_toList_iff_getElem?_eq_some, hk] at hrow
        rwa [Option.some.inj hrow]
      · intro hp
        exact ⟨(k, v), List.mem_filter.2 ⟨ExtTreeMap.mem_toList_iff_getElem?_eq_some.2 hk, hp⟩, rfl⟩
    by_cases hp : p k v = true
    · rw [if_pos (hmem.2 hp)]
      exact (Option.filter_some_neg (by simp [hp])).symm
    · rw [if_neg (mt hmem.1 hp)]
      exact (Option.filter_some_pos (by simp [hp])).symm

omit [LawfulEqOrd K] [LawfulEqOrd B] in
theorem Stores.size (h : codec.Stores f b t) : b.size = t.size := by
  rw [← ExtTreeMap.length_toList, ← ExtTreeMap.length_toList, show b.toList = _ from h,
    List.length_map]

omit [LawfulEqOrd K] [LawfulEqOrd B] in
theorem Stores.isEmpty (h : codec.Stores f b t) : b.isEmpty = t.isEmpty := by
  rw [← ExtTreeMap.isEmpty_toList, ← ExtTreeMap.isEmpty_toList, show b.toList = _ from h,
    List.isEmpty_map]

end KeyCodec
