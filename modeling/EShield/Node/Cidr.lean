import EShield.Common.Types
import EShield.Lib.LpmTrie

/-!
# CIDR blocks and their tries

The control plane names a CIDR block by its network and prefix length. The kernel keeps a list of
blocks in two tries, one for each family, which see only the bits of the prefix.
-/

namespace EShield.Node

/-- Network and prefix length. -/
abbrev Cidr := IpKey × Nat

namespace Cidr

/-- The key of an IPv4 block in its trie. -/
def keyV4 (c : Cidr) : LpmKey 32 := ⟨c.2, c.1.ipv4⟩

def keyV6 (c : Cidr) : LpmKey 128 := ⟨c.2, c.1.addr⟩

/-- The two blocks are one prefix to the kernel. -/
def Same (c d : Cidr) : Prop :=
  match c.1.ipFamily, d.1.ipFamily with
  | some .ipv4, some .ipv4 => c.keyV4.Same d.keyV4
  | some .ipv6, some .ipv6 => c.keyV6.Same d.keyV6
  | _, _ => False

instance (c d : Cidr) : Decidable (c.Same d) := by
  unfold Same
  split <;> infer_instance

/-- The two blocks have the same family, prefix length and address. -/
def SameKey (c d : Cidr) : Prop :=
  match c.1.ipFamily, d.1.ipFamily with
  | some .ipv4, some .ipv4 => c.keyV4 = d.keyV4
  | some .ipv6, some .ipv6 => c.keyV6 = d.keyV6
  | _, _ => False

instance (c d : Cidr) : Decidable (c.SameKey d) := by
  unfold SameKey
  split <;> infer_instance

theorem SameKey.same {c d : Cidr} (h : c.SameKey d) : c.Same d := by
  unfold SameKey at h
  unfold Same
  split at h
  · rw [h]
    exact LpmKey.Same.refl _
  · rw [h]
    exact LpmKey.Same.refl _
  · exact h.elim

theorem Same.symm {c d : Cidr} (h : c.Same d) : d.Same c := by
  unfold Same at h ⊢
  split at h
  · rename_i hc hd
    rw [hc, hd]
    exact LpmKey.Same.symm h
  · rename_i hc hd
    rw [hc, hd]
    exact LpmKey.Same.symm h
  · exact h.elim

theorem Same.trans {c d e : Cidr} (h : c.Same d) (h' : d.Same e) : c.Same e := by
  unfold Same at h h' ⊢
  cases hc : c.1.ipFamily with
  | none => simp [hc] at h
  | some fc =>
    cases hd : d.1.ipFamily with
    | none => simp [hd] at h'
    | some fd =>
      cases he : e.1.ipFamily with
      | none => simp [hd, he] at h'
      | some fe =>
        cases fc <;> cases fd <;> cases fe <;> simp only [hc, hd, he] at h h' ⊢
        · exact LpmKey.Same.trans h h'
        · exact LpmKey.Same.trans h h'

theorem Same.family_left {c d : Cidr} (h : c.Same d) : c.1.ipFamily ≠ none := by
  intro hc
  simp [Same, hc] at h

theorem Same.refl {c : Cidr} (h : c.1.ipFamily ≠ none) : c.Same c := by
  unfold Same
  cases hc : c.1.ipFamily with
  | none => exact absurd hc h
  | some f =>
    cases f with
    | ipv4 => exact LpmKey.Same.refl _
    | ipv6 => exact LpmKey.Same.refl _

end Cidr

/-- The two tries of one list of blocks. -/
structure CidrTries where
  v4 : LpmTrie 32 UInt8 := []
  v6 : LpmTrie 128 UInt8 := []

namespace CidrTries

/-- Stores a block; one of an unknown family goes nowhere. -/
def insert (t : CidrTries) (c : Cidr) : CidrTries :=
  match c.1.ipFamily with
  | some .ipv4 => { t with v4 := t.v4.insert c.keyV4 1 }
  | some .ipv6 => { t with v6 := t.v6.insert c.keyV6 1 }
  | none => t

def remove (t : CidrTries) (c : Cidr) : CidrTries :=
  match c.1.ipFamily with
  | some .ipv4 => { t with v4 := t.v4.remove c.keyV4 }
  | some .ipv6 => { t with v6 := t.v6.remove c.keyV6 }
  | none => t

/-- The prefix of `c` is stored. -/
def Holds (t : CidrTries) (c : Cidr) : Prop :=
  match c.1.ipFamily with
  | some .ipv4 => t.v4.Holds c.keyV4
  | some .ipv6 => t.v6.Holds c.keyV6
  | none => False

instance (t : CidrTries) (c : Cidr) : Decidable (t.Holds c) := by
  unfold Holds
  split <;> infer_instance

theorem Holds.family {t : CidrTries} {c : Cidr} (h : t.Holds c) : c.1.ipFamily ≠ none := by
  intro hc
  simp [Holds, hc] at h

theorem Holds.of_same {t : CidrTries} {c d : Cidr} (h : t.Holds c) (hcd : c.Same d) :
    t.Holds d := by
  unfold Holds at h ⊢
  unfold Cidr.Same at hcd
  split at hcd
  · rename_i hc hd
    rw [hc] at h
    rw [hd]
    exact LpmTrie.Holds.of_same h hcd
  · rename_i hc hd
    rw [hc] at h
    rw [hd]
    exact LpmTrie.Holds.of_same h hcd
  · exact hcd.elim

theorem not_holds_empty (c : Cidr) : ¬ ({} : CidrTries).Holds c := by
  unfold Holds
  split
  · exact LpmTrie.not_holds_nil _
  · exact LpmTrie.not_holds_nil _
  · exact id

theorem holds_insert {t : CidrTries} {c d : Cidr} :
    (t.insert c).Holds d ↔ c.Same d ∨ t.Holds d := by
  unfold insert Holds Cidr.Same
  cases hc : c.1.ipFamily with
  | none => simp
  | some fc =>
    cases hd : d.1.ipFamily with
    | none => cases fc <;> simp
    | some fd => cases fc <;> cases fd <;> simp [LpmTrie.holds_insert]

theorem holds_remove {t : CidrTries} {c d : Cidr} :
    (t.remove c).Holds d ↔ t.Holds d ∧ ¬ c.Same d := by
  unfold remove Holds Cidr.Same
  cases hc : c.1.ipFamily with
  | none => simp
  | some fc =>
    cases hd : d.1.ipFamily with
    | none => cases fc <;> simp
    | some fd => cases fc <;> cases fd <;> simp [LpmTrie.holds_remove]

/-- What is held after storing the blocks `cs`. -/
theorem holds_foldl_insert (t : CidrTries) (cs : List Cidr) (d : Cidr) :
    (cs.foldl insert t).Holds d ↔ (∃ c ∈ cs, c.Same d) ∨ t.Holds d := by
  induction cs generalizing t with
  | nil => simp
  | cons c cs ih =>
    rw [List.foldl_cons, ih, holds_insert]
    simp only [List.mem_cons, exists_eq_or_imp]
    rw [or_left_comm, or_assoc]

/-- What is held after removing the blocks `cs`. -/
theorem holds_foldl_remove (t : CidrTries) (cs : List Cidr) (d : Cidr) :
    (cs.foldl remove t).Holds d ↔ t.Holds d ∧ ∀ c ∈ cs, ¬ c.Same d := by
  induction cs generalizing t with
  | nil => simp
  | cons c cs ih =>
    rw [List.foldl_cons, ih, holds_remove]
    simp only [List.forall_mem_cons, and_assoc]

end CidrTries

end EShield.Node
