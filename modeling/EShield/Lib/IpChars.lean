import EShield.Lib.IpFormat

/-!
# The characters of an address

What the readers take off the front of a text are hexadecimal digits, points and colons, so a text that is
an address has no other characters in it.
-/

namespace IpText

open Text

/-- Only characters of an address stand in front of `rest`. -/
def Reads (cs rest : List Char) : Prop := ∃ used, cs = used ++ rest ∧ ∀ c ∈ used, IsAddressChar c

theorem reads_refl (cs : List Char) : Reads cs cs := ⟨[], rfl, List.forall_mem_nil _⟩

theorem Reads.trans {as bs cs : List Char} (h : Reads as bs) (h' : Reads bs cs) : Reads as cs := by
  obtain ⟨used, rfl, hused⟩ := h
  obtain ⟨used', rfl, hused'⟩ := h'
  exact ⟨used ++ used', (List.append_assoc ..).symm, List.forall_mem_append.2 ⟨hused, hused'⟩⟩

/-- Every reading of the item takes characters of an address. -/
def ReadsAddress {α : Type} (read : Reader α) : Prop :=
  ∀ cs a rest, read cs = some (a, rest) → Reads cs rest

theorem readsAddress_givenChar {c : Char} (hc : IsAddressChar c) : ReadsAddress (readGivenChar c) := by
  intro cs a rest h
  cases cs with
  | nil => cases h
  | cons x cs =>
    obtain ⟨hx, h⟩ := Option.ite_none_right_eq_some.1 h
    cases h
    exact ⟨[x], rfl, List.forall_mem_singleton.2 (hx ▸ hc)⟩

theorem readsAddress_separator {α : Type} {sep : Char} {index : Nat} {inner : Reader α}
    (hsep : IsAddressChar sep) (hinner : ReadsAddress inner) :
    ReadsAddress (readSeparator sep index inner) := by
  intro cs a rest h
  unfold readSeparator at h
  split at h
  · obtain ⟨⟨u, mid⟩, hmid, hrest⟩ := Option.bind_eq_some_iff.1 h
    exact (readsAddress_givenChar hsep cs u mid hmid).trans (hinner mid a rest hrest)
  · exact hinner cs a rest h

/-- A decimal digit is a hexadecimal one. -/
theorem digitVal_sixteen {c : Char} (h : (digitVal 10 c).isSome) : (digitVal 16 c).isSome := by
  obtain ⟨d, hd⟩ := Option.isSome_iff_exists.1 h
  obtain ⟨hval, hlt⟩ := Option.filter_eq_some_iff.1 hd
  refine Option.isSome_iff_exists.2 ⟨d, Option.filter_eq_some_iff.2 ⟨hval, ?_⟩⟩
  rw [decide_eq_true_iff] at hlt ⊢
  omega

theorem readsAddress_number {radix maxDigits bound : Nat} {zeros : Bool} (hradix : radix = 10 ∨ radix = 16) :
    ReadsAddress (readNumber radix maxDigits zeros bound) := by
  intro cs n rest h
  unfold readNumber at h
  dsimp only at h
  obtain ⟨-, h⟩ := Option.ite_none_left_eq_some.1 h
  obtain ⟨-, h⟩ := Option.ite_none_left_eq_some.1 h
  obtain ⟨m, -, h⟩ := Option.map_eq_some_iff.1 h
  cases h
  refine ⟨cs.takeWhile fun c => (digitVal radix c).isSome, ?_, fun c hc => .inl ?_⟩
  · exact (List.prefix_iff_eq_append.1 (List.takeWhile_prefix _)).symm
  · have hdigit := List.mem_takeWhile_imp hc
    rcases hradix with rfl | rfl
    · exact digitVal_sixteen hdigit
    · exact hdigit

theorem isAddressChar_dot : IsAddressChar '.' := .inr (.inl rfl)

theorem isAddressChar_colon : IsAddressChar ':' := .inr (.inr rfl)

theorem readsAddress_ipv4 : ReadsAddress readIpv4Addr := by
  intro cs addr rest h
  have hoctet : ∀ i, ReadsAddress (readSeparator '.' i (readNumber 10 3 false 256)) := fun i =>
    readsAddress_separator isAddressChar_dot (readsAddress_number (.inl rfl))
  unfold readIpv4Addr at h
  obtain ⟨⟨a, cs₁⟩, ha, h⟩ := Option.bind_eq_some_iff.1 h
  obtain ⟨⟨b, cs₂⟩, hb, h⟩ := Option.bind_eq_some_iff.1 h
  obtain ⟨⟨c, cs₃⟩, hc, h⟩ := Option.bind_eq_some_iff.1 h
  obtain ⟨⟨d, cs₄⟩, hd, h⟩ := Option.bind_eq_some_iff.1 h
  cases h
  exact (((hoctet 0 _ _ _ ha).trans (hoctet 1 _ _ _ hb)).trans (hoctet 2 _ _ _ hc)).trans
    (hoctet 3 _ _ _ hd)

theorem reads_groups (n i : Nat) (cs : List Char) : Reads cs (readGroups n i cs).2.2 := by
  induction n generalizing i cs with
  | zero => exact reads_refl cs
  | succ n ih =>
    unfold readGroups
    dsimp only
    split
    · rename_i addr rest hipv4
      split at hipv4
      · exact readsAddress_separator isAddressChar_colon readsAddress_ipv4 _ _ _ hipv4
      · cases hipv4
    · split
      · rename_i g rest hgroup
        refine Reads.trans ?_ (ih (i + 1) rest)
        exact readsAddress_separator isAddressChar_colon (readsAddress_number (.inr rfl)) _ _ _ hgroup
      · exact reads_refl cs

theorem readsAddress_ipv6 : ReadsAddress readIpv6Addr := by
  intro cs addr rest h
  unfold readIpv6Addr at h
  have hhead := reads_groups 8 0 cs
  generalize readGroups 8 0 cs = head at h hhead
  obtain ⟨head, headIpv4, mid⟩ := head
  dsimp only at h hhead
  split at h
  · cases h
    exact hhead
  · obtain ⟨-, h⟩ := Option.ite_none_left_eq_some.1 h
    obtain ⟨⟨u, cs₁⟩, hu, h⟩ := Option.bind_eq_some_iff.1 h
    obtain ⟨⟨v, cs₂⟩, hv, h⟩ := Option.bind_eq_some_iff.1 h
    have hcolons := (readsAddress_givenChar isAddressChar_colon _ _ _ hu).trans
      (readsAddress_givenChar isAddressChar_colon _ _ _ hv)
    cases h
    exact (hhead.trans hcolons).trans (reads_groups _ _ _)

/-- An address is written with characters of an address only. -/
theorem isAddressChar_of_parseIpAddr {cs : List Char} {addr : IpAddr} (h : parseIpAddr cs = some addr) :
    ∀ c ∈ cs, IsAddressChar c := by
  have hall : Reads cs [] := by
    unfold parseIpAddr at h
    split at h
    · rename_i a rest hread
      obtain ⟨rfl, -⟩ := Option.ite_none_right_eq_some.1 h
      exact readsAddress_ipv4 _ _ _ hread
    · split at h
      · rename_i a rest hread
        obtain ⟨rfl, -⟩ := Option.ite_none_right_eq_some.1 h
        exact readsAddress_ipv6 _ _ _ hread
      · cases h
  obtain ⟨used, hcs, hused⟩ := hall
  rw [List.append_nil] at hcs
  exact hcs ▸ hused

theorem slash_not_mem_of_parseIpAddr {cs : List Char} {addr : IpAddr} (h : parseIpAddr cs = some addr) :
    '/' ∉ cs := by
  intro hmem
  rcases isAddressChar_of_parseIpAddr h _ hmem with hdigit | hdot | hcolon
  · exact absurd hdigit (by decide)
  · exact absurd hdot (by decide)
  · exact absurd hcolon (by decide)

end IpText
