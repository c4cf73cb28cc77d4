import EShield.Lib.LastWrite
import EShield.Node.Lists

/-!
# The whitelist store and the tries

A run saves and removes blocks in the store and in the tries. The store knows a block by its network
alone, the tries know it by the bits of its prefix, so what each of them holds at the end is decided
by another last operation.
-/

namespace EShield.Node

open Ebpf LastWrite

/-- One operation on the whitelist, with its block. -/
inductive WhitelistOp where
  | save (c : Cidr)
  | remove (c : Cidr)
  deriving DecidableEq, Repr

namespace WhitelistOp

def cidr : WhitelistOp → Cidr
  | save c => c
  | remove c => c

/-- The operation in the store. -/
def inStore (table : WhitelistTable) : WhitelistOp → WhitelistTable
  | save c => table.saveWhitelist c.1 c.2
  | remove c => table.removeWhitelist c.1 c.2

/-- The operation in the tries. -/
def inTries (m : Maps) : WhitelistOp → Maps
  | save c => (allowCidrRaw c m).2
  | remove c => (disallowCidrRaw c m).2

end WhitelistOp

open WhitelistOp

/-- The block was saved and not removed afterwards. -/
def Live (ops : List WhitelistOp) (c : Cidr) : Prop :=
  ∃ pre post, ops = pre ++ .save c :: post ∧ .remove c ∉ post

/-- The part of `load_persisted_rules` that restores the whitelist. -/
def restoreWhitelist (rows : List Cidr) : Attempt Maps String :=
  Attempt.sequence (rows.map allowCidrRaw)

/-! ## What a run leaves behind -/

/-- What an operation leaves in the row of its network. -/
def WhitelistOp.row : WhitelistOp → Option Nat
  | save c => some c.2
  | remove _ => none

theorem getElem?_inStore (table : WhitelistTable) (op : WhitelistOp) (key : IpKey) :
    (inStore table op)[key]? = if op.cidr.1 = key then op.row else table[key]? := by
  by_cases hkey : op.cidr.1 = key
  · rw [if_pos hkey, ← hkey]
    cases op with
    | save c => simp [inStore, WhitelistTable.saveWhitelist, cidr, row]
    | remove c => simp [inStore, WhitelistTable.removeWhitelist, cidr, row]
  · rw [if_neg hkey]
    cases op with
    | save c =>
      have hne : ¬ c.1 = key := hkey
      simp [inStore, WhitelistTable.saveWhitelist, Std.ExtTreeMap.getElem?_insert, hne]
    | remove c =>
      have hne : ¬ c.1 = key := hkey
      simp [inStore, WhitelistTable.removeWhitelist, Std.ExtTreeMap.getElem?_erase, hne]

/-- A block is loaded when the last operation on its network saved it. -/
theorem mem_loadWhitelist_iff (ops : List WhitelistOp) (c : Cidr) :
    c ∈ (ops.foldl inStore ∅).loadWhitelist ↔
      lastOf (fun op => op.cidr.1 = c.1) ops = some (.save c) := by
  have hrow : (ops.foldl inStore ∅)[c.1]? =
      ((lastOf (fun op => op.cidr.1 = c.1) ops).map row).getD none :=
    foldl_eq_lastOf inStore (fun table => table[c.1]?) row
      (fun table op hop => by rw [getElem?_inStore, if_pos hop])
      (fun table op hop => by rw [getElem?_inStore, if_neg hop]) ∅ ops
  have hmem : c ∈ (ops.foldl inStore ∅).loadWhitelist ↔
      (ops.foldl inStore ∅)[c.1]? = some c.2 := WhitelistTable.mem_loadWhitelist
  rw [hmem, hrow]
  cases hlast : lastOf (fun op => op.cidr.1 = c.1) ops with
  | none => simp
  | some op =>
    have hop := lastOf_sat hlast
    cases op with
    | save d =>
      have hd : d.1 = c.1 := hop
      simp [row, Prod.ext_iff, hd]
    | remove d => simp [row]

/-- A block is live when the last operation on it saved it. -/
theorem live_iff (ops : List WhitelistOp) (c : Cidr) :
    Live ops c ↔ lastOf (fun op => op.cidr = c) ops = some (.save c) := by
  constructor
  · rintro ⟨pre, post, rfl, hpost⟩
    cases hlast : lastOf (fun op => op.cidr = c) post with
    | none =>
      exact lastOf_eq_some_iff.2 ⟨pre, post, rfl, rfl, lastOf_eq_none_iff.1 hlast⟩
    | some op =>
      obtain ⟨pre', post', hsplit, hop, hpost'⟩ := lastOf_eq_some_iff.1 hlast
      have hsave : op = .save c := by
        cases op with
        | save d => rw [show d = c from hop]
        | remove d =>
          rw [hsplit, show d = c from hop] at hpost
          exact absurd (by simp) hpost
      refine lastOf_eq_some_iff.2 ⟨pre ++ .save c :: pre', post', ?_, rfl, hpost'⟩
      rw [hsplit, hsave, List.append_assoc, List.cons_append]
  · intro h
    obtain ⟨pre, post, hops, -, hpost⟩ := lastOf_eq_some_iff.1 h
    exact ⟨pre, post, hops, fun hmem => hpost _ hmem rfl⟩

theorem holds_inTries (m : Maps) (op : WhitelistOp) (c : Cidr) :
    (whitelistTries (inTries m op)).Holds c ↔
      if op.cidr.Same c then op = .save op.cidr else (whitelistTries m).Holds c := by
  cases op with
  | save d =>
    show _ ↔ if d.Same c then WhitelistOp.save d = .save d else _
    by_cases hfamily : d.1.ipFamily = none
    · have hother : ¬ d.Same c := fun h => h.family_left hfamily
      rw [inTries, allowCidrRaw_of_unknown hfamily, if_neg hother]
    · have hinsert := congrArg Prod.snd (allowCidrRaw_passes hfamily m)
      rw [inTries, hinsert, whitelistTries_set, CidrTries.holds_insert]
      by_cases hsame : d.Same c
      · simp [hsame]
      · simp [hsame]
  | remove d =>
    show _ ↔ if d.Same c then WhitelistOp.remove d = .save d else _
    by_cases hholds : (whitelistTries m).Holds d
    · have hremove := congrArg Prod.snd (disallowCidrRaw_passes hholds)
      rw [inTries, hremove, whitelistTries_set, CidrTries.holds_remove]
      by_cases hsame : d.Same c
      · simp [hsame]
      · simp [hsame]
    · rw [inTries, disallowCidrRaw_of_absent hholds]
      by_cases hsame : d.Same c
      · have habsent : ¬ (whitelistTries m).Holds c := fun h => hholds (h.of_same hsame.symm)
        simp [hsame, habsent]
      · simp [hsame]

/-- The tries hold a prefix when the last operation on it saved it. -/
theorem holds_foldl_inTries (ops : List WhitelistOp) (c : Cidr) :
    (whitelistTries (ops.foldl inTries {})).Holds c ↔
      ∃ d, lastOf (fun op => op.cidr.Same c) ops = some (.save d) := by
  have hholds : (whitelistTries (ops.foldl inTries {})).Holds c =
      ((lastOf (fun op => op.cidr.Same c) ops).map fun op => op = .save op.cidr).getD
        ((whitelistTries {}).Holds c) :=
    foldl_eq_lastOf inTries (fun m => (whitelistTries m).Holds c) (fun op => op = .save op.cidr)
      (fun m op hop => by rw [holds_inTries, if_pos hop])
      (fun m op hop => by rw [holds_inTries, if_neg hop]) {} ops
  rw [hholds]
  cases lastOf (fun op => op.cidr.Same c) ops with
  | none =>
    constructor
    · intro h
      exact absurd h (CidrTries.not_holds_empty c)
    · rintro ⟨d, hd⟩
      cases hd
  | some op =>
    cases op with
    | save d => simp [cidr]
    | remove d => simp

theorem holds_restoreWhitelist {rows : List Cidr} (hrows : ∀ c ∈ rows, c.1.ipFamily ≠ none)
    (m : Maps) :
    ∃ m', (restoreWhitelist rows).Passes m m' ∧ ∀ c, (whitelistTries m').Holds c ↔
      (∃ d ∈ rows, d.Same c) ∨ (whitelistTries m).Holds c := by
  refine ⟨_, allowCidrRaws_passes hrows m, fun c => ?_⟩
  rw [whitelistTries_set]
  exact CidrTries.holds_foldl_insert _ rows c

/-! ## Store and tries together -/

theorem Live.mem {ops : List WhitelistOp} {c : Cidr} (h : Live ops c) : .save c ∈ ops := by
  obtain ⟨pre, post, rfl, -⟩ := h
  simp

theorem Live.family {ops : List WhitelistOp} (hfamily : ∀ op ∈ ops, op.cidr.1.ipFamily ≠ none)
    {c : Cidr} (h : Live ops c) : c.1.ipFamily ≠ none := by
  exact hfamily (.save c) h.mem

/-- The whitelist is loaded and restored faithfully exactly when, for each live block, the last
operation on its network is the one that saved it, and the last operation on its prefix is a save. -/
theorem whitelist_store_exact (ops : List WhitelistOp)
    (hfamily : ∀ op ∈ ops, op.cidr.1.ipFamily ≠ none) :
    ((∀ c, c ∈ (ops.foldl inStore ∅).loadWhitelist ↔ Live ops c) ∧
        ∃ m, (restoreWhitelist (ops.foldl inStore ∅).loadWhitelist).Passes {} m ∧
          ∀ c, (whitelistTries m).Holds c ↔ (whitelistTries (ops.foldl inTries {})).Holds c) ↔
      (∀ c, Live ops c → lastOf (fun op => op.cidr.1 = c.1) ops = some (.save c)) ∧
        ∀ c, Live ops c → ∃ d, lastOf (fun op => op.cidr.Same c) ops = some (.save d) := by
  constructor
  · rintro ⟨hload, m, hpasses, hholds⟩
    refine ⟨fun c hc => (mem_loadWhitelist_iff ops c).1 ((hload c).2 hc), fun c hc => ?_⟩
    have hrows : ∀ d ∈ (ops.foldl inStore ∅).loadWhitelist, d.1.ipFamily ≠ none :=
      fun d hd => ((hload d).1 hd).family hfamily
    obtain ⟨m', hpasses', hholds'⟩ := holds_restoreWhitelist hrows {}
    cases congrArg Prod.snd (hpasses'.symm.trans hpasses)
    rw [← holds_foldl_inTries, ← hholds, hholds']
    exact .inl ⟨c, (hload c).2 hc, Cidr.Same.refl (hc.family hfamily)⟩
  · rintro ⟨hnetwork, hprefix⟩
    have hload : ∀ c, c ∈ (ops.foldl inStore ∅).loadWhitelist ↔ Live ops c := fun c => by
      rw [mem_loadWhitelist_iff]
      constructor
      · intro hlast
        exact (live_iff ops c).2 (lastOf_of_imp (fun op hop => congrArg Prod.fst hop) hlast rfl)
      · exact hnetwork c
    refine ⟨hload, ?_⟩
    obtain ⟨m, hpasses, hholds⟩ :=
      holds_restoreWhitelist (fun c hc => ((hload c).1 hc).family hfamily) {}
    refine ⟨m, hpasses, fun c => ?_⟩
    rw [hholds, holds_foldl_inTries]
    constructor
    · rintro (⟨d, hd, hdc⟩ | h)
      · obtain ⟨e, he⟩ := hprefix d ((hload d).1 hd)
        rw [lastOf_congr fun op => ⟨fun h => h.trans hdc, fun h => h.trans hdc.symm⟩] at he
        exact ⟨e, he⟩
      · exact absurd h (CidrTries.not_holds_empty c)
    · rintro ⟨d, hd⟩
      have hop := lastOf_sat hd
      have hdc : d.Same c := hop
      have hlive : Live ops d := by
        rw [live_iff]
        refine lastOf_of_imp (fun op hop => ?_) hd rfl
        rw [show op.cidr = d from hop]
        exact hdc
      exact .inl ⟨d, (hload d).2 hlive, hdc⟩

theorem whitelist_store_exact_two_blocks :
    (.fromIpv4 0x0a000000, 8) ∈ ([.save (.fromIpv4 0x0a000000, 8),
      .save (.fromIpv4 0xc0a80000, 16)].foldl inStore ∅).loadWhitelist := by
  have hsaved : ∀ c, Live [.save (.fromIpv4 0x0a000000, 8), .save (.fromIpv4 0xc0a80000, 16)] c →
      c = (.fromIpv4 0x0a000000, 8) ∨ c = (.fromIpv4 0xc0a80000, 16) := by
    intro c hc
    have hmem := hc.mem
    simpa using hmem
  have hexact := ((whitelist_store_exact [.save (.fromIpv4 0x0a000000, 8),
    .save (.fromIpv4 0xc0a80000, 16)] (by decide)).2 ⟨fun c hc => ?_, fun c hc => ?_⟩).1
  · exact (hexact _).2 ((live_iff _ _).2 (by decide))
  · rcases hsaved c hc with rfl | rfl
    · decide
    · decide
  · rcases hsaved c hc with rfl | rfl
    · exact ⟨(.fromIpv4 0x0a000000, 8), by decide⟩
    · exact ⟨(.fromIpv4 0xc0a80000, 16), by decide⟩

/-- Saving 10.0.0.0/16 takes 10.0.0.0/8 out of the store. -/
theorem nested_block_is_lost :
    ∃ (ops : List WhitelistOp) (c : Cidr), (∀ op ∈ ops, op.cidr.1.ipFamily ≠ none) ∧ Live ops c ∧
      c ∉ (ops.foldl inStore ∅).loadWhitelist := by
  refine ⟨[.save (.fromIpv4 0x0a000000, 8), .save (.fromIpv4 0x0a000000, 16)],
    (.fromIpv4 0x0a000000, 8), by decide, ⟨[], _, rfl, by decide⟩, ?_⟩
  rw [mem_loadWhitelist_iff]
  decide

end EShield.Node
