import EShield.Node.Proofs.BlockProofs

/-!
# Reloading persisted rules

Each row acts on the entry of its own key only, so the reload is decided row by row. A timed row
comes back through whole seconds: with a second or more left it stays timed and loses less than one
second.
-/

namespace EShield.Node

open Ebpf (LruHashMap mergeInto)

/-! ## Row by row -/

/-- A fold of updates at distinct keys does at each key what its own element does. -/
theorem foldl_update_eq {V W : Type} (f : IpKey → V → Option W → Option W) (k : IpKey) :
    ∀ (l : List (IpKey × V)), (l.map Prod.fst).Nodup → ∀ m : IpKey → Option W,
      (∀ v, (k, v) ∈ l →
        (l.foldl (fun m kv => Function.update m kv.1 (f kv.1 kv.2 (m kv.1))) m) k = f k v (m k)) ∧
      (k ∉ l.map Prod.fst →
        (l.foldl (fun m kv => Function.update m kv.1 (f kv.1 kv.2 (m kv.1))) m) k = m k) := by
  intro l
  induction l with
  | nil => simp
  | cons kv l ih =>
    intro hnd m
    rw [List.map_cons, List.nodup_cons] at hnd
    obtain ⟨hmem, hnone⟩ := ih hnd.2 (Function.update m kv.1 (f kv.1 kv.2 (m kv.1)))
    rw [List.foldl_cons]
    refine ⟨?_, ?_⟩
    · intro v hv
      rcases List.mem_cons.1 hv with rfl | hv
      · rw [hnone hnd.1, Function.update_self]
      · have hne : k ≠ kv.1 := by
          rintro rfl
          exact hnd.1 (List.mem_map.2 ⟨_, hv, rfl⟩)
        rw [hmem v hv, Function.update_of_ne hne]
    · intro hk
      rw [List.map_cons, List.mem_cons, not_or] at hk
      rw [hnone hk.2, Function.update_of_ne hk.1]

/-- What the reload makes of the entry of one row. -/
def reloadedEntry (nowNs : UInt64) (row : BlacklistRow) (readNs : UInt64)
    (prev : Option BlockEntry) : Option BlockEntry :=
  if row.blockReason = rules.BLACKLIST.toUInt8 ∨ row.Expired nowNs then prev
  else
    let durationS :=
      if row.blockedUntilNs = BLOCK_PERMANENT then 0
      else row.blockedUntilNs.saturatingSub nowNs / 1000000000
    some (mergeBlockEntry prev readNs (blockUntil readNs durationS) row.blockReason
      (isExplicit row.blockReason))

theorem loadPersistedRow_eq (nowNs : UInt64) (blacklist : LruHashMap IpKey BlockEntry)
    (key : IpKey) (row : BlacklistRow) (readNs : UInt64) :
    loadPersistedRow nowNs blacklist key row readNs =
      Function.update blacklist key (reloadedEntry nowNs row readNs (blacklist key)) := by
  unfold loadPersistedRow reloadedEntry
  by_cases hstatic : row.blockReason = rules.BLACKLIST.toUInt8
  · simp [hstatic]
  · by_cases hexp : row.Expired nowNs
    · simp [hexp]
    · simp [hstatic, hexp, blockIpRaw, mergeInto, LruHashMap.insert]

/-- The reload gives the IP of a row what that row makes of its entry. -/
theorem loadPersistedRules_of_row {store : RuleStore} {key : IpKey} {row : BlacklistRow}
    (hrow : store[key]? = some row) (nowNs : UInt64) (readNs : IpKey → UInt64)
    (blacklist : LruHashMap IpKey BlockEntry) :
    loadPersistedRules store nowNs readNs blacklist key =
      reloadedEntry nowNs row (readNs key) (blacklist key) := by
  simp only [loadPersistedRules, loadPersistedRow_eq]
  exact (foldl_update_eq (fun k row prev => reloadedEntry nowNs row (readNs k) prev) key _
    store.nodup_keys_loadBlacklist blacklist).1 row (RuleStore.mem_loadBlacklist.2 hrow)

/-- The reload leaves an IP without a row alone. -/
theorem loadPersistedRules_of_no_row {store : RuleStore} {key : IpKey} (hrow : store[key]? = none)
    (nowNs : UInt64) (readNs : IpKey → UInt64) (blacklist : LruHashMap IpKey BlockEntry) :
    loadPersistedRules store nowNs readNs blacklist key = blacklist key := by
  simp only [loadPersistedRules, loadPersistedRow_eq]
  refine (foldl_update_eq (fun k row prev => reloadedEntry nowNs row (readNs k) prev) key _
    store.nodup_keys_loadBlacklist blacklist).2 ?_
  intro hmem
  obtain ⟨⟨k, row⟩, hkv, rfl⟩ := List.mem_map.1 hmem
  rw [RuleStore.mem_loadBlacklist.1 hkv] at hrow
  cases hrow

/-! ## The expiry that comes back -/

/-- `untilNs` is less than a second before `rowNs` and not later than `rowNs + elapsed`. -/
def Within (rowNs elapsed untilNs : Nat) : Prop :=
  rowNs < untilNs + 10 ^ 9 ∧ untilNs ≤ rowNs + elapsed

/-- Whole seconds of the time left, counted from a later reading. -/
theorem within_blockUntil {rowNs nowNs readNs : UInt64} (hread : nowNs.toNat ≤ readNs.toNat)
    (hleft : nowNs.toNat + 10 ^ 9 ≤ rowNs.toNat) :
    rowNs.saturatingSub nowNs / 1000000000 ≠ 0 ∧
      Within rowNs.toNat (readNs.toNat - nowNs.toNat)
        (blockUntil readNs (rowNs.saturatingSub nowNs / 1000000000)).toNat := by
  have hsec : (rowNs.saturatingSub nowNs / 1000000000).toNat =
      (rowNs.toNat - nowNs.toNat) / 10 ^ 9 := by
    rw [UInt64.toNat_div, UInt64.toNat_saturatingSub]
    rfl
  have hne : rowNs.saturatingSub nowNs / 1000000000 ≠ 0 := by
    rw [UInt64.ne_zero_iff_toNat_pos, hsec]
    omega
  have hrow := rowNs.toNat_lt
  refine ⟨hne, ?_⟩
  rw [Within, toNat_blockUntil hne, hsec]
  omega

theorem toNat_laterUntil {a b : UInt64} (ha : a ≠ BLOCK_PERMANENT) (hb : b ≠ BLOCK_PERMANENT) :
    (laterUntil a b).toNat = max a.toNat b.toNat := by
  rw [laterUntil, if_neg (not_or.2 ⟨ha, hb⟩)]
  split
  · rename_i hgt
    rw [gt_iff_lt, UInt64.lt_iff_toNat_lt] at hgt
    omega
  · rename_i hle
    rw [gt_iff_lt, UInt64.lt_iff_toNat_lt] at hle
    omega

/-- A row that is not of the static configuration and not expired is merged into its entry. -/
theorem reloadedEntry_of_live {nowNs : UInt64} {row : BlacklistRow}
    (hstatic : row.blockReason ≠ rules.BLACKLIST.toUInt8) (hlive : ¬ row.Expired nowNs)
    (readNs : UInt64) (prev : Option BlockEntry) :
    reloadedEntry nowNs row readNs prev =
      some (mergeBlockEntry prev readNs
        (blockUntil readNs
          (if row.blockedUntilNs = BLOCK_PERMANENT then 0
            else row.blockedUntilNs.saturatingSub nowNs / 1000000000))
        row.blockReason (isExplicit row.blockReason)) :=
  if_neg (by simp [hstatic, hlive])

/-- What the reload, begun at `nowNs`, does to the entry of a row that is not of the static
configuration. A permanent row gives a permanent entry and an expired one changes nothing. A timed
row with a second or more left gives a timed entry, unless a permanent one is there: its expiry is
that of the row, or of a later entry in force, up to less than a second before and up to the time
the reload has taken after. -/
theorem loadPersistedRules_preserves_expiry (store : RuleStore) (nowNs : UInt64)
    (readNs : IpKey → UInt64) (blacklist : LruHashMap IpKey BlockEntry) (key : IpKey)
    (row : BlacklistRow) (hrow : store[key]? = some row) (hread : nowNs ≤ readNs key)
    (hstatic : row.blockReason ≠ rules.BLACKLIST.toUInt8) :
    (row.blockedUntilNs = BLOCK_PERMANENT →
      ∃ e, loadPersistedRules store nowNs readNs blacklist key = some e ∧
        e.blockedUntilNs = BLOCK_PERMANENT) ∧
    (row.Expired nowNs → loadPersistedRules store nowNs readNs blacklist key = blacklist key) ∧
    (nowNs.toNat + 10 ^ 9 ≤ row.blockedUntilNs.toNat →
      ∃ e, loadPersistedRules store nowNs readNs blacklist key = some e ∧
        ((∀ p, blacklist key = some p → ¬ EffectiveAt p.blockedUntilNs (readNs key)) →
          e.blockedUntilNs ≠ BLOCK_PERMANENT ∧
            Within row.blockedUntilNs.toNat ((readNs key).toNat - nowNs.toNat)
              e.blockedUntilNs.toNat) ∧
        (∀ p, blacklist key = some p → EffectiveAt p.blockedUntilNs (readNs key) →
          p.blockedUntilNs ≠ BLOCK_PERMANENT →
          e.blockedUntilNs ≠ BLOCK_PERMANENT ∧
            Within (max p.blockedUntilNs.toNat row.blockedUntilNs.toNat)
              ((readNs key).toNat - nowNs.toNat) e.blockedUntilNs.toNat)) := by
  rw [UInt64.le_iff_toNat_le] at hread
  rw [loadPersistedRules_of_row hrow]
  refine ⟨?_, ?_, ?_⟩
  · intro hperm
    have hlive : ¬ row.Expired nowNs := fun h => h.1 hperm
    refine ⟨_, reloadedEntry_of_live hstatic hlive _ _, ?_⟩
    -- the new expiry is permanent, so the merge is in force at the last instant of the clock
    rw [if_pos hperm]
    cases hprev : blacklist key with
    | none => rfl
    | some p =>
      by_cases heff : EffectiveAt p.blockedUntilNs (readNs key)
      · rw [(mergeBlockEntry_of_effective _ _ _ heff).1]
        exact if_pos (.inr rfl)
      · rw [mergeBlockEntry_of_not_effective (by rintro _ ⟨⟩; exact heff)]
        rfl
  · intro hexp
    exact if_pos (.inr hexp)
  · intro hleft
    have hne : row.blockedUntilNs ≠ BLOCK_PERMANENT := by
      rw [BLOCK_PERMANENT, UInt64.ne_zero_iff_toNat_pos]
      omega
    have hlive : ¬ row.Expired nowNs := by
      rintro ⟨_, hle⟩
      rw [UInt64.le_iff_toNat_le] at hle
      omega
    obtain ⟨hsec, hwithin⟩ := within_blockUntil hread hleft
    refine ⟨_, reloadedEntry_of_live hstatic hlive _ _, ?_, ?_⟩
    · intro hprev
      rw [if_neg hne, mergeBlockEntry_of_not_effective hprev]
      exact ⟨blockUntil_ne_permanent hsec, hwithin⟩
    · intro p hp heff hpne
      rw [if_neg hne, hp, (mergeBlockEntry_of_effective _ _ _ heff).1]
      have huntil : blockUntil (readNs key) _ ≠ BLOCK_PERMANENT := blockUntil_ne_permanent hsec
      refine ⟨laterUntil_ne_permanent hpne huntil, ?_⟩
      unfold Within at hwithin ⊢
      rw [toNat_laterUntil hpne huntil]
      omega

/-- A row with 90.5 seconds left is reloaded as a block of 90 seconds. -/
theorem loadPersistedRules_preserves_expiry_ninety_seconds :
    ∃ e, loadPersistedRules
        (RuleStore.saveBlacklist ∅ (.fromIpv4 1) 100500000000 6 0 .api 0) 10000000000
        (fun _ => 10000000000) .empty (.fromIpv4 1) = some e ∧
      e.blockedUntilNs ≠ BLOCK_PERMANENT ∧ Within 100500000000 0 e.blockedUntilNs.toNat := by
  obtain ⟨_, _, htimed⟩ := loadPersistedRules_preserves_expiry
    (RuleStore.saveBlacklist ∅ (.fromIpv4 1) 100500000000 6 0 .api 0) 10000000000
    (fun _ => 10000000000) .empty (.fromIpv4 1) ⟨100500000000, 6, 0, .api, 0⟩
    (by simp [RuleStore.getElem?_saveBlacklist]) (by decide) (by decide)
  obtain ⟨e, he, hfresh, _⟩ := htimed (by decide)
  exact ⟨e, he, hfresh (by simp [LruHashMap.empty])⟩

/-- A policy of the hub that gives the reason of the static list, for ninety seconds. -/
def staticReason : SharedPolicy :=
  { ip := .fromIpv4 1, reason := rules.BLACKLIST.toUInt8, hitCount := 1, trustScore := 0
    firstSeenNs := 0, lastSeenNs := 0, sourceNodes := ["a"], ttlS := 90 }

/-- Once it has been applied there is a timed row with this reason in the store. Ten seconds later the row
has not expired, yet it is not reloaded. -/
theorem loadPersistedRules_skips_static_row :
    let store := (applyHubPolicies ⟨"b", false⟩ {} [staticReason] fun _ =>
      ⟨10000000000, 10000000000, 10000000000⟩).store
    store[IpKey.fromIpv4 1]? =
        some ⟨100000000000, rules.BLACKLIST.toUInt8, 10000000000, .hub, 10000000000⟩ ∧
      (20000000000 : UInt64) < 100000000000 ∧
      loadPersistedRules store 20000000000 (fun _ => 20000000000) .empty (.fromIpv4 1) = none := by
  decide

end EShield.Node
