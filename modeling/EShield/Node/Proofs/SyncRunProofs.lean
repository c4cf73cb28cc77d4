import EShield.Common.Proofs.PureProofs
import EShield.Node.Proofs.BlacklistSyncProofs
import EShield.Node.SyncRuns

/-!
# What a pass leaves unsaved

A pass saves every entry it finds that differs from its cache. So the rows are complete after it if it
scans, or has nothing to find, and if no entry equals a cached record whose row is gone.
-/

namespace EShield.Node

open Exec
open Ebpf (Maps)

/-! ## The saves of a pass -/

/-- The row of `k` has the expiry of the entry. -/
def SyncWorld.Saved (s : SyncWorld) (k : IpKey) (e : BlockEntry) : Prop :=
  ∃ row, s.store[k]? = some row ∧ row.blockedUntilNs = e.blockedUntilNs

section Saves

variable {s : SyncWorld} {updatedNs : IpKey → UInt64} {pending : List PendingSave} {k : IpKey}

theorem store_savePending (s : SyncWorld) (p : PendingSave) (k : IpKey) :
    (s.savePending updatedNs p).store[k]? =
      if p.key = k then
        some
          { blockedUntilNs := p.entry.blockedUntilNs
            blockReason := p.entry.blockReason
            firstSeenNs := p.entry.firstSeenNs
            origin := p.origin
            lastUpdatedNs := updatedNs p.key }
      else s.store[k]? := RuleStore.getElem?_saveBlacklist _ _ _ _ _ _ _ _

theorem cache_savePending (s : SyncWorld) (p : PendingSave) (k : IpKey) :
    (s.savePending updatedNs p).cache[k]? =
      if p.key = k then some (cachedEntry p.entry) else s.cache[k]? := by
  simp [SyncWorld.savePending, Std.ExtTreeMap.getElem?_insert]

theorem foldl_savePending_frame (pending : List PendingSave) (s : SyncWorld) :
    (pending.foldl (SyncWorld.savePending updatedNs) s).blacklist = s.blacklist ∧
      (pending.foldl (SyncWorld.savePending updatedNs) s).lastPruneNs = s.lastPruneNs ∧
      (pending.foldl (SyncWorld.savePending updatedNs) s).tasks = s.tasks := by
  induction pending generalizing s with
  | nil => exact ⟨rfl, rfl, rfl⟩
  | cons p pending ih => exact ih (s.savePending updatedNs p)

/-- An IP that is not saved keeps its row and its record. -/
theorem foldl_savePending_of_ne (s : SyncWorld) (updatedNs : IpKey → UInt64)
    (h : ∀ p ∈ pending, p.key ≠ k) :
    (pending.foldl (SyncWorld.savePending updatedNs) s).store[k]? = s.store[k]? ∧
      (pending.foldl (SyncWorld.savePending updatedNs) s).cache[k]? = s.cache[k]? := by
  induction pending generalizing s with
  | nil => exact ⟨rfl, rfl⟩
  | cons p pending ih =>
    obtain ⟨hp, hrest⟩ := List.forall_mem_cons.1 h
    obtain ⟨hstore, hcache⟩ := ih (s.savePending updatedNs p) hrest
    rw [store_savePending, if_neg hp] at hstore
    rw [cache_savePending, if_neg hp] at hcache
    exact ⟨hstore, hcache⟩

/-- An IP that is saved has a row with the expiry of its entry and the record of the entry. -/
theorem foldl_savePending_of_mem (s : SyncWorld) (updatedNs : IpKey → UInt64) {e : BlockEntry}
    (hmap : ∀ p ∈ pending, p.key = k → p.entry = e) (hmem : ∃ p ∈ pending, p.key = k) :
    (pending.foldl (SyncWorld.savePending updatedNs) s).Saved k e ∧
      (pending.foldl (SyncWorld.savePending updatedNs) s).cache[k]? = some (cachedEntry e) := by
  induction pending generalizing s with
  | nil =>
    obtain ⟨p, hp, -⟩ := hmem
    cases hp
  | cons p pending ih =>
    obtain ⟨hp, hrest⟩ := List.forall_mem_cons.1 hmap
    by_cases hlater : ∃ q ∈ pending, q.key = k
    · exact ih (s.savePending updatedNs p) hrest hlater
    · obtain ⟨q, hq, hkey⟩ := hmem
      rcases List.mem_cons.1 hq with rfl | hq
      · obtain ⟨hstore, hcache⟩ := foldl_savePending_of_ne (s.savePending updatedNs q) updatedNs
          fun r hr hk => hlater ⟨r, hr, hk⟩
        rw [store_savePending, if_pos hkey, hp hkey] at hstore
        rw [cache_savePending, if_pos hkey, hp hkey] at hcache
        exact ⟨⟨_, hstore, rfl⟩, hcache⟩
      · exact absurd ⟨q, hq, hkey⟩ hlater

theorem cache_finishPass (s : SyncWorld) (pass : SyncPass) :
    (s.finishPass pass).cache = s.cache := by
  unfold SyncWorld.finishPass
  dsimp only
  split
  · split
    · rfl
    · rfl
  · split
    · rfl
    · rfl

theorem mem_syncSnapshot_iff {nowNs : UInt64} {gens : Option (UInt64 × UInt64)}
    {keys : List IpKey} {kv : IpKey × BlockEntry} :
    kv ∈ s.syncSnapshot nowNs gens keys ↔
      s.needScan nowNs gens = true ∧ kv.1 ∈ keys ∧ s.blacklist kv.1 = some kv.2 := by
  unfold SyncWorld.syncSnapshot
  split
  · rename_i hscan
    rw [List.mem_filterMap]
    constructor
    · rintro ⟨k, hk, hkv⟩
      obtain ⟨e, he, rfl⟩ := Option.map_eq_some_iff.1 hkv
      exact ⟨hscan, hk, he⟩
    · rintro ⟨-, hk, he⟩
      exact ⟨kv.1, hk, Option.map_eq_some_iff.2 ⟨kv.2, he, rfl⟩⟩
  · rename_i hscan
    simp [hscan]

theorem mem_changedEntries_iff {cache : Std.ExtTreeMap IpKey CachedEntry}
    {snapshot : List (IpKey × BlockEntry)} {p : PendingSave} :
    p ∈ changedEntries cache snapshot ↔
      (p.key, p.entry) ∈ snapshot ∧ blockReasonToOrigin p.entry.blockReason = some p.origin ∧
        p.origin.publishable = true ∧ cache[p.key]? ≠ some (cachedEntry p.entry) := by
  unfold changedEntries
  rw [List.mem_filterMap]
  constructor
  · rintro ⟨kv, hkv, hp⟩
    split at hp
    · cases hp
    · rename_i origin horigin
      split at hp
      · cases hp
      · rename_i hpublish
        split at hp
        · cases hp
        · rename_i hcache
          cases hp
          exact ⟨hkv, horigin, by simpa using hpublish, hcache⟩
  · rintro ⟨hkv, horigin, hpublish, hcache⟩
    refine ⟨_, hkv, ?_⟩
    simp only [horigin, hpublish, Bool.not_true, Bool.false_eq_true, if_false, if_neg hcache]

/-- A row is kept at the end of a pass, or pruned because it has expired. -/
theorem row_finishPass (s : SyncWorld) (pass : SyncPass) (k : IpKey) :
    (s.finishPass pass).store[k]? = s.store[k]? ∨
      60000000000 ≤ pass.nowNs.saturatingSub s.lastPruneNs ∧ (s.finishPass pass).store[k]? = none ∧
        ∃ row, s.store[k]? = some row ∧ row.Expired pass.nowNs := by
  obtain ⟨-, -, -, -, hstore | ⟨hdue, hstore⟩⟩ := finishPass_frame s pass
  · exact .inl (by rw [hstore])
  · rw [hstore, RuleStore.getElem?_pruneExpiredBlacklist]
    cases hrow : s.store[k]? with
    | none => exact .inl rfl
    | some row =>
      by_cases hexpired : row.Expired pass.nowNs
      · exact .inr ⟨hdue, by simp [hexpired], row, rfl, hexpired⟩
      · exact .inl (by simp [hexpired])

/-- What a pass saves: the entries it finds that have an origin to publish, differ from the cache and
have no row of the hub. -/
theorem mem_pending_iff {nowNs : UInt64} {gens : Option (UInt64 × UInt64)} {keys : List IpKey}
    {p : PendingSave} :
    p ∈ dropHubRows s.store (changedEntries s.cache (s.syncSnapshot nowNs gens keys)) ↔
      ((s.needScan nowNs gens = true ∧ p.key ∈ keys ∧ s.blacklist p.key = some p.entry) ∧
        blockReasonToOrigin p.entry.blockReason = some p.origin ∧ p.origin.publishable = true ∧
        s.cache[p.key]? ≠ some (cachedEntry p.entry)) ∧
      (p.origin = .hub ∨ s.store.loadBlacklistOrigin p.key ≠ some .hub) := by
  rw [dropHubRows, List.mem_filter, mem_changedEntries_iff, mem_syncSnapshot_iff]
  simp

end Saves

theorem BlacklistRow.not_expired {row : BlacklistRow} {nowNs : UInt64}
    (h : EffectiveAt row.blockedUntilNs nowNs) : ¬ row.Expired nowNs := by
  rintro ⟨hperm, hle⟩
  exact not_effectiveAt_iff.2 ⟨hperm, hle⟩ h

/-! ## The steps of a pass

Where no step of another task comes between, the steps of a pass are the pass. -/

/-- The end of a pass does not look at the tasks. -/
theorem finishPass_tasks (s : SyncWorld) (tasks tasks' : TaskTable SyncTask) (pass : SyncPass) :
    { { s with tasks := tasks }.finishPass pass with tasks := tasks' } =
      { s.finishPass pass with tasks := tasks' } := by
  unfold SyncWorld.finishPass
  rcases pass with ⟨nowNs, _ | ⟨addGen, hitGen⟩, _ | _⟩ <;> dsimp only <;> split <;> rfl

theorem exec_saves (s : SyncWorld) (id : Nat) (pass : SyncPass) (updatedNs : IpKey → UInt64)
    (pending : List PendingSave) :
    exec syncStep { s with tasks := s.tasks.set id (some (.saving pass pending)) }
        (pending.map (fun p => .save id (updatedNs p.key)) ++ [.finish id]) =
      some
        { (pending.foldl (SyncWorld.savePending updatedNs) s).finishPass pass with
          tasks := s.tasks.set id none } := by
  induction pending generalizing s with
  | nil =>
    have htasks := (finishPass_frame
      { s with tasks := s.tasks.set id (some (.saving pass [])) } pass).2.1
    simp only [List.map_nil, List.nil_append, List.foldl_nil, exec_cons, syncStep,
      TaskTable.set_self, Option.bind_some, exec, htasks, TaskTable.set_set]
    rw [finishPass_tasks]
  | cons p pending ih =>
    simp only [List.map_cons, List.cons_append, List.foldl_cons, exec_cons, syncStep,
      TaskTable.set_self, Option.bind_some, TaskTable.set_set]
    exact ih (s.savePending updatedNs p)

theorem exec_pass {s : SyncWorld} {id : Nat} (hidle : s.tasks id = none) (nowNs : UInt64)
    (gens : Option (UInt64 × UInt64)) (keys : List IpKey) (updatedNs : IpKey → UInt64) :
    exec syncStep s
        ([.snapshot id nowNs gens keys, .loadOrigins id] ++
          ((dropHubRows s.store (changedEntries s.cache (s.syncSnapshot nowNs gens keys))).map
            (fun p => .save id (updatedNs p.key)) ++ [.finish id])) =
      some (s.syncOnce nowNs gens keys updatedNs) := by
  have hsaves := exec_saves s id
    { nowNs := nowNs, gens := gens, scanned := s.needScan nowNs gens } updatedNs
    (dropHubRows s.store (changedEntries s.cache (s.syncSnapshot nowNs gens keys)))
  simp only [List.cons_append, List.nil_append, exec_cons, syncStep, hidle, TaskTable.set_self,
    Option.bind_some, TaskTable.set_set]
  refine hsaves.trans ?_
  have htasks : (s.syncOnce nowNs gens keys updatedNs).tasks = s.tasks :=
    (finishPass_frame _ _).2.1.trans (foldl_savePending_frame _ s).2.2
  rw [TaskTable.set_eq_self hidle, ← htasks]
  rfl

/-! ## What a pass promises -/

/-- The entry was made by a detection module. -/
def Detected (e : BlockEntry) : Prop :=
  blockReasonToOrigin e.blockReason = some .detected ∨
    blockReasonToOrigin e.blockReason = some .adaptive

instance (e : BlockEntry) : Decidable (Detected e) := inferInstanceAs (Decidable (_ ∨ _))

theorem Detected.origin {e : BlockEntry} (h : Detected e) :
    ∃ origin, blockReasonToOrigin e.blockReason = some origin ∧ origin.publishable = true ∧
      origin ≠ .hub := by
  rcases h with h | h
  · exact ⟨.detected, h, rfl, by decide⟩
  · exact ⟨.adaptive, h, rfl, by decide⟩

namespace SyncWorld

/-- Every entry in force that a detection module made, and whose row is not the hub's, has a row with
its expiry. -/
def AllSaved (s : SyncWorld) (t : UInt64) : Prop :=
  ∀ k e, s.blacklist k = some e → EffectiveAt e.blockedUntilNs t → Detected e →
    s.store.loadBlacklistOrigin k ≠ some .hub → s.Saved k e

/-- What the cache says of an entry in force is true of its row. -/
structure CacheSound (s : SyncWorld) (t : UInt64) : Prop where
  expiry : ∀ (k : IpKey) (c : CachedEntry) (row : BlacklistRow), s.cache[k]? = some c →
    s.store[k]? = some row → row.blockedUntilNs = c.blockedUntilNs
  row : ∀ (k : IpKey) (e : BlockEntry), s.blacklist k = some e → EffectiveAt e.blockedUntilNs t →
    s.cache[k]? = some (cachedEntry e) → (s.store[k]?).isSome

variable {s : SyncWorld} {t nowNs : UInt64} {k : IpKey} {e : BlockEntry}

theorem AllSaved.later (h : s.AllSaved t) (hle : t ≤ nowNs) : s.AllSaved nowNs :=
  fun k e he heff => h k e he (heff.anti hle)

theorem CacheSound.later (h : s.CacheSound t) (hle : t ≤ nowNs) : s.CacheSound nowNs :=
  ⟨h.expiry, fun k e he heff => h.row k e he (heff.anti hle)⟩

/-- An entry in force that equals its record has a row with its expiry. -/
theorem CacheSound.saved (h : s.CacheSound t) (he : s.blacklist k = some e)
    (heff : EffectiveAt e.blockedUntilNs t) (hcache : s.cache[k]? = some (cachedEntry e)) :
    s.Saved k e := by
  obtain ⟨row, hrow⟩ := Option.isSome_iff_exists.1 (h.row k e he heff hcache)
  exact ⟨row, hrow, h.expiry k _ row hcache hrow⟩

section Pass

variable {gens : Option (UInt64 × UInt64)} {keys : List IpKey} {updatedNs : IpKey → UInt64}

/-- The pass saves `k`. -/
def Saves (s : SyncWorld) (nowNs : UInt64) (gens : Option (UInt64 × UInt64)) (keys : List IpKey)
    (k : IpKey) : Prop :=
  ∃ p ∈ dropHubRows s.store (changedEntries s.cache (s.syncSnapshot nowNs gens keys)), p.key = k

@[simp] theorem blacklist_syncOnce :
    (s.syncOnce nowNs gens keys updatedNs).blacklist = s.blacklist :=
  (finishPass_frame _ _).1.trans (foldl_savePending_frame _ s).1

/-- An IP that the pass saves ends with a row and a record of its entry. -/
theorem syncOnce_of_saves (h : s.Saves nowNs gens keys k) (he : s.blacklist k = some e) :
    (s.syncOnce nowNs gens keys updatedNs).cache[k]? = some (cachedEntry e) ∧
      (∀ row, (s.syncOnce nowNs gens keys updatedNs).store[k]? = some row →
        row.blockedUntilNs = e.blockedUntilNs) ∧
      (EffectiveAt e.blockedUntilNs nowNs →
        (s.syncOnce nowNs gens keys updatedNs).Saved k e) := by
  have hentry : ∀ p ∈ dropHubRows s.store
      (changedEntries s.cache (s.syncSnapshot nowNs gens keys)), p.key = k → p.entry = e := by
    rintro p hp rfl
    have hheld := (mem_pending_iff.1 hp).1.1.2.2
    exact Option.some.inj (hheld.symm.trans he)
  obtain ⟨⟨row, hrow, huntil⟩, hcache⟩ := foldl_savePending_of_mem s updatedNs hentry h
  refine ⟨?_, fun row' hrow' => ?_, fun heff => ?_⟩
  · rw [syncOnce, cache_finishPass]
    exact hcache
  · rcases row_finishPass _ _ k with hkept | ⟨-, hnone, -⟩
    · rw [syncOnce, hkept, hrow] at hrow'
      cases hrow'
      exact huntil
    · rw [syncOnce, hnone] at hrow'
      cases hrow'
  · rcases row_finishPass _ _ k with hkept | ⟨-, -, row', hrow', hexpired⟩
    · exact ⟨row, hkept.trans hrow, huntil⟩
    · rw [hrow] at hrow'
      cases hrow'
      rw [← huntil] at heff
      exact absurd hexpired (BlacklistRow.not_expired heff)

/-- An IP that the pass does not save keeps its record, and its row unless that has expired. -/
theorem syncOnce_of_not_saves (h : ¬ s.Saves nowNs gens keys k) :
    (s.syncOnce nowNs gens keys updatedNs).cache[k]? = s.cache[k]? ∧
      ((s.syncOnce nowNs gens keys updatedNs).store[k]? = s.store[k]? ∨
        60000000000 ≤ nowNs.saturatingSub s.lastPruneNs ∧
          (s.syncOnce nowNs gens keys updatedNs).store[k]? = none ∧
          ∃ row, s.store[k]? = some row ∧ row.Expired nowNs) := by
  obtain ⟨hstore, hcache⟩ := foldl_savePending_of_ne s updatedNs fun p hp hk => h ⟨p, hp, hk⟩
  refine ⟨?_, ?_⟩
  · rw [syncOnce, cache_finishPass]
    exact hcache
  · have hrow := row_finishPass
      ((dropHubRows s.store (changedEntries s.cache (s.syncSnapshot nowNs gens keys))).foldl
        (savePending updatedNs) s)
      { nowNs := nowNs, gens := gens, scanned := s.needScan nowNs gens } k
    rw [hstore, (foldl_savePending_frame _ s).2.1] at hrow
    exact hrow

theorem CacheSound.syncOnce (h : s.CacheSound nowNs) :
    (s.syncOnce nowNs gens keys updatedNs).CacheSound nowNs where
  expiry k c row hcache hrow := by
    by_cases hsaves : s.Saves nowNs gens keys k
    · obtain ⟨p, hp, rfl⟩ := hsaves
      have hheld := (mem_pending_iff.1 hp).1.1.2.2
      obtain ⟨hrecord, huntil, -⟩ :=
        @syncOnce_of_saves _ _ _ _ _ _ updatedNs ⟨p, hp, rfl⟩ hheld
      rw [hrecord] at hcache
      cases hcache
      exact huntil row hrow
    · obtain ⟨hrecord, hkept | ⟨-, hnone, -⟩⟩ := syncOnce_of_not_saves hsaves
      · rw [hrecord] at hcache
        rw [hkept] at hrow
        exact h.expiry k c row hcache hrow
      · rw [hnone] at hrow
        cases hrow
  row k e he heff hcache := by
    rw [blacklist_syncOnce] at he
    by_cases hsaves : s.Saves nowNs gens keys k
    · obtain ⟨row, hrow, -⟩ := (syncOnce_of_saves hsaves he).2.2 heff
      exact Option.isSome_iff_exists.2 ⟨row, hrow⟩
    · obtain ⟨hrecord, hkept⟩ := syncOnce_of_not_saves hsaves
      rw [hrecord] at hcache
      obtain ⟨row, hrow, huntil⟩ := h.saved he heff hcache
      rcases hkept with hkept | ⟨-, -, row', hrow', hexpired⟩
      · exact Option.isSome_iff_exists.2 ⟨row, hkept.trans hrow⟩
      · rw [hrow] at hrow'
        cases hrow'
        rw [← huntil] at heff
        exact absurd hexpired (BlacklistRow.not_expired heff)

/-- A pass that scans leaves nothing unsaved, and neither does one that had nothing to save, if the
hub's rows that it prunes are not those of such entries. -/
theorem allSaved_syncOnce (h : s.CacheSound nowNs) (hkeys : ∀ k, (s.blacklist k).isSome → k ∈ keys)
    (hhub : 60000000000 ≤ nowNs.saturatingSub s.lastPruneNs → ∀ k row, s.store[k]? = some row →
      row.origin = .hub → row.Expired nowNs → ∀ e, s.blacklist k = some e →
        EffectiveAt e.blockedUntilNs nowNs → ¬ Detected e)
    (hscan : s.needScan nowNs gens = true ∨ s.AllSaved nowNs) :
    (s.syncOnce nowNs gens keys updatedNs).AllSaved nowNs := by
  intro k e he heff hdetected horigin
  rw [blacklist_syncOnce] at he
  by_cases hsaves : s.Saves nowNs gens keys k
  · exact (syncOnce_of_saves hsaves he).2.2 heff
  · obtain ⟨hrecord, hkept⟩ := @syncOnce_of_not_saves _ _ _ _ _ updatedNs hsaves
    have hnothub : s.store.loadBlacklistOrigin k ≠ some .hub := by
      intro hhubrow
      obtain ⟨row, hrow, hrowhub⟩ := Option.map_eq_some_iff.1 hhubrow
      rcases hkept with hkept | ⟨hdue, -, row', hrow', hexpired⟩
      · rw [RuleStore.loadBlacklistOrigin, hkept] at horigin
        exact horigin hhubrow
      · rw [hrow] at hrow'
        cases hrow'
        exact hhub hdue k row hrow hrowhub hexpired e he heff hdetected
    have hsaved : s.Saved k e := by
      rcases hscan with hscan | hall
      · by_contra hunsaved
        obtain ⟨origin, hreason, hpublish, hlocal⟩ := hdetected.origin
        refine hsaves ⟨⟨k, e, origin⟩, mem_pending_iff.2 ⟨⟨⟨hscan, ?_, he⟩, hreason, hpublish, ?_⟩,
          .inr hnothub⟩, rfl⟩
        · exact hkeys k (by rw [he]; rfl)
        · exact fun hcache => hunsaved (h.saved he heff hcache)
      · exact hall k e he heff hdetected hnothub
    obtain ⟨row, hrow, huntil⟩ := hsaved
    rcases hkept with hkept | ⟨-, -, row', hrow', hexpired⟩
    · exact ⟨row, hkept.trans hrow, huntil⟩
    · rw [hrow] at hrow'
      cases hrow'
      rw [← huntil] at heff
      exact absurd hexpired (BlacklistRow.not_expired heff)

end Pass

end SyncWorld

/-! ## One operation -/

/-- The entry that an operation writes into the map. -/
def SyncOp.written (n : SyncNode) : SyncOp → Option (IpKey × BlockEntry)
  | addToBlacklist key durationS reason nowNs =>
    some (key, mergeBlockEntry (n.world.blacklist key) nowNs (Ebpf.addUntil nowNs durationS) reason
      false)
  | adaptiveBlock key durationS untilReadNs nowNs =>
    some (key, mergeBlockEntry (n.world.blacklist key) nowNs (blockUntil untilReadNs durationS)
      rules.ADAPTIVE.toUInt8 false)
  | isBlacklisted key nowNs =>
    match n.world.blacklist key with
    | some e =>
      if EffectiveAt e.blockedUntilNs nowNs ∧ (n.stats.blacklistHitSample + 1) &&& 0xf = 0 then
        some (key, { e with hitCount := e.hitCount.saturatingAdd 16 })
      else none
    | none => none
  | unblockIpKey _ _ => none
  | syncOnce _ _ _ _ => none

/-- What an operation does. -/
inductive SyncMoves (n : SyncNode) : SyncOp → SyncNode → Prop where
  | insert {op n' key e} (hwritten : op.written n = some (key, e))
      (hworld : n'.world = { n.world with blacklist := n.world.blacklist.insert key e })
      (hsince : n'.insertedSince = true) : SyncMoves n op n'
  | remove {op n' key store} (hstore : ∀ k, k ≠ key → store[k]? = n.world.store[k]?)
      (hrow : ∀ row, store[key]? = some row → n.world.store[key]? = some row)
      (hworld : n'.world =
        { n.world with blacklist := n.world.blacklist.remove key, store := store })
      (hsince : n'.insertedSince = n.insertedSince) : SyncMoves n op n'
  | quiet {op n'} (hworld : n'.world = n.world) (hsince : n'.insertedSince = n.insertedSince) :
      SyncMoves n op n'
  | pass {nowNs readable keys updatedNs n'}
      (hworld : n'.world = n.world.syncOnce nowNs (n.gens readable) keys updatedNs)
      (hsince : n'.insertedSince =
        (n.insertedSince && !n.world.needScan nowNs (n.gens readable))) :
      SyncMoves n (.syncOnce nowNs readable keys updatedNs) n'

/-- What a lookup does to the map and to the generation of hits. -/
theorem isBlacklisted_cases (m : Maps) (src : IpKey) (nowNs : UInt64) :
    ((Ebpf.isBlacklisted m src nowNs).2.blacklist = m.blacklist ∧
        (Ebpf.isBlacklisted m src nowNs).2.globalStats.blacklistHitGen =
          m.globalStats.blacklistHitGen) ∨
      ((Ebpf.isBlacklisted m src nowNs).2.blacklist = m.blacklist.remove src ∧
        (Ebpf.isBlacklisted m src nowNs).2.globalStats.blacklistHitGen =
          m.globalStats.blacklistHitGen) ∨
      ∃ e, m.blacklist src = some e ∧ EffectiveAt e.blockedUntilNs nowNs ∧
        (m.globalStats.blacklistHitSample + 1) &&& 0xf = 0 ∧
        (Ebpf.isBlacklisted m src nowNs).2.blacklist =
          m.blacklist.insert src { e with hitCount := e.hitCount.saturatingAdd 16 } ∧
        (Ebpf.isBlacklisted m src nowNs).2.globalStats.blacklistHitGen =
          m.globalStats.blacklistHitGen + 1 := by
  unfold Ebpf.isBlacklisted
  cases he : m.blacklist src with
  | none => exact .inl ⟨rfl, rfl⟩
  | some e =>
    by_cases heff : EffectiveAt e.blockedUntilNs nowNs
    · simp only [if_pos heff]
      by_cases hdue : (m.globalStats.blacklistHitSample + 1) &&& 0xf = 0
      · refine .inr (.inr ⟨e, rfl, heff, hdue, ?_⟩)
        simp [Maps.withStats, hdue]
      · refine .inl ?_
        simp [Maps.withStats, hdue]
    · refine .inr (.inl ?_)
      simp [heff]

section Step

variable {n n' : SyncNode} {op : SyncOp}

theorem clock_of_syncNodeStep (h : syncNodeStep n op = some n') :
    n.clockNs ≤ op.nowNs ∧ n'.clockNs = op.nowNs := by
  unfold syncNodeStep at h
  split at h
  · cases h
  · rename_i hlt
    refine ⟨UInt64.not_lt.1 hlt, ?_⟩
    cases op <;> cases h <;> rfl

theorem insertedSince_of_pass {nowNs : UInt64} {readable : Bool} {keys : List IpKey}
    {updatedNs : IpKey → UInt64}
    (h : syncNodeStep n (.syncOnce nowNs readable keys updatedNs) = some n') :
    n'.insertedSince = (n.insertedSince && !n.world.needScan nowNs (n.gens readable)) := by
  unfold syncNodeStep at h
  split at h
  · cases h
  · cases h
    rfl

theorem syncNodeStep_moves (h : syncNodeStep n op = some n') : SyncMoves n op n' := by
  unfold syncNodeStep at h
  split at h
  · cases h
  · cases op with
    | addToBlacklist key durationS reason nowNs =>
      cases h
      exact .insert rfl rfl rfl
    | adaptiveBlock key durationS untilReadNs nowNs =>
      cases h
      exact .insert rfl rfl rfl
    | isBlacklisted key nowNs =>
      cases h
      have hworld : ∀ blacklist,
          (Ebpf.isBlacklisted n.maps key nowNs).2.blacklist = blacklist →
          ({ n.world with blacklist := (Ebpf.isBlacklisted n.maps key nowNs).2.blacklist } :
            SyncWorld) = { n.world with blacklist := blacklist } := fun _ h => h ▸ rfl
      have hsince : ∀ gen,
          (Ebpf.isBlacklisted n.maps key nowNs).2.globalStats.blacklistHitGen = gen →
          (n.insertedSince ||
            decide ((Ebpf.isBlacklisted n.maps key nowNs).2.globalStats.blacklistHitGen ≠
              n.stats.blacklistHitGen)) =
            (n.insertedSince || decide (gen ≠ n.stats.blacklistHitGen)) := fun _ h => h ▸ rfl
      rcases isBlacklisted_cases n.maps key nowNs with ⟨hmap, hgen⟩ | ⟨hmap, hgen⟩ |
        ⟨e, he, heff, hdue, hmap, hgen⟩
      · refine .quiet (hworld _ hmap) ((hsince _ hgen).trans ?_)
        simp [SyncNode.maps]
      · refine @SyncMoves.remove n _ _ key n.world.store (fun _ _ => rfl) (fun _ h => h)
          (hworld _ hmap) ((hsince _ hgen).trans ?_)
        simp [SyncNode.maps]
      · refine @SyncMoves.insert n _ _ key _ ?_ (hworld _ hmap) ((hsince _ hgen).trans ?_)
        · have he : n.world.blacklist key = some e := he
          simp only [SyncOp.written, he]
          exact if_pos ⟨heff, hdue⟩
        · simp [SyncNode.maps]
    | unblockIpKey key nowNs =>
      cases h
      refine @SyncMoves.remove n _ _ key (n.world.store.removeBlacklist key) (fun k hk => ?_)
        (fun row hrow => ?_) rfl rfl
      · rw [RuleStore.getElem?_removeBlacklist, if_neg (Ne.symm hk)]
      · rw [RuleStore.getElem?_removeBlacklist, if_pos rfl] at hrow
        cases hrow
    | syncOnce nowNs readable keys updatedNs =>
      cases h
      exact .pass rfl rfl

/-- The pass finds its cache empty, or a generation that it cannot read or that has moved since the last
scan. -/
def SyncNode.GensMoved (n : SyncNode) (readable : Bool) : Prop :=
  n.world.cache.isEmpty ∨ readable = false ∨ n.stats.blacklistGen ≠ n.world.lastGen ∨
    n.stats.blacklistHitGen ≠ n.world.lastHitGen

/-- No block or sampled hit makes an entry that the cache still remembers although its row is gone; a
pass a minute or more after the last scan finds a generation moved if anything was inserted since; and
no pass prunes a row of the hub while a detection entry of its IP is in force. -/
def LeavesNothing (n : SyncNode) : SyncOp → Prop
  | .syncOnce nowNs readable _ _ =>
    (60000000000 ≤ nowNs.saturatingSub n.world.lastHitScanNs → n.insertedSince = true →
      n.GensMoved readable) ∧
    (60000000000 ≤ nowNs.saturatingSub n.world.lastPruneNs → ∀ k row, n.world.store[k]? = some row →
      row.origin = .hub → row.Expired nowNs → ∀ e, n.world.blacklist k = some e →
        EffectiveAt e.blockedUntilNs nowNs → ¬ Detected e)
  | op => ∀ key e, op.written n = some (key, e) →
    n.world.cache[key]? = some (cachedEntry e) → (n.world.store[key]?).isSome

theorem needScan_of_gensMoved {nowNs : UInt64} {readable : Bool} (h : n.GensMoved readable)
    (hdue : 60000000000 ≤ nowNs.saturatingSub n.world.lastHitScanNs) :
    n.world.needScan nowNs (n.gens readable) = true := by
  cases readable with
  | false => rfl
  | true =>
    rcases h with hempty | hunread | hadd | hhit
    · simp [SyncNode.gens, SyncWorld.needScan, hempty]
    · cases hunread
    · simp [SyncNode.gens, SyncWorld.needScan, hadd]
    · simp [SyncNode.gens, SyncWorld.needScan, hhit, hdue]

/-- A pass that scans sees every key of the map. -/
def IteratesAll (n : SyncNode) : SyncOp → Prop
  | .syncOnce _ _ keys _ => ∀ k, (n.world.blacklist k).isSome → k ∈ keys
  | _ => True

/-- The cache tells the truth, and where nothing was inserted since the last scan nothing is left to
save. -/
structure SyncSound (n : SyncNode) : Prop where
  cache : n.world.CacheSound n.clockNs
  saved : n.insertedSince = false → n.world.AllSaved n.clockNs

/-- An entry written over a row that a true record of it leaves. -/
theorem syncSound_insert (hcache : n.world.CacheSound n'.clockNs) {key : IpKey} {e : BlockEntry}
    (hrow : n.world.cache[key]? = some (cachedEntry e) → (n.world.store[key]?).isSome)
    (hworld : n'.world = { n.world with blacklist := n.world.blacklist.insert key e })
    (hsince : n'.insertedSince = true) : SyncSound n' := by
  refine ⟨?_, fun hfalse => ?_⟩
  · rw [hworld]
    refine ⟨hcache.expiry, fun k e' he' heff hrecord => ?_⟩
    by_cases hk : k = key
    · subst hk
      have he' : n.world.blacklist.insert k e k = some e' := he'
      rw [Ebpf.LruHashMap.insert_self] at he'
      cases he'
      exact hrow hrecord
    · have he' : n.world.blacklist.insert key e k = some e' := he'
      rw [Ebpf.LruHashMap.insert_of_ne _ _ hk] at he'
      exact hcache.row k e' he' heff hrecord
  · rw [hsince] at hfalse
    cases hfalse

/-- An entry removed, and with it perhaps its row. -/
theorem syncSound_remove (hcache : n.world.CacheSound n'.clockNs)
    (hsaved : n.insertedSince = false → n.world.AllSaved n'.clockNs) {key : IpKey}
    {store : RuleStore} (hstore : ∀ k, k ≠ key → store[k]? = n.world.store[k]?)
    (hgone : ∀ row, store[key]? = some row → n.world.store[key]? = some row)
    (hworld : n'.world =
      { n.world with blacklist := n.world.blacklist.remove key, store := store })
    (hsince : n'.insertedSince = n.insertedSince) : SyncSound n' := by
  have hmap : ∀ k e, n'.world.blacklist k = some e → k ≠ key ∧ n.world.blacklist k = some e := by
    intro k e he
    have he : n.world.blacklist.remove key k = some e := by
      rw [hworld] at he
      exact he
    by_cases hk : k = key
    · subst hk
      rw [Ebpf.LruHashMap.remove_self] at he
      cases he
    · rw [Ebpf.LruHashMap.remove_of_ne _ hk] at he
      exact ⟨hk, he⟩
  have hrow : n'.world.store = store := by rw [hworld]
  have hrecord : n'.world.cache = n.world.cache := by rw [hworld]
  refine ⟨⟨fun k c row hc hr => ?_, fun k e he heff hc => ?_⟩, fun hfalse k e he heff hd ho => ?_⟩
  · rw [hrow] at hr
    rw [hrecord] at hc
    by_cases hk : k = key
    · subst hk
      exact hcache.expiry k c row hc (hgone row hr)
    · exact hcache.expiry k c row hc ((hstore k hk).symm.trans hr)
  · obtain ⟨hk, he⟩ := hmap k e he
    rw [hrecord] at hc
    rw [hrow, hstore k hk]
    exact hcache.row k e he heff hc
  · obtain ⟨hk, he⟩ := hmap k e he
    rw [hsince] at hfalse
    rw [hrow, RuleStore.loadBlacklistOrigin, hstore k hk] at ho
    obtain ⟨row, hr, huntil⟩ := hsaved hfalse k e he heff hd ho
    exact ⟨row, by rw [hrow, hstore k hk]; exact hr, huntil⟩

theorem syncSound_step (h : SyncSound n) (hcond : LeavesNothing n op) (hkeys : IteratesAll n op)
    (hstep : syncNodeStep n op = some n') : SyncSound n' := by
  obtain ⟨hle, hclock⟩ := clock_of_syncNodeStep hstep
  have hcache := h.cache.later hle
  rw [← hclock] at hcache hle
  cases syncNodeStep_moves hstep with
  | insert hwritten hworld hsince =>
    refine syncSound_insert hcache ?_ hworld hsince
    cases op with
    | syncOnce nowNs readable keys updatedNs => cases hwritten
    | addToBlacklist key durationS reason nowNs => exact hcond _ _ hwritten
    | adaptiveBlock key durationS untilReadNs nowNs => exact hcond _ _ hwritten
    | isBlacklisted key nowNs => exact hcond _ _ hwritten
    | unblockIpKey key nowNs => exact hcond _ _ hwritten
  | remove hstore hgone hworld hsince =>
    exact syncSound_remove hcache (fun hfalse => (h.saved hfalse).later hle) hstore hgone hworld
      hsince
  | quiet hworld hsince =>
    refine ⟨by rw [hworld]; exact hcache, fun hfalse => ?_⟩
    rw [hworld]
    rw [hsince] at hfalse
    exact (h.saved hfalse).later hle
  | pass hworld hsince =>
    rename_i nowNs readable keys updatedNs
    have hnow : n'.clockNs = nowNs := hclock
    rw [hnow] at hcache hle
    refine ⟨by rw [hworld, hnow]; exact hcache.syncOnce, fun hfalse => ?_⟩
    rw [hworld, hnow]
    refine SyncWorld.allSaved_syncOnce hcache hkeys hcond.2 ?_
    rw [hsince, Bool.and_eq_false_iff, Bool.not_eq_false'] at hfalse
    rcases hfalse with hfalse | hscan
    · exact .inr ((h.saved hfalse).later hle)
    · exact .inl hscan

end Step

/-! ## Runs -/

/-- In every run from an empty cache whose operations meet `LeavesNothing`, a pass a minute or more
after the last scan leaves a row with the same expiry for every entry in force that a detection module
made and whose row is not the hub's. -/
theorem sync_saves_detections {n₀ n : SyncNode} {ops : List SyncOp} {nowNs : UInt64}
    {readable : Bool} {keys : List IpKey} {updatedNs : IpKey → UInt64}
    (hcache : n₀.world.cache = ∅) (hstart : n₀.insertedSince = true)
    (hkeys : Along syncNodeStep IteratesAll n₀ (ops ++ [.syncOnce nowNs readable keys updatedNs]))
    (hcond : Along syncNodeStep LeavesNothing n₀
      (ops ++ [.syncOnce nowNs readable keys updatedNs]))
    (hrun : exec syncNodeStep n₀ (ops ++ [.syncOnce nowNs readable keys updatedNs]) = some n)
    (hdue : ∀ n₁, exec syncNodeStep n₀ ops = some n₁ →
      60000000000 ≤ nowNs.saturatingSub n₁.world.lastHitScanNs) :
    ∀ k e, n.world.blacklist k = some e → EffectiveAt e.blockedUntilNs n.clockNs → Detected e →
      n.world.store.loadBlacklistOrigin k ≠ some .hub →
      ∃ row, n.world.store[k]? = some row ∧ row.blockedUntilNs = e.blockedUntilNs := by
  have hsound₀ : SyncSound n₀ := by
    refine ⟨⟨fun k c row hc _ => ?_, fun k e _ _ hc => ?_⟩, fun hfalse => ?_⟩
    · rw [hcache, Std.ExtTreeMap.getElem?_empty] at hc
      cases hc
    · rw [hcache, Std.ExtTreeMap.getElem?_empty] at hc
      cases hc
    · rw [hstart] at hfalse
      cases hfalse
  obtain ⟨n₁, hrun₁, hlast⟩ := exec_append_eq_some hrun
  obtain ⟨n₂, hpass, hend⟩ := Option.bind_eq_some_iff.1 hlast
  cases hend
  have hboth := hcond.and hkeys
  have hsound₁ : SyncSound n₁ :=
    exec_invariant (fun _ _ _ hI hc h => syncSound_step hI hc.1 hc.2 h) hsound₀ hboth.of_prefix
      hrun₁
  have hfinal := hboth.of_append hrun₁
  have hsound := syncSound_step hsound₁ hfinal.1.1 hfinal.1.2 hpass
  refine hsound.saved ?_
  rw [insertedSince_of_pass hpass, Bool.and_eq_false_iff, Bool.not_eq_false']
  cases hsince : n₁.insertedSince with
  | false => exact .inl rfl
  | true =>
    exact .inr (needScan_of_gensMoved (hfinal.1.1.1 (hdue n₁ hrun₁) hsince) (hdue n₁ hrun₁))

/-- A source is blocked at second 1 and saved by a pass at second 61. -/
theorem sync_saves_detections_block :
    ∃ n row, exec syncNodeStep { world := {} }
        ([.addToBlacklist (.fromIpv4 1) 3600 rules.RATE_LIMIT.toUInt8 1000000000] ++
          [.syncOnce 61000000000 true [.fromIpv4 1] fun _ => 61000000000]) = some n ∧
      n.world.store[IpKey.fromIpv4 1]? = some row ∧ row.blockedUntilNs = 3601000000000 := by
  have hview : (exec syncNodeStep { world := {} }
      ([.addToBlacklist (.fromIpv4 1) 3600 rules.RATE_LIMIT.toUInt8 1000000000] ++
        [.syncOnce 61000000000 true [.fromIpv4 1] fun _ => 61000000000])).map
      (fun n => (n.world.blacklist (.fromIpv4 1), n.clockNs,
        n.world.store.loadBlacklistOrigin (.fromIpv4 1))) =
      some (some ⟨3601000000000, 1000000000, 0, 2, 0⟩, 61000000000, some .detected) := by
    decide +kernel
  obtain ⟨n, hrun, hview⟩ := Option.map_eq_some_iff.1 hview
  obtain ⟨hentry, hclock, horigin⟩ : n.world.blacklist (.fromIpv4 1) = _ ∧ n.clockNs = _ ∧
      n.world.store.loadBlacklistOrigin (.fromIpv4 1) = _ := by
    simpa only [Prod.mk.injEq] using hview
  have hkeys : Along syncNodeStep IteratesAll { world := {} }
      ([.addToBlacklist (.fromIpv4 1) 3600 rules.RATE_LIMIT.toUInt8 1000000000] ++
        [.syncOnce 61000000000 true [.fromIpv4 1] fun _ => 61000000000]) := by
    refine .cons rfl trivial (.cons rfl (fun k hk => ?_) trivial)
    by_contra hne
    have hne : k ≠ .fromIpv4 1 := fun h => hne (h ▸ List.mem_cons_self)
    have hk : (Ebpf.LruHashMap.insert Ebpf.LruHashMap.empty (.fromIpv4 1) _ k).isSome := hk
    rw [Ebpf.LruHashMap.insert_of_ne _ _ hne] at hk
    cases hk
  have hcond : Along syncNodeStep LeavesNothing { world := {} }
      ([.addToBlacklist (.fromIpv4 1) 3600 rules.RATE_LIMIT.toUInt8 1000000000] ++
        [.syncOnce 61000000000 true [.fromIpv4 1] fun _ => 61000000000]) := by
    refine .cons rfl (fun key e _ hcache => ?_) (.cons rfl ⟨fun _ _ => .inl rfl, ?_⟩ trivial)
    · cases hcache
    · intro _ k row hrow
      cases hrow
  have hdue : ∀ n₁, exec syncNodeStep { world := {} }
      [.addToBlacklist (.fromIpv4 1) 3600 rules.RATE_LIMIT.toUInt8 1000000000] = some n₁ →
      60000000000 ≤ (61000000000 : UInt64).saturatingSub n₁.world.lastHitScanNs := by
    rintro n₁ hn₁
    cases hn₁
    decide
  obtain ⟨row, hrow, huntil⟩ := sync_saves_detections rfl rfl hkeys hcond hrun hdue (.fromIpv4 1) _
    hentry (by rw [hclock]; decide) (.inl (by decide)) (by rw [horigin]; decide)
  exact ⟨n, row, hrun, hrow, huntil⟩

/-- A permanent block is saved, lifted and made again: the pass finds it in its cache, and its row
stays away. And an adaptive block that nothing counts is not looked for. -/
theorem repeated_block_not_saved :
    (∃ n e, exec syncNodeStep { world := {} }
        [.addToBlacklist (.fromIpv4 1) 0 rules.RATE_LIMIT.toUInt8 1000000000,
          .syncOnce 61000000000 true [.fromIpv4 1] fun _ => 61000000000,
          .unblockIpKey (.fromIpv4 1) 62000000000,
          .addToBlacklist (.fromIpv4 1) 0 rules.RATE_LIMIT.toUInt8 63000000000,
          .syncOnce 130000000000 true [.fromIpv4 1] fun _ => 130000000000] = some n ∧
      n.world.blacklist (.fromIpv4 1) = some e ∧ EffectiveAt e.blockedUntilNs n.clockNs ∧
      Detected e ∧ n.world.store[IpKey.fromIpv4 1]? = none) ∧
    ∃ n e, exec syncNodeStep { world := {} }
        [.addToBlacklist (.fromIpv4 1) 0 rules.RATE_LIMIT.toUInt8 1000000000,
          .syncOnce 61000000000 true [.fromIpv4 1] fun _ => 61000000000,
          .adaptiveBlock (.fromIpv4 2) 0 62000000000 62000000000,
          .syncOnce 130000000000 true [.fromIpv4 1, .fromIpv4 2] fun _ => 130000000000] = some n ∧
      n.world.blacklist (.fromIpv4 2) = some e ∧ EffectiveAt e.blockedUntilNs n.clockNs ∧
      Detected e ∧ n.world.store[IpKey.fromIpv4 2]? = none := by
  have hall : ∀ (result : Option SyncNode) (k : IpKey),
      (result.any fun n => (n.world.blacklist k).any fun e =>
        decide (EffectiveAt e.blockedUntilNs n.clockNs ∧ Detected e ∧ n.world.store[k]? = none)) →
      ∃ n e, result = some n ∧ n.world.blacklist k = some e ∧
        EffectiveAt e.blockedUntilNs n.clockNs ∧ Detected e ∧ n.world.store[k]? = none := by
    intro result k h
    obtain ⟨n, hn, h⟩ := (Option.any_eq_true _ _).1 h
    obtain ⟨e, he, h⟩ := (Option.any_eq_true _ _).1 h
    exact ⟨n, e, hn, he, of_decide_eq_true h⟩
  constructor
  · exact hall _ (.fromIpv4 1) (by decide +kernel)
  · exact hall _ (.fromIpv4 2) (by decide +kernel)

end EShield.Node
