import EShield.Node.BlacklistSync
import EShield.Node.Proofs.ReloadProofs

/-!
# Agreement of map and store

When no block of an IP overlaps an unblock of it, and a pass writes back only rows of IPs the map
still holds, the map and the store agree on every IP whose user operations are done.
-/

namespace EShield.Node

open Ebpf (LruHashMap mergeInto)
open TaskTable (Pending Idle pending_set_iff pending_of_eq)

/-! ## The condition on a run -/

namespace SyncTask

def Blocks (k : IpKey) : SyncTask → Prop
  | blocking key _ _ _ => key = k
  | _ => False

def Unblocks (k : IpKey) : SyncTask → Prop
  | unblocking key => key = k
  | _ => False

def IsPass : SyncTask → Prop
  | scanned _ _ | saving _ _ => True
  | _ => False

theorem IsPass.not_blocks {t : SyncTask} (h : t.IsPass) (k : IpKey) :
    ¬ t.Blocks k ∧ ¬ t.Unblocks k := by
  cases t <;> simp_all [IsPass, Blocks, Unblocks]

end SyncTask

namespace SyncWorld

/-- A block of `k` is between its two steps. -/
def Blocking (s : SyncWorld) (k : IpKey) : Prop := Pending s.tasks (SyncTask.Blocks k)

/-- An unblock of `k` is between its two steps. -/
def Unblocking (s : SyncWorld) (k : IpKey) : Prop := Pending s.tasks (SyncTask.Unblocks k)

end SyncWorld

/-- No block begins while an unblock of its IP is in flight, nor an unblock while a block is; a pass
saves a row only while the map holds its IP, and what it prunes the map holds no more. -/
def Separated (s : SyncWorld) : SyncLabel → Prop
  | .blockMap _ key _ _ _ _ => ¬ s.Unblocking key
  | .dataPlaneBlock key _ _ _ => ¬ s.Unblocking key
  | .unblockMap _ key => ¬ s.Blocking key
  | .save id _ =>
    ∀ pass p rest, s.tasks id = some (.saving pass (p :: rest)) → (s.blacklist p.key).isSome
  | .finish id =>
    ∀ pass, s.tasks id = some (.saving pass []) →
      ∀ k row, s.store[k]? = some row → row.Expired pass.nowNs → s.blacklist k = none
  | _ => True

/-! ## What a step does -/

/-- A step, by its label. -/
inductive TaskMoves (s : SyncWorld) : SyncLabel → SyncWorld → Prop where
  | blockMap {id key durationS reason origin nowNs} (hid : s.tasks id = none) :
      TaskMoves s (.blockMap id key durationS reason origin nowNs)
        { s with
          blacklist := blockIpRaw s.blacklist key durationS reason nowNs
          tasks := s.tasks.set id (some (.blocking key durationS reason origin)) }
  | blockStore {id rowNs updatedNs key durationS reason origin}
      (hid : s.tasks id = some (.blocking key durationS reason origin)) :
      TaskMoves s (.blockStore id rowNs updatedNs)
        { s with
          store := persistBlock s.store key durationS reason origin rowNs updatedNs
          tasks := s.tasks.set id none
          lastUser := Function.update s.lastUser key (some .block)
          blockedSince := Function.update s.blockedSince key false }
  | unblockMap {id key} (hid : s.tasks id = none) :
      TaskMoves s (.unblockMap id key)
        { s with
          blacklist := s.blacklist.remove key
          tasks := s.tasks.set id (some (.unblocking key)) }
  | unblockStore {id key} (hid : s.tasks id = some (.unblocking key)) :
      TaskMoves s (.unblockStore id)
        { s with
          store := s.store.removeBlacklist key
          tasks := s.tasks.set id none
          lastUser := Function.update s.lastUser key (some .unblock)
          blockedSince := Function.update s.blockedSince key false }
  | dataPlaneBlock {key nowNs untilNs reason} :
      TaskMoves s (.dataPlaneBlock key nowNs untilNs reason)
        { s with
          blacklist := mergeInto s.blacklist key nowNs untilNs reason false
          blockedSince := Function.update s.blockedSince key true }
  | snapshot {id nowNs gens keys pass} {snapshot : List (IpKey × BlockEntry)}
      (hid : s.tasks id = none) (hheld : ∀ kv ∈ snapshot, s.blacklist kv.1 = some kv.2) :
      TaskMoves s (.snapshot id nowNs gens keys)
        { s with tasks := s.tasks.set id (some (.scanned pass (changedEntries s.cache snapshot))) }
  | loadOrigins {id pass changed} (hid : s.tasks id = some (.scanned pass changed)) :
      TaskMoves s (.loadOrigins id)
        { s with tasks := s.tasks.set id (some (.saving pass (dropHubRows s.store changed))) }
  | save {id updatedNs pass p rest} (hid : s.tasks id = some (.saving pass (p :: rest))) :
      TaskMoves s (.save id updatedNs)
        { s with
          store :=
            s.store.saveBlacklist p.key p.entry.blockedUntilNs p.entry.blockReason
              p.entry.firstSeenNs p.origin updatedNs
          cache := s.cache.insert p.key (cachedEntry p.entry)
          tasks := s.tasks.set id (some (.saving pass rest)) }
  | finish {id pass} (hid : s.tasks id = some (.saving pass [])) :
      TaskMoves s (.finish id)
        { s.finishPass pass with tasks := (s.finishPass pass).tasks.set id none }

theorem syncStep_moves {s s' : SyncWorld} {l : SyncLabel} (h : syncStep s l = some s') :
    TaskMoves s l s' := by
  cases l with
  | dataPlaneBlock key nowNs untilNs reason =>
    cases h
    exact .dataPlaneBlock
  | snapshot id nowNs gens keys =>
    simp only [syncStep] at h
    split at h <;> cases h
    rename_i hid
    refine .snapshot hid fun kv hkv => ?_
    split at hkv
    · obtain ⟨k, -, hk⟩ := List.mem_filterMap.1 hkv
      obtain ⟨entry, hentry, rfl⟩ := Option.map_eq_some_iff.1 hk
      exact hentry
    · cases hkv
  | blockMap | blockStore | unblockMap | unblockStore | loadOrigins | save | finish =>
    simp only [syncStep] at h
    split at h <;> cases h
    rename_i hid
    constructor
    exact hid

/-! ## The invariant of one IP -/

/-- What the map and the store hold of `k`, as far as its user operations decide it. -/
structure Agrees (s : SyncWorld) (k : IpKey) : Prop where
  exclusive : ¬ (s.Blocking k ∧ s.Unblocking k)
  blocking : s.Blocking k → (s.blacklist k).isSome
  unblocking : s.Unblocking k → s.blacklist k = none
  unblocked : s.lastUser k = some .unblock → s.blockedSince k = false → ¬ s.Blocking k →
    s.blacklist k = none ∧ s.store[k]? = none
  blocked : s.lastUser k = some .block → ¬ s.Unblocking k →
    (s.blacklist k).isSome ∧ (s.store[k]?).isSome

variable {s s' : SyncWorld} {k key : IpKey} {id : Nat}

/-- A step that changes at most the row of `k`, and that only as the map allows. -/
theorem Agrees.frame (h : Agrees s k) (hmap : s'.blacklist k = s.blacklist k)
    (hlast : s'.lastUser k = s.lastUser k) (hsince : s'.blockedSince k = s.blockedSince k)
    (hblocking : s'.Blocking k ↔ s.Blocking k) (hunblocking : s'.Unblocking k ↔ s.Unblocking k)
    (hnone : s.blacklist k = none → s.store[k]? = none → s'.store[k]? = none)
    (hsome : (s.blacklist k).isSome → (s.store[k]?).isSome → (s'.store[k]?).isSome) :
    Agrees s' k where
  exclusive := by
    rw [hblocking, hunblocking]
    exact h.exclusive
  blocking hb := by
    rw [hmap]
    exact h.blocking (hblocking.1 hb)
  unblocking hu := by
    rw [hmap]
    exact h.unblocking (hunblocking.1 hu)
  unblocked hl hs hb := by
    rw [hlast] at hl
    rw [hsince] at hs
    rw [hblocking] at hb
    obtain ⟨hbl, hst⟩ := h.unblocked hl hs hb
    exact ⟨hmap.trans hbl, hnone hbl hst⟩
  blocked hl hu := by
    rw [hlast] at hl
    rw [hunblocking] at hu
    obtain ⟨hbl, hst⟩ := h.blocked hl hu
    exact ⟨by rw [hmap]; exact hbl, hsome hbl hst⟩

theorem mergeInto_isSome (blacklist : LruHashMap IpKey BlockEntry) (key : IpKey)
    (nowNs untilNs : UInt64) (reason : UInt8) (explicit : Bool) :
    (mergeInto blacklist key nowNs untilNs reason explicit key).isSome := by
  simp [mergeInto]

theorem mergeInto_of_ne (blacklist : LruHashMap IpKey BlockEntry) (hk : k ≠ key)
    (nowNs untilNs : UInt64) (reason : UInt8) (explicit : Bool) :
    mergeInto blacklist key nowNs untilNs reason explicit k = blacklist k := by
  simp [mergeInto, LruHashMap.insert_of_ne _ _ hk]

/-! ## One step -/

section step

variable {durationS nowNs untilNs rowNs updatedNs : UInt64} {reason : UInt8} {origin : BlockOrigin}

theorem agrees_blockMap (hI : ∀ k, Agrees s k) (hid : s.tasks id = none)
    (hc : ¬ s.Unblocking key) (k : IpKey) :
    Agrees
      { s with
        blacklist := blockIpRaw s.blacklist key durationS reason nowNs
        tasks := s.tasks.set id (some (.blocking key durationS reason origin)) } k := by
  have hold : ∀ (P : SyncTask → Prop) t, s.tasks id = some t → ¬ P t := by simp [hid]
  by_cases hk : k = key
  · subst hk
    have hunblocking : ¬ Pending (s.tasks.set id (some (.blocking k durationS reason origin)))
        (SyncTask.Unblocks k) := by
      rw [pending_set_iff (hold _)]
      simpa [SyncTask.Unblocks] using show ¬ Pending s.tasks _ from hc
    have hmap := mergeInto_isSome s.blacklist k nowNs (blockUntil nowNs durationS) reason
      (isExplicit reason)
    have hblocking : Pending (s.tasks.set id (some (.blocking k durationS reason origin)))
        (SyncTask.Blocks k) := by
      rw [pending_set_iff (hold _)]
      exact .inr ⟨_, rfl, rfl⟩
    exact
      { exclusive := fun h => hunblocking h.2
        blocking := fun _ => hmap
        unblocking := fun h => absurd h hunblocking
        unblocked := fun _ _ h => absurd hblocking h
        blocked := fun hl _ => ⟨hmap, ((hI k).blocked hl hc).2⟩ }
  · refine (hI k).frame (mergeInto_of_ne _ hk _ _ _ _) rfl rfl ?_ ?_ (fun _ h => h) fun _ h => h
    · simp [SyncWorld.Blocking, pending_set_iff (hold _), SyncTask.Blocks, Ne.symm hk]
    · simp [SyncWorld.Unblocking, pending_set_iff (hold _), SyncTask.Unblocks]

theorem agrees_blockStore (hI : ∀ k, Agrees s k)
    (hid : s.tasks id = some (.blocking key durationS reason origin)) (k : IpKey) :
    Agrees
      { s with
        store := persistBlock s.store key durationS reason origin rowNs updatedNs
        tasks := s.tasks.set id none
        lastUser := Function.update s.lastUser key (some .block)
        blockedSince := Function.update s.blockedSince key false } k := by
  have hunblocks : ∀ t, s.tasks id = some t → ¬ t.Unblocks k := by
    rw [hid]
    rintro _ ⟨⟩
    simp [SyncTask.Unblocks]
  by_cases hk : k = key
  · subst hk
    have hblocking : s.Blocking k := pending_of_eq hid rfl
    have hunblocking : ¬ Pending (s.tasks.set id none) (SyncTask.Unblocks k) := by
      rw [pending_set_iff hunblocks]
      rintro (h | ⟨_, ⟨⟩, _⟩)
      exact (hI k).exclusive ⟨hblocking, h⟩
    have hmap := (hI k).blocking hblocking
    exact
      { exclusive := fun h => hunblocking h.2
        blocking := fun _ => hmap
        unblocking := fun h => absurd h hunblocking
        unblocked := fun h => by simp at h
        blocked := fun _ _ => ⟨hmap, by simp [persistBlock, RuleStore.getElem?_saveBlacklist]⟩ }
  · have hblocks : ∀ t, s.tasks id = some t → ¬ t.Blocks k := by
      rw [hid]
      rintro _ ⟨⟩
      exact Ne.symm hk
    refine (hI k).frame rfl (Function.update_of_ne hk _ _) (Function.update_of_ne hk _ _) ?_ ?_ ?_ ?_
    · simp [SyncWorld.Blocking, pending_set_iff hblocks]
    · simp [SyncWorld.Unblocking, pending_set_iff hunblocks]
    · simp [persistBlock, RuleStore.getElem?_saveBlacklist, Ne.symm hk]
    · simp [persistBlock, RuleStore.getElem?_saveBlacklist, Ne.symm hk]

theorem agrees_unblockMap (hI : ∀ k, Agrees s k) (hid : s.tasks id = none)
    (hc : ¬ s.Blocking key) (k : IpKey) :
    Agrees
      { s with
        blacklist := s.blacklist.remove key
        tasks := s.tasks.set id (some (.unblocking key)) } k := by
  have hold : ∀ (P : SyncTask → Prop) t, s.tasks id = some t → ¬ P t := by simp [hid]
  by_cases hk : k = key
  · subst hk
    have hblocking : ¬ Pending (s.tasks.set id (some (.unblocking k))) (SyncTask.Blocks k) := by
      rw [pending_set_iff (hold _)]
      simpa [SyncTask.Blocks] using show ¬ Pending s.tasks _ from hc
    have hunblocking : Pending (s.tasks.set id (some (.unblocking k))) (SyncTask.Unblocks k) := by
      rw [pending_set_iff (hold _)]
      exact .inr ⟨_, rfl, rfl⟩
    exact
      { exclusive := fun h => hblocking h.1
        blocking := fun h => absurd h hblocking
        unblocking := fun _ => LruHashMap.remove_self _ _
        unblocked := fun hl hs _ =>
          ⟨LruHashMap.remove_self _ _, ((hI k).unblocked hl hs hc).2⟩
        blocked := fun _ h => absurd hunblocking h }
  · refine (hI k).frame (LruHashMap.remove_of_ne _ hk) rfl rfl ?_ ?_ (fun _ h => h) fun _ h => h
    · simp [SyncWorld.Blocking, pending_set_iff (hold _), SyncTask.Blocks]
    · simp [SyncWorld.Unblocking, pending_set_iff (hold _), SyncTask.Unblocks, Ne.symm hk]

theorem agrees_unblockStore (hI : ∀ k, Agrees s k)
    (hid : s.tasks id = some (.unblocking key)) (k : IpKey) :
    Agrees
      { s with
        store := s.store.removeBlacklist key
        tasks := s.tasks.set id none
        lastUser := Function.update s.lastUser key (some .unblock)
        blockedSince := Function.update s.blockedSince key false } k := by
  have hblocks : ∀ t, s.tasks id = some t → ¬ t.Blocks k := by
    rw [hid]
    rintro _ ⟨⟩
    simp [SyncTask.Blocks]
  by_cases hk : k = key
  · subst hk
    have hunblocking : s.Unblocking k := pending_of_eq hid rfl
    have hblocking : ¬ Pending (s.tasks.set id none) (SyncTask.Blocks k) := by
      rw [pending_set_iff hblocks]
      rintro (h | ⟨_, ⟨⟩, _⟩)
      exact (hI k).exclusive ⟨h, hunblocking⟩
    have hmap := (hI k).unblocking hunblocking
    exact
      { exclusive := fun h => hblocking h.1
        blocking := fun h => absurd h hblocking
        unblocking := fun _ => hmap
        unblocked := fun _ _ _ => ⟨hmap, by simp [RuleStore.getElem?_removeBlacklist]⟩
        blocked := fun h => by simp at h }
  · have hunblocks : ∀ t, s.tasks id = some t → ¬ t.Unblocks k := by
      rw [hid]
      rintro _ ⟨⟩
      exact Ne.symm hk
    refine (hI k).frame rfl (Function.update_of_ne hk _ _) (Function.update_of_ne hk _ _) ?_ ?_ ?_ ?_
    · simp [SyncWorld.Blocking, pending_set_iff hblocks]
    · simp [SyncWorld.Unblocking, pending_set_iff hunblocks]
    · simp [RuleStore.getElem?_removeBlacklist, Ne.symm hk]
    · simp [RuleStore.getElem?_removeBlacklist, Ne.symm hk]

theorem agrees_dataPlaneBlock (hI : ∀ k, Agrees s k) (hc : ¬ s.Unblocking key) (k : IpKey) :
    Agrees
      { s with
        blacklist := mergeInto s.blacklist key nowNs untilNs reason false
        blockedSince := Function.update s.blockedSince key true } k := by
  by_cases hk : k = key
  · subst hk
    have hmap := mergeInto_isSome s.blacklist k nowNs untilNs reason false
    exact
      { exclusive := (hI k).exclusive
        blocking := fun _ => hmap
        unblocking := fun h => absurd h hc
        unblocked := fun _ h => by simp at h
        blocked := fun hl hu => ⟨hmap, ((hI k).blocked hl hu).2⟩ }
  · exact (hI k).frame (mergeInto_of_ne _ hk _ _ _ _) rfl (Function.update_of_ne hk _ _) Iff.rfl
      Iff.rfl (fun _ h => h) fun _ h => h

/-- A step of a pass is neither a block nor an unblock. -/
theorem agrees_pass (hI : ∀ k, Agrees s k) {old : Option SyncTask} (new : Option SyncTask)
    (hid : s.tasks id = old) (hold : ∀ t ∈ old, t.IsPass)
    (hsame : s'.blacklist = s.blacklist ∧ s'.tasks = s.tasks.set id new ∧
      s'.lastUser = s.lastUser ∧ s'.blockedSince = s.blockedSince)
    (hnew : ∀ t ∈ new, t.IsPass)
    (hnone : ∀ k, s.blacklist k = none → s.store[k]? = none → s'.store[k]? = none)
    (hsome : ∀ k, (s.blacklist k).isSome → (s.store[k]?).isSome → (s'.store[k]?).isSome)
    (k : IpKey) : Agrees s' k := by
  obtain ⟨hmap, htasks, hlast, hsince⟩ := hsame
  refine (hI k).frame (congrFun hmap k) (congrFun hlast k) (congrFun hsince k) ?_ ?_ (hnone k)
    (hsome k)
  · rw [SyncWorld.Blocking, htasks,
      pending_set_iff fun t ht => ((hold t (hid ▸ ht)).not_blocks k).1]
    exact or_iff_left fun ⟨t, ht, hb⟩ => ((hnew t ht).not_blocks k).1 hb
  · rw [SyncWorld.Unblocking, htasks,
      pending_set_iff fun t ht => ((hold t (hid ▸ ht)).not_blocks k).2]
    exact or_iff_left fun ⟨t, ht, hu⟩ => ((hnew t ht).not_blocks k).2 hu

/-- The end of a pass may prune rows but touches nothing else that `Agrees` speaks of. -/
theorem finishPass_frame (s : SyncWorld) (pass : SyncPass) :
    (s.finishPass pass).blacklist = s.blacklist ∧ (s.finishPass pass).tasks = s.tasks ∧
      (s.finishPass pass).lastUser = s.lastUser ∧
      (s.finishPass pass).blockedSince = s.blockedSince ∧
      ((s.finishPass pass).store = s.store ∨
        pass.nowNs.saturatingSub s.lastPruneNs ≥ 60000000000 ∧
          (s.finishPass pass).store = s.store.pruneExpiredBlacklist pass.nowNs) := by
  unfold SyncWorld.finishPass
  rcases pass with ⟨nowNs, _ | ⟨addGen, hitGen⟩, _ | _⟩ <;> dsimp only <;> split <;> simp_all

theorem agrees_step (hI : ∀ k, Agrees s k) {l : SyncLabel} (hc : Separated s l)
    (h : syncStep s l = some s') (k : IpKey) : Agrees s' k := by
  cases syncStep_moves h with
  | blockMap hid => exact agrees_blockMap hI hid hc k
  | blockStore hid => exact agrees_blockStore hI hid k
  | unblockMap hid => exact agrees_unblockMap hI hid hc k
  | unblockStore hid => exact agrees_unblockStore hI hid k
  | dataPlaneBlock => exact agrees_dataPlaneBlock hI hc k
  | @snapshot id nowNs gens keys pass snapshot hid hheld =>
    refine agrees_pass hI (some (.scanned pass (changedEntries s.cache snapshot))) hid (by simp) ?_
      (by simp [SyncTask.IsPass]) ?_ ?_ k
    · exact ⟨rfl, rfl, rfl, rfl⟩
    · exact fun _ _ h => h
    · exact fun _ _ h => h
  | @loadOrigins id pass changed hid =>
    refine agrees_pass hI (some (.saving pass (dropHubRows s.store changed))) hid
      (by simp [SyncTask.IsPass]) ?_ (by simp [SyncTask.IsPass]) ?_ ?_ k
    · exact ⟨rfl, rfl, rfl, rfl⟩
    · exact fun _ _ h => h
    · exact fun _ _ h => h
  | @save id updatedNs pass p rest hid =>
    have hheld := hc pass p rest hid
    refine agrees_pass hI (some (.saving pass rest)) hid (by simp [SyncTask.IsPass]) ?_
      (by simp [SyncTask.IsPass]) ?_ ?_ k
    · exact ⟨rfl, rfl, rfl, rfl⟩
    · intro k hnone hrow
      have hk : p.key ≠ k := by
        rintro rfl
        rw [hnone] at hheld
        cases hheld
      simp only [RuleStore.getElem?_saveBlacklist, hk, if_false, hrow]
    · intro k _ hrow
      simp only [RuleStore.getElem?_saveBlacklist]
      split
      · rfl
      · exact hrow
  | @finish id pass hid =>
    obtain ⟨hmap, htasks, hlast, hsince, hstore⟩ := finishPass_frame s pass
    refine agrees_pass hI none hid (by simp [SyncTask.IsPass]) ?_ (by simp) ?_ ?_ k
    · exact ⟨hmap, congrArg (fun tasks => TaskTable.set tasks id none) htasks, hlast, hsince⟩
    · intro k _ hrow
      rcases hstore with hstore | ⟨_, hstore⟩
      · exact (congrArg (fun store => store[k]?) hstore).trans hrow
      · refine (congrArg (fun store => store[k]?) hstore).trans ?_
        rw [RuleStore.getElem?_pruneExpiredBlacklist, hrow]
        rfl
    · intro k hheld hrow
      rcases hstore with hstore | ⟨_, hstore⟩
      · rw [← hstore] at hrow
        exact hrow
      · obtain ⟨row, hrow⟩ := Option.isSome_iff_exists.1 hrow
        -- a row of an IP in the map has not expired
        have hlive : ¬ row.Expired pass.nowNs := by
          intro hexp
          rw [hc pass hid k row hrow hexp] at hheld
          cases hheld
        have hkept : (s.store.pruneExpiredBlacklist pass.nowNs)[k]? = some row := by
          simp [RuleStore.getElem?_pruneExpiredBlacklist, hrow, hlive]
        rw [← hstore] at hkept
        exact Option.isSome_iff_exists.2 ⟨row, hkept⟩

end step

/-! ## Whole runs -/

/-- In a run whose operations are separated, once every task is done: an IP whose last user
operation was an unblock, and which the data plane has not blocked since, is in neither the map nor
the store, and no reload brings it back; an IP whose last user operation was a block is in both. -/
theorem map_and_store_agree {s₀ s : SyncWorld} {labels : List SyncLabel}
    (hidle : Idle s₀.tasks) (hlast : ∀ k, s₀.lastUser k = none)
    (hc : Exec.Along syncStep Separated s₀ labels) (hrun : Exec.exec syncStep s₀ labels = some s)
    (hdone : Idle s.tasks) (k : IpKey) :
    (s.lastUser k = some .unblock → s.blockedSince k = false →
      s.blacklist k = none ∧ s.store[k]? = none ∧
        ∀ nowNs readNs blacklist, blacklist k = none →
          loadPersistedRules s.store nowNs readNs blacklist k = none) ∧
    (s.lastUser k = some .block → (s.blacklist k).isSome ∧ (s.store[k]?).isSome) := by
  have hinit : ∀ k, Agrees s₀ k := fun k =>
    { exclusive := fun h => hidle.not_pending h.1
      blocking := fun h => absurd h hidle.not_pending
      unblocking := fun h => absurd h hidle.not_pending
      unblocked := fun h => by simp [hlast] at h
      blocked := fun h => by simp [hlast] at h }
  have hI : ∀ k, Agrees s k :=
    Exec.exec_invariant (I := fun s => ∀ k, Agrees s k)
      (fun _ _ _ hI hc h => agrees_step hI hc h) hinit hc hrun
  refine ⟨fun hl hs => ?_, fun hl => (hI k).blocked hl hdone.not_pending⟩
  obtain ⟨hmap, hrow⟩ := (hI k).unblocked hl hs hdone.not_pending
  exact ⟨hmap, hrow, fun nowNs readNs blacklist hk =>
    (loadPersistedRules_of_no_row hrow nowNs readNs blacklist).trans hk⟩

/-- Two blocks by an administrator and one by the data plane, a pass that saves all three, and an unblock
of the first. -/
def passAndUnblock : List SyncLabel :=
  [.blockMap 0 (.fromIpv4 1) 60 6 .api 1000000000, .blockStore 0 1000000001 1000000002,
    .blockMap 0 (.fromIpv4 2) 60 6 .api 1000000003, .blockStore 0 1000000004 1000000005,
    .dataPlaneBlock (.fromIpv4 3) 1000000006 300000000000 rules.RATE_LIMIT.toUInt8,
    .snapshot 1 2000000000 none [.fromIpv4 1, .fromIpv4 2, .fromIpv4 3], .loadOrigins 1,
    .save 1 2000000001, .save 1 2000000002, .save 1 2000000003, .finish 1,
    .unblockMap 2 (.fromIpv4 1), .unblockStore 2]

theorem separated_passAndUnblock : Exec.Along syncStep Separated {} passAndUnblock := by
  -- the first two tasks have ended before the next begins
  refine .cons rfl (Idle.not_pending fun _ => rfl) (.cons rfl trivial (.cons rfl ?_ (.cons rfl trivial
    (.cons rfl ?_ (.cons rfl trivial (.cons rfl trivial (.cons rfl ?_ (.cons rfl ?_ (.cons rfl ?_
      (.cons rfl ?_ (.cons rfl ?_ (.cons rfl trivial trivial))))))))))))
  · refine Idle.not_pending fun id => ?_
    simp only [TaskTable.set, Function.update_apply]
    split_ifs <;> rfl
  · refine Idle.not_pending fun id => ?_
    simp only [TaskTable.set, Function.update_apply]
    split_ifs <;> rfl
  · rintro pass p rest ⟨⟩
    decide
  · rintro pass p rest ⟨⟩
    decide
  · rintro pass p rest ⟨⟩
    decide
  · rintro pass ⟨⟩ k row hrow hexp
    simp only [RuleStore.getElem?_saveBlacklist, persistBlock] at hrow
    -- the rows of the three addresses have not expired, and there are no others
    split_ifs at hrow
    all_goals first
      | cases hrow; exact absurd hexp (by decide)
      | simp at hrow
  · refine Idle.not_pending fun id => ?_
    simp only [TaskTable.set, Function.update_apply, finishPass_frame]
    split_ifs <;> rfl

/-- Once the pass and the unblock are done, the first address is in neither copy and the second in both. -/
theorem map_and_store_agree_after_pass :
    ∃ s, Exec.exec syncStep {} passAndUnblock = some s ∧
      (s.blacklist (.fromIpv4 1) = none ∧ s.store[IpKey.fromIpv4 1]? = none) ∧
      ((s.blacklist (.fromIpv4 2)).isSome ∧ (s.store[IpKey.fromIpv4 2]?).isSome) := by
  obtain ⟨s, hrun, hidle, hfirst, hsince, hsecond⟩ : ∃ s, Exec.exec syncStep {} passAndUnblock = some s ∧
      Idle s.tasks ∧ s.lastUser (.fromIpv4 1) = some .unblock ∧ s.blockedSince (.fromIpv4 1) = false ∧
        s.lastUser (.fromIpv4 2) = some .block := by
    refine ⟨_, rfl, fun id => ?_, by decide, by decide, by decide⟩
    simp only [TaskTable.set, Function.update_apply, finishPass_frame]
    split_ifs <;> rfl
  have hagree := map_and_store_agree (fun _ => rfl) (fun _ => rfl) separated_passAndUnblock hrun hidle
  obtain ⟨hmap, hrow, -⟩ := (hagree (.fromIpv4 1)).1 hfirst hsince
  exact ⟨s, hrun, ⟨hmap, hrow⟩, (hagree (.fromIpv4 2)).2 hsecond⟩

/-- A source blocked by the data plane is unblocked between the snapshot of a pass and its save: the
row comes back after the unblock is done, and the next reload blocks the source again. -/
theorem stale_snapshot_resurrects_row :
    ∃ s, Exec.exec syncStep
        { blacklist :=
            mergeInto .empty (.fromIpv4 1) 1000000000 300000000000 rules.RATE_LIMIT.toUInt8 false }
        [.snapshot 0 2000000000 none [.fromIpv4 1], .unblockMap 1 (.fromIpv4 1), .unblockStore 1,
          .loadOrigins 0, .save 0 3000000000, .finish 0] = some s ∧
      Idle s.tasks ∧ s.lastUser (.fromIpv4 1) = some .unblock ∧
      s.blockedSince (.fromIpv4 1) = false ∧ (s.store[IpKey.fromIpv4 1]?).isSome ∧
      (loadPersistedRules s.store 4000000000 (fun _ => 4000000000) .empty (.fromIpv4 1)).isSome := by
  refine ⟨_, rfl, ?_, rfl, rfl, by decide, by decide⟩
  intro id
  by_cases h0 : id = 0
  · simp [TaskTable.set, h0]
  · by_cases h1 : id = 1 <;> simp [TaskTable.set, h0, h1, (finishPass_frame _ _).2.1]

end EShield.Node
