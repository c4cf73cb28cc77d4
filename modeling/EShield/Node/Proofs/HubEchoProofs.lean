import EShield.Node.HubEcho
import EShield.Node.Proofs.BlacklistSyncProofs
import EShield.Node.Proofs.HubClientProofs

/-!
# No echo to the hub

The map does not say who decided a block, so a pass takes the origin from the row in the store. As
long as it finds one, an IP that only the hub has blocked keeps its origin and is never pushed.
-/

namespace EShield.Node

open Ebpf (LruHashMap Maps isBlacklisted mergeInto)
open TaskTable (Pending Each Idle pending_set_iff pending_of_eq)

/-! ## The condition on a run -/

/-- The pass has `k` in its snapshot and has not loaded the origins yet. -/
def SyncTask.Scans (k : IpKey) : SyncTask → Prop
  | scanned _ changed => ∃ p ∈ changed, p.key = k
  | _ => False

/-- Nothing but the hub blocks `k`, and nothing unblocks it. -/
def EchoLabel.HubOnly (k : IpKey) : EchoLabel → Prop
  | sync (.blockMap _ key _ _ origin _) => key = k → origin = .hub
  | sync (.unblockMap _ key) => key ≠ k
  | sync (.dataPlaneBlock key _ _ _) => key ≠ k
  | _ => True

/-- Whenever a pass loads the origin of `k`, the row of the block it has scanned is in the store; and
no pass prunes the row of `k` while the map holds `k`. -/
def OriginKnown (k : IpKey) (w : EchoWorld) : EchoLabel → Prop
  | .sync (.loadOrigins id) =>
    ∀ pass changed, w.sync.tasks id = some (.scanned pass changed) →
      (∃ p ∈ changed, p.key = k) → w.sync.Blocking k → (w.sync.store[k]?).isSome
  | .sync (.finish id) =>
    ∀ pass row, w.sync.tasks id = some (.saving pass []) →
      pass.nowNs.saturatingSub w.sync.lastPruneNs ≥ 60000000000 →
      w.sync.store[k]? = some row → row.Expired pass.nowNs →
        w.sync.blacklist k = none ∧ ¬ Pending w.sync.tasks (SyncTask.Scans k)
  | _ => True

/-! ## What holds of the IP -/

/-- A push that is being posted, or was accepted, carries a policy of `k`. -/
def PushWorld.Reports (s : PushWorld) (k : IpKey) : Prop :=
  (∃ batch, s.push = some (.posting batch) ∧ ∃ p ∈ batch.policies, p.ip = k) ∨
    ∃ batch ∈ s.accepted, ∃ p ∈ batch.policies, p.ip = k

/-- The store knows `k` as the hub's, and no push reports it. -/
structure HubOwned (w : EchoWorld) (k : IpKey) : Prop where
  origin : ∀ row, w.sync.store[k]? = some row → row.origin = .hub
  recorded : (w.sync.blacklist k).isSome → ¬ w.sync.Blocking k → (w.sync.store[k]?).isSome
  unreported : ¬ w.push.Reports k

/-- What the tasks in flight may hold of `k`. -/
def SyncTask.Harmless (k : IpKey) : SyncTask → Prop
  | blocking key _ _ origin => key = k → origin = .hub
  | unblocking key => key ≠ k
  | scanned _ changed => ∀ p ∈ changed, p.origin ≠ .hub
  | saving _ rest => ∀ p ∈ rest, p.key ≠ k

/-- The invariant of the tasks: who has `k` in hand finds its row, or the row is on its way. -/
structure HubBlocked (s : SyncWorld) (k : IpKey) : Prop where
  origin : ∀ row, s.store[k]? = some row → row.origin = .hub
  held : (s.blacklist k).isSome ∨ Pending s.tasks (SyncTask.Scans k) →
    (s.store[k]?).isSome ∨ s.Blocking k
  tasks : Each s.tasks (SyncTask.Harmless k)

/-- The invariant of a push. -/
structure HubUnreported (s : PushWorld) (k : IpKey) : Prop where
  loaded : ∀ rows, s.push = some (.loaded rows) → ∀ row, (k, row) ∈ rows → row.origin = .hub
  reports : ¬ s.Reports k

/-! ## Steps of the synchronisation -/

section sync

variable {s s' : SyncWorld} {k key : IpKey} {id : Nat}

/-- The entries of a snapshot that are saved carry an origin that is not the hub's. -/
theorem changedEntries_origin {cache : Std.ExtTreeMap IpKey CachedEntry}
    {snapshot : List (IpKey × BlockEntry)} {p : PendingSave} (h : p ∈ changedEntries cache snapshot) :
    p.origin ≠ .hub ∧ (p.key, p.entry) ∈ snapshot := by
  obtain ⟨kv, hkv, hp⟩ := List.mem_filterMap.1 h
  split at hp
  · cases hp
  rename_i origin _
  split at hp
  · cases hp
  rename_i hpub
  split at hp
  · cases hp
  cases hp
  refine ⟨?_, hkv⟩
  rintro rfl
  exact hpub rfl

/-- With its row in the store, an IP of the hub is not saved. -/
theorem dropHubRows_ne {store : RuleStore} {changed : List PendingSave} {p : PendingSave}
    (horigin : ∀ row, store[k]? = some row → row.origin = .hub) (hrow : (store[k]?).isSome)
    (hchanged : ∀ p ∈ changed, p.origin ≠ .hub) (h : p ∈ dropHubRows store changed) : p.key ≠ k := by
  rintro rfl
  obtain ⟨hmem, hkeep⟩ := List.mem_filter.1 h
  obtain ⟨row, hrow⟩ := Option.isSome_iff_exists.1 hrow
  have hhub : store.loadBlacklistOrigin p.key = some .hub := by
    rw [RuleStore.loadBlacklistOrigin, hrow, Option.map_some, horigin row hrow]
  simp [hchanged p hmem, hhub] at hkeep

/-- A step that leaves the map and the row of `k` alone and moves one task, which neither begins nor
ends a block of `k` and does not begin to scan it. -/
theorem HubBlocked.move (h : HubBlocked s k) {new : Option SyncTask}
    (hmap : s'.blacklist k = s.blacklist k) (hrow : s'.store[k]? = s.store[k]?)
    (htasks : s'.tasks = s.tasks.set id new) (hold : ∀ t, s.tasks id = some t → ¬ t.Blocks k)
    (hscan : ∀ t, new = some t → t.Scans k → (s.blacklist k).isSome ∨
      Pending s.tasks (SyncTask.Scans k))
    (hnew : ∀ t, new = some t → t.Harmless k) : HubBlocked s' k where
  origin row hsome := h.origin row (hrow ▸ hsome)
  tasks := htasks ▸ h.tasks.set hnew
  held hheld := by
    have hbefore : (s.blacklist k).isSome ∨ Pending s.tasks (SyncTask.Scans k) := by
      rcases hheld with hheld | ⟨i, t, ht, hscans⟩
      · exact .inl (hmap ▸ hheld)
      rw [htasks] at ht
      by_cases hi : i = id
      · subst hi
        rw [TaskTable.set, Function.update_self] at ht
        exact hscan t ht hscans
      · rw [TaskTable.set, Function.update_of_ne hi] at ht
        exact .inr ⟨i, t, ht, hscans⟩
    rw [hrow]
    refine (h.held hbefore).imp_right fun hb => ?_
    rw [SyncWorld.Blocking, htasks, pending_set_iff hold]
    exact .inl hb

theorem hubBlocked_blockStore (h : HubBlocked s k) {durationS rowNs updatedNs : UInt64}
    {reason : UInt8} {origin : BlockOrigin}
    (hid : s.tasks id = some (.blocking key durationS reason origin)) :
    HubBlocked
      { s with
        store := persistBlock s.store key durationS reason origin rowNs updatedNs
        tasks := s.tasks.set id none
        lastUser := Function.update s.lastUser key (some .block)
        blockedSince := Function.update s.blockedSince key false } k := by
  have horigin : key = k → origin = .hub := h.tasks id _ hid
  by_cases hk : key = k
  · subst hk
    have hrow : (persistBlock s.store key durationS reason origin rowNs updatedNs)[key]? =
        some
          { blockedUntilNs := blockUntil rowNs durationS, blockReason := reason
            firstSeenNs := rowNs, origin := origin, lastUpdatedNs := updatedNs } := by
      rw [persistBlock, RuleStore.getElem?_saveBlacklist, if_pos rfl]
    exact
      { origin := fun row hsome => by
          rw [hrow] at hsome
          cases hsome
          exact horigin rfl
        held := fun _ => .inl (Option.isSome_iff_exists.2 ⟨_, hrow⟩)
        tasks := h.tasks.set fun _ ht => by cases ht }
  · refine h.move rfl ?_ (show _ = s.tasks.set id none from rfl) ?_ (fun t ht => by cases ht)
      fun t ht => by cases ht
    · rw [persistBlock, RuleStore.getElem?_saveBlacklist, if_neg hk]
    · intro t ht
      rw [hid] at ht
      cases ht
      exact hk

/-- A pass prunes the row of `k` only when nobody has `k` in hand. -/
theorem HubBlocked.prune (h : HubBlocked s k) (nowNs : UInt64)
    (hc : ∀ row, s.store[k]? = some row → row.Expired nowNs →
      s.blacklist k = none ∧ ¬ Pending s.tasks (SyncTask.Scans k)) :
    HubBlocked { s with store := s.store.pruneExpiredBlacklist nowNs } k where
  origin row hsome := by
    rw [RuleStore.getElem?_pruneExpiredBlacklist] at hsome
    exact h.origin row (Option.filter_eq_some_iff.1 hsome).1
  tasks := h.tasks
  held hheld := by
    refine (h.held hheld).imp_left fun hrow => ?_
    obtain ⟨row, hrow⟩ := Option.isSome_iff_exists.1 hrow
    have hlive : ¬ row.Expired nowNs := by
      intro hexp
      obtain ⟨hmap, hscan⟩ := hc row hrow hexp
      rcases hheld with hheld | hheld
      · rw [hmap] at hheld
        cases hheld
      · exact hscan hheld
    rw [RuleStore.getElem?_pruneExpiredBlacklist, hrow]
    simp [hlive]

/-- The end of a pass, which may prune. -/
theorem hubBlocked_finish (h : HubBlocked s k) {pass : SyncPass}
    (hid : s.tasks id = some (.saving pass []))
    (hc : ∀ row, pass.nowNs.saturatingSub s.lastPruneNs ≥ 60000000000 → s.store[k]? = some row →
      row.Expired pass.nowNs → s.blacklist k = none ∧ ¬ Pending s.tasks (SyncTask.Scans k)) :
    HubBlocked { s.finishPass pass with tasks := (s.finishPass pass).tasks.set id none } k := by
  obtain ⟨hmap, htasks, _, _, hstore⟩ := finishPass_frame s pass
  have hnot : ∀ t, s.tasks id = some t → ¬ t.Blocks k := by
    rw [hid]
    rintro _ ⟨⟩
    exact fun h => h
  have htasks' : TaskTable.set (s.finishPass pass).tasks id none = s.tasks.set id none := by
    rw [htasks]
  rcases hstore with hstore | ⟨hdue, hstore⟩
  · exact h.move (congrFun hmap k) (congrArg (fun store => store[k]?) hstore) htasks' hnot
      (fun t ht => by cases ht) fun t ht => by cases ht
  · have hpruned := h.prune pass.nowNs fun row => hc row hdue
    exact hpruned.move (congrFun hmap k) (congrArg (fun store => store[k]?) hstore) htasks' hnot
      (fun t ht => by cases ht) fun t ht => by cases ht

/-- What a step of the synchronisation preserves. -/
theorem hubBlocked_step {w : EchoWorld} (h : HubBlocked w.sync k) {l : SyncLabel}
    (honly : EchoLabel.HubOnly k (.sync l)) (hc : OriginKnown k w (.sync l))
    (hstep : syncStep w.sync l = some s') : HubBlocked s' k := by
  cases syncStep_moves hstep with
  | @blockMap id key durationS reason origin nowNs hid =>
    have hold : ∀ t, w.sync.tasks id = some t → ¬ t.Blocks k := by simp [hid]
    by_cases hk : key = k
    · refine
        { origin := h.origin
          held := fun _ => .inr ⟨id, _, Function.update_self _ _ _, hk⟩
          tasks := h.tasks.set ?_ }
      rintro _ ⟨⟩
      exact honly
    · refine h.move (mergeInto_of_ne _ (Ne.symm hk) _ _ _ _) rfl rfl hold ?_ ?_
      · rintro _ ⟨⟩ hscans
        exact hscans.elim
      · rintro _ ⟨⟩
        exact honly
  | blockStore hid => exact hubBlocked_blockStore h hid
  | unblockMap hid =>
    refine h.move (LruHashMap.remove_of_ne _ (Ne.symm honly)) rfl rfl (by simp [hid]) ?_ ?_
    · rintro _ ⟨⟩ hscans
      exact hscans.elim
    · rintro _ ⟨⟩
      exact honly
  | @unblockStore id key hid =>
    have hk : key ≠ k := h.tasks id _ hid
    refine h.move rfl ?_ (show _ = w.sync.tasks.set id _ from rfl) ?_ (fun t ht => by cases ht)
      (fun t ht => by cases ht)
    · exact (RuleStore.getElem?_removeBlacklist _ _ _).trans (if_neg hk)
    · rw [hid]
      rintro _ ⟨⟩
      exact fun h => h
  | @dataPlaneBlock key nowNs untilNs reason =>
    exact
      { origin := h.origin
        held := fun hheld => h.held (hheld.imp_left fun hm =>
          mergeInto_of_ne w.sync.blacklist (Ne.symm honly) nowNs untilNs reason false ▸ hm)
        tasks := h.tasks }
  | snapshot hid hheld =>
    refine h.move rfl rfl rfl (by simp [hid]) ?_ ?_
    · rintro _ ⟨⟩ ⟨p, hp, rfl⟩
      exact .inl (Option.isSome_iff_exists.2 ⟨_, hheld _ (changedEntries_origin hp).2⟩)
    · rintro _ ⟨⟩ p hp
      exact (changedEntries_origin hp).1
  | @loadOrigins id pass changed hid =>
    refine h.move rfl rfl rfl ?_ ?_ ?_
    · rw [hid]
      rintro _ ⟨⟩
      exact fun h => h
    · rintro _ ⟨⟩ hscans
      exact hscans.elim
    · rintro _ ⟨⟩ p hp rfl
      -- the row is there: by the condition if the block is still being stored
      have hscans : ∃ q ∈ changed, q.key = p.key := ⟨p, List.mem_of_mem_filter hp, rfl⟩
      have hrow : (w.sync.store[p.key]?).isSome :=
        (h.held (.inr (pending_of_eq hid hscans))).elim (fun hrow => hrow)
          (hc pass changed hid hscans)
      exact dropHubRows_ne h.origin hrow (h.tasks id _ hid) hp rfl
  | @save id updatedNs pass p rest hid =>
    have hrest := h.tasks id _ hid
    refine h.move rfl ?_ (show _ = w.sync.tasks.set id _ from rfl) ?_ ?_ ?_
    · exact (RuleStore.getElem?_saveBlacklist _ _ _ _ _ _ _ _).trans
        (if_neg (hrest p List.mem_cons_self))
    · rw [hid]
      rintro _ ⟨⟩
      exact fun h => h
    · rintro _ ⟨⟩ hscans
      exact hscans.elim
    · rintro _ ⟨⟩ q hq
      exact hrest q (List.mem_cons_of_mem _ hq)
  | @finish id pass hid => exact hubBlocked_finish h hid fun row => hc pass row hid

end sync

/-! ## Steps of a push -/

section push

variable {cfg : PublishConfig} {s s' : PushWorld} {k : IpKey}

/-- A step after which nothing is being posted reports nothing new. -/
theorem HubUnreported.quiet (h : HubUnreported s k) (hacc : s'.accepted = s.accepted)
    (hpost : ∀ batch, s'.push ≠ some (.posting batch)) : ¬ s'.Reports k := by
  rintro (⟨batch, hpush, _⟩ | hrep)
  · exact hpost batch hpush
  · rw [hacc] at hrep
    exact h.reports (.inr hrep)

/-- What a step of a push preserves, as long as the rows of `k` in the store are the hub's. -/
theorem hubUnreported_step (h : HubUnreported s k)
    (horigin : ∀ row, s.store[k]? = some row → row.origin = .hub) {l : PushLabel}
    (honce : l.isPushOnce = true) (hstep : pushStep cfg s l = some s') : HubUnreported s' k := by
  cases pushStep_moves hstep with
  | beginSave | commitSave | remove | setMaps => cases honce
  | load =>
    exact
      { loaded := by
          rintro _ ⟨⟩ row hmem
          exact horigin row (RuleStore.mem_loadBlacklistSince.1 hmem).1
        reports := h.quiet rfl fun _ ht => by cases ht }
  | @collect nowNs rows push hloaded hclock hpush =>
    -- a policy of `k` would come from a row of publishable origin
    have hnone : ∀ p ∈ collectHubPublishablePolicies cfg rows s.maps nowNs, p.ip ≠ k := by
      rintro p hp rfl
      obtain ⟨c, hc, rfl⟩ := List.mem_map.1 hp
      obtain ⟨hrow, hpub, _⟩ := mem_collectedRows hc
      rw [h.loaded rows hloaded c.2.1 hrow] at hpub
      cases hpub
    rcases hpush with rfl | rfl
    · exact
        { loaded := fun _ ht => by cases ht
          reports := h.quiet rfl fun _ ht => by cases ht }
    · exact
        { loaded := fun _ ht => by cases ht
          reports := by
            rintro (⟨batch, hpush, p, hp, hk⟩ | hacc)
            · cases hpush
              exact hnone p hp hk
            · exact h.reports (.inr hacc) }
  | @postSucceeds batch hposting =>
    exact
      { loaded := fun _ ht => by cases ht
        reports := by
          rintro (⟨batch, hpush, _⟩ | ⟨b, hb, hk⟩)
          · cases hpush
          · rcases List.mem_append.1 hb with hb | hb
            · exact h.reports (.inr ⟨b, hb, hk⟩)
            · rw [List.mem_singleton.1 hb] at hk
              exact h.reports (.inl ⟨batch, hposting, hk⟩) }
  | postFails | advance =>
    exact
      { loaded := fun _ ht => by cases ht
        reports := h.quiet rfl fun _ ht => by cases ht }

end push

/-! ## Whole runs -/

section run

variable {cfg : PublishConfig} {w w' : EchoWorld} {k : IpKey}

/-- A packet adds no entry to the map. -/
theorem isBlacklisted_isSome {m : Maps} {src : IpKey} {nowNs : UInt64}
    (h : ((isBlacklisted m src nowNs).2.blacklist k).isSome) : (m.blacklist k).isSome := by
  unfold isBlacklisted at h
  cases hsrc : m.blacklist src with
  | none =>
    rw [hsrc] at h
    exact h
  | some entry =>
    rw [hsrc] at h
    by_cases hk : k = src
    · rw [hk, hsrc]
      rfl
    · dsimp only at h
      split at h
      · split at h
        · simpa [Maps.withStats, LruHashMap.insert_of_ne _ _ hk] using h
        · exact h
      · simpa [LruHashMap.remove_of_ne _ hk] using h

theorem HubBlocked.forget {s : SyncWorld} (h : HubBlocked s k)
    {blacklist : LruHashMap IpKey BlockEntry}
    (hmap : (blacklist k).isSome → (s.blacklist k).isSome) :
    HubBlocked { s with blacklist := blacklist } k where
  origin := h.origin
  held hheld := h.held (hheld.imp_left hmap)
  tasks := h.tasks

theorem echo_step (h : HubBlocked w.sync k ∧ HubUnreported w.push k) {l : EchoLabel}
    (honly : l.HubOnly k) (hc : OriginKnown k w l) (hstep : echoStep cfg w l = some w') :
    HubBlocked w'.sync k ∧ HubUnreported w'.push k := by
  obtain ⟨hsync, hpush⟩ := h
  have hmaps : ∀ maps : Maps, HubUnreported { w.push with maps := maps } k := fun _ =>
    { loaded := hpush.loaded
      reports := hpush.reports }
  cases l with
  | sync l =>
    obtain ⟨s', hs', rfl⟩ := Option.map_eq_some_iff.1 hstep
    exact ⟨hubBlocked_step hsync honly hc hs', hpush⟩
  | push l =>
    simp only [echoStep] at hstep
    split at hstep
    swap
    · cases hstep
    rename_i honce
    obtain ⟨p', hp', rfl⟩ := Option.map_eq_some_iff.1 hstep
    have hview : HubUnreported w.pushView k :=
      { loaded := hpush.loaded
        reports := hpush.reports }
    exact ⟨hsync, hubUnreported_step hview hsync.origin honce hp'⟩
  | packet key nowNs =>
    cases hstep
    exact ⟨hsync.forget isBlacklisted_isSome, hmaps _⟩
  | evict key =>
    cases hstep
    exact ⟨hsync.forget (LruHashMap.isSome_of_remove w.sync.blacklist), hmaps _⟩
  | setTrust trustMap =>
    cases hstep
    exact ⟨hsync.forget fun hm => hm, hmaps _⟩

/-- In a run whose passes find the origin of `k` in the store, an IP that only the hub blocks stays
the hub's: its row, which is there whenever the map holds it and no block of it is half done, says
so, and no push reports it. -/
theorem no_hub_echo {w₀ : EchoWorld} {labels : List EchoLabel}
    (hmap : w₀.sync.blacklist k = none) (hrow : ∀ row, w₀.sync.store[k]? = some row → row.origin = .hub)
    (hidle : Idle w₀.sync.tasks) (hpush : w₀.push.push = none) (hacc : w₀.push.accepted = [])
    (honly : ∀ l ∈ labels, EchoLabel.HubOnly k l)
    (hc : Exec.Along (echoStep cfg) (OriginKnown k) w₀ labels)
    (hrun : Exec.exec (echoStep cfg) w₀ labels = some w) : HubOwned w k := by
  have hinit : HubBlocked w₀.sync k ∧ HubUnreported w₀.push k :=
    ⟨{ origin := hrow
       held := fun hheld => by
         rcases hheld with hheld | hheld
         · rw [hmap] at hheld
           cases hheld
         · exact absurd hheld hidle.not_pending
       tasks := fun id t ht => by
         rw [hidle id] at ht
         cases ht },
     { loaded := fun rows ht => by
         rw [hpush] at ht
         cases ht
       reports := by
         rintro (⟨batch, hposting, _⟩ | ⟨batch, hmem, _⟩)
         · rw [hpush] at hposting
           cases hposting
         · rw [hacc] at hmem
           cases hmem }⟩
  obtain ⟨hsync, hreport⟩ :=
    Exec.exec_invariant (I := fun w => HubBlocked w.sync k ∧ HubUnreported w.push k)
      (fun _ _ _ hI hc hstep => echo_step hI hc.2 hc.1 hstep) hinit (hc.and_mem honly) hrun
  exact
    { origin := hsync.origin
      recorded := fun hheld hblocking => (hsync.held (.inl hheld)).resolve_right hblocking
      unreported := hreport.reports }

/-- The hub's block is stored before a pass scans the map: the pass finds its origin. -/
theorem no_hub_echo_stored_first :
    ∃ w, Exec.exec (echoStep { minHits := 1, minTrust := 50, limit := 10 }) {}
        [.sync (.blockMap 0 (.fromIpv4 1) 60 rules.RATE_LIMIT.toUInt8 .hub 1000000000),
          .sync (.blockStore 0 1000000001 1000000002),
          .sync (.snapshot 1 2000000000 none [.fromIpv4 1]), .sync (.loadOrigins 1)] = some w ∧
      HubOwned w (.fromIpv4 1) := by
  refine ⟨_, rfl, @no_hub_echo { minHits := 1, minTrust := 50, limit := 10 } _ _ {}
    [.sync (.blockMap 0 (.fromIpv4 1) 60 rules.RATE_LIMIT.toUInt8 .hub 1000000000),
      .sync (.blockStore 0 1000000001 1000000002),
      .sync (.snapshot 1 2000000000 none [.fromIpv4 1]), .sync (.loadOrigins 1)]
    rfl ?_ (fun _ => rfl) rfl rfl ?_ ?_ rfl⟩
  · intro row hrow
    cases hrow
  · simp [EchoLabel.HubOnly]
  · refine .cons rfl trivial (.cons rfl trivial (.cons rfl trivial (.cons rfl ?_ trivial)))
    intro _ _ _ _ _
    rfl

/-- The pass runs between the two halves of the hub's block: it finds no row, saves the block as
the node's own over the hub's row, and the next push reports it. -/
theorem scan_between_halves_echoes :
    ∃ labels w, (∀ l ∈ labels, EchoLabel.HubOnly (.fromIpv4 1) l) ∧
      Exec.exec (echoStep { minHits := 1, minTrust := 50, limit := 10 }) {} labels = some w ∧
      w.sync.store.loadBlacklistOrigin (.fromIpv4 1) = some .detected ∧
      w.push.Reports (.fromIpv4 1) := by
  refine
    ⟨[.sync (.blockMap 0 (.fromIpv4 1) 60 rules.RATE_LIMIT.toUInt8 .hub 1000000000),
      .sync (.snapshot 1 1100000000 none [.fromIpv4 1]), .sync (.loadOrigins 1),
      .sync (.blockStore 0 1200000000 1200000001), .sync (.save 1 1300000000),
      .push .load, .push (.collect 1400000000)], _, ?_, rfl, by decide, .inl ⟨_, rfl, ?_⟩⟩
  · simp [EchoLabel.HubOnly]
  · decide

end run

end EShield.Node
