import EShield.Fleet.Replica
import EShield.Hub.Proofs.StoreProofs
import EShield.Node.Proofs.HubPolicyProofs

/-!
# A node converges to the hub

Both tables of the hub are feeds. The node has blocked the policies behind its first cursor and
cleared the deletions behind its second one, and every cycle takes rows off what is pending.
-/

namespace EShield.Hub.Store

/-! ## Progress of a reader -/

variable {V : Type} {table : Std.ExtTreeMap CompositeKey V}

/-- A page takes rows off what is pending. -/
theorem pending_pageSince (table : Std.ExtTreeMap CompositeKey V) (sinceNs : UInt64) {limit : Nat}
    (hlimit : limit ≠ 0) :
    Feed.pending (pageSince table sinceNs limit).2 (stamped table) ≤
      Feed.pending sinceNs (stamped table) - 1 := by
  have hcursor : (pageSince table sinceNs limit).2 =
      Feed.cursor sinceNs (Feed.page limit sinceNs (stamped table)) := by
    rw [pageSince, if_neg hlimit]
  rw [hcursor]
  by_cases hzero : Feed.pending sinceNs (stamped table) = 0
  · have hle := (Feed.page_spec (sorted_stamped table) limit sinceNs).1
    have := Feed.pending_anti hle (stamped table)
    omega
  · have := Feed.pending_cursor_lt (sorted_stamped table) limit sinceNs hzero
    omega

/-- Nothing is pending behind the last stamp. -/
theorem le_of_pending_eq_zero (sinceNs : UInt64) (h : Feed.pending sinceNs (stamped table) = 0)
    {ck : CompositeKey} {v : V} (hv : table[ck]? = some v) : ck.lastSeenNs ≤ sinceNs :=
  Feed.le_of_pending_eq_zero h (r := (ck.lastSeenNs, ck, v)) (mem_stamped.2 ⟨rfl, hv⟩)

/-- To know all rows of a table is to know its list. -/
theorem forall_rows {P : CompositeKey → V → Prop} (h : ∀ kv ∈ table.toList, P kv.1 kv.2)
    (ck : CompositeKey) (v : V) (hv : table[ck]? = some v) : P ck v :=
  h (ck, v) (Std.ExtTreeMap.mem_toList_iff_getElem?_eq_some.2 hv)

theorem pending_le_size (table : Std.ExtTreeMap CompositeKey V) (sinceNs : UInt64) :
    Feed.pending sinceNs (stamped table) ≤ table.size := by
  refine (List.length_filter_le _ _).trans ?_
  rw [stamped, List.length_map, Std.ExtTreeMap.length_toList]

end EShield.Hub.Store

namespace EShield.Fleet

open Ebpf (Blacklisted)
open Feed (Complete)
open Node (ApplyConfig BlockClock BlockOrigin ControlState Reaches)

/-- The node did not contribute to the policy, so it does not pass it over as its own. -/
def Foreign (cfg : ApplyConfig) (p : SharedPolicy) : Prop :=
  cfg.nodeName = "" ∨ cfg.nodeName ∉ p.sourceNodes

instance (cfg : ApplyConfig) (p : SharedPolicy) : Decidable (Foreign cfg p) :=
  inferInstanceAs (Decidable (_ ∨ _))

/-- Every foreign policy that is pulled finds its IP blocked until `t` or, where the map has no entry
for it, lasts until `t` itself. A deletion is not pulled after a policy that has followed it. -/
def Lasting (cfg : ApplyConfig) (t : UInt64) (s : ReplicaWorld) : ReplicaLabel → Prop
  | .pull clocks =>
    ∀ p ∈ (s.hub.querySince s.lastPullNs PULL_LIMIT).1.zipIdx,
      (clocks p.2).mapNs ≤ t ∧
        (Foreign cfg p.1 →
          if (s.node.maps.blacklist p.1.ip).isSome then Blacklisted s.node.maps.blacklist p.1.ip t
          else Reaches (clocks p.2).mapNs p.1.ttlS t)
  | .pullDeleted =>
    ∀ ip ∈ (s.hub.queryTombstonesSince s.lastDeletedNs PULL_LIMIT).1, ∀ p,
      s.hub.view ip = some p → s.lastPullNs < p.lastSeenNs
  | _ => True

/-! ## The invariant -/

/-- A policy that is live on the hub and that the node is to block. -/
def ReplicaWorld.Live (cfg : ApplyConfig) (s : ReplicaWorld) (ip : IpKey) (p : SharedPolicy) :
    Prop :=
  s.hub.view ip = some p ∧ Foreign cfg p

/-- The IP has been deleted on the hub at `stamp`. -/
def ReplicaWorld.Deleted (s : ReplicaWorld) (stamp : UInt64) (ip : IpKey) : Prop :=
  s.hub.tombstones[(⟨stamp, ip⟩ : Hub.CompositeKey)]? = some ()

structure ReplicaInvariant (cfg : ApplyConfig) (t : UInt64) (s : ReplicaWorld) : Prop where
  wellFormed : s.hub.WellFormed
  policyStamps : ∀ ip p, s.hub.view ip = some p → 0 < p.lastSeenNs ∧ p.lastSeenNs ≤ s.hubNs
  tombstoneStamps : ∀ stamp ip, s.Deleted stamp ip → 0 < stamp ∧ stamp ≤ s.hubNs
  pullCursor : s.lastPullNs ≤ s.hubNs
  deletedCursor : s.lastDeletedNs ≤ s.hubNs
  blocked : Complete (fun _ p => p.lastSeenNs) (s.Live cfg)
    (fun ip _ => Blacklisted s.node.maps.blacklist ip t) s.lastPullNs
  /-- All deletions of the IP are behind the cursor. -/
  cleared : ∀ ip, s.hub.view ip = none → (∃ stamp, s.Deleted stamp ip) →
    (∀ stamp, s.Deleted stamp ip → stamp ≤ s.lastDeletedNs) →
      s.node.store.loadBlacklistOrigin ip ≠ some .hub

variable {cfg : ApplyConfig} {t : UInt64} {s s' : ReplicaWorld}

theorem pullLimit_ne_zero : PULL_LIMIT ≠ 0 := by decide

theorem loadBlacklistOrigin_congr {store store' : Node.RuleStore} {ip : IpKey}
    (h : store'[ip]? = store[ip]?) :
    store'.loadBlacklistOrigin ip = store.loadBlacklistOrigin ip := by
  rw [Node.RuleStore.loadBlacklistOrigin, h, Node.RuleStore.loadBlacklistOrigin]

theorem replicaInvariant_merge (hI : ReplicaInvariant cfg t s) {nodeName : String}
    {chunk : List NodePolicy} {nowNs : UInt64} (hclock : s.hubNs < nowNs) {hub : Hub.Store}
    (h : s.hub.mergeChunk nodeName chunk nowNs = some hub) :
    ReplicaInvariant cfg t { s with hub := hub, hubNs := nowNs } := by
  obtain ⟨hub', hmerge, hwf, hview, htomb⟩ :=
    Hub.Store.mergeChunk_spec hI.wellFormed nodeName chunk nowNs
  rw [h] at hmerge
  cases hmerge
  have hle : s.hubNs ≤ nowNs := le_of_lt hclock
  -- what the chunk does not leave as it was is stamped now
  have hcases : ∀ ip p, hub.view ip = some p → s.hub.view ip = some p ∨ nowNs ≤ p.lastSeenNs := by
    intro ip p hp
    rw [hview] at hp
    exact Hub.Store.mergedView_cases hp
  have hdel : ∀ stamp ip, ReplicaWorld.Deleted { s with hub := hub, hubNs := nowNs } stamp ip ↔
      s.Deleted stamp ip := by
    intro stamp ip
    simp only [ReplicaWorld.Deleted, htomb]
  refine ⟨hwf, ?_, ?_, le_trans hI.pullCursor hle, le_trans hI.deletedCursor hle, ?_, ?_⟩
  · intro ip p hp
    have hup : p.lastSeenNs ≤ nowNs := by
      change hub.view ip = some p at hp
      rw [hview] at hp
      exact Hub.Store.mergedView_le (fun i q hq => le_trans (hI.policyStamps i q hq).2 hle) hp
    refine ⟨?_, hup⟩
    rcases hcases ip p hp with hold | hnew
    · exact (hI.policyStamps ip p hold).1
    · exact lt_of_le_of_lt UInt64.zero_le (lt_of_lt_of_le hclock hnew)
  · intro stamp ip hd
    obtain ⟨hpos, hup⟩ := hI.tombstoneStamps stamp ip ((hdel stamp ip).1 hd)
    exact ⟨hpos, le_trans hup hle⟩
  · refine hI.blocked.write fun ip p hp => ?_
    rcases hcases ip p hp.1 with hold | hnew
    · exact .inl ⟨hold, hp.2⟩
    · exact .inr (lt_of_le_of_lt hI.pullCursor (lt_of_lt_of_le hclock hnew))
  · rintro ip hnone ⟨stamp, hd⟩ hall
    refine hI.cleared ip ?_ ⟨stamp, (hdel stamp ip).1 hd⟩
      fun stamp hd => hall stamp ((hdel stamp ip).2 hd)
    -- a chunk removes no policy
    change hub.view ip = none at hnone
    rw [hview] at hnone
    exact Hub.Store.mergedView_eq_none hnone

theorem replicaInvariant_delete (hI : ReplicaInvariant cfg t s) (ips : List IpKey)
    {nowNs : UInt64} (hclock : s.hubNs < nowNs) :
    ReplicaInvariant cfg t { s with hub := s.hub.deletePolicies ips nowNs, hubNs := nowNs } := by
  obtain ⟨hwf, hview, htomb⟩ := Hub.Store.deletePolicies_spec hI.wellFormed ips nowNs
  have hle : s.hubNs ≤ nowNs := le_of_lt hclock
  have hold : ∀ ip p, (s.hub.deletePolicies ips nowNs).view ip = some p →
      s.hub.view ip = some p := by
    intro ip p hp
    rw [hview] at hp
    split at hp
    · cases hp
    · exact hp
  refine ⟨hwf, ?_, ?_, le_trans hI.pullCursor hle, le_trans hI.deletedCursor hle, ?_, ?_⟩
  · intro ip p hp
    obtain ⟨hpos, hup⟩ := hI.policyStamps ip p (hold ip p hp)
    exact ⟨hpos, le_trans hup hle⟩
  · intro stamp ip hd
    rcases (htomb _).1 hd with hd | ⟨rfl, _⟩
    · obtain ⟨hpos, hup⟩ := hI.tombstoneStamps stamp ip hd
      exact ⟨hpos, le_trans hup hle⟩
    · exact ⟨lt_of_le_of_lt UInt64.zero_le hclock, le_rfl⟩
  · exact hI.blocked.write fun ip p hp => .inl ⟨hold ip p hp.1, hp.2⟩
  · rintro ip hnone ⟨stamp, hd⟩ hall
    have hip : ip ∉ ips := by
      intro hip
      have hnow := hall nowNs ((htomb _).2 (.inr ⟨rfl, hip⟩))
      exact absurd hclock (not_lt.2 (le_trans hnow hI.deletedCursor))
    have hd' : ∀ stamp, s.Deleted stamp ip → stamp ≤ s.lastDeletedNs :=
      fun stamp hd => hall stamp ((htomb _).2 (.inl hd))
    change (s.hub.deletePolicies ips nowNs).view ip = none at hnone
    rw [hview, if_neg hip] at hnone
    refine hI.cleared ip hnone ?_ hd'
    rcases (htomb _).1 hd with hd | ⟨_, hmem⟩
    · exact ⟨stamp, hd⟩
    · exact absurd hmem hip

theorem replicaInvariant_pull (hI : ReplicaInvariant cfg t s) {clocks : Nat → BlockClock}
    (hc : Lasting cfg t s (.pull clocks)) :
    ReplicaInvariant cfg t
      { s with
        node := Node.applyHubPolicies cfg s.node (s.hub.querySince s.lastPullNs PULL_LIMIT).1 clocks
        lastPullNs := (s.hub.querySince s.lastPullNs PULL_LIMIT).2 } := by
  obtain ⟨_, hpage, _⟩ := Hub.Store.querySince_spec hI.wellFormed s.lastPullNs pullLimit_ne_zero
  have hle := fun p hp => (hc p hp).1
  refine ⟨hI.wellFormed, hI.policyStamps, hI.tombstoneStamps, ?_, hI.deletedCursor, ?_, ?_⟩
  · rcases Hub.Store.pageSince_cursor s.hub.policies s.lastPullNs PULL_LIMIT with
      heq | ⟨ck, p, hp, heq⟩
    · exact heq.trans_le hI.pullCursor
    · have hview := hI.wellFormed.view_iff.2 ⟨rfl, hI.wellFormed.key_eq ck p hp ▸ hp⟩
      rw [hI.wellFormed.key_eq ck p hp] at heq
      exact heq.symm.trans_le (hI.policyStamps _ p hview).2
  · refine hI.blocked.advance
      (fun ip p _ hb => Node.blacklisted_applyHubPolicies_mono hle hb) ?_
    rintro ip p ⟨hview, hforeign⟩ hlt hcur
    obtain rfl := hI.wellFormed.view_ip hview
    obtain ⟨i, hget⟩ := List.mem_iff_getElem?.1 ((hpage p).2 ⟨hview, hlt, hcur⟩)
    have hi := List.mk_mem_zipIdx_iff_getElem?.2 hget
    have hlasts := (hc _ hi).2 hforeign
    split at hlasts
    · exact Node.blacklisted_applyHubPolicies_mono hle hlasts
    · rename_i hnew
      refine Node.blacklisted_applyHubPolicies hle hi (not_or.2 ⟨hnew, ?_⟩) hlasts
      rintro ⟨hname, hmem⟩
      exact hforeign.elim hname (absurd hmem)
  · intro ip hnone hd hall
    -- an IP without a policy is not on the page
    have hframe := Node.applyHubPolicies_frame cfg s.node
      (s.hub.querySince s.lastPullNs PULL_LIMIT).1 clocks ip fun p hp hip => by
        rw [← hip, ((hpage p).1 hp).1] at hnone
        cases hnone
    have horigin := hI.cleared ip hnone hd hall
    rwa [← loadBlacklistOrigin_congr hframe.2] at horigin

theorem replicaInvariant_pullDeleted (hI : ReplicaInvariant cfg t s)
    (hc : Lasting cfg t s .pullDeleted) :
    ReplicaInvariant cfg t
      { s with
        node :=
          Node.unblockHubPolicies s.node
            (s.hub.queryTombstonesSince s.lastDeletedNs PULL_LIMIT).1
        lastDeletedNs := (s.hub.queryTombstonesSince s.lastDeletedNs PULL_LIMIT).2 } := by
  have hpage := s.hub.mem_queryTombstonesSince s.lastDeletedNs pullLimit_ne_zero
  refine ⟨hI.wellFormed, hI.policyStamps, hI.tombstoneStamps, hI.pullCursor, ?_, ?_, ?_⟩
  · rcases Hub.Store.pageSince_cursor s.hub.tombstones s.lastDeletedNs PULL_LIMIT with
      heq | ⟨ck, v, hv, heq⟩
    · exact heq.trans_le hI.deletedCursor
    · exact heq.symm.trans_le (hI.tombstoneStamps ck.lastSeenNs ck.ip hv).2
  · intro ip p hp hle
    have hnot : ip ∉ (s.hub.queryTombstonesSince s.lastDeletedNs PULL_LIMIT).1 :=
      fun hip => absurd hle (not_le.2 (hc ip hip p hp.1))
    obtain ⟨e, he, heff⟩ := hI.blocked ip p hp hle
    refine ⟨e, ?_, heff⟩
    rw [(Node.unblockHubPolicies_lookup _ _ ip).1, if_neg fun h => hnot h.1]
    exact he
  · intro ip hnone hd hall
    have hrow := (Node.unblockHubPolicies_lookup s.node
      (s.hub.queryTombstonesSince s.lastDeletedNs PULL_LIMIT).1 ip).2
    split at hrow
    · rw [Node.RuleStore.loadBlacklistOrigin, hrow]
      exact Option.some_ne_none _ ∘ Eq.symm
    · rename_i hkept
      rw [loadBlacklistOrigin_congr hrow]
      intro horigin
      -- the deletions of the IP were behind the cursor already, or the page has one of them
      have hnew : ∃ stamp, s.Deleted stamp ip ∧ s.lastDeletedNs < stamp := by
        by_contra hno
        refine hI.cleared ip hnone hd (fun stamp hd => ?_) horigin
        exact not_lt.1 fun hlt => hno ⟨stamp, hd, hlt⟩
      obtain ⟨stamp, hd, hlt⟩ := hnew
      exact hkept ⟨(hpage ip).2 ⟨stamp, hd, hlt, hall stamp hd⟩, horigin⟩

theorem replicaInvariant_restart (hI : ReplicaInvariant cfg t s) (node : ControlState) :
    ReplicaInvariant cfg t { s with node := node, lastPullNs := 0, lastDeletedNs := 0 } := by
  refine ⟨hI.wellFormed, hI.policyStamps, hI.tombstoneStamps, UInt64.zero_le, UInt64.zero_le, ?_, ?_⟩
  · intro ip p hp hle
    exact absurd hle (not_le.2 (hI.policyStamps ip p hp.1).1)
  · rintro ip _ ⟨stamp, hd⟩ hall
    exact absurd (hall stamp hd) (not_le.2 (hI.tombstoneStamps stamp ip hd).1)

theorem replicaInvariant_step (hI : ReplicaInvariant cfg t s) {l : ReplicaLabel}
    (hc : Lasting cfg t s l) (h : replicaStep cfg s l = some s') : ReplicaInvariant cfg t s' := by
  cases l with
  | merge nodeName chunk nowNs =>
    simp only [replicaStep] at h
    split at h
    · rename_i hclock
      obtain ⟨hub, hmerge, rfl⟩ := Option.map_eq_some_iff.1 h
      exact replicaInvariant_merge hI hclock hmerge
    · cases h
  | delete ips nowNs =>
    simp only [replicaStep] at h
    split at h <;> cases h
    rename_i hclock
    exact replicaInvariant_delete hI ips hclock
  | pull clocks =>
    cases h
    exact replicaInvariant_pull hI hc
  | pullDeleted =>
    cases h
    exact replicaInvariant_pullDeleted hI hc
  | restart node =>
    cases h
    exact replicaInvariant_restart hI node

/-! ## Whole runs -/

/-- Cycles leave the hub alone, and each takes rows off what is pending in both tables. -/
theorem pending_syncCycles {cycles : List (Nat → BlockClock)}
    (h : Exec.exec (replicaStep cfg) s (syncCycles cycles) = some s') :
    s'.hub = s.hub ∧
      Feed.pending s'.lastPullNs (Hub.Store.stamped s'.hub.policies) ≤
        Feed.pending s.lastPullNs (Hub.Store.stamped s.hub.policies) - cycles.length ∧
      Feed.pending s'.lastDeletedNs (Hub.Store.stamped s'.hub.tombstones) ≤
        Feed.pending s.lastDeletedNs (Hub.Store.stamped s.hub.tombstones) - cycles.length := by
  induction cycles generalizing s with
  | nil =>
    cases h
    exact ⟨rfl, le_rfl, le_rfl⟩
  | cons clocks cycles ih =>
    obtain ⟨hhub, hpolicies, htombs⟩ := ih h
    refine ⟨hhub, hpolicies.trans ?_, htombs.trans ?_⟩
    · have hpage := Hub.Store.pending_pageSince s.hub.policies s.lastPullNs pullLimit_ne_zero
      exact (Nat.sub_le_sub_right hpage cycles.length).trans (by rw [List.length_cons]; omega)
    · have hpage := Hub.Store.pending_pageSince s.hub.tombstones s.lastDeletedNs pullLimit_ne_zero
      exact (Nat.sub_le_sub_right hpage cycles.length).trans (by rw [List.length_cons]; omega)

/-- Any run of merges, deletions, pulls and restarts, and then as many cycles as the larger table of
the hub has rows. If what the node pulls lasts until `t`, then at `t` the node blocks every IP that
is live on the hub and to which it did not contribute, and it holds no block from the hub for an IP
that was deleted there and not added again. -/
theorem node_and_hub_converge {s₀ : ReplicaWorld} {history : List ReplicaLabel}
    {cycles : List (Nat → BlockClock)} (hwf : s₀.hub.WellFormed)
    (hpolicies : ∀ ip p, s₀.hub.view ip = some p → 0 < p.lastSeenNs ∧ p.lastSeenNs ≤ s₀.hubNs)
    (htombs : ∀ stamp ip, s₀.Deleted stamp ip → 0 < stamp ∧ stamp ≤ s₀.hubNs)
    (hpull : s₀.lastPullNs = 0) (hdeleted : s₀.lastDeletedNs = 0)
    (hc : Exec.Along (replicaStep cfg) (Lasting cfg t) s₀ (history ++ syncCycles cycles))
    (hrun : Exec.exec (replicaStep cfg) s₀ (history ++ syncCycles cycles) = some s)
    (hcycles : max s.hub.policies.size s.hub.tombstones.size ≤ cycles.length) :
    (∀ (ck : Hub.CompositeKey) (p : SharedPolicy), s.hub.policies[ck]? = some p → Foreign cfg p →
      Blacklisted s.node.maps.blacklist p.ip t) ∧
    (∀ stamp ip, s.Deleted stamp ip →
      (∀ (ck : Hub.CompositeKey) (p : SharedPolicy), s.hub.policies[ck]? = some p → p.ip ≠ ip) →
        s.node.store.loadBlacklistOrigin ip ≠ some .hub) := by
  have hinit : ReplicaInvariant cfg t s₀ := by
    refine ⟨hwf, hpolicies, htombs, hpull ▸ UInt64.zero_le, hdeleted ▸ UInt64.zero_le, ?_, ?_⟩
    · intro ip p hp hle
      exact absurd (hpull ▸ hle) (not_le.2 (hpolicies ip p hp.1).1)
    · rintro ip _ ⟨stamp, hd⟩ hall
      exact absurd (hdeleted ▸ hall stamp hd) (not_le.2 (htombs stamp ip hd).1)
  have hI : ReplicaInvariant cfg t s :=
    Exec.exec_invariant (fun _ _ _ hI hc h => replicaInvariant_step hI hc h) hinit hc hrun
  rw [Exec.exec_append] at hrun
  obtain ⟨s₁, _, hcyc⟩ := Option.bind_eq_some_iff.1 hrun
  obtain ⟨hhub, hpending, hpending'⟩ := pending_syncCycles hcyc
  rw [hhub] at hcycles
  have hsize := Hub.Store.pending_le_size s₁.hub.policies s₁.lastPullNs
  have hsize' := Hub.Store.pending_le_size s₁.hub.tombstones s₁.lastDeletedNs
  refine ⟨fun ck p hp hforeign => ?_, fun stamp ip hd hnot => ?_⟩
  · have hview := hI.wellFormed.view_iff.2 ⟨rfl, hI.wellFormed.key_eq ck p hp ▸ hp⟩
    refine hI.blocked p.ip p ⟨hview, hforeign⟩ ?_
    have hle := Hub.Store.le_of_pending_eq_zero s.lastPullNs (by omega) hp
    rwa [hI.wellFormed.key_eq ck p hp] at hle
  · have hnone : s.hub.view ip = none := by
      cases hview : s.hub.view ip with
      | none => rfl
      | some p =>
        obtain ⟨hip, hp⟩ := hI.wellFormed.view_iff.1 hview
        exact absurd hip (hnot _ p hp)
    refine hI.cleared ip hnone ⟨stamp, hd⟩ fun stamp' hd' => ?_
    exact Hub.Store.le_of_pending_eq_zero s.lastDeletedNs (by omega) hd'

/-- A node reports two sources; the node "me" pulls, and one of the two is deleted. -/
def sampleHistory : List ReplicaLabel :=
  [.merge "a" [⟨.fromIpv4 1, 2, 10, 0, 0, 0⟩, ⟨.fromIpv4 2, 2, 10, 0, 0, 0⟩] 100,
    .pull fun _ => ⟨150, 150, 150⟩, .delete [.fromIpv4 2] 200]

/-- After one more cycle "me" blocks the one source and holds no block from the hub for the other. -/
theorem node_and_hub_converge_one_deletion :
    ∃ s, Exec.exec (replicaStep ⟨"me", false⟩) {}
        (sampleHistory ++ syncCycles [fun _ => ⟨250, 250, 250⟩]) = some s ∧
      Blacklisted s.node.maps.blacklist (.fromIpv4 1) 1000 ∧
      s.node.store.loadBlacklistOrigin (.fromIpv4 2) ≠ some .hub := by
  have hc : Exec.Along (replicaStep ⟨"me", false⟩) (Lasting ⟨"me", false⟩ 1000) {}
      (sampleHistory ++ syncCycles [fun _ => ⟨250, 250, 250⟩]) := by
    refine ⟨trivial, ?_⟩
    rintro _ ⟨⟩
    refine ⟨?_, ?_⟩
    · change ∀ p ∈ _, _
      decide
    rintro _ ⟨⟩
    refine ⟨trivial, ?_⟩
    rintro _ ⟨⟩
    refine ⟨?_, ?_⟩
    · change ∀ p ∈ _, _
      decide
    rintro _ ⟨⟩
    refine ⟨?_, fun _ _ => trivial⟩
    intro ip hip p hp
    cases List.mem_singleton.1 hip
    cases hp
  refine ⟨_, rfl, ?_⟩
  obtain ⟨hlive, hcleared⟩ := @node_and_hub_converge _ _ _ {} _ [fun _ => ⟨250, 250, 250⟩]
    Hub.Store.wellFormed_empty (by simp [Hub.Store.view]) (by simp [ReplicaWorld.Deleted]) rfl rfl hc
    rfl (by decide)
  refine ⟨hlive ⟨100, .fromIpv4 1⟩ _ rfl (by decide), hcleared 200 _ rfl ?_⟩
  exact Hub.Store.forall_rows (P := fun _ (p : SharedPolicy) => p.ip ≠ .fromIpv4 2) (by decide)

/-- A policy to which "a" and the node "me" have both contributed is passed over by "me": it is live
on the hub and never blocked. -/
theorem own_policy_is_not_blocked :
    ∃ s, Exec.exec (replicaStep ⟨"me", false⟩) {}
        ([.merge "a" [⟨.fromIpv4 1, 2, 10, 0, 0, 0⟩] 100,
            .merge "me" [⟨.fromIpv4 1, 2, 10, 0, 0, 0⟩] 200] ++
          syncCycles [fun _ => ⟨250, 250, 250⟩, fun _ => ⟨350, 350, 350⟩]) = some s ∧
      (s.hub.querySince s.lastPullNs PULL_LIMIT).1 = [] ∧
      (∃ p, s.hub.policies[(⟨200, .fromIpv4 1⟩ : Hub.CompositeKey)]? = some p ∧
        p.ip = .fromIpv4 1 ∧ "a" ∈ p.sourceNodes) ∧
      ¬ Blacklisted s.node.maps.blacklist (.fromIpv4 1) 1000 := by
  refine ⟨_, rfl, by decide, ⟨_, rfl, rfl, by decide⟩, by decide⟩

end EShield.Fleet
