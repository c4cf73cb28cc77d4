import EShield.Node.Proofs.BlockProofs

/-!
# What a pull changes on a node

Applying shared policies blocks the IPs of those that are not passed over and touches no other IP.
Applying deletions removes the IPs whose row came from the hub.
-/

namespace EShield.Node

open Ebpf

variable {cfg : ApplyConfig} {s : ControlState} {policy : SharedPolicy} {clock : BlockClock}
  {policies : List SharedPolicy} {clocks : Nat → BlockClock} {k : IpKey} {t : UInt64}

/-! ## One policy -/

theorem setTrustScore_blacklist (trustEnabled : Bool) (maps : Maps) (key : IpKey)
    (trustScore : UInt32) (nowNs : UInt64) :
    (setTrustScore trustEnabled maps key trustScore nowNs).blacklist = maps.blacklist := by
  unfold setTrustScore
  split <;> rfl

theorem applyHubPolicy_blacklist (cfg : ApplyConfig) (s : ControlState) (policy : SharedPolicy)
    (clock : BlockClock) :
    (applyHubPolicy cfg s policy clock).maps.blacklist =
      blockIpRaw s.maps.blacklist policy.ip policy.ttlS policy.reason clock.mapNs := by
  unfold applyHubPolicy
  split
  · exact setTrustScore_blacklist _ _ _ _ _
  · rfl

theorem applyHubPolicy_store (cfg : ApplyConfig) (s : ControlState) (policy : SharedPolicy)
    (clock : BlockClock) :
    (applyHubPolicy cfg s policy clock).store =
      persistBlock s.store policy.ip policy.ttlS policy.reason .hub clock.rowNs clock.updatedNs := by
  unfold applyHubPolicy
  split <;> rfl

/-- From its clock reading on, a policy adds its own block to what is blocked. -/
theorem blacklisted_applyHubPolicy (hle : clock.mapNs ≤ t) :
    Blacklisted (applyHubPolicy cfg s policy clock).maps.blacklist k t ↔
      Blacklisted s.maps.blacklist k t ∨
        (policy.ip = k ∧ Reaches clock.mapNs policy.ttlS t) := by
  rw [applyHubPolicy_blacklist, blockIpRaw, blacklisted_mergeInto hle, effectiveAt_blockUntil]

/-- The row of an IP after one policy. -/
theorem getElem?_applyHubPolicy (cfg : ApplyConfig) (s : ControlState) (policy : SharedPolicy)
    (clock : BlockClock) (k : IpKey) :
    (applyHubPolicy cfg s policy clock).store[k]? =
      if policy.ip = k then
        some
          { blockedUntilNs := blockUntil clock.rowNs policy.ttlS, blockReason := policy.reason
            firstSeenNs := clock.rowNs, origin := .hub, lastUpdatedNs := clock.updatedNs }
      else s.store[k]? := by
  rw [applyHubPolicy_store, persistBlock, RuleStore.getElem?_saveBlacklist]

/-- A policy leaves the entries of other IPs alone. -/
theorem applyHubPolicy_of_ne (cfg : ApplyConfig) (s : ControlState) (clock : BlockClock)
    (h : policy.ip ≠ k) :
    (applyHubPolicy cfg s policy clock).maps.blacklist k = s.maps.blacklist k ∧
      (applyHubPolicy cfg s policy clock).store[k]? = s.store[k]? := by
  rw [applyHubPolicy_blacklist, getElem?_applyHubPolicy, if_neg h, blockIpRaw, mergeInto]
  exact ⟨LruHashMap.insert_of_ne _ _ (Ne.symm h), rfl⟩

/-! ## A page of policies -/

/-- One round of the loop over the policies; `blacklist` is the map when the call began. -/
theorem foldl_policies_induction {blacklist : LruHashMap IpKey BlockEntry} {I : ControlState → Prop}
    (pairs : List (SharedPolicy × Nat))
    (hstep : ∀ p ∈ pairs, ¬ SkipsPolicy cfg blacklist p.1 →
      ∀ s, I s → I (applyHubPolicy cfg s p.1 (clocks p.2)))
    (hI : I s) :
    I (pairs.foldl
      (fun s p =>
        if SkipsPolicy cfg blacklist p.1 then s else applyHubPolicy cfg s p.1 (clocks p.2)) s) := by
  refine List.foldlRecOn pairs _ hI fun s hs p hp => ?_
  split
  · exact hs
  · rename_i hskip
    exact hstep p hp hskip s hs

/-- What every policy that is not passed over preserves, the whole page preserves. -/
theorem applyHubPolicies_induction (cfg : ApplyConfig) (policies : List SharedPolicy)
    (clocks : Nat → BlockClock) {I : ControlState → Prop}
    (hstep : ∀ p ∈ policies.zipIdx, ¬ SkipsPolicy cfg s.maps.blacklist p.1 →
      ∀ s', I s' → I (applyHubPolicy cfg s' p.1 (clocks p.2)))
    (hI : I s) : I (applyHubPolicies cfg s policies clocks) :=
  foldl_policies_induction _ hstep hI

/-- An IP without a policy to apply keeps its entry and its row. -/
theorem applyHubPolicies_frame (cfg : ApplyConfig) (s : ControlState)
    (policies : List SharedPolicy) (clocks : Nat → BlockClock) (k : IpKey)
    (h : ∀ p ∈ policies, p.ip = k → SkipsPolicy cfg s.maps.blacklist p) :
    (applyHubPolicies cfg s policies clocks).maps.blacklist k = s.maps.blacklist k ∧
      (applyHubPolicies cfg s policies clocks).store[k]? = s.store[k]? := by
  refine applyHubPolicies_induction cfg policies clocks
    (I := fun s' => s'.maps.blacklist k = s.maps.blacklist k ∧ s'.store[k]? = s.store[k]?)
    ?_ ⟨rfl, rfl⟩
  intro p hp hskip s' hs'
  have hne : p.1.ip ≠ k := fun hip => hskip (h p.1 (List.fst_mem_of_mem_zipIdx hp) hip)
  obtain ⟨hmap, hrow⟩ := applyHubPolicy_of_ne cfg s' (clocks p.2) hne
  exact ⟨hmap.trans hs'.1, hrow.trans hs'.2⟩

/-- What is blocked stays blocked. -/
theorem blacklisted_applyHubPolicies_mono (hle : ∀ p ∈ policies.zipIdx, (clocks p.2).mapNs ≤ t)
    (h : Blacklisted s.maps.blacklist k t) :
    Blacklisted (applyHubPolicies cfg s policies clocks).maps.blacklist k t :=
  applyHubPolicies_induction cfg policies clocks (I := fun s' => Blacklisted s'.maps.blacklist k t)
    (fun p hp _ _ hs' => (blacklisted_applyHubPolicy (hle p hp)).2 (.inl hs')) h

/-- A policy that is not passed over blocks its IP as long as its time reaches. -/
theorem blacklisted_applyHubPolicies (hle : ∀ p ∈ policies.zipIdx, (clocks p.2).mapNs ≤ t)
    {p : SharedPolicy × Nat} (hp : p ∈ policies.zipIdx)
    (hskip : ¬ SkipsPolicy cfg s.maps.blacklist p.1)
    (hreach : Reaches (clocks p.2).mapNs p.1.ttlS t) :
    Blacklisted (applyHubPolicies cfg s policies clocks).maps.blacklist p.1.ip t := by
  obtain ⟨pre, post, hsplit⟩ := List.append_of_mem hp
  unfold applyHubPolicies
  rw [hsplit, List.foldl_append, List.foldl_cons, if_neg hskip]
  refine foldl_policies_induction (I := fun s' => Blacklisted s'.maps.blacklist p.1.ip t) post ?_ ?_
  · intro q hq _ s' hs'
    have hmem : q ∈ policies.zipIdx := by
      rw [hsplit]
      exact List.mem_append_right _ (List.mem_cons_of_mem _ hq)
    exact (blacklisted_applyHubPolicy (hle q hmem)).2 (.inl hs')
  · exact (blacklisted_applyHubPolicy (hle p hp)).2 (.inr ⟨rfl, hreach⟩)

/-- A later clock reading only makes a block reach further. -/
theorem Reaches.mono {readNs readNs' durationS t : UInt64} (h : Reaches readNs durationS t)
    (hle : readNs ≤ readNs') : Reaches readNs' durationS t := by
  rw [UInt64.le_iff_toNat_le] at hle
  exact h.imp_right fun hlt => by omega

/-- The entry of `k` is in force as long as a block of `durationS` seconds from `nowNs` on. -/
def HeldFor (blacklist : LruHashMap IpKey BlockEntry) (k : IpKey) (nowNs durationS : UInt64) :
    Prop :=
  ∃ e, blacklist k = some e ∧ ∀ t, Reaches nowNs durationS t → EffectiveAt e.blockedUntilNs t

/-- One policy shortens no entry. -/
theorem heldFor_applyHubPolicy {nowNs durationS : UInt64}
    (h : HeldFor s.maps.blacklist k nowNs durationS) :
    HeldFor (applyHubPolicy cfg s policy clock).maps.blacklist k nowNs durationS := by
  obtain ⟨e, he, hforce⟩ := h
  by_cases hip : policy.ip = k
  · rw [HeldFor, applyHubPolicy_blacklist, blockIpRaw, mergeInto, hip, LruHashMap.insert_self, he]
    exact ⟨_, rfl, fun t ht => (hforce t ht).merge (le_blockUntil _ _)⟩
  · rw [HeldFor, (applyHubPolicy_of_ne cfg s clock hip).1]
    exact ⟨e, he, hforce⟩

/-- A policy that is applied is in force for its time. -/
theorem heldFor_applyHubPolicy_self {nowNs : UInt64} (hle : nowNs ≤ clock.mapNs) :
    HeldFor (applyHubPolicy cfg s policy clock).maps.blacklist policy.ip nowNs policy.ttlS := by
  rw [HeldFor, applyHubPolicy_blacklist, blockIpRaw, mergeInto, LruHashMap.insert_self]
  refine ⟨_, rfl, fun t ht => ?_⟩
  have hnew : EffectiveAt (blockUntil clock.mapNs policy.ttlS) t :=
    effectiveAt_blockUntil.2 (ht.mono hle)
  by_cases hold : ∃ e, s.maps.blacklist policy.ip = some e ∧
      EffectiveAt e.blockedUntilNs clock.mapNs
  · obtain ⟨e, he, heff⟩ := hold
    rw [he, (mergeBlockEntry_of_effective _ _ _ heff).1, effectiveAt_laterUntil]
    exact .inr hnew
  · rw [mergeBlockEntry_of_not_effective fun e he heff => hold ⟨e, he, heff⟩]
    exact hnew

/-- The policies of other nodes take effect where the node has no entry of its own, each for its time
from the call on; an entry in force is left as it is. -/
theorem applyHubPolicies_effective (cfg : ApplyConfig) (s : ControlState)
    (policies : List SharedPolicy) (clocks : Nat → BlockClock) (nowNs : UInt64)
    (hclock : ∀ i, nowNs ≤ (clocks i).mapNs) :
    (∀ p ∈ policies, cfg.nodeName ∉ p.sourceNodes → s.maps.blacklist p.ip = none →
        HeldFor (applyHubPolicies cfg s policies clocks).maps.blacklist p.ip nowNs p.ttlS) ∧
      ∀ k e, s.maps.blacklist k = some e → EffectiveAt e.blockedUntilNs nowNs →
        (applyHubPolicies cfg s policies clocks).maps.blacklist k = some e := by
  refine ⟨fun p hp hforeign hnone => ?_, fun k e he _ => ?_⟩
  · have hskip : ¬ SkipsPolicy cfg s.maps.blacklist p := by
      rintro (hsome | ⟨_, hmem⟩)
      · rw [hnone] at hsome
        cases hsome
      · exact hforeign hmem
    obtain ⟨i, hi, rfl⟩ := List.getElem_of_mem hp
    have hpair : (policies[i], i) ∈ policies.zipIdx := List.mem_zipIdx_iff_getElem?.2 (by simp [hi])
    obtain ⟨pre, post, hsplit⟩ := List.append_of_mem hpair
    unfold applyHubPolicies
    rw [hsplit, List.foldl_append, List.foldl_cons, if_neg hskip]
    -- once the policy has been applied, the rest of the page shortens nothing
    exact foldl_policies_induction
      (I := fun s' => HeldFor s'.maps.blacklist policies[i].ip nowNs policies[i].ttlS) post
      (fun _ _ _ _ hs' => heldFor_applyHubPolicy hs') (heldFor_applyHubPolicy_self (hclock i))
  · rw [← he]
    exact (applyHubPolicies_frame cfg s policies clocks k
      fun q _ hq => .inl (by rw [hq, he]; rfl)).1

/-- A policy of a node "a": 10.0.0.1 for 100 seconds. -/
def samplePolicy : SharedPolicy :=
  { ip := .fromIpv4 0x0a000001#32, reason := 2, hitCount := 1, trustScore := 0, firstSeenNs := 0
    lastSeenNs := 0, sourceNodes := ["a"], ttlS := 100 }

/-- A page with it and with a policy for 10.0.0.2, which the node has blocked itself: the one takes effect,
and the node's own block is left as it is. -/
theorem applyHubPolicies_effective_two_policies :
    let own : LruHashMap IpKey BlockEntry :=
      blockIpRaw .empty (.fromIpv4 0x0a000002#32) 5 rules.API_BLOCK.toUInt8 1000000000
    let policies := [{ samplePolicy with ip := .fromIpv4 0x0a000002#32 }, samplePolicy]
    let s := applyHubPolicies ⟨"me", false⟩ { maps := { blacklist := own } } policies
      fun _ => ⟨2000000000, 2000000000, 2000000000⟩
    HeldFor s.maps.blacklist samplePolicy.ip 2000000000 100 ∧
      s.maps.blacklist (.fromIpv4 0x0a000002#32) = own (.fromIpv4 0x0a000002#32) ∧
      (own (.fromIpv4 0x0a000002#32)).isSome := by
  intro own policies s
  have heffective := applyHubPolicies_effective ⟨"me", false⟩ { maps := { blacklist := own } } policies
    (fun _ => ⟨2000000000, 2000000000, 2000000000⟩) 2000000000 (fun _ => by decide)
  obtain ⟨e, he⟩ : ∃ e, own (.fromIpv4 0x0a000002#32) = some e := ⟨_, rfl⟩
  have hforce : EffectiveAt e.blockedUntilNs 2000000000 := by
    cases he
    decide
  refine ⟨heffective.1 samplePolicy (by simp [policies]) (by decide) (by decide), ?_, rfl⟩
  rw [he]
  exact heffective.2 _ e he hforce

/-- The node's own entry, which ends after five seconds, keeps the policy from taking effect. -/
theorem shorter_entry_stays :
    ¬ HeldFor
      (applyHubPolicies ⟨"me", false⟩
        { maps :=
            { blacklist :=
                blockIpRaw .empty samplePolicy.ip 5 rules.API_BLOCK.toUInt8 1000000000 } }
        [samplePolicy] fun _ => ⟨2000000000, 2000000000, 2000000000⟩).maps.blacklist
      samplePolicy.ip 2000000000 samplePolicy.ttlS := by
  rintro ⟨e, he, hforce⟩
  have hforce := hforce 50000000000 (by decide)
  have hentry : some e = blockIpRaw .empty samplePolicy.ip 5 rules.API_BLOCK.toUInt8 1000000000
      samplePolicy.ip := he.symm.trans (by decide)
  cases hentry
  exact absurd hforce (by decide)

/-! ## A page of deletions -/

theorem unblockIpKey_lookup (s : ControlState) (key k : IpKey) :
    (unblockIpKey s key).maps.blacklist k = (if key = k then none else s.maps.blacklist k) ∧
      (unblockIpKey s key).store[k]? = if key = k then none else s.store[k]? := by
  refine ⟨?_, RuleStore.getElem?_removeBlacklist _ _ _⟩
  by_cases h : key = k
  · rw [if_pos h, ← h]
    exact LruHashMap.remove_self _ _
  · rw [if_neg h]
    exact LruHashMap.remove_of_ne _ (Ne.symm h)

/-- Exactly the IPs of the page whose row came from the hub are removed, from the map and from the
store. -/
theorem unblockHubPolicies_lookup (s : ControlState) (ips : List IpKey) (k : IpKey) :
    (unblockHubPolicies s ips).maps.blacklist k =
        (if k ∈ ips ∧ s.store.loadBlacklistOrigin k = some .hub then none
          else s.maps.blacklist k) ∧
      (unblockHubPolicies s ips).store[k]? =
        if k ∈ ips ∧ s.store.loadBlacklistOrigin k = some .hub then none else s.store[k]? := by
  -- the origins are those of the store when the call began, whatever the loop has removed since
  have hfold : ∀ (ips : List IpKey) (s' : ControlState),
      let r := ips.foldl
        (fun s' ip => if s.store.loadBlacklistOrigin ip = some .hub then unblockIpKey s' ip else s')
        s'
      r.maps.blacklist k =
          (if k ∈ ips ∧ s.store.loadBlacklistOrigin k = some .hub then none
            else s'.maps.blacklist k) ∧
        r.store[k]? =
          if k ∈ ips ∧ s.store.loadBlacklistOrigin k = some .hub then none else s'.store[k]? := by
    intro ips
    induction ips with
    | nil => simp
    | cons ip ips ih =>
      intro s'
      obtain ⟨hmap, hrow⟩ := ih
        (if s.store.loadBlacklistOrigin ip = some .hub then unblockIpKey s' ip else s')
      refine ⟨hmap.trans ?_, hrow.trans ?_⟩
      all_goals
        by_cases hk : k = ip
        · subst hk
          split_ifs <;> simp_all [unblockIpKey_lookup]
        · split_ifs <;> simp_all [unblockIpKey_lookup, Ne.symm hk]
  exact hfold ips s

end EShield.Node
