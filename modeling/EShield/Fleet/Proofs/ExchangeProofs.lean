import EShield.Fleet.Exchange
import EShield.Hub.Proofs.StoreProofs
import EShield.Node.Proofs.HubClientProofs
import EShield.Node.Proofs.HubPolicyProofs
import EShield.Node.Proofs.ReloadProofs

/-!
# Permanence across the fleet

On every hop 0 stands for permanent. As long as nothing is published in the last second of its time,
a 0 comes from a permanent block of some node: on the wire, in the hub, and on the nodes that apply
the hub's policies.
-/

namespace EShield.Node

/-! ## What a node publishes -/

/-- The row is permanent, or has a second or more left. -/
def BlacklistRow.HasSecond (row : BlacklistRow) (nowNs : UInt64) : Prop :=
  row.blockedUntilNs = BLOCK_PERMANENT ∨ nowNs.toNat + 10 ^ 9 ≤ row.blockedUntilNs.toNat

instance (row : BlacklistRow) (nowNs : UInt64) : Decidable (row.HasSecond nowNs) :=
  inferInstanceAs (Decidable (_ ∨ _))

variable {cfg : PublishConfig} {rows : List (IpKey × BlacklistRow)} {maps : Ebpf.Maps}
  {nowNs : UInt64}

/-- While a second is left, the policy of a timed row is timed. -/
theorem nodePolicy_ttlS_eq_zero {c : IpKey × BlacklistRow × UInt32}
    {trustMap : Ebpf.LruHashMap IpKey TrustEntry} (hleft : c.2.1.HasSecond nowNs)
    (h : (nodePolicy trustMap nowNs c).ttlS = 0) : c.2.1.blockedUntilNs = BLOCK_PERMANENT := by
  rcases hleft with hperm | hleft
  · exact hperm
  · by_contra hne
    rw [nodePolicy] at h
    dsimp only at h
    rw [if_neg hne] at h
    exact (within_blockUntil (le_refl nowNs.toNat) hleft).1 h

/-! ## Permanent blocks -/

/-- The node has decided itself to block the IP permanently. -/
def PermanentBlock (s : ControlState) (ip : IpKey) : Prop :=
  ∃ row, s.store[ip]? = some row ∧ row.origin ≠ .hub ∧ row.blockedUntilNs = BLOCK_PERMANENT

/-- The node's block of the IP comes from the hub and is permanent, in the store or in the map. -/
def PermanentHubBlock (s : ControlState) (ip : IpKey) : Prop :=
  ∃ row, s.store[ip]? = some row ∧ row.origin = .hub ∧
    (row.blockedUntilNs = BLOCK_PERMANENT ∨
      ∃ e, s.maps.blacklist ip = some e ∧ e.blockedUntilNs = BLOCK_PERMANENT)

variable {s s' : ControlState} {ip : IpKey}

theorem PermanentHubBlock.of_eq (h : PermanentHubBlock s' ip)
    (hmap : s'.maps.blacklist ip = s.maps.blacklist ip) (hrow : s'.store[ip]? = s.store[ip]?) :
    PermanentHubBlock s ip := by
  rwa [PermanentHubBlock, hmap, hrow] at h

theorem permanentHubBlock_blockIpKey {key : IpKey} {durationS : UInt64} {reason : UInt8}
    {origin : BlockOrigin} {clock : BlockClock} (horigin : origin ≠ .hub)
    (h : PermanentHubBlock (blockIpKey s key durationS reason origin clock) ip) :
    PermanentHubBlock s ip := by
  by_cases hkey : key = ip
  · obtain ⟨row, hrow, hhub, _⟩ := h
    rw [blockIpKey, persistBlock, RuleStore.getElem?_saveBlacklist, if_pos hkey] at hrow
    cases hrow
    exact absurd hhub horigin
  · refine h.of_eq (Ebpf.LruHashMap.insert_of_ne _ _ (Ne.symm hkey)) ?_
    rw [blockIpKey, persistBlock, RuleStore.getElem?_saveBlacklist, if_neg hkey]

theorem permanentHubBlock_unblockIpKey {key : IpKey}
    (h : PermanentHubBlock (unblockIpKey s key) ip) : PermanentHubBlock s ip := by
  obtain ⟨hmap, hrow⟩ := unblockIpKey_lookup s key ip
  by_cases hkey : key = ip
  · obtain ⟨row, hsome, _⟩ := h
    rw [hrow, if_pos hkey] at hsome
    cases hsome
  · rw [if_neg hkey] at hmap hrow
    exact h.of_eq hmap hrow

theorem permanentHubBlock_unblockHubPolicies {ips : List IpKey}
    (h : PermanentHubBlock (unblockHubPolicies s ips) ip) : PermanentHubBlock s ip := by
  obtain ⟨hmap, hrow⟩ := unblockHubPolicies_lookup s ips ip
  split_ifs at hmap hrow
  · obtain ⟨row, hsome, _⟩ := h
    rw [hrow] at hsome
    cases hsome
  · exact h.of_eq hmap hrow

/-- Applying a page makes permanent only the IPs of its permanent policies. -/
theorem permanentHubBlock_applyHubPolicies {cfg : ApplyConfig} {policies : List SharedPolicy}
    {clocks : Nat → BlockClock}
    (h : PermanentHubBlock (applyHubPolicies cfg s policies clocks) ip) :
    PermanentHubBlock s ip ∨ ∃ p ∈ policies, p.ip = ip ∧ p.ttlS = 0 := by
  by_cases hheld : (s.maps.blacklist ip).isSome
  · -- an IP that the map holds is passed over
    obtain ⟨hmap, hrow⟩ := applyHubPolicies_frame cfg s policies clocks ip
      fun p _ hip => .inl (hip ▸ hheld)
    exact .inl (h.of_eq hmap hrow)
  · by_contra hnone
    rw [not_or] at hnone
    obtain ⟨hold, hpolicies⟩ := hnone
    have htimed : ∀ p ∈ policies, p.ip = ip → p.ttlS ≠ 0 :=
      fun p hp hip hzero => hpolicies ⟨p, hp, hip, hzero⟩
    refine applyHubPolicies_induction cfg policies clocks
      (I := fun s => ¬ PermanentHubBlock s ip ∧
        ∀ e, s.maps.blacklist ip = some e → e.blockedUntilNs ≠ BLOCK_PERMANENT) ?_ ?_ |>.1 h
    · rintro p hp _ s ⟨hnot, htimes⟩
      by_cases hip : p.1.ip = ip
      · have hne := htimed p.1 (List.fst_mem_of_mem_zipIdx hp) hip
        have htimes' : ∀ e, (applyHubPolicy cfg s p.1 (clocks p.2)).maps.blacklist ip = some e →
            e.blockedUntilNs ≠ BLOCK_PERMANENT := by
          intro e he
          rw [applyHubPolicy_blacklist, blockIpRaw, Ebpf.mergeInto, hip,
            Ebpf.LruHashMap.insert_self] at he
          cases he
          exact mergeBlockEntry_ne_permanent htimes (blockUntil_ne_permanent hne)
        refine ⟨?_, htimes'⟩
        rintro ⟨row, hrow, _, hperm⟩
        rw [getElem?_applyHubPolicy, if_pos hip] at hrow
        cases hrow
        rcases hperm with hperm | ⟨e, he, hperm⟩
        · exact blockUntil_ne_permanent hne hperm
        · exact htimes' e he hperm
      · obtain ⟨hmap, hrow⟩ := applyHubPolicy_of_ne cfg s (clocks p.2) hip
        exact ⟨fun h => hnot (h.of_eq hmap hrow), fun e he => htimes e (hmap ▸ he)⟩
    · refine ⟨hold, fun e he => ?_⟩
      rw [he] at hheld
      exact absurd rfl hheld

end EShield.Node

namespace EShield.Fleet

open Node (PermanentBlock PermanentHubBlock)

/-- What is pushed is permanent or has a second or more left. -/
def InTime (config : Nat → HubConfig) (s : FleetWorld) : FleetLabel → Prop
  | .push i sinceNs nowNs => ∀ c ∈ s.collected config i sinceNs nowNs, c.2.1.HasSecond nowNs
  | _ => True

/-! ## The invariant -/

/-- Wherever a 0 stands for an IP, `H` holds of the IP. -/
structure PermanenceInvariant (H : IpKey → Prop) (s : FleetWorld) : Prop where
  wellFormed : s.hub.WellFormed
  nodes : ∀ i ip, PermanentHubBlock (s.nodes i) ip → H ip
  pushes : ∀ m ∈ s.pushes, ∀ p ∈ m.2, p.ttlS = 0 → H p.ip
  hub : ∀ ip p, s.hub.view ip = some p → p.ttlS = 0 → H ip
  pulls : ∀ m ∈ s.pulls, ∀ p ∈ m.2, p.ttlS = 0 → H p.ip

variable {config : Nat → HubConfig} {H : IpKey → Prop} {s s' : FleetWorld}

theorem PermanenceInvariant.setNode (hI : PermanenceInvariant H s) {i : Nat}
    {node : Node.ControlState} (hnode : ∀ ip, PermanentHubBlock node ip → H ip) :
    PermanenceInvariant H (s.setNode i node) := by
  refine ⟨hI.wellFormed, fun j ip h => ?_, hI.pushes, hI.hub, hI.pulls⟩
  change PermanentHubBlock (Function.update s.nodes i node j) ip at h
  by_cases hj : j = i
  · subst hj
    rw [Function.update_self] at h
    exact hnode ip h
  · rw [Function.update_of_ne hj] at h
    exact hI.nodes j ip h

theorem permanenceInvariant_push (hI : PermanenceInvariant H s)
    (hheld : ∀ i ip, PermanentBlock (s.nodes i) ip → H ip) {i : Nat} {sinceNs nowNs : UInt64}
    (hc : InTime config s (.push i sinceNs nowNs))
    (h : fleetStep config s (.push i sinceNs nowNs) = some s') : PermanenceInvariant H s' := by
  cases h
  refine ⟨hI.wellFormed, hI.nodes, fun m hm p hp hzero => ?_, hI.hub, hI.pulls⟩
  rcases List.mem_append.1 hm with hm | hm
  · exact hI.pushes m hm p hp hzero
  · obtain ⟨chunk, hchunk, rfl⟩ := List.mem_map.1 hm
    have hmem := List.mem_flatten_of_mem hchunk hp
    rw [Hub.Store.flatten_chunks] at hmem
    obtain ⟨c, hcol, rfl⟩ := List.mem_map.1 hmem
    obtain ⟨hrow, horigin, _⟩ := Node.mem_collectedRows hcol
    refine hheld i _ ⟨c.2.1, (Node.RuleStore.mem_loadBlacklistSince.1 hrow).1, ?_, ?_⟩
    · intro hhub
      rw [hhub] at horigin
      cases horigin
    · exact Node.nodePolicy_ttlS_eq_zero (hc c hcol) hzero

theorem permanenceInvariant_merge (hI : PermanenceInvariant H s) {nodeName : String}
    {chunk : List NodePolicy} {nowNs : UInt64}
    (h : fleetStep config s (.merge nodeName chunk nowNs) = some s') :
    PermanenceInvariant H s' := by
  simp only [fleetStep] at h
  split at h
  · rename_i hsent
    obtain ⟨hub, hmerge, rfl⟩ := Option.map_eq_some_iff.1 h
    obtain ⟨hub', hmerge', hwf, hview, _⟩ :=
      Hub.Store.mergeChunk_spec hI.wellFormed nodeName chunk nowNs
    rw [hmerge] at hmerge'
    cases hmerge'
    refine ⟨hwf, hI.nodes, hI.pushes, fun ip p hp => ?_, hI.pulls⟩
    rw [hview] at hp
    exact Hub.Store.mergedView_permanent hI.hub (hI.pushes _ hsent) hp
  · cases h

theorem permanenceInvariant_pull (hI : PermanenceInvariant H s) (i : Nat) (sinceNs : UInt64)
    (limit : Nat) :
    PermanenceInvariant H
      { s with pulls := s.pulls ++ [(i, (s.hub.querySince sinceNs limit).1)] } := by
  refine ⟨hI.wellFormed, hI.nodes, hI.pushes, hI.hub, fun m hm p hp hzero => ?_⟩
  rcases List.mem_append.1 hm with hm | hm
  · exact hI.pulls m hm p hp hzero
  · rw [List.mem_singleton] at hm
    subst hm
    by_cases hlimit : limit = 0
    · subst hlimit
      simp [Hub.Store.querySince, Hub.Store.pageSince_zero] at hp
    · obtain ⟨_, hpage, _⟩ := Hub.Store.querySince_spec hI.wellFormed sinceNs hlimit
      exact hI.hub p.ip p ((hpage p).1 hp).1 hzero

theorem permanenceInvariant_step (hI : PermanenceInvariant H s)
    (hheld : ∀ i ip, PermanentBlock (s.nodes i) ip → H ip) {l : FleetLabel}
    (hc : InTime config s l) (h : fleetStep config s l = some s') : PermanenceInvariant H s' := by
  cases l with
  | block i key durationS reason origin clock =>
    simp only [fleetStep] at h
    split at h <;> cases h
    rename_i horigin
    refine hI.setNode fun ip hip => hI.nodes i ip (Node.permanentHubBlock_blockIpKey ?_ hip)
    rintro rfl
    cases horigin
  | unblock i key =>
    cases h
    exact hI.setNode fun ip hip => hI.nodes i ip (Node.permanentHubBlock_unblockIpKey hip)
  | push i sinceNs nowNs => exact permanenceInvariant_push hI hheld hc h
  | merge nodeName chunk nowNs => exact permanenceInvariant_merge hI h
  | delete ips nowNs =>
    cases h
    obtain ⟨hwf, hview, _⟩ := Hub.Store.deletePolicies_spec hI.wellFormed ips nowNs
    refine ⟨hwf, hI.nodes, hI.pushes, fun ip p hp => ?_, hI.pulls⟩
    rw [hview] at hp
    split at hp
    · cases hp
    · exact hI.hub ip p hp
  | pull i sinceNs limit =>
    cases h
    exact permanenceInvariant_pull hI i sinceNs limit
  | apply i policies clocks =>
    simp only [fleetStep] at h
    split at h <;> cases h
    rename_i hsent
    refine hI.setNode fun ip hip => ?_
    rcases Node.permanentHubBlock_applyHubPolicies hip with hold | ⟨p, hp, rfl, hzero⟩
    · exact hI.nodes i ip hold
    · exact hI.pulls _ hsent p hp hzero
  | pullDeleted i sinceNs limit =>
    cases h
    exact ⟨hI.wellFormed, hI.nodes, hI.pushes, hI.hub, hI.pulls⟩
  | applyDeleted i ips =>
    simp only [fleetStep] at h
    split at h <;> cases h
    exact hI.setNode fun ip hip => hI.nodes i ip (Node.permanentHubBlock_unblockHubPolicies hip)

/-- A run from an empty hub, on which all that is pushed is permanent or has a second or more left:
a node blocks an IP permanently on behalf of the hub only if a node has itself decided, at some
point of the run, to block it permanently. -/
theorem permanentHubBlock_has_origin {s₀ : FleetWorld} {labels : List FleetLabel}
    (hhub : s₀.hub = {}) (hpushes : s₀.pushes = []) (hpulls : s₀.pulls = [])
    (hnodes : ∀ i ip, ¬ PermanentHubBlock (s₀.nodes i) ip)
    (hc : Exec.Along (fleetStep config) (InTime config) s₀ labels)
    (hrun : Exec.exec (fleetStep config) s₀ labels = some s) {i : Nat} {ip : IpKey}
    (hip : PermanentHubBlock (s.nodes i) ip) :
    ∃ t, Exec.Visits (fleetStep config) s₀ labels t ∧ ∃ j, PermanentBlock (t.nodes j) ip := by
  let H : IpKey → Prop := fun ip =>
    ∃ t, Exec.Visits (fleetStep config) s₀ labels t ∧ ∃ j, PermanentBlock (t.nodes j) ip
  have hinit : PermanenceInvariant H s₀ :=
    { wellFormed := hhub ▸ Hub.Store.wellFormed_empty
      nodes := fun i ip h => absurd h (hnodes i ip)
      pushes := by simp [hpushes]
      hub := by simp [hhub, Hub.Store.view]
      pulls := by simp [hpulls] }
  have hc' := hc.visits (P := fun t => ∀ i ip, PermanentBlock (t.nodes i) ip → H ip)
    fun t ht i ip h => ⟨t, ht, i, h⟩
  have hI : PermanenceInvariant H s :=
    Exec.exec_invariant (fun _ _ _ hI hc h => permanenceInvariant_step hI hc.2 hc.1 h)
      hinit hc' hrun
  exact hI.nodes i ip hip

/-- What a node publishes comes from a publishable row; while a second of it is left its policy is
permanent only if the row is, and it has expired only if it was hit often enough. On a run from an
empty hub, on which all that is pushed is permanent or has a second or more left, a node blocks an
IP permanently on behalf of the hub only if a node has itself decided so. -/
theorem publishing_keeps_permanence :
    (∀ (cfg : Node.PublishConfig) (rows : List (IpKey × Node.BlacklistRow)) (maps : Ebpf.Maps)
        (nowNs : UInt64), ∀ p ∈ Node.collectHubPublishablePolicies cfg rows maps nowNs,
      ∃ row, (p.ip, row) ∈ rows ∧ row.origin.publishable = true ∧
        (row.HasSecond nowNs → p.ttlS = 0 → row.blockedUntilNs = BLOCK_PERMANENT) ∧
        (row.Expired nowNs → cfg.minHits ≤ p.hitCount)) ∧
    ∀ (config : Nat → HubConfig) (s₀ s : FleetWorld) (labels : List FleetLabel),
      s₀.hub = {} → s₀.pushes = [] → s₀.pulls = [] →
      (∀ i ip, ¬ PermanentHubBlock (s₀.nodes i) ip) →
      Exec.Along (fleetStep config) (InTime config) s₀ labels →
      Exec.exec (fleetStep config) s₀ labels = some s →
      ∀ i ip, PermanentHubBlock (s.nodes i) ip →
        ∃ t, Exec.Visits (fleetStep config) s₀ labels t ∧
          ∃ j, PermanentBlock (t.nodes j) ip := by
  refine ⟨fun cfg rows maps nowNs p hp => ?_,
    fun config s₀ s labels hhub hpushes hpulls hnodes hc hrun i ip hip =>
      permanentHubBlock_has_origin hhub hpushes hpulls hnodes hc hrun hip⟩
  obtain ⟨c, hcol, rfl⟩ := List.mem_map.1 hp
  obtain ⟨hrow, horigin, hpub⟩ := Node.mem_collectedRows hcol
  refine ⟨c.2.1, hrow, horigin, fun hleft hzero => Node.nodePolicy_ttlS_eq_zero hleft hzero, ?_⟩
  exact fun hexp => UInt32.not_lt.1 fun hfew => hpub.1 ⟨hfew, hexp⟩

/-- The settings of sample nodes: node `i` is called by its number, and publishes what was hit five
times even if it has expired. -/
def sampleConfig (i : Nat) : HubConfig :=
  { publish := { minHits := 5, minTrust := 50, limit := 100 }
    apply := { nodeName := toString i, trustEnabled := false } }

/-- The readings of a sample clock. -/
def sampleClock (ns : UInt64) : Node.BlockClock := { mapNs := ns, rowNs := ns, updatedNs := ns }

/-- Node 0 blocks a source permanently and pushes; the hub merges, and node 1 pulls and applies. -/
def sampleExchange : List FleetLabel :=
  [.block 0 (.fromIpv4 1) 0 2 .detected (sampleClock 100), .push 0 0 200,
    .merge "0" [⟨.fromIpv4 1, 2, 0, 0, 0, 0⟩] 300, .pull 1 0 100,
    .apply 1 [⟨.fromIpv4 1, 2, 0, 0, 300, 300, ["0"], 0⟩] fun _ => sampleClock 400]

theorem publishing_keeps_permanence_two_nodes :
    ∃ s, Exec.exec (fleetStep sampleConfig) {} sampleExchange = some s ∧
      PermanentHubBlock (s.nodes 1) (.fromIpv4 1) ∧
      ∃ t, Exec.Visits (fleetStep sampleConfig) {} sampleExchange t ∧
        ∃ j, PermanentBlock (t.nodes j) (.fromIpv4 1) := by
  have hc : Exec.Along (fleetStep sampleConfig) (InTime sampleConfig) {} sampleExchange := by
    refine ⟨trivial, ?_⟩
    rintro _ ⟨⟩
    refine ⟨?_, ?_⟩
    · change ∀ c ∈ FleetWorld.collected _ _ _ _ _, _
      decide
    · exact fun _ _ => ⟨trivial, fun _ _ => ⟨trivial, fun _ _ => ⟨trivial, fun _ _ => trivial⟩⟩⟩
  have hnodes : ∀ i ip, ¬ PermanentHubBlock (({} : FleetWorld).nodes i) ip := by
    rintro i ip ⟨row, hrow, _⟩
    simp at hrow
  refine ⟨_, rfl, ?_, publishing_keeps_permanence.2 sampleConfig {} _ sampleExchange rfl rfl rfl
    hnodes hc rfl 1 (.fromIpv4 1) ?_⟩
  all_goals exact ⟨_, rfl, rfl, .inl rfl⟩

/-- A row that expired at second 2 is published at second 10, as its source was hit five times. -/
theorem expired_row_is_published :
    let row : Node.BlacklistRow := ⟨2000000000, 2, 1000000000, .detected, 1000000000⟩
    row.Expired 10000000000 ∧
      ∃ p ∈ Node.collectHubPublishablePolicies (sampleConfig 0).publish [(.fromIpv4 1, row)]
          { blacklist :=
              Ebpf.LruHashMap.empty.insert (.fromIpv4 1) ⟨2000000000, 1000000000, 5, 2, 0⟩ }
          10000000000,
        p.ip = .fromIpv4 1 := by
  decide

end EShield.Fleet
