import EShield.Hub.Proofs.ApiProofs

/-!
# The numbers that the hub answers with

A row is the policy of one IP, so the number of rows is that of the IPs with a policy, and a deletion is
answered with the number of policies that are gone after it, however often an IP is named.
-/

namespace EShield.Hub

open Exec

namespace Store

variable {s : Store}

/-- The IPs of the rows. -/
def ips (s : Store) : List IpKey := s.policies.toList.map fun kv => kv.2.ip

theorem WellFormed.nodup_ips (h : s.WellFormed) : s.ips.Nodup :=
  List.pairwise_map.2 h.oneRowPerIp.pairwise_ip

theorem WellFormed.mem_ips (h : s.WellFormed) (ip : IpKey) : ip ∈ s.ips ↔ s.view ip ≠ none := by
  rw [Option.ne_none_iff_exists', ips, List.mem_map]
  constructor
  · rintro ⟨⟨ck, p⟩, hrow, rfl⟩
    rw [Std.ExtTreeMap.mem_toList_iff_getElem?_eq_some] at hrow
    have hkey := h.key_eq ck p hrow
    subst hkey
    exact ⟨p, h.view_iff.2 ⟨rfl, hrow⟩⟩
  · rintro ⟨p, hp⟩
    obtain ⟨rfl, hrow⟩ := h.view_iff.1 hp
    exact ⟨_, Std.ExtTreeMap.mem_toList_iff_getElem?_eq_some.2 hrow, rfl⟩

theorem count_eq (s : Store) : s.count = s.ips.length := by
  rw [count, ips, List.length_map, Std.ExtTreeMap.length_toList]

/-- A deletion takes the IP out of the rows. -/
theorem ips_deleteOne (h : s.WellFormed) (ip : IpKey) : (s.deleteOne ip).ips.Perm (s.ips.erase ip) := by
  obtain ⟨hwf, hview, -⟩ := deleteOne_spec h ip
  refine (List.perm_ext_iff_of_nodup hwf.nodup_ips (h.nodup_ips.erase _)).2 fun i => ?_
  rw [hwf.mem_ips, hview, h.nodup_ips.mem_erase_iff, h.mem_ips]
  by_cases hi : i = ip
  · subst hi
    simp
  · rw [Function.update_of_ne hi]
    exact (and_iff_right hi).symm

/-- A deletion counts the row of its IP, if it has one. -/
theorem removedOne_eq (h : s.WellFormed) (ip : IpKey) :
    s.removedOne ip = if s.view ip = none then 0 else 1 := by
  unfold removedOne view
  cases hindex : s.index[ip]? with
  | some ck =>
    obtain ⟨p, hp, -⟩ := h.exact ip ck hindex
    have hmem : ck ∈ s.policies := Std.ExtTreeMap.mem_iff_isSome_getElem?.2 (by rw [hp]; rfl)
    simp [hmem]
  | none =>
    simp only [Option.bind_none, if_true, List.length_eq_zero_iff, List.filter_eq_nil_iff]
    rintro ⟨ck, p⟩ hrow hip
    rw [Std.ExtTreeMap.mem_toList_iff_getElem?_eq_some] at hrow
    rw [← of_decide_eq_true hip, h.indexed ck p hrow] at hindex
    cases hindex

/-- What `delete_policies` returns is the number of rows that are gone. -/
theorem removed_add_count (h : s.WellFormed) (ips : List IpKey) :
    s.removed ips + (ips.foldl deleteOne s).count = s.count := by
  induction ips generalizing s with
  | nil => exact Nat.zero_add _
  | cons ip ips ih =>
    obtain ⟨hwf, -⟩ := deleteOne_spec h ip
    have hone : s.removedOne ip + (s.deleteOne ip).count = s.count := by
      rw [removedOne_eq h, count_eq, count_eq, (ips_deleteOne h ip).length_eq]
      by_cases hip : s.view ip = none
      · rw [if_pos hip, List.erase_of_not_mem fun hmem => (h.mem_ips ip).1 hmem hip, Nat.zero_add]
      · have hmem := (h.mem_ips ip).2 hip
        have hpos := List.length_pos_of_mem hmem
        rw [if_neg hip, List.length_erase_of_mem hmem]
        omega
    rw [removed, List.foldl_cons, Nat.add_assoc, ih hwf, hone]

/-- And these are the policies of the IPs that were named. -/
theorem removed_eq (h : s.WellFormed) (ips : List IpKey) :
    s.removed ips = (ips.toFinset.filter fun ip => s.view ip ≠ none).card := by
  induction ips generalizing s with
  | nil => rfl
  | cons ip ips ih =>
    obtain ⟨hwf, hview, -⟩ := deleteOne_spec h ip
    have hrest : (ips.toFinset.filter fun i => (s.deleteOne ip).view i ≠ none) =
        (ips.toFinset.filter fun i => s.view i ≠ none).erase ip := by
      ext i
      rw [Finset.mem_erase, Finset.mem_filter, Finset.mem_filter, hview]
      by_cases hi : i = ip
      · subst hi
        simp
      · rw [Function.update_of_ne hi]
        exact (and_iff_right hi).symm
    rw [removed, ih hwf, removedOne_eq h, hrest, List.toFinset_cons, Finset.filter_insert]
    by_cases hip : s.view ip = none
    · have hout : ip ∉ ips.toFinset.filter fun i => s.view i ≠ none :=
        fun hmem => (Finset.mem_filter.1 hmem).2 hip
      rw [if_pos hip, if_neg (not_not.2 hip), Finset.erase_eq_of_notMem hout, Nat.zero_add]
    · rw [if_neg hip, if_pos hip, ← Finset.card_erase_add_one (Finset.mem_insert_self ip _),
        Finset.erase_insert_eq_erase, Nat.add_comm]

theorem deletePolicies_policies (s : Store) (ips : List IpKey) (nowNs : UInt64) :
    (s.deletePolicies ips nowNs).policies = (ips.foldl deleteOne s).policies := by
  unfold deletePolicies
  split
  · rename_i hempty
    rw [List.isEmpty_iff.1 hempty]
    rfl
  · rfl

end Store

/-- In every state that the hub can reach, its policy count is the number of IPs with a policy, and the
next answer to a deletion is the number of IPs of it that have one, which is by how much the policy count
falls. -/
theorem hub_counts_policies {auth : HubAuth} {feed : FeedConfig} {s₀ : Store}
    {rules₀ : Option RuleBundle} {nodeTimeoutNs : UInt64} {labels : List HubLabel} {w : HubWorld}
    (h₀ : s₀.WellFormed)
    (hrun : exec hubStep (.start s₀ rules₀ auth nodeTimeoutNs feed) labels = some w) :
    (∃ ips : List IpKey, ips.Nodup ∧ (∀ ip, ip ∈ ips ↔ w.app.store.view ip ≠ none) ∧
        w.app.store.count = ips.length) ∧
      ∀ id ips, w.tasks id = some (.delete ips) → ∀ nowNs,
        ∃ w' count, hubStep w (.advance id nowNs) = some w' ∧
          w'.replies = w.replies ++ [(id, .removed count)] ∧
          count = (ips.toFinset.filter fun ip => w.app.store.view ip ≠ none).card ∧
          count + w'.app.store.count = w.app.store.count := by
  have hwf := (vouchedWorld_run h₀ hrun).wellFormed
  refine ⟨⟨w.app.store.ips, hwf.nodup_ips, hwf.mem_ips, w.app.store.count_eq⟩, ?_⟩
  intro id ips htask nowNs
  refine ⟨advance w id nowNs (.delete ips), w.app.store.removed ips, ?_, rfl, Store.removed_eq hwf ips, ?_⟩
  · rw [hubStep, htask]
    rfl
  · show _ + ((w.app.store.deletePolicies ips nowNs).policies).size = _
    rw [Store.deletePolicies_policies]
    exact Store.removed_add_count hwf ips

/-- Two reports are merged, and one of them is deleted twice in one call, with an IP that has no policy. -/
theorem hub_counts_policies_twice :
    let auth : HubAuth := { masterToken := "m", nodeTokens := .empty }
    let labels :=
      [.call 0 (some "m")
          (.pushPolicies "a" [⟨.fromIpv4 1, 2, 3, 4, 0, 5⟩, ⟨.fromIpv4 2, 2, 3, 4, 0, 5⟩]) 1,
        .advance 0 2, .advance 0 3,
        .call 1 (some "m") (.deletePolicies "a" [.fromIpv4 1, .fromIpv4 1, .fromIpv4 3]) 4]
    ∃ w w', exec hubStep (.start {} none auth 120 {}) labels = some w ∧
      hubStep w (.advance 1 5) = some w' ∧ (1, .removed 1) ∈ w'.replies ∧
        w'.app.store.count = 1 := by
  intro auth labels
  obtain ⟨w, hw⟩ : ∃ w, exec hubStep (.start {} none auth 120 {}) labels = some w := ⟨_, rfl⟩
  obtain ⟨-, hdelete⟩ := hub_counts_policies Store.wellFormed_empty hw
  have htask : w.tasks 1 = some (.delete [.fromIpv4 1, .fromIpv4 1, .fromIpv4 3]) := by
    cases hw
    decide +kernel
  obtain ⟨w', count, hstep, hreplies, hcount, hsum⟩ := hdelete 1 _ htask 5
  have hone : count = 1 := by
    rw [hcount]
    cases hw
    decide +kernel
  have htwo : w.app.store.count = 2 := by
    cases hw
    decide +kernel
  refine ⟨w, w', hw, hstep, ?_, by omega⟩
  rw [hreplies, hone]
  exact List.mem_append_right _ List.mem_cons_self

end EShield.Hub
