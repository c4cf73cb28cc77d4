import EShield.Hub.Proofs.ApiFrameProofs
import EShield.Hub.Proofs.ApiProofs

/-!
# An answered push is stored

A push is merged chunk by chunk while other calls go on. What the store says about an IP gets less only
by a deletion of it or when its time is over, so once a push has been answered, all its reports are in
the store.
-/

namespace EShield.Hub

open Exec Store

variable {w w' : HubWorld} {id id₀ : Nat} {ip : IpKey}

/-! ## What the store says only grows -/

/-- The step does not take the policy of `ip` away. -/
def Keeps (ip : IpKey) (w : HubWorld) : HubLabel → Prop
  | .advance id _ => ∀ ips, w.tasks id = some (.delete ips) → ip ∉ ips
  | .prune nowNs => ∀ p, w.app.store.view ip = some p → ¬ Stale p nowNs
  | _ => True

/-- A chunk adds its reports to what the store says. -/
theorem mergeChunk_summaryAt {s : Store} (h : s.WellFormed) (nodeName : String)
    (chunk : List NodePolicy) (nowNs : UInt64) :
    ∃ s', s.mergeChunk nodeName chunk nowNs = some s' ∧ s'.WellFormed ∧
      ∀ ip, s'.summaryAt ip =
        s.summaryAt ip ⊔ joined ip (chunk.map fun node => (nodeName, node)) := by
  obtain ⟨s', hmerge, hwf, hview, -⟩ := mergeChunk_spec h nodeName chunk nowNs
  exact ⟨s', hmerge, hwf, fun ip => by rw [summaryAt, hview, summary_mergedView]; rfl⟩

/-- A report is part of what its chunk says. -/
theorem reportSummary_le_joined {nodeName : String} {node : NodePolicy} {rs : List (String × NodePolicy)}
    (h : (nodeName, node) ∈ rs) : ↑(reportSummary nodeName node) ≤ joined node.ip rs := by
  refine le_trans (le_of_eq ?_) (Multiset.le_sup (Multiset.mem_map_of_mem (contribution node.ip) h))
  rw [contribution, if_pos rfl]

theorem advance_summaryAt (hwf : w.app.store.WellFormed) {t : HubTask} (ht : w.tasks id = some t)
    {nowNs : UInt64} (hkeep : Keeps ip w (.advance id nowNs)) :
    (advance w id nowNs t).app.store.WellFormed ∧
      w.app.store.summaryAt ip ≤ (advance w id nowNs t).app.store.summaryAt ip := by
  cases t with
  | push nodeName chunks merged =>
    cases chunks with
    | nil => exact ⟨hwf, le_rfl⟩
    | cons chunk chunks =>
      obtain ⟨s, hmerge, hwf', hsum⟩ := mergeChunk_summaryAt hwf nodeName chunk nowNs
      simp only [advance, hmerge]
      exact ⟨hwf', le_sup_left.trans (hsum ip).ge⟩
  | delete ips =>
    obtain ⟨hwf', hview, -⟩ := deletePolicies_spec hwf ips nowNs
    refine ⟨hwf', le_of_eq (congrArg optSummary ?_)⟩
    exact ((hview ip).trans (if_neg (hkeep ips ht))).symm
  | heartbeat nodeName => exact ⟨hwf, le_rfl⟩
  | stats nodeCount onlineNodeCount => exact ⟨hwf, le_rfl⟩

theorem hubStep_summaryAt (hwf : w.app.store.WellFormed) {l : HubLabel} (hkeep : Keeps ip w l)
    (hstep : hubStep w l = some w') :
    w'.app.store.WellFormed ∧ w.app.store.summaryAt ip ≤ w'.app.store.summaryAt ip := by
  cases l with
  | call id authorization request nowNs =>
    obtain ⟨-, hstep⟩ := Option.ite_none_left_eq_some.1 hstep
    split at hstep
    · cases hstep
      exact ⟨hwf, le_rfl⟩
    · cases hstep
      rw [(handle_frame ..).1.store]
      exact ⟨hwf, le_rfl⟩
  | advance id nowNs =>
    obtain ⟨t, ht, rfl⟩ := Option.map_eq_some_iff.1 hstep
    exact advance_summaryAt hwf ht hkeep
  | syncFeed id entries =>
    obtain ⟨-, hstep⟩ := Option.ite_none_left_eq_some.1 hstep
    split at hstep <;> cases hstep <;> exact ⟨hwf, le_rfl⟩
  | prune nowNs =>
    cases hstep
    refine ⟨hwf.prune _ _, le_of_eq (congrArg optSummary (Option.ext fun p => ?_))⟩
    refine Iff.trans ?_ (prune_view hwf nowNs TOMBSTONE_TTL_NS).symm
    exact ⟨fun hp => ⟨hp, hkeep p hp⟩, And.left⟩
  | cleanup nowNs =>
    cases hstep
    exact ⟨hwf, le_rfl⟩

/-! ## One push -/

/-- The label does not begin a call under the number `id`. -/
def LeavesNumber (id : Nat) : HubLabel → Prop
  | .call i _ _ _ => i ≠ id
  | .syncFeed i _ => i ≠ id
  | _ => True

/-- The reports on `ip` are in the store. -/
def Stored (ip : IpKey) (nodeName : String) (policies : List NodePolicy) (w : HubWorld) : Prop :=
  ∀ node ∈ policies, node.ip = ip → ↑(reportSummary nodeName node) ≤ w.app.store.summaryAt ip

theorem Stored.mono {nodeName : String} {policies : List NodePolicy}
    (h : Stored ip nodeName policies w)
    (hle : w.app.store.summaryAt ip ≤ w'.app.store.summaryAt ip) : Stored ip nodeName policies w' :=
  fun node hnode hip => (h node hnode hip).trans hle

/-- The push `id` of `policies` by `caller`, or by nobody if its token is refused: what it has merged is
stored, and everything when it is answered. -/
structure Pushing (id : Nat) (ip : IpKey) (caller : Option String) (policies : List NodePolicy)
    (w : HubWorld) : Prop where
  wellFormed : w.app.store.WellFormed
  task : w.tasks id = none ∨
    ∃ nodeName ∈ caller, ∃ done chunks,
      w.tasks id = some (.push nodeName chunks done.length) ∧ done ++ chunks.flatten = policies ∧
        Stored ip nodeName done w
  answered : ∀ count, (id, .merged count) ∈ w.replies →
    count = policies.length ∧ ∃ nodeName ∈ caller, Stored ip nodeName policies w

variable {caller : Option String} {policies : List NodePolicy}

/-- A step for another call, or for none. -/
theorem Pushing.other (h : Pushing id₀ ip caller policies w) (hwf : w'.app.store.WellFormed)
    (hle : w.app.store.summaryAt ip ≤ w'.app.store.summaryAt ip)
    (htask : w'.tasks id₀ = w.tasks id₀)
    (hreplies : ∀ r, (id₀, r) ∈ w'.replies → (id₀, r) ∈ w.replies) :
    Pushing id₀ ip caller policies w' where
  wellFormed := hwf
  task := by
    rw [htask]
    rcases h.task with hnone | ⟨nodeName, hcaller, done, chunks, ht, hsplit, hdone⟩
    · exact .inl hnone
    · exact .inr ⟨nodeName, hcaller, done, chunks, ht, hsplit, hdone.mono hle⟩
  answered := by
    intro count hcount
    obtain ⟨hlength, nodeName, hcaller, hstored⟩ := h.answered count (hreplies _ hcount)
    exact ⟨hlength, nodeName, hcaller, hstored.mono hle⟩

theorem Pushing.onlyCall (h : Pushing id₀ ip caller policies w) (hwf : w'.app.store.WellFormed)
    (hle : w.app.store.summaryAt ip ≤ w'.app.store.summaryAt ip) (hid : id ≠ id₀)
    (hcall : OnlyCall id w w') : Pushing id₀ ip caller policies w' :=
  h.other hwf hle (hcall.tasks id₀ (Ne.symm hid)) fun _ hr =>
    (hcall.replies _ hr).resolve_right (Ne.symm hid)

/-- A step of the push itself. -/
theorem Pushing.advance (h : Pushing id₀ ip caller policies w) {t : HubTask}
    (ht : w.tasks id₀ = some t) {nowNs : UInt64} (hkeep : Keeps ip w (.advance id₀ nowNs)) :
    Pushing id₀ ip caller policies (advance w id₀ nowNs t) := by
  obtain ⟨hwf, hle⟩ := advance_summaryAt h.wellFormed ht hkeep
  rcases h.task with hnone | ⟨nodeName, hcaller, done, chunks, htask, hsplit, hdone⟩
  · rw [hnone] at ht
    cases ht
  rw [htask] at ht
  cases ht
  cases chunks with
  | nil =>
    rw [List.flatten_nil, List.append_nil] at hsplit
    subst hsplit
    refine ⟨h.wellFormed, .inl (TaskTable.set_self ..), fun count hcount => ?_⟩
    rcases List.mem_append.1 hcount with hold | hnew
    · exact h.answered count hold
    · cases List.mem_singleton.1 hnew
      exact ⟨rfl, nodeName, hcaller, hdone⟩
  | cons chunk chunks =>
    obtain ⟨s, hmerge, hwf', hsum⟩ := mergeChunk_summaryAt h.wellFormed nodeName chunk nowNs
    simp only [Hub.advance, hmerge] at hwf hle ⊢
    refine ⟨hwf, .inr ⟨nodeName, hcaller, done ++ chunk, chunks, ?_, ?_, ?_⟩, fun count hcount => ?_⟩
    · rw [List.length_append]
      exact TaskTable.set_self ..
    · rw [List.append_assoc, ← List.flatten_cons, hsplit]
    · intro node hnode hip
      rcases List.mem_append.1 hnode with hold | hnew
      · exact (hdone node hold hip).trans hle
      · subst hip
        refine le_trans (reportSummary_le_joined (List.mem_map_of_mem hnew)) ?_
        exact le_sup_right.trans (hsum node.ip).ge
    · obtain ⟨hlength, nodeName, hcaller, hstored⟩ := h.answered count hcount
      exact ⟨hlength, nodeName, hcaller, hstored.mono hle⟩

theorem pushing_step (h : Pushing id₀ ip caller policies w) {l : HubLabel}
    (hnumber : LeavesNumber id₀ l) (hkeep : Keeps ip w l) (hstep : hubStep w l = some w') :
    Pushing id₀ ip caller policies w' := by
  obtain ⟨hwf, hle⟩ := hubStep_summaryAt h.wellFormed hkeep hstep
  cases l with
  | call id authorization request nowNs =>
    obtain ⟨-, hstep⟩ := Option.ite_none_left_eq_some.1 hstep
    split at hstep
    · cases hstep
      exact h.onlyCall hwf hle hnumber ((onlyCall_refl id w).reply _)
    · cases hstep
      exact h.onlyCall hwf hle hnumber (handle_frame ..).2
  | advance id nowNs =>
    obtain ⟨t, ht, rfl⟩ := Option.map_eq_some_iff.1 hstep
    by_cases hid : id = id₀
    · subst hid
      exact h.advance ht hkeep
    · exact h.onlyCall hwf hle hid (advance_frame ..)
  | syncFeed id entries =>
    obtain ⟨-, hstep⟩ := Option.ite_none_left_eq_some.1 hstep
    split at hstep
    · cases hstep
      exact h
    · cases hstep
      exact h.onlyCall hwf hle hnumber ((onlyCall_refl id w).goOn _)
  | prune nowNs =>
    cases hstep
    exact h.other hwf hle rfl fun _ => id
  | cleanup nowNs =>
    cases hstep
    exact h.other hwf hle rfl fun _ => id

/-- After its first step a push is refused, or begins with all its chunks. -/
theorem pushing_call {authorization : Option String} {name : String} {nowNs : UInt64}
    (hwf : w.app.store.WellFormed) (hnew : ∀ r, (id, r) ∉ w.replies)
    (hstep : hubStep w (.call id authorization (.pushPolicies name policies) nowNs) = some w') :
    Pushing id ip (w.app.auth.nodeName authorization name) policies w' := by
  have hfree : ∀ {count : Nat} {refusal : HubReply}, refusal ≠ .merged count →
      (id, .merged count) ∉ w.replies ++ [(id, refusal)] := by
    intro count refusal hrefusal hmem
    rcases List.mem_append.1 hmem with hold | hlast
    · exact hnew _ hold
    · exact hrefusal (congrArg Prod.snd (List.mem_singleton.1 hlast)).symm
  obtain ⟨-, hstep⟩ := Option.ite_none_left_eq_some.1 hstep
  unfold HubAuth.nodeName
  cases hauth : w.app.auth.authenticate authorization with
  | none =>
    rw [hauth] at hstep
    cases hstep
    exact ⟨hwf, .inl (TaskTable.set_self ..), fun count hcount => absurd hcount (hfree (by simp))⟩
  | some identity =>
    rw [hauth] at hstep
    cases hstep
    simp only [handle, HubWorld.limited]
    split
    · refine ⟨hwf, .inr ⟨_, rfl, [], chunks policies, TaskTable.set_self .., ?_, ?_⟩, ?_⟩
      · exact flatten_chunks policies
      · exact fun node hnode => absurd hnode List.not_mem_nil
      · exact fun count hcount => absurd hcount (hnew _)
    · exact ⟨hwf, .inl (TaskTable.set_self ..), fun count hcount => absurd hcount (hfree (by simp))⟩

/-- Whatever else the hub is doing meanwhile, once it has answered a push with `merged`, the answer counts
all its reports and the store says about each IP at least what they say, unless a step has deleted the
policy of the IP or found its time over. -/
theorem answered_push_is_stored {w₀ w : HubWorld} {id : Nat} {authorization : Option String}
    {name : String} {policies : List NodePolicy} {nowNs : UInt64} {later : List HubLabel} {ip : IpKey}
    {count : Nat} (hwf : w₀.app.store.WellFormed) (hnew : ∀ r, (id, r) ∉ w₀.replies)
    (hrun :
      exec hubStep w₀ (.call id authorization (.pushPolicies name policies) nowNs :: later) = some w)
    (hnumber : ∀ l ∈ later, LeavesNumber id l)
    (hkeep : Along hubStep (Keeps ip) w₀
      (.call id authorization (.pushPolicies name policies) nowNs :: later))
    (hanswer : (id, .merged count) ∈ w.replies) :
    count = policies.length ∧
      ∃ nodeName ∈ w₀.app.auth.nodeName authorization name,
        ∀ node ∈ policies, node.ip = ip →
          ↑(reportSummary nodeName node) ≤ w.app.store.summaryAt ip := by
  obtain ⟨w₁, hstep, hrest⟩ := Option.bind_eq_some_iff.1 hrun
  have hlater := (hkeep.2 w₁ hstep).and_mem hnumber
  have h : Pushing id ip (w₀.app.auth.nodeName authorization name) policies w :=
    exec_invariant (fun w l w' h hl hstep => pushing_step h hl.2 hl.1 hstep)
      (pushing_call hwf hnew hstep) hlater hrest
  exact h.answered count hanswer

/-- A push of one report, between the heartbeats of another node. -/
theorem answered_push_is_stored_one_report :
    let w₀ := HubWorld.start {} none { masterToken := "m", nodeTokens := .empty } 120 {}
    let node : NodePolicy := ⟨.fromIpv4 1, 2, 3, 4, 0, 5⟩
    let labels :=
      [.call 0 (some "Bearer m") (.pushPolicies "a" [node]) 10,
        .call 1 (some "m") (.heartbeat "b") 11, .advance 0 12, .advance 1 13, .advance 0 14]
    ∃ w, exec hubStep w₀ labels = some w ∧
      ↑(reportSummary "a" node) ≤ w.app.store.summaryAt (.fromIpv4 1) := by
  intro w₀ node labels
  obtain ⟨w, hw⟩ : ∃ w, exec hubStep w₀ labels = some w := ⟨_, rfl⟩
  refine ⟨w, hw, ?_⟩
  have hanswer : (0, HubReply.merged 1) ∈ w.replies := by
    cases hw
    decide
  have hkeep : Along hubStep (Keeps (.fromIpv4 1)) w₀ labels := by
    refine .cons rfl trivial (.cons rfl trivial (.cons rfl ?_ (.cons rfl ?_ (.cons rfl ?_ trivial))))
    all_goals
      rintro ips ⟨⟩
  obtain ⟨-, nodeName, hname, hstored⟩ :=
    answered_push_is_stored wellFormed_empty (fun r => List.not_mem_nil) hw
      (by simp [LeavesNumber]) hkeep hanswer
  cases hname
  exact hstored node List.mem_cons_self rfl

end EShield.Hub
