import EShield.Hub.Proofs.ApiFrameProofs
import EShield.Hub.Proofs.IndexProofs

/-!
# The nodes and the numbers that the hub shows

The list of nodes follows their last heartbeats, also while entries are cleaned up; the numbers count
rows, and each row is the policy of one IP.
-/

namespace EShield.Hub

open Exec KeyedRows LastWrite NodeRegistry

/-! ## Nodes -/

/-- The last heartbeat of a node. -/
def lastBeat (beats : List (String × UInt64)) (nodeName : String) : Option UInt64 :=
  (lastOf (·.1 = nodeName) beats).map Prod.snd

theorem lastBeat_concat (beats : List (String × UInt64)) (nodeName : String) (nowNs : UInt64)
    (n : String) :
    lastBeat (beats ++ [(nodeName, nowNs)]) n = if nodeName = n then some nowNs else lastBeat beats n := by
  rw [lastBeat, lastOf_concat]
  by_cases hn : nodeName = n
  · rw [if_pos hn, if_pos hn]
    rfl
  · rw [if_neg hn, if_neg hn]
    rfl

theorem mem_of_lastBeat {beats : List (String × UInt64)} {n : String} {t : UInt64}
    (h : t ∈ lastBeat beats n) : n ∈ beats.map Prod.fst := by
  obtain ⟨⟨m, t'⟩, hlast, rfl⟩ := Option.map_eq_some_iff.1 h
  obtain ⟨pre, post, rfl, rfl, -⟩ := lastOf_eq_some_iff.1 hlast
  simp

/-- What was too long ago earlier is so later. -/
theorem recent_of_le {now later timeoutNs t : UInt64} (h : Recent later timeoutNs t)
    (hle : now ≤ later) : Recent now timeoutNs t := by
  unfold Recent at h ⊢
  rw [UInt64.le_iff_toNat_le, UInt64.toNat_saturatingSub] at *
  omega

/-- The entries are the last heartbeats, those apart that a clean-up among `labels` has removed. -/
structure Presence (timeoutNs : UInt64) (labels : List HubLabel) (w : HubWorld) : Prop where
  timeout_eq : w.app.nodeTimeoutNs = timeoutNs
  entries : ∀ info ∈ w.app.registry.nodes, lastBeat w.beats info.name = some info.lastSeenNs
  missing : ∀ n, ∀ t ∈ lastBeat w.beats n, (∃ info ∈ w.app.registry.nodes, info.name = n) ∨
    ∃ nowNs, .cleanup nowNs ∈ labels ∧ ¬ Recent nowNs timeoutNs t

variable {timeoutNs : UInt64} {labels : List HubLabel} {w w' : HubWorld}

theorem Presence.same (h : Presence timeoutNs labels w) (hsame : SameTables w w') :
    Presence timeoutNs labels w' := by
  obtain ⟨-, hregistry, hbeats, htimeout⟩ := hsame
  obtain ⟨htimeout', hentries, hmissing⟩ := h
  refine ⟨htimeout.trans htimeout', ?_, ?_⟩
  · rw [hregistry, hbeats]
    exact hentries
  · rw [hregistry, hbeats]
    exact hmissing

theorem Presence.heartbeat (h : Presence timeoutNs labels w) (id : Nat) (nodeName : String)
    (nowNs : UInt64) : Presence timeoutNs labels (advance w id nowNs (.heartbeat nodeName)) where
  timeout_eq := h.timeout_eq
  entries := by
    intro info hinfo
    show lastBeat (w.beats ++ [(nodeName, nowNs)]) info.name = _
    rw [lastBeat_concat]
    rcases mem_upsert.1 hinfo with rfl | ⟨hinfo, hne⟩
    · exact if_pos rfl
    · rw [if_neg (Ne.symm hne)]
      exact h.entries info hinfo
  missing := by
    intro n t ht
    have ht : t ∈ lastBeat (w.beats ++ [(nodeName, nowNs)]) n := ht
    rw [lastBeat_concat] at ht
    by_cases hn : nodeName = n
    · exact .inl ⟨_, mem_upsert.2 (.inl rfl), hn⟩
    · rw [if_neg hn] at ht
      refine (h.missing n t ht).imp_left ?_
      rintro ⟨info, hinfo, rfl⟩
      exact ⟨info, mem_upsert.2 (.inr ⟨hinfo, Ne.symm hn⟩), rfl⟩

theorem Presence.cleanup (h : Presence timeoutNs labels w) {nowNs : UInt64}
    (hl : .cleanup nowNs ∈ labels) (hstep : hubStep w (.cleanup nowNs) = some w') :
    Presence timeoutNs labels w' := by
  cases hstep
  refine ⟨h.timeout_eq, fun info hinfo => h.entries info (List.mem_of_mem_filter hinfo), ?_⟩
  intro n t ht
  rcases h.missing n t ht with ⟨info, hinfo, rfl⟩ | hgone
  · have hseen := h.entries info hinfo
    rw [ht] at hseen
    cases hseen
    by_cases hrecent : Recent nowNs timeoutNs info.lastSeenNs
    · rw [← h.timeout_eq] at hrecent
      exact .inl ⟨info, List.mem_filter.2 ⟨hinfo, decide_eq_true hrecent⟩, rfl⟩
    · exact .inr ⟨nowNs, hl, hrecent⟩
  · exact .inr hgone

theorem presence_step (h : Presence timeoutNs labels w) {l : HubLabel} (hl : l ∈ labels)
    (hstep : hubStep w l = some w') : Presence timeoutNs labels w' := by
  have hself := sameTables_refl w
  cases l with
  | call id authorization request nowNs =>
    obtain ⟨-, hstep⟩ := Option.ite_none_left_eq_some.1 hstep
    split at hstep
    · cases hstep
      exact h.same (hself.reply _)
    · cases hstep
      exact h.same (handle_frame ..).1
  | advance id nowNs =>
    obtain ⟨t, -, rfl⟩ := Option.map_eq_some_iff.1 hstep
    cases t with
    | push nodeName chunks merged =>
      cases chunks with
      | nil => exact h.same (hself.reply _)
      | cons chunk chunks =>
        unfold advance
        dsimp only
        split
        · exact ⟨h.timeout_eq, h.entries, h.missing⟩
        · exact h.same (hself.reply _)
    | delete ips => exact ⟨h.timeout_eq, h.entries, h.missing⟩
    | heartbeat nodeName => exact h.heartbeat id nodeName nowNs
    | stats nodeCount onlineNodeCount => exact h.same (hself.reply _)
  | syncFeed id entries =>
    obtain ⟨-, hstep⟩ := Option.ite_none_left_eq_some.1 hstep
    split at hstep
    · cases hstep
      exact h
    · cases hstep
      exact h.same (hself.goOn _)
  | prune nowNs =>
    cases hstep
    exact ⟨h.timeout_eq, h.entries, h.missing⟩
  | cleanup nowNs => exact h.cleanup hl hstep

/-- An entry of the list, and the heartbeat that it shows. -/
theorem mem_list {r : NodeRegistry} {nowNs : UInt64} {info : NodeInfo} :
    info ∈ r.list nowNs timeoutNs ↔
      ∃ entry ∈ r.nodes,
        info = { entry with online := Recent nowNs timeoutNs entry.lastSeenNs } := by
  rw [NodeRegistry.list, List.mem_map]
  exact exists_congr fun entry => and_congr_right fun _ => eq_comm

theorem Presence.online_iff (h : Presence timeoutNs labels w) {nowNs : UInt64}
    (hclean : ∀ cleanNs, .cleanup cleanNs ∈ labels → cleanNs ≤ nowNs) (n : String) :
    (∃ info ∈ w.app.registry.list nowNs timeoutNs, info.name = n ∧ info.online) ↔
      ∃ t ∈ lastBeat w.beats n, Recent nowNs timeoutNs t := by
  constructor
  · rintro ⟨info, hinfo, rfl, honline⟩
    obtain ⟨entry, hentry, rfl⟩ := mem_list.1 hinfo
    exact ⟨entry.lastSeenNs, h.entries entry hentry, of_decide_eq_true honline⟩
  · rintro ⟨t, ht, hrecent⟩
    rcases h.missing n t ht with ⟨entry, hentry, rfl⟩ | ⟨cleanNs, hcleaned, hgone⟩
    · have hseen := h.entries entry hentry
      rw [ht] at hseen
      cases hseen
      exact ⟨_, mem_list.2 ⟨entry, hentry, rfl⟩, rfl, decide_eq_true hrecent⟩
    · exact absurd (recent_of_le hrecent (hclean cleanNs hcleaned)) hgone

/-- The list names no node twice. -/
theorem keyed_list (r : NodeRegistry) (nowNs : UInt64) :
    Keyed NodeInfo.name (r.list nowNs timeoutNs) := by
  unfold Keyed NodeRegistry.list
  rw [List.map_map]
  exact r.keyed

/-- The nodes with a recent heartbeat. -/
def present (beats : List (String × UInt64)) (nowNs timeoutNs : UInt64) : List String :=
  (beats.map Prod.fst).dedup.filter fun n => ∃ t ∈ lastBeat beats n, Recent nowNs timeoutNs t

/-- The number of nodes online is that of the nodes with a recent heartbeat. -/
theorem Presence.countP_online (h : Presence timeoutNs labels w) {nowNs : UInt64}
    (hclean : ∀ cleanNs, .cleanup cleanNs ∈ labels → cleanNs ≤ nowNs) :
    (w.app.registry.list nowNs timeoutNs).countP NodeInfo.online =
      (present w.beats nowNs timeoutNs).length := by
  rw [List.countP_eq_length_filter, ← List.length_map NodeInfo.name]
  refine List.Perm.length_eq ((List.perm_ext_iff_of_nodup ?_ ?_).2 fun n => ?_)
  · exact (keyed_list _ _).filter _
  · exact (List.nodup_dedup _).filter _
  · rw [present, List.mem_filter, List.mem_dedup, decide_eq_true_iff, ← h.online_iff hclean]
    simp only [List.mem_map, List.mem_filter]
    constructor
    · rintro ⟨info, ⟨hinfo, honline⟩, rfl⟩
      have hmem : ∃ i ∈ w.app.registry.list nowNs timeoutNs, i.name = info.name ∧ i.online :=
        ⟨info, hinfo, rfl, honline⟩
      obtain ⟨t, ht, -⟩ := (h.online_iff hclean _).1 hmem
      exact ⟨List.mem_map.1 (mem_of_lastBeat ht), hmem⟩
    · rintro ⟨-, info, hinfo, rfl, honline⟩
      exact ⟨info, ⟨hinfo, honline⟩, rfl⟩

theorem presence_start (store : Store) (rules : Option RuleBundle) (auth : HubAuth)
    (timeoutNs : UInt64) (feed : FeedConfig) (labels : List HubLabel) :
    Presence timeoutNs labels (.start store rules auth timeoutNs feed) where
  timeout_eq := rfl
  entries info hinfo := absurd hinfo List.not_mem_nil
  missing n t ht := by simp [HubWorld.start, lastBeat, lastOf] at ht

/-- Whatever the order of calls, their later steps and the clean-ups, at a time not before a clean-up the
list shows as online exactly the nodes with a recent last heartbeat, names none twice, gives for each of
its nodes the last heartbeat, and the number online is that of these nodes. -/
theorem nodes_online_iff_heard_from {store : Store} {rules : Option RuleBundle} {auth : HubAuth}
    {timeoutNs nowNs : UInt64} {feed : FeedConfig} {labels : List HubLabel} {w : HubWorld}
    (hrun : exec hubStep (.start store rules auth timeoutNs feed) labels = some w)
    (hclean : ∀ cleanNs, .cleanup cleanNs ∈ labels → cleanNs ≤ nowNs) :
    let nodes := w.app.registry.list nowNs timeoutNs
    (∀ n, (∃ info ∈ nodes, info.name = n ∧ info.online) ↔
        ∃ t ∈ lastBeat w.beats n, Recent nowNs timeoutNs t) ∧
      Keyed NodeInfo.name nodes ∧
      (∀ info ∈ nodes, lastBeat w.beats info.name = some info.lastSeenNs) ∧
      nodes.countP NodeInfo.online = (present w.beats nowNs timeoutNs).length := by
  intro nodes
  have hall : Along hubStep (fun _ l => True ∧ l ∈ labels)
      (.start store rules auth timeoutNs feed) labels :=
    (along_of_forall (fun _ _ => trivial) _ _).and_mem fun l hl => hl
  have h : Presence timeoutNs labels w :=
    exec_invariant (fun w l w' h hl hstep => presence_step h hl.2 hstep)
      (presence_start store rules auth timeoutNs feed labels) hall hrun
  refine ⟨h.online_iff hclean, keyed_list _ _, fun info hinfo => ?_, h.countP_online hclean⟩
  obtain ⟨entry, hentry, rfl⟩ := mem_list.1 hinfo
  exact h.entries entry hentry

/-- Two nodes, of which one falls silent and is cleaned up. -/
def silentNode : List HubLabel :=
  [.call 0 (some "m") (.heartbeat "a") 1, .call 1 (some "m") (.heartbeat "b") 1, .advance 1 2,
    .advance 0 3, .call 2 (some "m") (.heartbeat "b") 130, .advance 2 131, .cleanup 140]

theorem nodes_online_iff_heard_from_silent :
    ∃ w, exec hubStep (.start {} none { masterToken := "m", nodeTokens := .empty } 120 {})
        silentNode = some w ∧
      (∃ info ∈ w.app.registry.list 150 120, info.name = "b" ∧ info.online) ∧
        ¬ ∃ info ∈ w.app.registry.list 150 120, info.name = "a" ∧ info.online := by
  obtain ⟨w, hw⟩ : ∃ w, exec hubStep
      (.start {} none { masterToken := "m", nodeTokens := .empty } 120 {}) silentNode = some w :=
    ⟨_, rfl⟩
  have hclean : ∀ cleanNs, HubLabel.cleanup cleanNs ∈ silentNode → cleanNs ≤ 150 := by
    intro cleanNs hl
    obtain rfl : cleanNs = 140 := by simpa [silentNode] using hl
    decide
  obtain ⟨honline, -⟩ := nodes_online_iff_heard_from hw hclean
  refine ⟨w, hw, (honline "b").2 ?_, fun h => ?_⟩
  · cases hw
    exact ⟨131, rfl, by decide⟩
  · obtain ⟨t, ht, hrecent⟩ := (honline "a").1 h
    cases hw
    cases ht
    exact absurd hrecent (by decide)

end EShield.Hub
