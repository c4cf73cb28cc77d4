import EShield.Hub.Api
import EShield.Hub.Proofs.IndexProofs
import EShield.Hub.Proofs.MergeProofs

/-!
# What the hub holds was brought by a call it accepted

Whatever the order in which calls, their later steps and the tasks in the background come, each name,
report, deletion and rule in the state of the hub goes back to a call whose token was accepted for it.
In the order of summaries this is an upper bound; a push that has been answered is a lower one.
-/

namespace EShield.Hub

open Exec Store

/-- The node for which a call acts: that of its token, with the master token the one in its body. -/
def HubAuth.nodeName (a : HubAuth) (authorization : Option String) (bodyName : String) :
    Option String :=
  (a.authenticate authorization).map fun identity => identity.getD bodyName

/-! ## What a call brings -/

section Labels

variable (auth : HubAuth) (feed : FeedConfig)

/-- The reports in a call, if its token is accepted, or in the feed. -/
def broughtReports : HubLabel → List (String × NodePolicy)
  | .call _ authorization (.pushPolicies name policies) _ =>
    match auth.nodeName authorization name with
    | some nodeName => policies.map fun node => (nodeName, node)
    | none => []
  | .syncFeed _ entries => (feedPolicies feed entries).map fun node => (feed.name, node)
  | _ => []

def BringsDelete (ips : List IpKey) : HubLabel → Prop
  | .call _ authorization (.deletePolicies _ ips') _ =>
    auth.authenticate authorization ≠ none ∧ ips' = ips ∧ ips.length ≤ MAX_DELETE_IPS
  | _ => False

def BringsHeartbeat (nodeName : String) : HubLabel → Prop
  | .call _ authorization (.heartbeat name) _ =>
    auth.nodeName authorization name = some nodeName ∧ nodeName ≠ "" ∧
      nodeName.utf8ByteSize ≤ MAX_NODE_NAME_LEN
  | _ => False

def BringsRules (bundle : RuleBundle) : HubLabel → Prop
  | .call _ authorization (.setRules bundle') _ =>
    auth.authenticate authorization ≠ none ∧ bundle' = bundle
  | _ => False

/-- A call that the limiter counts for `nodeName`. -/
def ActsFor (nodeName : String) : HubLabel → Prop
  | .call _ authorization (.pushPolicies name _) _ => auth.nodeName authorization name = some nodeName
  | .call _ authorization (.deletePolicies name _) _ =>
    auth.nodeName authorization name = some nodeName
  | .call _ authorization (.heartbeat name) _ => auth.nodeName authorization name = some nodeName
  | _ => False

end Labels

/-- The state of the hub, against the store and the rules from which it has started and the calls. -/
structure Vouched (auth : HubAuth) (feed : FeedConfig) (s₀ : Store) (rules₀ : Option RuleBundle)
    (labels : List HubLabel) (app : AppState) : Prop where
  policies : ∀ ip, app.store.summaryAt ip ≤
    s₀.summaryAt ip ⊔ joined ip (labels.flatMap (broughtReports auth feed))
  tombstones : ∀ t ip, app.store.tombstones[(⟨t, ip⟩ : CompositeKey)]? = some () →
    s₀.tombstones[(⟨t, ip⟩ : CompositeKey)]? = some () ∨
      ∃ l ∈ labels, ∃ ips, BringsDelete auth ips l ∧ ip ∈ ips
  rules : ∀ bundle, app.rules = some bundle →
    rules₀ = some bundle ∨ ∃ l ∈ labels, BringsRules auth bundle l
  nodes : ∀ info ∈ app.registry.nodes, ∃ l ∈ labels, BringsHeartbeat auth info.name l
  buckets : ∀ nodeName, app.rateLimiter.buckets nodeName ≠ none → ∃ l ∈ labels, ActsFor auth nodeName l

/-! ## Every step keeps to it -/

section Vouch

variable (auth : HubAuth) (feed : FeedConfig) (s₀ : Store) (rules₀ : Option RuleBundle)
  (labels : List HubLabel)

/-- What a task is going to write goes back to a call. -/
def TaskVouched : HubTask → Prop
  | .push nodeName chunks _ =>
    ∀ chunk ∈ chunks, ∀ node ∈ chunk, (nodeName, node) ∈ labels.flatMap (broughtReports auth feed)
  | .delete ips => ∃ l ∈ labels, BringsDelete auth ips l
  | .heartbeat nodeName => ∃ l ∈ labels, BringsHeartbeat auth nodeName l
  | .stats _ _ => True

structure VouchedWorld (w : HubWorld) : Prop where
  auth_eq : w.app.auth = auth
  feed_eq : w.app.feed = feed
  wellFormed : w.app.store.WellFormed
  app : Vouched auth feed s₀ rules₀ labels w.app
  tasks : w.tasks.Each (TaskVouched auth feed labels)

variable {auth feed s₀ rules₀ labels} {w : HubWorld} {id : Nat}

theorem VouchedWorld.reply (h : VouchedWorld auth feed s₀ rules₀ labels w) (r : HubReply) :
    VouchedWorld auth feed s₀ rules₀ labels (w.reply id r) :=
  { h with tasks := h.tasks.set fun _ ht => absurd ht (by simp) }

theorem VouchedWorld.goOn (h : VouchedWorld auth feed s₀ rules₀ labels w) {t : HubTask}
    (ht : TaskVouched auth feed labels t) :
    VouchedWorld auth feed s₀ rules₀ labels (w.goOn id t) :=
  { h with tasks := h.tasks.set fun _ heq => Option.some.inj heq ▸ ht }

theorem VouchedWorld.setStore (h : VouchedWorld auth feed s₀ rules₀ labels w) {s : Store}
    (hwf : s.WellFormed)
    (hpolicies : ∀ ip, s.summaryAt ip ≤
      w.app.store.summaryAt ip ⊔ joined ip (labels.flatMap (broughtReports auth feed)))
    (htombs : ∀ t ip, s.tombstones[(⟨t, ip⟩ : CompositeKey)]? = some () →
      w.app.store.tombstones[(⟨t, ip⟩ : CompositeKey)]? = some () ∨
        ∃ l ∈ labels, ∃ ips, BringsDelete auth ips l ∧ ip ∈ ips) :
    VouchedWorld auth feed s₀ rules₀ labels (w.setStore s) :=
  { h with
    wellFormed := hwf
    app :=
      { h.app with
        policies := fun ip => (hpolicies ip).trans (sup_le (h.app.policies ip) le_sup_right)
        tombstones := fun t ip ht => (htombs t ip ht).elim (h.app.tombstones t ip) .inr } }

/-- The limiter touches the bucket of the node that it is asked for. -/
theorem check_buckets (l : RateLimiter) (nodeName : String) (nowNs : UInt64) {n : String}
    (h : (l.check nodeName nowNs).2.buckets n ≠ none) : n = nodeName ∨ l.buckets n ≠ none := by
  by_cases hn : n = nodeName
  · exact .inl hn
  · refine .inr fun hnone => h ?_
    unfold RateLimiter.check
    dsimp only
    split
    · exact (Function.update_of_ne hn _ _).trans hnone
    · exact (Function.update_of_ne hn _ _).trans hnone

theorem VouchedWorld.limited (h : VouchedWorld auth feed s₀ rules₀ labels w) {nodeName : String}
    {nowNs : UInt64} {next : HubWorld → HubWorld} (hacts : ∃ l ∈ labels, ActsFor auth nodeName l)
    (hnext : ∀ w', VouchedWorld auth feed s₀ rules₀ labels w' →
      VouchedWorld auth feed s₀ rules₀ labels (next w')) :
    VouchedWorld auth feed s₀ rules₀ labels (w.limited id nodeName nowNs next) := by
  unfold HubWorld.limited
  have hasked : VouchedWorld auth feed s₀ rules₀ labels
      { w with app := { w.app with rateLimiter := (w.app.rateLimiter.check nodeName nowNs).2 } } :=
    { h with
      app :=
        { h.app with
          buckets := by
            intro n hn
            rcases check_buckets _ _ _ hn with rfl | hold
            · exact hacts
            · exact h.app.buckets n hold } }
  dsimp only
  split
  · exact hnext _ hasked
  · exact hasked.reply _

theorem VouchedWorld.handle (h : VouchedWorld auth feed s₀ rules₀ labels w)
    {authorization : Option String} {identity : Option String} {request : HubRequest}
    {nowNs : UInt64} (hauth : auth.authenticate authorization = some identity)
    (hl : .call id authorization request nowNs ∈ labels) :
    VouchedWorld auth feed s₀ rules₀ labels (handle w id identity nowNs request) := by
  have hname : ∀ name, auth.nodeName authorization name = some (identity.getD name) := by
    intro name
    rw [HubAuth.nodeName, hauth]
    rfl
  have hsome : auth.authenticate authorization ≠ none := by
    rw [hauth]
    exact Option.some_ne_none _
  cases request with
  | pushPolicies name policies =>
    refine h.limited ⟨_, hl, hname name⟩ fun w' h' => h'.goOn ?_
    intro chunk hchunk node hnode
    have hmem : node ∈ policies := by
      rw [← flatten_chunks policies]
      exact List.mem_flatten_of_mem hchunk hnode
    refine List.mem_flatMap.2 ⟨_, hl, ?_⟩
    simp only [broughtReports, hname]
    exact List.mem_map_of_mem hmem
  | pullPolicies since limit => exact h.reply _
  | deletePolicies name ips =>
    unfold Hub.handle
    refine h.limited ⟨_, hl, hname name⟩ fun w' h' => ?_
    split
    · exact h'.reply _
    · rename_i hfew
      exact h'.goOn ⟨_, hl, hsome, rfl, not_lt.1 hfew⟩
  | deletedPolicies since limit => exact h.reply _
  | getRules => exact h.reply _
  | setRules bundle =>
    refine VouchedWorld.reply ?_ _
    refine { h with app := { h.app with rules := ?_ } }
    rintro bundle' ⟨⟩
    exact .inr ⟨_, hl, hsome, rfl⟩
  | heartbeat name =>
    unfold Hub.handle
    dsimp only
    split
    · exact h.reply _
    · rename_i hvalid
      rw [not_or, not_lt] at hvalid
      exact h.limited ⟨_, hl, hname name⟩ fun w' h' => h'.goOn ⟨_, hl, hname name, hvalid⟩
  | listNodes => exact h.reply _
  | stats => exact h.goOn trivial

theorem VouchedWorld.advance (h : VouchedWorld auth feed s₀ rules₀ labels w) {t : HubTask}
    (ht : TaskVouched auth feed labels t) (nowNs : UInt64) :
    VouchedWorld auth feed s₀ rules₀ labels (advance w id nowNs t) := by
  cases t with
  | push nodeName chunks merged =>
    cases chunks with
    | nil => exact h.reply _
    | cons chunk chunks =>
      obtain ⟨hchunk, hrest⟩ := List.forall_mem_cons.1 ht
      obtain ⟨s, hmerge, hwf, hview, htomb⟩ := mergeChunk_spec h.wellFormed nodeName chunk nowNs
      simp only [Hub.advance, hmerge]
      refine (h.setStore hwf (fun ip => ?_) fun t ip => ?_).goOn hrest
      · rw [summaryAt, hview, summary_mergedView]
        refine sup_le_sup_left (joined_le_of_subset fun r hr => ?_) _
        obtain ⟨node, hnode, rfl⟩ := List.mem_map.1 hr
        exact hchunk node hnode
      · rw [htomb]
        exact .inl
  | delete ips =>
    obtain ⟨hwf, hview, htombs⟩ := deletePolicies_spec h.wellFormed ips nowNs
    refine (h.setStore hwf (fun ip => ?_) fun t ip hrow => ?_).reply _
    · rw [summaryAt, hview]
      split
      · exact bot_le
      · exact le_sup_left
    · rcases (htombs _).1 hrow with hold | ⟨-, hip⟩
      · exact .inl hold
      · obtain ⟨l, hl, hdelete⟩ := ht
        exact .inr ⟨l, hl, ips, hdelete, hip⟩
  | heartbeat nodeName =>
    refine VouchedWorld.reply ?_ _
    refine { h with app := { h.app with nodes := ?_ } }
    intro info hinfo
    rcases KeyedRows.mem_upsert.1 hinfo with rfl | ⟨hinfo, -⟩
    · exact ht
    · exact h.app.nodes info hinfo
  | stats nodeCount onlineNodeCount => exact h.reply _

/-- Pruning takes policies and tombstones away. -/
theorem prune_view {s : Store} (hwf : s.WellFormed) (nowNs ttlNs : UInt64) {ip : IpKey}
    {p : SharedPolicy} :
    (s.prune nowNs ttlNs).view ip = some p ↔ s.view ip = some p ∧ ¬ Stale p nowNs := by
  rw [(hwf.prune nowNs ttlNs).view_iff, hwf.view_iff, (prune_lookup s nowNs ttlNs).1, and_assoc]

theorem prune_tombstones (s : Store) (nowNs ttlNs : UInt64) :
    (s.prune nowNs ttlNs).tombstones =
      s.tombstones.filter fun k _ => ¬ k.lastSeenNs.saturatingAdd ttlNs < nowNs := by
  have hfold : ∀ (rows : List (CompositeKey × SharedPolicy)) (s : Store),
      (rows.foldl (fun s kv =>
        { s with policies := s.policies.erase kv.1, index := s.index.erase kv.2.ip }) s).tombstones =
        s.tombstones := by
    intro rows
    induction rows with
    | nil => exact fun s => rfl
    | cons kv rows ih => exact fun s => ih _
  unfold prune
  dsimp only
  rw [hfold]

theorem vouchedWorld_step (h : VouchedWorld auth feed s₀ rules₀ labels w) {l : HubLabel}
    {w' : HubWorld} (hl : l ∈ labels) (hstep : hubStep w l = some w') :
    VouchedWorld auth feed s₀ rules₀ labels w' := by
  cases l with
  | call id authorization request nowNs =>
    obtain ⟨-, hstep⟩ := Option.ite_none_left_eq_some.1 hstep
    rw [h.auth_eq] at hstep
    cases hauth : auth.authenticate authorization with
    | none =>
      rw [hauth] at hstep
      cases hstep
      exact h.reply _
    | some identity =>
      rw [hauth] at hstep
      cases hstep
      exact h.handle hauth hl
  | advance id nowNs =>
    obtain ⟨t, ht, rfl⟩ := Option.map_eq_some_iff.1 hstep
    exact h.advance (h.tasks id t ht) nowNs
  | syncFeed id entries =>
    obtain ⟨-, hstep⟩ := Option.ite_none_left_eq_some.1 hstep
    rw [h.feed_eq] at hstep
    split at hstep
    · cases hstep
      exact h
    · cases hstep
      refine h.goOn fun chunk hchunk node hnode => List.mem_flatMap.2 ⟨_, hl, ?_⟩
      have hmem : node ∈ feedPolicies feed entries := by
        rw [← flatten_chunks (feedPolicies feed entries)]
        exact List.mem_flatten_of_mem hchunk hnode
      exact List.mem_map_of_mem hmem
  | prune nowNs =>
    cases hstep
    refine h.setStore (h.wellFormed.prune _ _) (fun ip => ?_) fun t ip hrow => ?_
    · refine le_sup_of_le_left ?_
      unfold summaryAt
      cases hview : (w.app.store.prune nowNs TOMBSTONE_TTL_NS).view ip with
      | none => exact bot_le
      | some p => rw [((prune_view h.wellFormed _ _).1 hview).1]
    · rw [prune_tombstones, Std.ExtTreeMap.getElem?_filter', Option.filter_eq_some_iff] at hrow
      exact .inl hrow.1
  | cleanup nowNs =>
    cases hstep
    refine { h with app := { h.app with nodes := ?_ } }
    intro info hinfo
    exact h.app.nodes info (List.mem_of_mem_filter hinfo)

theorem vouchedWorld_run {nodeTimeoutNs : UInt64} (h₀ : s₀.WellFormed)
    (hrun : exec hubStep (.start s₀ rules₀ auth nodeTimeoutNs feed) labels = some w) :
    VouchedWorld auth feed s₀ rules₀ labels w := by
  have hstart : VouchedWorld auth feed s₀ rules₀ labels
      (.start s₀ rules₀ auth nodeTimeoutNs feed) :=
    { auth_eq := rfl
      feed_eq := rfl
      wellFormed := h₀
      app :=
        { policies := fun ip => le_sup_left
          tombstones := fun t ip => .inl
          rules := fun bundle => .inl
          nodes := fun info hinfo => absurd hinfo List.not_mem_nil
          buckets := fun nodeName hbucket => absurd rfl hbucket }
      tasks := fun id t ht => absurd ht (by simp [HubWorld.start]) }
  have hall : Along hubStep (fun _ l => True ∧ l ∈ labels)
      (.start s₀ rules₀ auth nodeTimeoutNs feed) labels :=
    (along_of_forall (fun _ _ => trivial) _ _).and_mem fun l hl => hl
  exact exec_invariant (fun w l w' h hl hstep => vouchedWorld_step h hl.2 hstep) hstart hall hrun

end Vouch

/-- Whatever calls, feeds and tasks in the background do to a hub and in whatever order, what the store
says about an IP is at most what it has said at the start and what calls with an accepted token have
reported; and its tombstones, its rules, its nodes and the buckets of its limiter go back to such calls
as well, each in the name that the token allows. -/
theorem hub_holds_what_was_vouched {auth : HubAuth} {feed : FeedConfig} {s₀ : Store}
    {rules₀ : Option RuleBundle} {nodeTimeoutNs : UInt64} {labels : List HubLabel} {w : HubWorld}
    (h₀ : s₀.WellFormed)
    (hrun : exec hubStep (.start s₀ rules₀ auth nodeTimeoutNs feed) labels = some w) :
    Vouched auth feed s₀ rules₀ labels w.app := (vouchedWorld_run h₀ hrun).app

/-- A node pushes under its own token and gives the name of another one; without a token it is refused. -/
theorem hub_holds_what_was_vouched_own_token :
    let auth : HubAuth :=
      { masterToken := "m", nodeTokens := NodeTokens.empty.insert "a" "secret" }
    let labels :=
      [.call 0 (some "Bearer secret") (.pushPolicies "b" [⟨.fromIpv4 1, 2, 3, 4, 0, 5⟩]) 10,
        .call 1 none (.heartbeat "b") 11, .advance 0 12, .advance 0 13]
    ∃ w, exec hubStep (.start {} none auth 120 {}) labels = some w ∧
      (w.app.store.view (.fromIpv4 1)).map SharedPolicy.sourceNodes = some ["a"] ∧
        Vouched auth {} {} none labels w.app := by
  intro auth labels
  obtain ⟨w, hw⟩ : ∃ w, exec hubStep (.start {} none auth 120 {}) labels = some w := ⟨_, rfl⟩
  refine ⟨w, hw, ?_, hub_holds_what_was_vouched wellFormed_empty hw⟩
  cases hw
  decide

end EShield.Hub
