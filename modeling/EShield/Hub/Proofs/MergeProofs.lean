import EShield.Hub.Proofs.StoreProofs

/-!
# Merging as a join

What the hub keeps of an IP's reports is their join in a product of semilattices: the highest hit
count, the lowest trust score, the longest time with the permanent one at the top, and the set of the
nodes. So neither the order of the reports nor the chunks in which they come nor repetitions matter.
-/

namespace EShield.Hub

/-! ## The semilattice -/

/-- What a policy says, with an order for each part: hits, trust, time and nodes. -/
abbrev Summary : Type := ℕ × ℕᵒᵈ × WithTop ℕ × Finset String

/-- The place of a time in seconds; 0 is the longest. -/
def ttlRank (ttlS : UInt64) : WithTop ℕ := if ttlS = 0 then ⊤ else (ttlS.toNat : WithTop ℕ)

def summary (p : SharedPolicy) : Summary :=
  (p.hitCount.toNat, OrderDual.toDual p.trustScore.toNat, ttlRank p.ttlS, p.sourceNodes.toFinset)

/-- What is said where there may be no policy. -/
def optSummary (old : Option SharedPolicy) : WithBot Summary :=
  match old with
  | some p => ↑(summary p)
  | none => ⊥

/-- What one report of `nodeName` says. -/
def reportSummary (nodeName : String) (node : NodePolicy) : Summary :=
  (node.hitCount.toNat, OrderDual.toDual node.trustScore.toNat, ttlRank node.ttlS, {nodeName})

theorem ttlRank_injective : Function.Injective ttlRank := by
  intro a b h
  unfold ttlRank at h
  by_cases ha : a = 0 <;> by_cases hb : b = 0
  · rw [ha, hb]
  · rw [if_pos ha, if_neg hb] at h
    exact absurd h.symm (WithTop.coe_ne_top)
  · rw [if_neg ha, if_pos hb] at h
    exact absurd h (WithTop.coe_ne_top)
  · rw [if_neg ha, if_neg hb] at h
    exact UInt64.toNat_inj.1 (WithTop.coe_injective h)

/-- The rule for merged times is the join of the ranks. -/
theorem ttlRank_merge (a b : UInt64) :
    ttlRank (if a = 0 ∨ b = 0 then 0 else max a b) = ttlRank a ⊔ ttlRank b := by
  by_cases ha : a = 0
  · simp [ttlRank, ha]
  · by_cases hb : b = 0
    · simp [ttlRank, hb]
    · have hmax : max a b ≠ 0 := by rcases max_choice a b with h | h <;> rw [h] <;> assumption
      rw [if_neg (not_or.2 ⟨ha, hb⟩), ttlRank, if_neg hmax, ttlRank, if_neg ha, ttlRank, if_neg hb]
      rcases le_total a b with hle | hle
      · rw [max_eq_right hle, max_eq_right (by exact_mod_cast UInt64.le_iff_toNat_le.1 hle)]
      · rw [max_eq_left hle, max_eq_left (by exact_mod_cast UInt64.le_iff_toNat_le.1 hle)]

theorem toNat_max (a b : UInt32) : (max a b).toNat = max a.toNat b.toNat := by
  rw [UInt32.max_def]
  split
  · rename_i hle
    exact (max_eq_right (UInt32.le_iff_toNat_le.1 hle)).symm
  · rename_i hgt
    exact (max_eq_left (UInt32.le_iff_toNat_le.1 (UInt32.le_of_lt (UInt32.not_le.1 hgt)))).symm

theorem toNat_min (a b : UInt32) : (min a b).toNat = min a.toNat b.toNat := by
  rw [UInt32.min_def]
  split
  · rename_i hle
    exact (min_eq_left (UInt32.le_iff_toNat_le.1 hle)).symm
  · rename_i hgt
    exact (min_eq_right (UInt32.le_iff_toNat_le.1 (UInt32.le_of_lt (UInt32.not_le.1 hgt)))).symm

/-- A report joins the policy it meets. -/
theorem summary_mergePolicy (nodeName : String) (nowNs : UInt64) (old : Option SharedPolicy)
    (node : NodePolicy) :
    optSummary (some (Store.mergePolicy nodeName nowNs old node)) =
      optSummary old ⊔ ↑(reportSummary nodeName node) := by
  cases old with
  | none => exact (bot_sup_eq _).symm
  | some p =>
    simp only [optSummary]
    rw [← WithBot.coe_sup, WithBot.coe_inj]
    refine Prod.ext (toNat_max _ _) (Prod.ext ?_ (Prod.ext (ttlRank_merge _ _) ?_))
    · exact congrArg OrderDual.toDual (toNat_min _ _)
    · ext n
      simp only [summary, reportSummary, Store.mergePolicy, Prod.sup_def, Finset.sup_eq_union,
        Finset.mem_union, List.mem_toFinset, Finset.mem_singleton]
      split
      · rename_i hmem
        exact ⟨.inl, fun h => h.elim id fun heq => heq ▸ hmem⟩
      · rw [List.mem_append, List.mem_singleton]

/-! ## Many chunks -/

namespace Store

/-- One transaction of a push. -/
structure Chunk where
  nodeName : String
  policies : List NodePolicy
  nowNs : UInt64

/-- The chunks, committed one after the other. -/
def mergeAll (s : Store) (cs : List Chunk) : Option Store :=
  cs.foldlM (fun s c => s.mergeChunk c.nodeName c.policies c.nowNs) s

/-- The reports in the chunks, each with its node. -/
def reports (cs : List Chunk) : List (String × NodePolicy) :=
  cs.flatMap fun c => c.policies.map fun node => (c.nodeName, node)

/-- What a report says about `ip`. -/
def contribution (ip : IpKey) (r : String × NodePolicy) : WithBot Summary :=
  if r.2.ip = ip then ↑(reportSummary r.1 r.2) else ⊥

/-- What the store says about `ip`; nothing if it has no policy. -/
def summaryAt (s : Store) (ip : IpKey) : WithBot Summary := optSummary (s.view ip)

/-- The join of all that the reports say about `ip`. -/
def joined (ip : IpKey) (rs : List (String × NodePolicy)) : WithBot Summary :=
  (Multiset.map (contribution ip) rs).sup

theorem joined_append (ip : IpKey) (rs rs' : List (String × NodePolicy)) :
    joined ip (rs ++ rs') = joined ip rs ⊔ joined ip rs' := by
  unfold joined
  rw [← Multiset.coe_add, Multiset.map_add, Multiset.sup_add]

/-- Reports that have been joined add nothing. -/
theorem joined_le_of_subset {ip : IpKey} {rs rs' : List (String × NodePolicy)}
    (h : ∀ r ∈ rs', r ∈ rs) : joined ip rs' ≤ joined ip rs := by
  refine Multiset.sup_le.2 fun x hx => ?_
  obtain ⟨r, hr, rfl⟩ := Multiset.mem_map.1 hx
  exact Multiset.le_sup (Multiset.mem_map_of_mem _ (h r hr))

/-- A chunk joins its reports to what the store says. -/
theorem summary_mergedView (nodeName : String) (nowNs : UInt64) (v : IpKey → Option SharedPolicy)
    (policies : List NodePolicy) (ip : IpKey) :
    optSummary (mergedView nodeName nowNs v policies ip) =
      optSummary (v ip) ⊔ joined ip (policies.map fun node => (nodeName, node)) := by
  induction policies generalizing v with
  | nil => exact (sup_bot_eq _).symm
  | cons node rest ih =>
    rw [mergedView, ih, List.map_cons, ← List.singleton_append, joined_append, ← sup_assoc]
    congr 1
    have hone : joined ip [(nodeName, node)] = contribution ip (nodeName, node) := by
      simp [joined]
    rw [hone, contribution]
    by_cases hip : node.ip = ip
    · subst hip
      rw [Function.update_self, if_pos rfl]
      exact summary_mergePolicy nodeName nowNs (v node.ip) node
    · rw [Function.update_of_ne (Ne.symm hip), if_neg hip]
      exact (sup_bot_eq _).symm

/-- Chunks commit, and join their reports to what the store says. -/
theorem mergeAll_spec {s : Store} (h : s.WellFormed) (cs : List Chunk) :
    ∃ s', s.mergeAll cs = some s' ∧ s'.WellFormed ∧
      ∀ ip, s'.summaryAt ip = s.summaryAt ip ⊔ joined ip (reports cs) := by
  induction cs generalizing s with
  | nil => exact ⟨s, rfl, h, fun ip => (sup_bot_eq _).symm⟩
  | cons c cs ih =>
    obtain ⟨s₁, hone, hwf₁, hview₁, _⟩ := mergeChunk_spec h c.nodeName c.policies c.nowNs
    obtain ⟨s', hrest, hwf', hsum⟩ := ih hwf₁
    refine ⟨s', ?_, hwf', fun ip => ?_⟩
    · rw [mergeAll, List.foldlM_cons, hone]
      exact hrest
    · rw [hsum, summaryAt, hview₁]
      rw [show reports (c :: cs) = c.policies.map (fun node => (c.nodeName, node)) ++ reports cs
        from rfl, joined_append, ← sup_assoc]
      exact congrArg (· ⊔ _) (summary_mergedView c.nodeName c.nowNs s.view c.policies ip)

/-! ## Order, chunks and repetitions -/

/-- The same hits, trust, time and set of nodes, or no policy in both. -/
def SameMerge (v w : Option SharedPolicy) : Prop :=
  match v, w with
  | some p, some q =>
    p.hitCount = q.hitCount ∧ p.trustScore = q.trustScore ∧ p.ttlS = q.ttlS ∧
      ∀ n, n ∈ p.sourceNodes ↔ n ∈ q.sourceNodes
  | none, none => True
  | _, _ => False

theorem sameMerge_of_optSummary {v w : Option SharedPolicy} (h : optSummary v = optSummary w) :
    SameMerge v w := by
  cases v with
  | none =>
    cases w with
    | none => trivial
    | some q => exact absurd h.symm WithBot.coe_ne_bot
  | some p =>
    cases w with
    | none => exact absurd h WithBot.coe_ne_bot
    | some q =>
      obtain ⟨hhits, htrust, httl, hnodes⟩ : p.hitCount.toNat = q.hitCount.toNat ∧
          p.trustScore.toNat = q.trustScore.toNat ∧ ttlRank p.ttlS = ttlRank q.ttlS ∧
          p.sourceNodes.toFinset = q.sourceNodes.toFinset := by
        have hsum : summary p = summary q := WithBot.coe_inj.1 h
        simpa only [summary, Prod.mk.injEq, OrderDual.toDual_inj] using hsum
      refine ⟨UInt32.toNat_inj.1 hhits, UInt32.toNat_inj.1 htrust, ttlRank_injective httl, fun n => ?_⟩
      rw [← List.mem_toFinset, hnodes, List.mem_toFinset]

/-- Whatever the order in which the same reports come and the chunks into which they are split, the
policy of each IP is the join of what was there and what was reported, and chunks of reports that
have been merged already change nothing of it. -/
theorem merge_order_independent {s : Store} (h : s.WellFormed) {cs₁ cs₂ : List Chunk}
    (hperm : (reports cs₁).Perm (reports cs₂)) :
    ∃ s₁ s₂, s.mergeAll cs₁ = some s₁ ∧ s.mergeAll cs₂ = some s₂ ∧
      (∀ ip, s₁.summaryAt ip = s.summaryAt ip ⊔ joined ip (reports cs₁)) ∧
      (∀ ip, SameMerge (s₁.view ip) (s₂.view ip)) ∧
      ∀ again : List Chunk, (∀ r ∈ reports again, r ∈ reports cs₁) →
        ∃ s₃, s₁.mergeAll again = some s₃ ∧ ∀ ip, SameMerge (s₁.view ip) (s₃.view ip) := by
  obtain ⟨s₁, h₁, hwf₁, hsum₁⟩ := mergeAll_spec h cs₁
  obtain ⟨s₂, h₂, _, hsum₂⟩ := mergeAll_spec h cs₂
  refine ⟨s₁, s₂, h₁, h₂, hsum₁, fun ip => ?_, fun again hagain => ?_⟩
  · have hjoin : joined ip (reports cs₁) = joined ip (reports cs₂) := by
      rw [joined, joined, Multiset.coe_eq_coe.2 hperm]
    refine sameMerge_of_optSummary ?_
    rw [← summaryAt, ← summaryAt, hsum₁, hsum₂, hjoin]
  · obtain ⟨s₃, h₃, _, hsum₃⟩ := mergeAll_spec hwf₁ again
    refine ⟨s₃, h₃, fun ip => sameMerge_of_optSummary ?_⟩
    have hle : joined ip (reports again) ≤ s₁.summaryAt ip := by
      rw [hsum₁]
      exact (joined_le_of_subset hagain).trans le_sup_right
    rw [← summaryAt, ← summaryAt, hsum₃, sup_eq_left.2 hle]

/-- A report of node "a" and one of node "b" on the same IP. -/
def sampleChunks : List Chunk :=
  [⟨"a", [⟨.fromIpv4 1, 2, 10, 40, 0, 60⟩], 100⟩, ⟨"b", [⟨.fromIpv4 1, 3, 5, 20, 0, 0⟩], 200⟩]

theorem merge_order_independent_two_nodes :
    ∃ s₁ s₂, Store.mergeAll {} sampleChunks = some s₁ ∧
      Store.mergeAll {} sampleChunks.reverse = some s₂ ∧
      SameMerge (s₁.view (.fromIpv4 1)) (s₂.view (.fromIpv4 1)) := by
  have hperm : (reports sampleChunks).Perm (reports sampleChunks.reverse) := by decide
  obtain ⟨s₁, s₂, h₁, h₂, _, hsame, _⟩ := merge_order_independent wellFormed_empty hperm
  exact ⟨s₁, s₂, h₁, h₂, hsame _⟩

end Store

end EShield.Hub
