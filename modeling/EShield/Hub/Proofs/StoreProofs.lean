import EShield.Hub.Store

/-!
# The store as a map from IP to policy

A well-formed store holds one row for each IP, under the key of its policy, and an index that finds
it. Seen as `view : IpKey → Option SharedPolicy`, a merge updates one IP, a delete clears one, and a
query returns the policies stamped in an interval.
-/

namespace EShield.Hub

open Function (update)

namespace Store

/-- The policy of an IP, found through the index. -/
def view (s : Store) (ip : IpKey) : Option SharedPolicy :=
  s.index[ip]?.bind fun ck => s.policies[ck]?

/-- Every row lies under the key of its policy, and the index leads to every row and nowhere else. -/
structure WellFormed (s : Store) : Prop where
  key_eq : ∀ (ck : CompositeKey) (p : SharedPolicy), s.policies[ck]? = some p →
    ck = { lastSeenNs := p.lastSeenNs, ip := p.ip }
  indexed : ∀ (ck : CompositeKey) (p : SharedPolicy), s.policies[ck]? = some p →
    s.index[p.ip]? = some ck
  exact : ∀ (ip : IpKey) (ck : CompositeKey), s.index[ip]? = some ck →
    ∃ p : SharedPolicy, s.policies[ck]? = some p ∧ p.ip = ip

theorem wellFormed_empty : WellFormed {} where
  key_eq := by simp
  indexed := by simp
  exact := by simp

variable {s : Store} {ip : IpKey} {p : SharedPolicy} {ck : CompositeKey}

namespace WellFormed

/-- The row of an IP, in the table and in the view. -/
theorem view_iff (h : WellFormed s) :
    s.view ip = some p ↔ p.ip = ip ∧ s.policies[(⟨p.lastSeenNs, p.ip⟩ : CompositeKey)]? = some p := by
  unfold view
  constructor
  · intro hview
    obtain ⟨ck, hck, hp⟩ := Option.bind_eq_some_iff.1 hview
    obtain ⟨p', hp', hip⟩ := h.exact ip ck hck
    rw [hp] at hp'
    cases hp'
    rw [h.key_eq ck p hp] at hp
    exact ⟨hip, hp⟩
  · rintro ⟨rfl, hp⟩
    rw [h.indexed _ _ hp]
    exact hp

theorem view_ip (h : WellFormed s) (hview : s.view ip = some p) : p.ip = ip := (h.view_iff.1 hview).1

/-- A row is that of an IP exactly when the index of the IP leads to it. -/
theorem ip_eq_iff (h : WellFormed s) (hp : s.policies[ck]? = some p) :
    p.ip = ip ↔ s.index[ip]? = some ck := by
  constructor
  · rintro rfl
    exact h.indexed ck p hp
  · intro hindex
    obtain ⟨q, hq, hip⟩ := h.exact ip ck hindex
    rw [hp] at hq
    cases hq
    exact hip

/-- The rows but that of `ip`. -/
theorem erase_row_iff (h : WellFormed s) {old : CompositeKey} (hindex : s.index[ip]? = some old) :
    (s.policies.erase old)[ck]? = some p ↔ p.ip ≠ ip ∧ s.policies[ck]? = some p := by
  simp only [Std.ExtTreeMap.getElem?_erase, Std.compare_eq_iff_eq]
  by_cases heq : old = ck
  · rw [if_pos heq]
    constructor
    · intro hp
      cases hp
    · rintro ⟨hne, hp⟩
      exact absurd ((h.ip_eq_iff hp).2 (heq ▸ hindex)) hne
  · rw [if_neg heq]
    refine ⟨fun hp => ⟨?_, hp⟩, And.right⟩
    intro hip
    rw [(h.ip_eq_iff hp).1 hip] at hindex
    exact heq (Option.some.inj hindex).symm

/-- An old database without index is not well-formed, so nothing is rebuilt. -/
theorem rebuildIndex_eq (h : WellFormed s) : s.rebuildIndex = s := by
  unfold rebuildIndex
  refine if_neg ?_
  rintro ⟨hindex, hpolicies⟩
  apply hpolicies
  rw [Std.ExtTreeMap.isEmpty_iff] at hindex ⊢
  refine Std.ExtTreeMap.ext_getElem? fun ck => ?_
  cases hp : s.policies[ck]? with
  | none => simp
  | some p =>
    have := h.indexed ck p hp
    simp [hindex] at this

end WellFormed

/-! ## Merging -/

/-- In the new table stands the new policy, and the rows of the other IPs as before. -/
theorem getElem?_putPolicy_iff (h : WellFormed s) {q : SharedPolicy} :
    (s.putPolicy s.index[p.ip]? p.ip p).policies[ck]? = some q ↔
      (ck = ⟨p.lastSeenNs, p.ip⟩ ∧ q = p) ∨ (q.ip ≠ p.ip ∧ s.policies[ck]? = some q) := by
  simp only [putPolicy, Std.ExtTreeMap.getElem?_insert, Std.compare_eq_iff_eq]
  by_cases hck : (⟨p.lastSeenNs, p.ip⟩ : CompositeKey) = ck
  · rw [if_pos hck]
    constructor
    · rintro ⟨⟩
      exact .inl ⟨hck.symm, rfl⟩
    · rintro (⟨_, rfl⟩ | ⟨hne, hq⟩)
      · rfl
      · rw [← hck] at hq
        exact absurd (congrArg CompositeKey.ip (h.key_eq _ q hq)).symm hne
  · rw [if_neg hck]
    simp only [Ne.symm hck, false_and, false_or]
    cases hindex : s.index[p.ip]? with
    | none =>
      refine ⟨fun hq => ⟨?_, hq⟩, And.right⟩
      intro hip
      rw [(h.ip_eq_iff hq).1 hip] at hindex
      cases hindex
    | some old =>
      dsimp only
      split
      · exact h.erase_row_iff hindex
      · rename_i hsame
        rw [not_not] at hsame
        subst hsame
        refine ⟨fun hq => ⟨?_, hq⟩, And.right⟩
        intro hip
        rw [(h.ip_eq_iff hq).1 hip] at hindex
        exact hck (Option.some.inj hindex).symm

theorem index_putPolicy (s : Store) (old : Option CompositeKey) (p : SharedPolicy) (i : IpKey) :
    (s.putPolicy old p.ip p).index[i]? =
      if p.ip = i then some ⟨p.lastSeenNs, p.ip⟩ else s.index[i]? := by
  simp [putPolicy, Std.ExtTreeMap.getElem?_insert]

theorem WellFormed.putPolicy (h : WellFormed s) (p : SharedPolicy) :
    WellFormed (s.putPolicy s.index[p.ip]? p.ip p) where
  key_eq := by
    intro ck q hq
    rcases (getElem?_putPolicy_iff h).1 hq with ⟨rfl, rfl⟩ | ⟨_, hq⟩
    · rfl
    · exact h.key_eq ck q hq
  indexed := by
    intro ck q hq
    rw [index_putPolicy]
    rcases (getElem?_putPolicy_iff h).1 hq with ⟨rfl, rfl⟩ | ⟨hne, hq⟩
    · rw [if_pos rfl]
    · rw [if_neg (Ne.symm hne)]
      exact h.indexed ck q hq
  exact := by
    intro i ck hi
    rw [index_putPolicy] at hi
    split at hi
    · rename_i heq
      cases hi
      exact ⟨p, (getElem?_putPolicy_iff h).2 (.inl ⟨rfl, rfl⟩), heq⟩
    · rename_i hne
      obtain ⟨q, hq, rfl⟩ := h.exact i ck hi
      exact ⟨q, (getElem?_putPolicy_iff h).2 (.inr ⟨Ne.symm hne, hq⟩), rfl⟩

theorem view_putPolicy (h : WellFormed s) (p : SharedPolicy) :
    (s.putPolicy s.index[p.ip]? p.ip p).view = update s.view p.ip (some p) := by
  funext i
  ext q
  rw [(h.putPolicy p).view_iff, getElem?_putPolicy_iff h]
  by_cases hi : i = p.ip
  · subst hi
    rw [Function.update_self]
    constructor
    · rintro ⟨hip, ⟨_, rfl⟩ | ⟨hne, _⟩⟩
      · rfl
      · exact absurd hip hne
    · rintro ⟨⟩
      exact ⟨rfl, .inl ⟨rfl, rfl⟩⟩
  · rw [Function.update_of_ne hi, h.view_iff]
    constructor
    · rintro ⟨rfl, ⟨_, rfl⟩ | ⟨_, hq⟩⟩
      · exact absurd rfl hi
      · exact ⟨rfl, hq⟩
    · rintro ⟨rfl, hq⟩
      exact ⟨rfl, .inr ⟨hi, hq⟩⟩

/-- Removing the row of an IP and writing its new policy. -/
theorem putPolicy_spec (h : WellFormed s) (hip : p.ip = ip) :
    WellFormed (s.putPolicy s.index[ip]? ip p) ∧
      (s.putPolicy s.index[ip]? ip p).view = update s.view ip (some p) ∧
      (s.putPolicy s.index[ip]? ip p).tombstones = s.tombstones := by
  subst hip
  exact ⟨h.putPolicy p, view_putPolicy h p, rfl⟩

theorem mergePolicy_ip {nodeName : String} {nowNs : UInt64} {node : NodePolicy}
    (h : ∀ p, s.view node.ip = some p → p.ip = node.ip) :
    (mergePolicy nodeName nowNs (s.view node.ip) node).ip = node.ip := by
  cases hview : s.view node.ip with
  | none => rfl
  | some p => exact h p hview

/-- A report never fails on a well-formed store, and updates the policy of its IP. -/
theorem mergeOne_spec (h : WellFormed s) (nodeName : String) (nowNs : UInt64)
    (node : NodePolicy) :
    ∃ s', mergeOne nodeName nowNs s node = some s' ∧ WellFormed s' ∧
      s'.view =
        update s.view node.ip (some (mergePolicy nodeName nowNs (s.view node.ip) node)) ∧
      s'.tombstones = s.tombstones := by
  refine ⟨_, ?_, putPolicy_spec h (mergePolicy_ip fun p hp => h.view_ip hp)⟩
  unfold mergeOne view
  cases hindex : s.index[node.ip]? with
  | none => simp
  | some ck =>
    obtain ⟨p, hp, _⟩ := h.exact _ _ hindex
    simp [hp]

/-- The view after a list of reports. -/
def mergedView (nodeName : String) (nowNs : UInt64) (v : IpKey → Option SharedPolicy) :
    List NodePolicy → IpKey → Option SharedPolicy
  | [] => v
  | node :: rest =>
    mergedView nodeName nowNs
      (update v node.ip (some (mergePolicy nodeName nowNs (v node.ip) node))) rest

/-- A chunk commits, and its reports are merged one after the other. -/
theorem mergeChunk_spec (h : WellFormed s) (nodeName : String) (policies : List NodePolicy)
    (nowNs : UInt64) :
    ∃ s', s.mergeChunk nodeName policies nowNs = some s' ∧ WellFormed s' ∧
      s'.view = mergedView nodeName nowNs s.view policies ∧ s'.tombstones = s.tombstones := by
  unfold mergeChunk
  rw [h.rebuildIndex_eq]
  induction policies generalizing s with
  | nil => exact ⟨s, rfl, h, rfl, rfl⟩
  | cons node rest ih =>
    obtain ⟨s₁, hone, hwf₁, hview₁, htomb₁⟩ := mergeOne_spec h nodeName nowNs node
    obtain ⟨s', hrest, hwf', hview', htomb'⟩ := ih hwf₁
    refine ⟨s', ?_, hwf', ?_, htomb'.trans htomb₁⟩
    · rw [List.foldlM_cons, hone]
      exact hrest
    · rw [hview', hview₁]
      rfl

/-- What holds of the policies before, and what every report makes of such a policy, holds after. -/
theorem mergedView_induction {nodeName : String} {nowNs : UInt64} {policies : List NodePolicy}
    {P : IpKey → SharedPolicy → Prop} {v : IpKey → Option SharedPolicy}
    (hv : ∀ i q, v i = some q → P i q)
    (hmerge : ∀ node ∈ policies, ∀ old, (∀ q, old = some q → P node.ip q) →
      P node.ip (mergePolicy nodeName nowNs old node))
    (h : mergedView nodeName nowNs v policies ip = some p) : P ip p := by
  induction policies generalizing v with
  | nil => exact hv ip p h
  | cons node rest ih =>
    refine ih ?_ (fun n hn => hmerge n (List.mem_cons_of_mem _ hn)) h
    intro i q hq
    by_cases hi : i = node.ip
    · subst hi
      rw [Function.update_self] at hq
      cases hq
      exact hmerge node List.mem_cons_self _ fun q hq => hv _ q hq
    · rw [Function.update_of_ne hi] at hq
      exact hv i q hq

/-- A chunk stamps what it writes with its clock reading or later. -/
theorem mergedView_cases {nodeName : String} {nowNs : UInt64}
    {v : IpKey → Option SharedPolicy} {policies : List NodePolicy}
    (h : mergedView nodeName nowNs v policies ip = some p) :
    v ip = some p ∨ nowNs ≤ p.lastSeenNs := by
  refine mergedView_induction (P := fun i q => v i = some q ∨ nowNs ≤ q.lastSeenNs)
    (fun i q hq => .inl hq) (fun node _ old _ => .inr ?_) h
  cases old with
  | none => exact le_rfl
  | some q => exact le_max_right _ _

/-- A chunk stamps nothing later than its clock reading when the rows before it are not. -/
theorem mergedView_le {nodeName : String} {nowNs : UInt64} {v : IpKey → Option SharedPolicy}
    {policies : List NodePolicy} (hv : ∀ i q, v i = some q → q.lastSeenNs ≤ nowNs)
    (h : mergedView nodeName nowNs v policies ip = some p) : p.lastSeenNs ≤ nowNs := by
  refine mergedView_induction (P := fun _ q => q.lastSeenNs ≤ nowNs) hv (fun node _ old hold => ?_) h
  cases old with
  | none => exact le_rfl
  | some q => exact max_le (hold q rfl) le_rfl

/-- A chunk removes no policy. -/
theorem mergedView_eq_none {nodeName : String} {nowNs : UInt64} {v : IpKey → Option SharedPolicy}
    {policies : List NodePolicy} (h : mergedView nodeName nowNs v policies ip = none) :
    v ip = none := by
  induction policies generalizing v with
  | nil => exact h
  | cons node rest ih =>
    have hip := ih h
    by_cases hi : ip = node.ip
    · subst hi
      rw [Function.update_self] at hip
      cases hip
    · rwa [Function.update_of_ne hi] at hip

/-- A chunk makes permanent only what is permanent already or reported so. -/
theorem mergedView_permanent {nodeName : String} {nowNs : UInt64} {H : IpKey → Prop}
    {v : IpKey → Option SharedPolicy} {policies : List NodePolicy}
    (hv : ∀ i q, v i = some q → q.ttlS = 0 → H i)
    (hpolicies : ∀ node ∈ policies, node.ttlS = 0 → H node.ip)
    (h : mergedView nodeName nowNs v policies ip = some p) (hp : p.ttlS = 0) : H ip := by
  refine mergedView_induction (P := fun i q => q.ttlS = 0 → H i) hv
    (fun node hnode old hold => ?_) h hp
  cases old with
  | none => exact hpolicies node hnode
  | some q =>
    simp only [mergePolicy]
    split
    · rename_i hzero
      exact fun _ => hzero.elim (hold q rfl) (hpolicies node hnode)
    · rename_i hzero
      intro hmax
      rcases max_choice q.ttlS node.ttlS with heq | heq <;> rw [heq] at hmax <;>
        exact absurd hmax (by tauto)

/-! ## Chunks -/

theorem flatten_toChunks_go {α : Type} (n : Nat) (xs : List α) (acc₁ : Array α)
    (acc₂ : Array (List α)) :
    (List.toChunks.go n xs acc₁ acc₂).flatten = acc₂.toList.flatten ++ acc₁.toList ++ xs := by
  induction xs generalizing acc₁ acc₂ with
  | nil => simp [List.toChunks.go]
  | cons x xs ih =>
    rw [List.toChunks.go]
    split <;> simp [ih]

/-- Splitting a push loses no report and keeps their order. -/
theorem flatten_chunks (policies : List NodePolicy) : (chunks policies).flatten = policies := by
  unfold chunks
  split
  · simp
  · cases policies with
    | nil => rfl
    | cons x xs => simp [CHUNK, List.toChunks, flatten_toChunks_go]

/-! ## Queries -/

theorem stamp_le {a b : CompositeKey} (h : compare a b = .lt) : a.lastSeenNs ≤ b.lastSeenNs := by
  rcases Ordering.then_eq_lt.1 h with hlt | ⟨heq, _⟩
  · exact le_of_lt (compare_lt_iff_lt.1 hlt)
  · exact le_of_eq (compare_eq_iff_eq.1 heq)

theorem sorted_stamped {V : Type} (table : Std.ExtTreeMap CompositeKey V) :
    Feed.Sorted (stamped table) := by
  rw [Feed.Sorted, stamped, List.pairwise_map]
  exact table.ordered_keys_toList.imp stamp_le

theorem mem_stamped {V : Type} {table : Std.ExtTreeMap CompositeKey V} {r : UInt64 × CompositeKey × V} :
    r ∈ stamped table ↔ r.1 = r.2.1.lastSeenNs ∧ table[r.2.1]? = some r.2.2 := by
  obtain ⟨stamp, ck, v⟩ := r
  simp only [stamped, List.mem_map, Prod.mk.injEq, Prod.exists]
  constructor
  · rintro ⟨ck, v, hmem, rfl, rfl, rfl⟩
    exact ⟨rfl, Std.ExtTreeMap.mem_toList_iff_getElem?_eq_some.1 hmem⟩
  · rintro ⟨rfl, hv⟩
    exact ⟨ck, v, Std.ExtTreeMap.mem_toList_iff_getElem?_eq_some.2 hv, rfl, rfl, rfl⟩

/-- With a positive limit, a page holds exactly the rows stamped after `sinceNs` up to the new
cursor. -/
theorem pageSince_spec {V : Type} (table : Std.ExtTreeMap CompositeKey V) (sinceNs : UInt64)
    {limit : Nat} (hlimit : limit ≠ 0) :
    sinceNs ≤ (pageSince table sinceNs limit).2 ∧
      (∀ (ck : CompositeKey) (v : V), (ck, v) ∈ (pageSince table sinceNs limit).1 ↔
        table[ck]? = some v ∧ sinceNs < ck.lastSeenNs ∧
          ck.lastSeenNs ≤ (pageSince table sinceNs limit).2) ∧
      ((pageSince table sinceNs limit).1 = [] →
        ∀ (ck : CompositeKey) (v : V), table[ck]? = some v → ck.lastSeenNs ≤ sinceNs) := by
  obtain ⟨hle, hmem, hempty⟩ := Feed.page_spec (sorted_stamped table) limit sinceNs
  simp only [pageSince, hlimit, if_false]
  refine ⟨hle, ?_, ?_⟩
  · intro ck v
    constructor
    · intro h
      obtain ⟨r, hr, heq⟩ := List.mem_map.1 h
      obtain ⟨hrow, hlt, hcur⟩ := (hmem r).1 hr
      obtain ⟨hstamp, hv⟩ := mem_stamped.1 hrow
      rw [hstamp, heq] at hlt hcur
      rw [heq] at hv
      exact ⟨hv, hlt, hcur⟩
    · rintro ⟨hv, hlt, hcur⟩
      exact List.mem_map.2
        ⟨(ck.lastSeenNs, ck, v), (hmem _).2 ⟨mem_stamped.2 ⟨rfl, hv⟩, hlt, hcur⟩, rfl⟩
  · intro h ck v hv
    rw [List.map_eq_nil_iff] at h
    exact hempty h (ck.lastSeenNs, ck, v) (mem_stamped.2 ⟨rfl, hv⟩)

/-- The new cursor is the stamp of a row of the page, or the old one. -/
theorem pageSince_cursor {V : Type} (table : Std.ExtTreeMap CompositeKey V) (sinceNs : UInt64)
    (limit : Nat) :
    (pageSince table sinceNs limit).2 = sinceNs ∨
      ∃ (ck : CompositeKey) (v : V), table[ck]? = some v ∧
        ck.lastSeenNs = (pageSince table sinceNs limit).2 := by
  by_cases hlimit : limit = 0
  · subst hlimit
    exact .inl rfl
  · simp only [pageSince, hlimit, if_false]
    rcases Feed.cursor_eq sinceNs (Feed.page limit sinceNs (stamped table)) with heq | ⟨r, hr, heq⟩
    · exact .inl heq
    · obtain ⟨hrow, _⟩ := ((Feed.page_spec (sorted_stamped table) limit sinceNs).2.1 r).1 hr
      obtain ⟨hstamp, hv⟩ := mem_stamped.1 hrow
      exact .inr ⟨r.2.1, r.2.2, hv, hstamp ▸ heq⟩

theorem pageSince_zero {V : Type} (table : Std.ExtTreeMap CompositeKey V) (sinceNs : UInt64) :
    pageSince table sinceNs 0 = ([], sinceNs) := if_pos rfl

theorem pagesThrough_pageSince {V : Type} (table : Std.ExtTreeMap CompositeKey V) {limit : Nat}
    (hlimit : limit ≠ 0) :
    Feed.PagesThrough (fun sinceNs => pageSince table sinceNs limit) (stamped table) limit := by
  simp only [pageSince, hlimit, if_false]
  exact Feed.pagesThrough_page (sorted_stamped table) limit

/-- Both queries page through their tables: in key order, with groups of one stamp whole, with every
row once and with an end. -/
theorem queries_pageThrough (s : Store) {limit : Nat} (hlimit : limit ≠ 0) :
    Feed.PagesThrough (fun sinceNs => s.querySince sinceNs limit)
        (s.policies.toList.map fun kv => (kv.1.lastSeenNs, kv.2)) limit ∧
      Feed.PagesThrough (fun sinceNs => s.queryTombstonesSince sinceNs limit)
        (s.tombstones.toList.map fun kv => (kv.1.lastSeenNs, kv.1.ip)) limit := by
  have hpolicies := (pagesThrough_pageSince s.policies hlimit).map Prod.snd
  have htombs := (pagesThrough_pageSince s.tombstones hlimit).map fun kv => kv.1.ip
  rw [stamped, List.map_map] at hpolicies htombs
  exact ⟨hpolicies, htombs⟩

/-- Three rows with a stamp each. -/
def threeStamps : Store :=
  { policies :=
      (∅ : Std.ExtTreeMap CompositeKey SharedPolicy).insert ⟨1, .fromIpv4 1⟩
        ⟨.fromIpv4 1, 2, 0, 0, 1, 1, ["a"], 0⟩ |>.insert ⟨2, .fromIpv4 2⟩
        ⟨.fromIpv4 2, 2, 0, 0, 2, 2, ["a"], 0⟩ |>.insert ⟨3, .fromIpv4 3⟩
        ⟨.fromIpv4 3, 2, 0, 0, 3, 3, ["a"], 0⟩ }

/-- With a limit of one, the first page goes up to the stamp behind the limit and has two rows; the second
has the rest. -/
theorem queries_pageThrough_three_stamps :
    (threeStamps.querySince 0 1).1.map SharedPolicy.ip = [.fromIpv4 1, .fromIpv4 2] ∧
      (Feed.drain (fun sinceNs => threeStamps.querySince sinceNs 1) 3 0).1.map SharedPolicy.ip =
        [.fromIpv4 1, .fromIpv4 2, .fromIpv4 3] := by
  refine ⟨by decide, ?_⟩
  rw [((queries_pageThrough threeStamps (by decide)).1.all 0 3 (by decide)).1]
  decide

/-- A query returns the policies stamped after `sinceNs` up to the new cursor. -/
theorem querySince_spec (h : WellFormed s) (sinceNs : UInt64) {limit : Nat} (hlimit : limit ≠ 0) :
    sinceNs ≤ (s.querySince sinceNs limit).2 ∧
      (∀ p, p ∈ (s.querySince sinceNs limit).1 ↔
        s.view p.ip = some p ∧ sinceNs < p.lastSeenNs ∧
          p.lastSeenNs ≤ (s.querySince sinceNs limit).2) ∧
      ((s.querySince sinceNs limit).1 = [] →
        ∀ ip p, s.view ip = some p → p.lastSeenNs ≤ sinceNs) := by
  obtain ⟨hle, hmem, hempty⟩ := pageSince_spec s.policies sinceNs hlimit
  refine ⟨hle, ?_, ?_⟩
  · intro p
    rw [h.view_iff]
    constructor
    · intro hp
      obtain ⟨⟨ck, p⟩, hcp, rfl⟩ := List.mem_map.1 hp
      obtain ⟨hrow, hlt, hcur⟩ := (hmem ck p).1 hcp
      have hck := h.key_eq ck p hrow
      subst hck
      exact ⟨⟨rfl, hrow⟩, hlt, hcur⟩
    · rintro ⟨⟨_, hrow⟩, hlt, hcur⟩
      exact List.mem_map.2 ⟨(_, p), (hmem _ _).2 ⟨hrow, hlt, hcur⟩, rfl⟩
  · intro hnil ip p hview
    obtain ⟨_, hrow⟩ := h.view_iff.1 hview
    exact hempty (List.map_eq_nil_iff.1 hnil) _ p hrow

/-- A query returns the IPs with a tombstone stamped after `sinceNs` up to the new cursor. -/
theorem mem_queryTombstonesSince (s : Store) (sinceNs : UInt64) {limit : Nat} (hlimit : limit ≠ 0)
    (ip : IpKey) :
    ip ∈ (s.queryTombstonesSince sinceNs limit).1 ↔
      ∃ t, s.tombstones[(⟨t, ip⟩ : CompositeKey)]? = some () ∧ sinceNs < t ∧
        t ≤ (s.queryTombstonesSince sinceNs limit).2 := by
  obtain ⟨_, hmem, _⟩ := pageSince_spec s.tombstones sinceNs hlimit
  constructor
  · intro h
    obtain ⟨⟨ck, v⟩, hck, rfl⟩ := List.mem_map.1 h
    obtain ⟨hrow, hlt, hle⟩ := (hmem ck v).1 hck
    exact ⟨ck.lastSeenNs, hrow, hlt, hle⟩
  · rintro ⟨t, hrow, hlt, hle⟩
    exact List.mem_map.2 ⟨(⟨t, ip⟩, ()), (hmem _ _).2 ⟨hrow, hlt, hle⟩, rfl⟩

/-! ## Deleting -/

theorem deleteOne_spec (h : WellFormed s) (ip : IpKey) :
    WellFormed (s.deleteOne ip) ∧ (s.deleteOne ip).view = update s.view ip none ∧
      (s.deleteOne ip).tombstones = s.tombstones := by
  have hrows : ∀ (ck : CompositeKey) (q : SharedPolicy), (s.deleteOne ip).policies[ck]? = some q ↔
      q.ip ≠ ip ∧ s.policies[ck]? = some q := by
    intro ck q
    cases hindex : s.index[ip]? with
    | none =>
      simp only [deleteOne, hindex, Std.ExtTreeMap.getElem?_filter, Option.pfilter_eq_filter]
      rw [Option.filter_eq_some_iff]
      simp [and_comm]
    | some old =>
      simp only [deleteOne, hindex]
      exact h.erase_row_iff hindex
  have hindexes : ∀ i : IpKey, (s.deleteOne ip).index[i]? = if ip = i then none else s.index[i]? := by
    intro i
    simp [deleteOne, Std.ExtTreeMap.getElem?_erase]
  have hwf : WellFormed (s.deleteOne ip) :=
    { key_eq := fun ck q hq => h.key_eq ck q ((hrows ck q).1 hq).2
      indexed := by
        intro ck q hq
        obtain ⟨hne, hq⟩ := (hrows ck q).1 hq
        rw [hindexes, if_neg (Ne.symm hne)]
        exact h.indexed ck q hq
      exact := by
        intro i ck hi
        rw [hindexes] at hi
        split at hi
        · cases hi
        · rename_i hne
          obtain ⟨q, hq, rfl⟩ := h.exact i ck hi
          exact ⟨q, (hrows ck q).2 ⟨Ne.symm hne, hq⟩, rfl⟩ }
  refine ⟨hwf, ?_, rfl⟩
  funext i
  ext q
  rw [hwf.view_iff, hrows]
  by_cases hi : i = ip
  · subst hi
    rw [Function.update_self]
    exact ⟨fun ⟨hip, hne, _⟩ => absurd hip hne, fun hq => by cases hq⟩
  · rw [Function.update_of_ne hi, h.view_iff]
    constructor
    · rintro ⟨rfl, _, hq⟩
      exact ⟨rfl, hq⟩
    · rintro ⟨rfl, hq⟩
      exact ⟨rfl, hi, hq⟩

/-- A delete clears its IPs and adds a tombstone for each of them. -/
theorem deletePolicies_spec (h : WellFormed s) (ips : List IpKey) (nowNs : UInt64) :
    WellFormed (s.deletePolicies ips nowNs) ∧
      (∀ i, (s.deletePolicies ips nowNs).view i = if i ∈ ips then none else s.view i) ∧
      (∀ ck : CompositeKey, (s.deletePolicies ips nowNs).tombstones[ck]? = some () ↔
        s.tombstones[ck]? = some () ∨ (ck.lastSeenNs = nowNs ∧ ck.ip ∈ ips)) := by
  have hpolicies : ∀ (ips : List IpKey) (s : Store), WellFormed s →
      WellFormed (ips.foldl deleteOne s) ∧
        (∀ i, (ips.foldl deleteOne s).view i = if i ∈ ips then none else s.view i) ∧
        (ips.foldl deleteOne s).tombstones = s.tombstones := by
    intro ips
    induction ips with
    | nil => exact fun s h => ⟨h, by simp, rfl⟩
    | cons ip ips ih =>
      intro s h
      obtain ⟨hwf, hview, htomb⟩ := deleteOne_spec h ip
      obtain ⟨hwf', hview', htomb'⟩ := ih _ hwf
      refine ⟨hwf', fun i => ?_, htomb'.trans htomb⟩
      rw [List.foldl_cons, hview', hview]
      by_cases hi : i = ip <;> simp [hi, Function.update_of_ne]
  have htombs : ∀ (ips : List IpKey) (t : Std.ExtTreeMap CompositeKey Unit) (ck : CompositeKey),
      (ips.foldl (fun t ip => t.insert { lastSeenNs := nowNs, ip := ip } ()) t)[ck]? = some () ↔
        t[ck]? = some () ∨ (ck.lastSeenNs = nowNs ∧ ck.ip ∈ ips) := by
    intro ips
    induction ips with
    | nil => simp
    | cons ip ips ih =>
      intro t ck
      rw [List.foldl_cons, ih, Std.ExtTreeMap.getElem?_insert]
      obtain ⟨stamp, i⟩ := ck
      simp only [Std.compare_eq_iff_eq, CompositeKey.mk.injEq, List.mem_cons]
      by_cases hck : nowNs = stamp ∧ ip = i
      · simp [hck]
      · rw [if_neg hck]
        constructor
        · rintro (ht | ⟨hstamp, hi⟩)
          · exact .inl ht
          · exact .inr ⟨hstamp, .inr hi⟩
        · rintro (ht | ⟨hstamp, rfl | hi⟩)
          · exact .inl ht
          · exact absurd ⟨hstamp.symm, rfl⟩ hck
          · exact .inr ⟨hstamp, hi⟩
  unfold deletePolicies
  by_cases hempty : ips.isEmpty
  · rw [List.isEmpty_iff] at hempty
    subst hempty
    exact ⟨h, by simp, by simp⟩
  · rw [if_neg hempty]
    obtain ⟨hwf, hview, htomb⟩ := hpolicies ips s h
    refine ⟨⟨hwf.key_eq, hwf.indexed, hwf.exact⟩, hview, fun ck => ?_⟩
    rw [htombs, htomb]

end Store

end EShield.Hub
