import EShield.Hub.Proofs.StoreProofs
import EShield.Lib.Exec

/-!
# The index of the store over whole runs

A database starts empty, or comes from a version without index. Deletes and prunes keep an empty
index empty, the first merge rebuilds it, and from then on the store stays well-formed.
-/

namespace EShield.Hub

namespace Store

variable {s s' : Store} {ip : IpKey} {p : SharedPolicy} {ck : CompositeKey}

/-! ## Databases without index -/

/-- Every row lies under the key of its policy, and no IP has two rows. -/
structure OneRowPerIp (s : Store) : Prop where
  key_eq : ∀ (ck : CompositeKey) (p : SharedPolicy), s.policies[ck]? = some p →
    ck = { lastSeenNs := p.lastSeenNs, ip := p.ip }
  unique : ∀ (ck ck' : CompositeKey) (p p' : SharedPolicy), s.policies[ck]? = some p →
    s.policies[ck']? = some p' → p.ip = p'.ip → ck = ck'

/-- The index leads from each IP with a row to the key of that row and from no other IP. -/
def IndexExact (s : Store) : Prop :=
  ∀ (ip : IpKey) (ck : CompositeKey),
    s.index[ip]? = some ck ↔ ∃ p : SharedPolicy, s.policies[ck]? = some p ∧ p.ip = ip

/-- A database of a version that kept no index. -/
structure Legacy (s : Store) : Prop extends OneRowPerIp s where
  unindexed : ∀ ip : IpKey, s.index[ip]? = none

theorem legacy_empty : Legacy {} where
  key_eq := by simp
  unique := by simp
  unindexed := by simp

theorem WellFormed.indexExact (h : WellFormed s) : s.IndexExact := by
  refine fun ip ck => ⟨h.exact ip ck, ?_⟩
  rintro ⟨p, hp, rfl⟩
  exact h.indexed ck p hp

theorem WellFormed.oneRowPerIp (h : WellFormed s) : s.OneRowPerIp where
  key_eq := h.key_eq
  unique ck ck' p p' hp hp' hip := by
    have hindex := h.indexed ck p hp
    rw [hip, h.indexed ck' p' hp'] at hindex
    exact (Option.some.inj hindex).symm

/-- Rows with one row for each IP, and an index that is exact. -/
theorem wellFormed_iff : s.WellFormed ↔ s.OneRowPerIp ∧ s.IndexExact := by
  refine ⟨fun h => ⟨h.oneRowPerIp, h.indexExact⟩, fun ⟨hrows, hindex⟩ => ?_⟩
  exact ⟨hrows.key_eq, fun ck p hp => (hindex p.ip ck).2 ⟨p, hp, rfl⟩, fun ip ck => (hindex ip ck).1⟩

/-- The entries that are put in for a list of rows with different IPs. -/
theorem getElem?_foldl_insert (rows : List (CompositeKey × SharedPolicy))
    (index : Std.ExtTreeMap IpKey CompositeKey)
    (hunique : rows.Pairwise fun a b => a.2.ip ≠ b.2.ip) (ip : IpKey) (ck : CompositeKey) :
    (rows.foldl (fun index kv => index.insert kv.2.ip kv.1) index)[ip]? = some ck ↔
      (∃ p : SharedPolicy, (ck, p) ∈ rows ∧ p.ip = ip) ∨
        (index[ip]? = some ck ∧ ∀ kv ∈ rows, kv.2.ip ≠ ip) := by
  induction rows generalizing index with
  | nil => simp
  | cons kv rows ih =>
    obtain ⟨hkv, hrows⟩ := List.pairwise_cons.1 hunique
    rw [List.foldl_cons, ih _ hrows, Std.ExtTreeMap.getElem?_insert]
    simp only [Std.compare_eq_iff_eq]
    by_cases hip : kv.2.ip = ip
    · subst hip
      have hothers : ∀ kv' ∈ rows, kv'.2.ip ≠ kv.2.ip := fun kv' h' => (hkv kv' h').symm
      constructor
      · rintro (⟨p, hp, hip⟩ | ⟨hck, _⟩)
        · exact .inl ⟨p, List.mem_cons_of_mem _ hp, hip⟩
        · rw [if_pos rfl] at hck
          cases hck
          exact .inl ⟨kv.2, List.mem_cons_self, rfl⟩
      · rintro (⟨p, hp, hip⟩ | ⟨_, hnone⟩)
        · rcases List.mem_cons.1 hp with rfl | hp
          · exact .inr ⟨if_pos rfl, hothers⟩
          · exact absurd hip (hothers (ck, p) hp)
        · exact absurd rfl (hnone kv List.mem_cons_self)
    · rw [if_neg hip]
      constructor
      · rintro (⟨p, hp, hpip⟩ | ⟨hck, hnone⟩)
        · exact .inl ⟨p, List.mem_cons_of_mem _ hp, hpip⟩
        · exact .inr ⟨hck, List.forall_mem_cons.2 ⟨hip, hnone⟩⟩
      · rintro (⟨p, hp, hpip⟩ | ⟨hck, hnone⟩)
        · rcases List.mem_cons.1 hp with rfl | hp
          · exact absurd hpip hip
          · exact .inl ⟨p, hp, hpip⟩
        · exact .inr ⟨hck, fun kv' h' => hnone kv' (List.mem_cons_of_mem _ h')⟩

/-- The rows of a table with one row for each IP have different IPs. -/
theorem OneRowPerIp.pairwise_ip (h : s.OneRowPerIp) :
    s.policies.toList.Pairwise fun a b => a.2.ip ≠ b.2.ip := by
  refine (Std.ExtTreeMap.distinct_keys_toList (t := s.policies)).imp_of_mem ?_
  intro a b ha hb hne hip
  rw [Std.ExtTreeMap.mem_toList_iff_getElem?_eq_some] at ha hb
  exact hne (Std.compare_eq_iff_eq.2 (h.unique a.1 b.1 a.2 b.2 ha hb hip))

/-- Rebuilding gives an old database its index. -/
theorem Legacy.wellFormed_rebuildIndex (h : s.Legacy) :
    s.rebuildIndex.WellFormed ∧ s.rebuildIndex.policies = s.policies := by
  unfold rebuildIndex
  split
  · refine ⟨wellFormed_iff.2 ⟨⟨h.key_eq, h.unique⟩, fun ip ck => ?_⟩, rfl⟩
    rw [getElem?_foldl_insert _ _ h.pairwise_ip]
    simp only [h.unindexed, Std.ExtTreeMap.mem_toList_iff_getElem?_eq_some, reduceCtorEq, false_and,
      or_false]
  · rename_i hempty
    have hindex : s.index.isEmpty = true := by
      rw [Std.ExtTreeMap.isEmpty_iff]
      exact Std.ExtTreeMap.ext_getElem? fun ip => by rw [h.unindexed]; simp
    have hpolicies : s.policies.isEmpty = true := not_not.1 fun hne => hempty ⟨hindex, hne⟩
    rw [Std.ExtTreeMap.isEmpty_iff] at hpolicies
    refine ⟨wellFormed_iff.2 ⟨⟨h.key_eq, h.unique⟩, fun ip ck => ?_⟩, rfl⟩
    simp [h.unindexed, hpolicies]

/-! ## One call -/

/-- A chunk sees an old database as it is with its index rebuilt. -/
theorem Legacy.mergeChunk_spec (h : s.Legacy) (nodeName : String) (policies : List NodePolicy)
    (nowNs : UInt64) : ∃ s', s.mergeChunk nodeName policies nowNs = some s' ∧ s'.WellFormed := by
  have hwf := h.wellFormed_rebuildIndex.1
  obtain ⟨s', hmerge, hwf', _⟩ := Store.mergeChunk_spec hwf nodeName policies nowNs
  rw [mergeChunk, hwf.rebuildIndex_eq] at hmerge
  exact ⟨s', hmerge, hwf'⟩

/-- A push always succeeds, and leaves a well-formed store. -/
theorem merge_spec (h : s.WellFormed ∨ s.Legacy) (nodeName : String) (policies : List NodePolicy)
    (clock : Nat → UInt64) : ∃ s', s.merge nodeName policies clock = some s' ∧ s'.WellFormed := by
  have hchunk : ∀ (s : Store), s.WellFormed ∨ s.Legacy → ∀ (chunk : List NodePolicy)
      (nowNs : UInt64), ∃ s', s.mergeChunk nodeName chunk nowNs = some s' ∧ s'.WellFormed := by
    rintro s (hwf | hleg) chunk nowNs
    · obtain ⟨s', hmerge, hwf', _⟩ := mergeChunk_spec hwf nodeName chunk nowNs
      exact ⟨s', hmerge, hwf'⟩
    · exact hleg.mergeChunk_spec nodeName chunk nowNs
  have hrest : ∀ (cs : List (List NodePolicy × Nat)) (s : Store), s.WellFormed →
      ∃ s', cs.foldlM (fun s c => s.mergeChunk nodeName c.1 (clock c.2)) s = some s' ∧
        s'.WellFormed := by
    intro cs
    induction cs with
    | nil => exact fun s hwf => ⟨s, rfl, hwf⟩
    | cons c cs ih =>
      intro s hwf
      obtain ⟨s₁, hone, hwf₁⟩ := hchunk s (.inl hwf) c.1 (clock c.2)
      obtain ⟨s', hall, hwf'⟩ := ih s₁ hwf₁
      exact ⟨s', by rw [List.foldlM_cons, hone]; exact hall, hwf'⟩
  -- even an empty push has one chunk
  have hne : (chunks policies).zipIdx ≠ [] := by
    unfold chunks
    split
    · simp
    · rename_i hlong
      cases policies with
      | nil => exact absurd (Nat.zero_le _) hlong
      | cons x xs =>
        intro hnil
        have hflat := flatten_chunks (x :: xs)
        rw [chunks, if_neg hlong, List.zipIdx_eq_nil_iff.1 hnil] at hflat
        cases hflat
  obtain ⟨c, cs, hcs⟩ := List.exists_cons_of_ne_nil hne
  obtain ⟨s₁, hone, hwf₁⟩ := hchunk s h c.1 (clock c.2)
  obtain ⟨s', hall, hwf'⟩ := hrest cs s₁ hwf₁
  refine ⟨s', ?_, hwf'⟩
  rw [merge, hcs, List.foldlM_cons, hone]
  exact hall

/-- A delete without index searches the rows and leaves no index. -/
theorem Legacy.deletePolicies (h : s.Legacy) (ips : List IpKey) (nowNs : UInt64) :
    (s.deletePolicies ips nowNs).Legacy := by
  have hfold : ∀ (ips : List IpKey) (s : Store), s.Legacy → (ips.foldl deleteOne s).Legacy := by
    intro ips
    induction ips with
    | nil => exact fun s h => h
    | cons ip ips ih =>
      intro s h
      refine ih _ ?_
      have hrows : ∀ (ck : CompositeKey) (q : SharedPolicy),
          (s.deleteOne ip).policies[ck]? = some q → s.policies[ck]? = some q := by
        intro ck q hq
        simp only [deleteOne, h.unindexed, Std.ExtTreeMap.getElem?_filter,
          Option.pfilter_eq_filter] at hq
        exact (Option.filter_eq_some_iff.1 hq).1
      refine ⟨⟨fun ck q hq => h.key_eq ck q (hrows ck q hq), ?_⟩, fun i => ?_⟩
      · exact fun ck ck' p p' hp hp' => h.unique ck ck' p p' (hrows ck p hp) (hrows ck' p' hp')
      · simp only [deleteOne, Std.ExtTreeMap.getElem?_erase, h.unindexed, ite_self]
  unfold Store.deletePolicies
  split
  · exact h
  · obtain ⟨⟨hkey, hunique⟩, hindex⟩ := hfold ips s h
    exact ⟨⟨hkey, hunique⟩, hindex⟩

/-- What taking rows off both tables leaves. -/
theorem foldl_erase_rows (stale : List (CompositeKey × SharedPolicy)) (s : Store) :
    let s' := stale.foldl
      (fun s kv => { s with policies := s.policies.erase kv.1, index := s.index.erase kv.2.ip }) s
    (∀ (ck : CompositeKey) (p : SharedPolicy), s'.policies[ck]? = some p ↔
        s.policies[ck]? = some p ∧ ∀ kv ∈ stale, kv.1 ≠ ck) ∧
      ∀ (ip : IpKey) (ck : CompositeKey), s'.index[ip]? = some ck ↔
        s.index[ip]? = some ck ∧ ∀ kv ∈ stale, kv.2.ip ≠ ip := by
  induction stale generalizing s with
  | nil => simp
  | cons kv stale ih =>
    obtain ⟨hrows, hindex⟩ := ih
      { s with policies := s.policies.erase kv.1, index := s.index.erase kv.2.ip }
    refine ⟨fun ck p => (hrows ck p).trans ?_, fun ip ck => (hindex ip ck).trans ?_⟩
    · rw [Std.ExtTreeMap.getElem?_erase, List.forall_mem_cons]
      simp only [Std.compare_eq_iff_eq]
      by_cases hck : kv.1 = ck <;> simp [hck]
    · rw [Std.ExtTreeMap.getElem?_erase, List.forall_mem_cons]
      simp only [Std.compare_eq_iff_eq]
      by_cases hip : kv.2.ip = ip <;> simp [hip]

/-- A prune removes the stale rows, each with the index entry of its IP. -/
theorem prune_lookup (s : Store) (nowNs tombstoneTtlNs : UInt64) :
    (∀ (ck : CompositeKey) (p : SharedPolicy),
        (s.prune nowNs tombstoneTtlNs).policies[ck]? = some p ↔
          s.policies[ck]? = some p ∧ ¬ Stale p nowNs) ∧
      ∀ (ip : IpKey) (ck : CompositeKey),
        (s.prune nowNs tombstoneTtlNs).index[ip]? = some ck ↔
          s.index[ip]? = some ck ∧
            ∀ (ck' : CompositeKey) (q : SharedPolicy), s.policies[ck']? = some q →
              Stale q nowNs → q.ip ≠ ip := by
  have hmem : ∀ (ck : CompositeKey) (q : SharedPolicy),
      (ck, q) ∈ s.policies.toList.filter (fun kv => Stale kv.2 nowNs) ↔
        s.policies[ck]? = some q ∧ Stale q nowNs := by
    intro ck q
    rw [List.mem_filter, Std.ExtTreeMap.mem_toList_iff_getElem?_eq_some, decide_eq_true_eq]
  obtain ⟨hrows, hindex⟩ := foldl_erase_rows (s.policies.toList.filter fun kv => Stale kv.2 nowNs) s
  refine ⟨fun ck p => (hrows ck p).trans ?_, fun ip ck => (hindex ip ck).trans ?_⟩
  · refine and_congr_right fun hp => ⟨fun hall hstale => ?_, fun hlive kv hkv hck => ?_⟩
    · exact hall (ck, p) ((hmem ck p).2 ⟨hp, hstale⟩) rfl
    · obtain ⟨hq, hstale⟩ := (hmem kv.1 kv.2).1 hkv
      rw [hck, hp] at hq
      cases hq
      exact hlive hstale
  · refine and_congr_right fun _ => ⟨fun hall ck' q hq hstale => ?_, fun hall kv hkv => ?_⟩
    · exact hall (ck', q) ((hmem ck' q).2 ⟨hq, hstale⟩)
    · obtain ⟨hq, hstale⟩ := (hmem kv.1 kv.2).1 hkv
      exact hall kv.1 kv.2 hq hstale

theorem OneRowPerIp.prune (h : s.OneRowPerIp) (nowNs tombstoneTtlNs : UInt64) :
    (s.prune nowNs tombstoneTtlNs).OneRowPerIp := by
  obtain ⟨hrows, _⟩ := prune_lookup s nowNs tombstoneTtlNs
  refine ⟨fun ck p hp => h.key_eq ck p ((hrows ck p).1 hp).1, fun ck ck' p p' hp hp' => ?_⟩
  exact h.unique ck ck' p p' ((hrows ck p).1 hp).1 ((hrows ck' p').1 hp').1

theorem Legacy.prune (h : s.Legacy) (nowNs tombstoneTtlNs : UInt64) :
    (s.prune nowNs tombstoneTtlNs).Legacy := by
  refine ⟨h.toOneRowPerIp.prune nowNs tombstoneTtlNs, fun ip => ?_⟩
  refine Option.eq_none_iff_forall_ne_some.2 fun ck hck => ?_
  have hindex := ((prune_lookup s nowNs tombstoneTtlNs).2 ip ck).1 hck
  rw [h.unindexed] at hindex
  cases hindex.1

theorem WellFormed.prune (h : s.WellFormed) (nowNs tombstoneTtlNs : UInt64) :
    (s.prune nowNs tombstoneTtlNs).WellFormed := by
  obtain ⟨hrows, hindex⟩ := prune_lookup s nowNs tombstoneTtlNs
  refine wellFormed_iff.2 ⟨h.oneRowPerIp.prune nowNs tombstoneTtlNs, fun ip ck => ?_⟩
  rw [hindex, h.indexExact ip ck]
  constructor
  · rintro ⟨⟨p, hp, hip⟩, hlive⟩
    exact ⟨p, (hrows ck p).2 ⟨hp, fun hstale => hlive ck p hp hstale hip⟩, hip⟩
  · rintro ⟨p, hp, rfl⟩
    obtain ⟨hp, hlive⟩ := (hrows ck p).1 hp
    refine ⟨⟨p, hp, rfl⟩, fun ck' q hq hstale hip => hlive ?_⟩
    -- a stale row of the same IP would be this row
    have hck := h.oneRowPerIp.unique ck' ck q p hq hp hip
    rw [hck, hp] at hq
    cases hq
    exact hstale

/-! ## Runs -/

/-- A store in use: well-formed, or old and without index. -/
theorem storeStep_usable (h : s.WellFormed ∨ s.Legacy) {l : StoreLabel}
    (hstep : storeStep s l = some s') : s'.WellFormed ∨ s'.Legacy := by
  cases l with
  | merge nodeName policies clock =>
    obtain ⟨s₁, hmerge, hwf⟩ := merge_spec h nodeName policies clock
    have heq : s₁ = s' := Option.some.inj (hmerge.symm.trans hstep)
    exact .inl (heq ▸ hwf)
  | delete ips nowNs =>
    cases hstep
    exact h.imp (fun hwf => (deletePolicies_spec hwf ips nowNs).1)
      fun hleg => hleg.deletePolicies ips nowNs
  | prune nowNs tombstoneTtlNs =>
    cases hstep
    exact h.imp (fun hwf => hwf.prune nowNs tombstoneTtlNs) fun hleg => hleg.prune nowNs tombstoneTtlNs

theorem storeStep_wellFormed (h : s.WellFormed) {l : StoreLabel}
    (hstep : storeStep s l = some s') : s'.WellFormed := by
  cases l with
  | merge nodeName policies clock =>
    obtain ⟨s₁, hmerge, hwf⟩ := merge_spec (.inl h) nodeName policies clock
    have heq : s₁ = s' := Option.some.inj (hmerge.symm.trans hstep)
    exact heq ▸ hwf
  | delete ips nowNs =>
    cases hstep
    exact (deletePolicies_spec h ips nowNs).1
  | prune nowNs tombstoneTtlNs =>
    cases hstep
    exact h.prune nowNs tombstoneTtlNs

/-- From the first merge of a run on, the store is well-formed. -/
theorem exec_wellFormed {labels : List StoreLabel} (h : s.WellFormed ∨ s.Legacy)
    (hrun : Exec.exec storeStep s labels = some s')
    (hmerged : ∃ l ∈ labels, ∃ nodeName policies clock, l = .merge nodeName policies clock) :
    s'.WellFormed := by
  induction labels generalizing s with
  | nil =>
    obtain ⟨l, hl, _⟩ := hmerged
    cases hl
  | cons a labels ih =>
    obtain ⟨s₁, hstep, hrest⟩ := Option.bind_eq_some_iff.1 hrun
    obtain ⟨l, hl, nodeName, policies, clock, rfl⟩ := hmerged
    rcases List.mem_cons.1 hl with rfl | hl
    · obtain ⟨s₂, hmerge, hwf⟩ := merge_spec h nodeName policies clock
      have heq : s₂ = s₁ := Option.some.inj (hmerge.symm.trans hstep)
      refine Exec.exec_invariant (fun _ _ _ hwf _ hstep => storeStep_wellFormed hwf hstep)
        (heq ▸ hwf) (Exec.along_of_forall (fun _ _ => trivial) _ _) hrest
    · exact ih (storeStep_usable h hstep) hrest ⟨_, hl, nodeName, policies, clock, rfl⟩

/-- With one row for each IP a query names no IP twice. -/
theorem nodup_querySince (h : s.OneRowPerIp) (sinceNs : UInt64) (limit : Nat) :
    ((s.querySince sinceNs limit).1.map SharedPolicy.ip).Nodup := by
  by_cases hlimit : limit = 0
  · subst hlimit
    exact List.nodup_nil
  · have hpage := (queries_pageThrough s hlimit).1.exact sinceNs
    rw [hpage, List.map_map, List.filter_map, List.map_map]
    refine List.Nodup.sublist (List.Sublist.map _ List.filter_sublist) ?_
    rw [List.Nodup, List.pairwise_map]
    exact h.pairwise_ip

/-- Whatever merges, deletes and prunes do to a database that was empty or had no index, its rows lie
under their keys with one for each IP; from the first merge on its index is exact; no merge fails
and no query names an IP twice. -/
theorem index_invariant {s₀ : Store} {labels : List StoreLabel} (h₀ : s₀ = {} ∨ s₀.Legacy)
    (hrun : Exec.exec storeStep s₀ labels = some s) :
    s.OneRowPerIp ∧
      ((∃ l ∈ labels, ∃ nodeName policies clock, l = .merge nodeName policies clock) →
        s.IndexExact) ∧
      (∀ nodeName policies clock, (s.merge nodeName policies clock).isSome) ∧
      ∀ sinceNs limit, ((s.querySince sinceNs limit).1.map SharedPolicy.ip).Nodup := by
  have hleg : s₀.Legacy := by
    rcases h₀ with rfl | hleg
    · exact legacy_empty
    · exact hleg
  have husable : s.WellFormed ∨ s.Legacy :=
    Exec.exec_invariant (fun _ _ _ h _ hstep => storeStep_usable h hstep) (.inr hleg)
      (Exec.along_of_forall (fun _ _ => trivial) _ _) hrun
  have hrows : s.OneRowPerIp := husable.elim WellFormed.oneRowPerIp Legacy.toOneRowPerIp
  refine ⟨hrows, fun hmerged => (exec_wellFormed (.inr hleg) hrun hmerged).indexExact, ?_,
    nodup_querySince hrows⟩
  intro nodeName policies clock
  obtain ⟨s', hmerge, _⟩ := merge_spec husable nodeName policies clock
  rw [hmerge]
  rfl

/-- A push that reports an IP twice, to an empty database. -/
theorem index_invariant_repeated_ip :
    ∃ s, Exec.exec storeStep {}
        [.merge "a" [⟨.fromIpv4 1, 2, 10, 0, 0, 60⟩, ⟨.fromIpv4 1, 3, 5, 0, 0, 0⟩] fun _ => 100] =
          some s ∧ s.IndexExact := by
  obtain ⟨s, hrun⟩ : ∃ s, Exec.exec storeStep {}
      [.merge "a" [⟨.fromIpv4 1, 2, 10, 0, 0, 60⟩, ⟨.fromIpv4 1, 3, 5, 0, 0, 0⟩] fun _ => 100] =
        some s := ⟨_, rfl⟩
  exact ⟨s, hrun, (index_invariant (.inl rfl) hrun).2.1 ⟨_, List.mem_cons_self, _, _, _, rfl⟩⟩

end Store

end EShield.Hub
