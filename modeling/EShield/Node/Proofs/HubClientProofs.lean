import EShield.Lib.Feed
import EShield.Node.HubClient

/-!
# Pushes lose nothing

The rows of the store are a feed and the pushes its reader. While no push exceeds its limit and no
save overlaps a push, a row stamped at or before the cursor has gone out in its present version.
-/

namespace EShield.Node

open Ebpf (Maps LruHashMap)
open Feed (Complete)

/-! ## What is to be pushed, and what was -/

/-- At time `t` the row is one that a push must take along. -/
def Qualifies (cfg : PublishConfig) (maps : Maps) (t : UInt64) (key : IpKey) (row : BlacklistRow) :
    Prop :=
  row.origin.publishable = true ∧ ¬ row.Expired t ∧ (maps.blacklist key).isSome ∧
    lookupTrustScore maps.trustMap key ≤ cfg.minTrust

instance (cfg : PublishConfig) (maps : Maps) (t : UInt64) (key : IpKey) (row : BlacklistRow) :
    Decidable (Qualifies cfg maps t key row) := inferInstanceAs (Decidable (_ ∧ _))

/-- The batch carries this version of the row. -/
def PushBatch.Carries (batch : PushBatch) (key : IpKey) (row : BlacklistRow) : Prop :=
  (key, row) ∈ batch.rows ∧ ∃ p ∈ batch.policies,
    p.ip = key ∧ p.reason = row.blockReason ∧ p.blockedUntilNs = row.blockedUntilNs

instance (batch : PushBatch) (key : IpKey) (row : BlacklistRow) :
    Decidable (batch.Carries key row) := inferInstanceAs (Decidable (_ ∧ _))

/-- This version of the row went out in a push that succeeded. -/
def PushWorld.Pushed (s : PushWorld) (key : IpKey) (row : BlacklistRow) : Prop :=
  ∃ batch ∈ s.accepted, batch.Carries key row

instance (s : PushWorld) (key : IpKey) (row : BlacklistRow) : Decidable (s.Pushed key row) :=
  inferInstanceAs (Decidable (∃ _ ∈ _, _))

/-- No push is under way, and the row is stamped after the cursor. -/
def PushWorld.Fresh (s : PushWorld) (row : BlacklistRow) : Prop :=
  s.push = none ∧ s.lastPushNs < row.lastUpdatedNs

/-- No push has more rows to publish than its limit. A save that a push must take along commits
between two pushes, with a clock reading later than the last one's, and only such rows start to
qualify when the maps change. -/
def Undisturbed (cfg : PublishConfig) (s : PushWorld) : PushLabel → Prop
  | .collect nowNs =>
    ∀ rows, s.push = some (.loaded rows) →
      (publishedRows cfg rows s.maps nowNs).length ≤ max cfg.limit 1
  | .commitSave id =>
    ∀ rows, s.saves id = some rows → ∀ kv ∈ rows, kv.2.origin.publishable = true → s.Fresh kv.2
  | .setMaps maps =>
    ∀ key row, s.store[key]? = some row → ∀ t, s.clockNs ≤ t → Qualifies cfg maps t key row →
      Qualifies cfg s.maps t key row ∨ s.Fresh row
  | _ => True

/-! ## Collecting -/

section collect

variable {cfg : PublishConfig} {rows : List (IpKey × BlacklistRow)} {maps : Maps}
  {nowNs t : UInt64} {key : IpKey} {row : BlacklistRow}

/-- What is collected comes from a row of publishable origin. -/
theorem mem_collectedRows {c : IpKey × BlacklistRow × UInt32}
    (h : c ∈ collectedRows cfg rows maps nowNs) :
    (c.1, c.2.1) ∈ rows ∧ c.2.1.origin.publishable = true ∧ Publishes cfg maps.trustMap nowNs c := by
  obtain ⟨hmem, hpub⟩ := List.mem_filter.1 (List.mem_of_mem_take h)
  obtain ⟨⟨key, row⟩, hrow, hsome⟩ := List.mem_filterMap.1 hmem
  split at hsome
  · rename_i horigin
    obtain ⟨entry, _, rfl⟩ := Option.map_eq_some_iff.1 hsome
    exact ⟨hrow, horigin, of_decide_eq_true hpub⟩
  · cases hsome

theorem not_expired_of_le (hle : nowNs ≤ t) (h : ¬ row.Expired t) : ¬ row.Expired nowNs :=
  fun hexp => h ⟨hexp.1, le_trans hexp.2 hle⟩

/-- A row that qualifies later on is published now. -/
theorem mem_publishedRows (hmem : (key, row) ∈ rows) (hle : nowNs ≤ t)
    (hq : Qualifies cfg maps t key row) :
    ∃ hits, (key, row, hits) ∈ publishedRows cfg rows maps nowNs := by
  obtain ⟨horigin, hlive, hheld, htrust⟩ := hq
  obtain ⟨entry, hentry⟩ := Option.isSome_iff_exists.1 hheld
  refine ⟨entry.hitCount, List.mem_filter.2 ⟨?_, ?_⟩⟩
  · refine List.mem_filterMap.2 ⟨(key, row), hmem, ?_⟩
    simp [horigin, hentry]
  · refine decide_eq_true ⟨fun h => not_expired_of_le hle hlive h.2, ?_⟩
    exact UInt32.not_lt.2 htrust

/-- Below the limit every published row is collected, and its policy with it. -/
theorem collected_carries (hlen : (publishedRows cfg rows maps nowNs).length ≤ max cfg.limit 1)
    (hmem : (key, row) ∈ rows) (hle : nowNs ≤ t) (hq : Qualifies cfg maps t key row) :
    PushBatch.Carries
      { rows := (collectedRows cfg rows maps nowNs).map fun c => (c.1, c.2.1)
        policies := collectHubPublishablePolicies cfg rows maps nowNs } key row := by
  obtain ⟨hits, hpub⟩ := mem_publishedRows hmem hle hq
  have hcol : (key, row, hits) ∈ collectedRows cfg rows maps nowNs := by
    rw [collectedRows, List.take_of_length_le hlen]
    exact hpub
  exact ⟨List.mem_map.2 ⟨_, hcol, rfl⟩, _, List.mem_map.2 ⟨_, hcol, rfl⟩, rfl, rfl, rfl⟩

end collect

/-- What a committed save leaves in the store. -/
theorem getElem?_foldl_insert (rows : List (IpKey × BlacklistRow)) (store : RuleStore) (key : IpKey)
    (row : BlacklistRow)
    (h : (rows.foldl (fun store kv => store.insert kv.1 kv.2) store)[key]? = some row) :
    (key, row) ∈ rows ∨ store[key]? = some row := by
  induction rows generalizing store with
  | nil => exact .inr h
  | cons kv rows ih =>
    rcases ih _ h with hmem | hrow
    · exact .inl (List.mem_cons_of_mem _ hmem)
    · rw [Std.ExtTreeMap.getElem?_insert] at hrow
      split at hrow
      · rename_i heq
        cases hrow
        rw [← Std.compare_eq_iff_eq.1 heq]
        exact .inl List.mem_cons_self
      · exact .inr hrow

/-! ## What a step does -/

/-- A step, by its label. -/
inductive PushMoves (cfg : PublishConfig) (s : PushWorld) : PushLabel → PushWorld → Prop where
  | beginSave {id keys untilNs reason firstSeenNs origin updatedNs} (hid : s.saves id = none)
      (hclock : s.clockNs ≤ updatedNs) :
      PushMoves cfg s (.beginSave id keys untilNs reason firstSeenNs origin updatedNs)
        { s with
          clockNs := updatedNs
          saves :=
            s.saves.set id (some (savedRows keys untilNs reason firstSeenNs origin updatedNs)) }
  | commitSave {id rows} (hid : s.saves id = some rows) :
      PushMoves cfg s (.commitSave id)
        { s with
          store := rows.foldl (fun store kv => store.insert kv.1 kv.2) s.store
          saves := s.saves.set id none }
  | remove {key} :
      PushMoves cfg s (.remove key) { s with store := s.store.removeBlacklist key }
  | setMaps {maps} : PushMoves cfg s (.setMaps maps) { s with maps := maps }
  | load (hidle : s.push = none) :
      PushMoves cfg s .load
        { s with push := some (.loaded (s.store.loadBlacklistSince s.lastPushNs)) }
  | collect {nowNs rows} {push : Option PushTask} (hloaded : s.push = some (.loaded rows))
      (hclock : s.clockNs ≤ nowNs)
      (hpush : push = none ∨ push = some (.posting
        { rows := (collectedRows cfg rows s.maps nowNs).map fun c => (c.1, c.2.1)
          policies := collectHubPublishablePolicies cfg rows s.maps nowNs })) :
      PushMoves cfg s (.collect nowNs) { s with clockNs := nowNs, push := push }
  | postSucceeds {batch} (hposting : s.push = some (.posting batch)) :
      PushMoves cfg s .postSucceeds
        { s with push := some (.accepted batch), accepted := s.accepted ++ [batch] }
  | postFails {batch} (hposting : s.push = some (.posting batch)) :
      PushMoves cfg s .postFails { s with push := none }
  | advance {nowNs batch} (haccepted : s.push = some (.accepted batch))
      (hclock : s.clockNs ≤ nowNs) :
      PushMoves cfg s (.advance nowNs)
        { s with clockNs := nowNs, lastPushNs := nowNs, push := none }

theorem pushStep_moves {cfg : PublishConfig} {s s' : PushWorld} {l : PushLabel}
    (h : pushStep cfg s l = some s') : PushMoves cfg s l s' := by
  cases l with
  | beginSave id keys untilNs reason firstSeenNs origin updatedNs =>
    simp only [pushStep] at h
    split at h <;> cases h
    rename_i hguard
    exact .beginSave hguard.1 hguard.2
  | commitSave id =>
    simp only [pushStep] at h
    split at h <;> cases h
    rename_i hid
    exact .commitSave hid
  | remove key =>
    cases h
    exact .remove
  | setMaps maps =>
    cases h
    exact .setMaps
  | load =>
    simp only [pushStep] at h
    split at h <;> cases h
    rename_i hidle
    exact .load hidle
  | collect nowNs =>
    simp only [pushStep] at h
    split at h
    · rename_i rows hloaded
      split at h <;> cases h
      rename_i hclock
      refine .collect hloaded hclock ?_
      split
      · exact .inl rfl
      · exact .inr rfl
    · cases h
  | postSucceeds =>
    simp only [pushStep] at h
    split at h <;> cases h
    rename_i hposting
    exact .postSucceeds hposting
  | postFails =>
    simp only [pushStep] at h
    split at h <;> cases h
    rename_i hposting
    exact .postFails hposting
  | advance nowNs =>
    simp only [pushStep] at h
    split at h
    · rename_i haccepted
      split at h <;> cases h
      rename_i hclock
      exact .advance haccepted hclock
    · cases h

/-! ## The invariant -/

variable {cfg : PublishConfig} {s s' : PushWorld}

/-- A row that qualifies, now or at some later time. -/
def PushWorld.Row (cfg : PublishConfig) (s : PushWorld) (key : IpKey) (row : BlacklistRow) : Prop :=
  s.store[key]? = some row ∧ ∃ t, s.clockNs ≤ t ∧ Qualifies cfg s.maps t key row

/-- The rows stamped after the cursor satisfy `P`. -/
def PushWorld.Covers (cfg : PublishConfig) (s : PushWorld) (P : IpKey → BlacklistRow → Prop) : Prop :=
  ∀ key row, s.Row cfg key row → s.lastPushNs < row.lastUpdatedNs → P key row

structure PushInvariant (cfg : PublishConfig) (s : PushWorld) : Prop where
  complete : Complete (fun _ row => row.lastUpdatedNs) (s.Row cfg) s.Pushed s.lastPushNs
  loaded : ∀ rows, s.push = some (.loaded rows) → s.Covers cfg fun key row => (key, row) ∈ rows
  posting : ∀ batch, s.push = some (.posting batch) → s.Covers cfg batch.Carries
  accepted : ∀ batch, s.push = some (.accepted batch) → s.Covers cfg s.Pushed

/-- A step that leaves the cursor and the push alone and brings in fresh rows only. -/
theorem PushInvariant.write (hI : PushInvariant cfg s)
    (hrow : ∀ key row, s'.Row cfg key row → s.Row cfg key row ∨ s.Fresh row)
    (hpush : s'.push = s.push) (hcursor : s'.lastPushNs = s.lastPushNs)
    (haccepted : s'.accepted = s.accepted) : PushInvariant cfg s' := by
  have hcovers : ∀ {P} {task : PushTask}, s.push = some task → s.Covers cfg P → s'.Covers cfg P := by
    intro P task htask h key row hr hlt
    rw [hcursor] at hlt
    rcases hrow key row hr with hold | ⟨hnone, _⟩
    · exact h key row hold hlt
    · rw [hnone] at htask
      cases htask
  have hpushed : s'.Pushed = s.Pushed := by
    funext key row
    rw [PushWorld.Pushed, haccepted, PushWorld.Pushed]
  rw [← hpush] at hcovers
  refine ⟨?_, ?_, ?_, ?_⟩
  · rw [hcursor, hpushed]
    exact hI.complete.write fun key row hr => (hrow key row hr).imp_right And.right
  · exact fun rows h => hcovers h (hI.loaded rows (hpush ▸ h))
  · exact fun batch h => hcovers h (hI.posting batch (hpush ▸ h))
  · intro batch h
    rw [hpushed]
    exact hcovers h (hI.accepted batch (hpush ▸ h))

theorem pushInvariant_collect (hI : PushInvariant cfg s) {rows : List (IpKey × BlacklistRow)}
    {nowNs : UInt64} (hpush : s.push = some (.loaded rows)) (hclock : s.clockNs ≤ nowNs)
    (hlen : (publishedRows cfg rows s.maps nowNs).length ≤ max cfg.limit 1) (push : Option PushTask)
    (hnew : push = none ∨ push = some (.posting
      { rows := (collectedRows cfg rows s.maps nowNs).map fun c => (c.1, c.2.1)
        policies := collectHubPublishablePolicies cfg rows s.maps nowNs })) :
    PushInvariant cfg { s with clockNs := nowNs, push := push } := by
  have hrow : ∀ key row, PushWorld.Row cfg { s with clockNs := nowNs, push := push } key row →
      s.Row cfg key row :=
    fun key row ⟨hrow, t, hle, hq⟩ => ⟨hrow, t, le_trans hclock hle, hq⟩
  refine ⟨hI.complete.write fun key row hr => .inl (hrow key row hr), ?_, ?_, ?_⟩
  · rintro rows' h
    rcases hnew with rfl | rfl <;> cases h
  · rintro batch h key row hr hlt
    rcases hnew with rfl | rfl
    · cases h
    · cases h
      have hmem : (key, row) ∈ rows := hI.loaded rows hpush key row (hrow key row hr) hlt
      obtain ⟨_, t, hle, hq⟩ := hr
      exact collected_carries hlen hmem hle hq
  · rintro batch h
    rcases hnew with rfl | rfl <;> cases h

theorem pushInvariant_step (hI : PushInvariant cfg s) {l : PushLabel} (hc : Undisturbed cfg s l)
    (h : pushStep cfg s l = some s') : PushInvariant cfg s' := by
  cases pushStep_moves h with
  | beginSave hid hclock =>
    refine hI.write (fun key row ⟨hrow, t, hle, hq⟩ => .inl ?_) rfl rfl rfl
    exact ⟨hrow, t, le_trans hclock hle, hq⟩
  | @commitSave id rows hid =>
    refine hI.write (fun key row ⟨hrow, t, hle, hq⟩ => ?_) rfl rfl rfl
    rcases getElem?_foldl_insert rows s.store key row hrow with hmem | hold
    · exact .inr (hc rows hid _ hmem hq.1)
    · exact .inl ⟨hold, t, hle, hq⟩
  | remove =>
    refine hI.write (fun k row ⟨hrow, hq⟩ => .inl ⟨?_, hq⟩) rfl rfl rfl
    rw [RuleStore.getElem?_removeBlacklist] at hrow
    split at hrow
    · cases hrow
    · exact hrow
  | setMaps =>
    refine hI.write (fun key row ⟨hrow, t, hle, hq⟩ => ?_) rfl rfl rfl
    exact (hc key row hrow t hle hq).imp_left fun hq' => ⟨hrow, t, hle, hq'⟩
  | load =>
    refine ⟨hI.complete, ?_, (fun _ h => by cases h), (fun _ h => by cases h)⟩
    rintro rows ⟨⟩ key row ⟨hrow, _⟩ hlt
    exact RuleStore.mem_loadBlacklistSince.2 ⟨hrow, hlt⟩
  | collect hloaded hclock hpush =>
    exact pushInvariant_collect hI hloaded hclock (hc _ hloaded) _ hpush
  | @postSucceeds batch hposting =>
    have hmono : ∀ key row, s.Pushed key row →
        PushWorld.Pushed { s with push := some (.accepted batch), accepted := s.accepted ++ [batch] }
          key row :=
      fun key row ⟨b, hb, hcar⟩ => ⟨b, List.mem_append_left _ hb, hcar⟩
    refine ⟨?_, (fun _ h => by cases h), (fun _ h => by cases h), ?_⟩
    · exact fun key row hr hle => hmono key row (hI.complete key row hr hle)
    · rintro _ ⟨⟩ key row hr hlt
      exact ⟨batch, List.mem_append_right _ List.mem_cons_self,
        hI.posting batch hposting key row hr hlt⟩
  | postFails =>
    exact ⟨hI.complete, (fun _ h => by cases h), (fun _ h => by cases h), (fun _ h => by cases h)⟩
  | @advance nowNs batch haccepted hclock =>
    have hrow : ∀ key row,
        PushWorld.Row cfg { s with clockNs := nowNs, lastPushNs := nowNs, push := none } key row →
          s.Row cfg key row :=
      fun key row ⟨hrow, t, hle, hq⟩ => ⟨hrow, t, le_trans hclock hle, hq⟩
    refine ⟨?_, (fun _ h => by cases h), (fun _ h => by cases h), (fun _ h => by cases h)⟩
    refine Complete.advance (c := s.lastPushNs)
      (hI.complete.write fun key row hr => .inl (hrow key row hr)) (fun _ _ _ h => h) ?_
    exact fun key row hr hlt _ => hI.accepted batch haccepted key row (hrow key row hr) hlt

/-- In every state of an undisturbed run that starts with nothing missed: a row that qualifies and is
stamped at or before the cursor has been pushed in its present version. -/
theorem pushes_lose_nothing {s₀ : PushWorld} {labels : List PushLabel}
    (hidle : s₀.push = none)
    (hstart : ∀ (key : IpKey) (row : BlacklistRow), s₀.store[key]? = some row →
      row.lastUpdatedNs ≤ s₀.lastPushNs → s₀.Pushed key row)
    (hc : Exec.Along (pushStep cfg) (Undisturbed cfg) s₀ labels)
    (hrun : Exec.exec (pushStep cfg) s₀ labels = some s) (key : IpKey) (row : BlacklistRow)
    (hrow : s.store[key]? = some row) {t : UInt64} (ht : s.clockNs ≤ t)
    (hq : Qualifies cfg s.maps t key row) (hstamp : row.lastUpdatedNs ≤ s.lastPushNs) :
    s.Pushed key row := by
  have hinit : PushInvariant cfg s₀ := by
    refine ⟨fun key row hr hle => hstart key row hr.1 hle, ?_, ?_, ?_⟩
    all_goals
      intro _ h
      rw [hidle] at h
      cases h
  have hI : PushInvariant cfg s :=
    Exec.exec_invariant (fun _ _ _ hI hc h => pushInvariant_step hI hc h) hinit hc hrun
  exact hI.complete key row ⟨hrow, t, ht, hq⟩ hstamp

/-- A node that holds permanent blocks of `keys`, made by a detection module and stamped 100. -/
def sampleNode (keys : List IpKey) : PushWorld :=
  let rows := savedRows keys BLOCK_PERMANENT rules.RATE_LIMIT.toUInt8 100 .detected 100
  { store := rows.foldl (fun store kv => store.insert kv.1 kv.2) ∅
    maps := { blacklist := keys.foldl (fun b key => blockIpRaw b key 0 2 100) .empty } }

/-- One block, a push that fails and one that succeeds: the row qualifies, is stamped before the cursor, and
has been pushed. -/
theorem pushes_lose_nothing_one_block :
    ∃ s row, Exec.exec (pushStep ⟨0, 50, 1⟩) (sampleNode [.fromIpv4 1])
        [.load, .collect 200, .postFails, .load, .collect 250, .postSucceeds, .advance 300] = some s ∧
      s.store[IpKey.fromIpv4 1]? = some row ∧
      Qualifies ⟨0, 50, 1⟩ s.maps 300 (.fromIpv4 1) row ∧ row.lastUpdatedNs ≤ s.lastPushNs ∧
      s.Pushed (.fromIpv4 1) row := by
  refine ⟨_, _, rfl, rfl, by decide, by decide, @pushes_lose_nothing ⟨0, 50, 1⟩ _
    (sampleNode [.fromIpv4 1])
    [.load, .collect 200, .postFails, .load, .collect 250, .postSucceeds, .advance 300] rfl ?_ ?_ rfl
    (.fromIpv4 1) _ rfl 300 (by decide) (by decide) (by decide)⟩
  · intro key row h hle
    rcases getElem?_foldl_insert _ _ key row h with hmem | hrow
    · cases List.mem_singleton.1 hmem
      exact absurd hle (by decide)
    · simp at hrow
  · refine .cons rfl trivial (.cons rfl ?_ (.cons rfl trivial (.cons rfl trivial (.cons rfl ?_
      (.cons rfl trivial (.cons rfl trivial trivial))))))
    · rintro rows ⟨⟩
      decide
    · rintro rows ⟨⟩
      decide

/-- Two rows to publish and a limit of one: the push carries the first row alone and moves the
cursor past both. -/
theorem second_row_is_never_pushed :
    ∃ s, Exec.exec (pushStep ⟨0, 50, 1⟩) (sampleNode [.fromIpv4 1, .fromIpv4 2])
        [.load, .collect 200, .postSucceeds, .advance 300] = some s ∧
      ∃ row, s.store[IpKey.fromIpv4 2]? = some row ∧
        Qualifies ⟨0, 50, 1⟩ s.maps 300 (.fromIpv4 2) row ∧ row.lastUpdatedNs ≤ s.lastPushNs ∧
        s.store.loadBlacklistSince s.lastPushNs = [] ∧ ¬ s.Pushed (.fromIpv4 2) row := by
  refine ⟨_, rfl, _, rfl, by decide, by decide, by decide, by decide⟩

end EShield.Node
