import EShield.Hub.Proofs.StoreProofs
import EShield.Hub.Pull

/-!
# Incremental pulls

When chunks commit in the order of their clock readings, and no two readings are equal, every commit
is stamped after whatever cursor the client has, and the client misses nothing.
-/

namespace EShield.Hub

open Feed (Complete)

/-- A chunk commits only with a clock reading later than that of every chunk committed before. -/
def InClockOrder (s : PullWorld) : PullLabel → Prop
  | .commit id =>
    ∀ nodeName nowNs chunk rest, s.writers id = some (.stamped nodeName nowNs chunk rest) →
      s.committedNs < nowNs
  | _ => True

/-- The policy of an IP in the store. -/
def PullWorld.Row (s : PullWorld) (ip : IpKey) (p : SharedPolicy) : Prop := s.store.view ip = some p

/-- The stamps in the store and the cursor lie at or before the last commit, and the client has what
lies at or before its cursor. -/
structure PullInvariant (s : PullWorld) : Prop where
  wellFormed : s.store.WellFormed
  stamps : ∀ ip p, s.Row ip p → p.lastSeenNs ≤ s.committedNs
  cursor : s.cursorNs ≤ s.committedNs
  complete : Complete (fun _ p => p.lastSeenNs) s.Row (fun _ p => p ∈ s.received) s.cursorNs

variable {s s' : PullWorld}

theorem pullInvariant_commit (hI : PullInvariant s) {nodeName : String} {nowNs : UInt64}
    {chunk : List NodePolicy} {writers : TaskTable Writer} {store : Store}
    (hlater : s.committedNs < nowNs)
    (hmerge : s.store.mergeChunk nodeName chunk nowNs = some store) :
    PullInvariant
      { s with store := store, committedNs := max s.committedNs nowNs, writers := writers } := by
  obtain ⟨store', hmerge', hwf, hview, _⟩ := Store.mergeChunk_spec hI.wellFormed nodeName chunk nowNs
  rw [hmerge] at hmerge'
  cases hmerge'
  have hmax : max s.committedNs nowNs = nowNs := max_eq_right (le_of_lt hlater)
  have hbefore : ∀ ip p, s.store.view ip = some p → p.lastSeenNs ≤ nowNs := fun ip p hp =>
    le_trans (hI.stamps ip p hp) (le_of_lt hlater)
  refine ⟨hwf, ?_, ?_, hI.complete.write ?_⟩
  · intro ip p hp
    rw [PullWorld.Row, hview] at hp
    exact le_of_le_of_eq (Store.mergedView_le hbefore hp) hmax.symm
  · exact le_trans hI.cursor (le_max_left _ _)
  · intro ip p hp
    rw [PullWorld.Row, hview] at hp
    rcases Store.mergedView_cases hp with hold | hnew
    · exact .inl hold
    · exact .inr (lt_of_le_of_lt hI.cursor (lt_of_lt_of_le hlater hnew))

theorem pullInvariant_pull (hI : PullInvariant s) (limit : Nat) :
    PullInvariant
      { s with
        cursorNs := (s.store.querySince s.cursorNs limit).2
        received := s.received ++ (s.store.querySince s.cursorNs limit).1 } := by
  refine ⟨hI.wellFormed, hI.stamps, ?_, ?_⟩
  · rcases Store.pageSince_cursor s.store.policies s.cursorNs limit with heq | ⟨ck, p, hp, heq⟩
    · exact le_of_eq_of_le heq hI.cursor
    · have hrow : s.Row p.ip p := by
        have hck := hI.wellFormed.key_eq ck p hp
        exact hI.wellFormed.view_iff.2 ⟨rfl, hck ▸ hp⟩
      have hstamp := hI.stamps p.ip p hrow
      rw [show p.lastSeenNs = ck.lastSeenNs by rw [hI.wellFormed.key_eq ck p hp], heq] at hstamp
      exact hstamp
  · by_cases hlimit : limit = 0
    · subst hlimit
      simpa [Store.querySince, Store.pageSince_zero] using hI.complete
    · obtain ⟨_, hpage, _⟩ := Store.querySince_spec hI.wellFormed s.cursorNs hlimit
      refine hI.complete.advance ?_ ?_
      · exact fun ip p _ hp => List.mem_append_left _ hp
      · intro ip p hp hlt hle
        have hview : s.store.view ip = some p := hp
        obtain rfl := hI.wellFormed.view_ip hview
        exact List.mem_append_right _ ((hpage p).2 ⟨hview, hlt, hle⟩)

theorem pullInvariant_step (hI : PullInvariant s) {l : PullLabel} (hc : InClockOrder s l)
    (h : pullStep s l = some s') : PullInvariant s' := by
  cases l with
  | push id nodeName policies =>
    simp only [pullStep] at h
    split at h <;> cases h
    exact ⟨hI.wellFormed, hI.stamps, hI.cursor, hI.complete⟩
  | readClock id nowNs =>
    simp only [pullStep] at h
    split at h
    · split at h <;> cases h
      exact ⟨hI.wellFormed, hI.stamps, hI.cursor, hI.complete⟩
    · cases h
  | commit id =>
    simp only [pullStep] at h
    split at h
    · rename_i nodeName nowNs chunk rest hid
      split at h <;> cases h
      · rename_i store hmerge
        exact pullInvariant_commit hI (hc _ _ _ _ hid) hmerge
      · exact ⟨hI.wellFormed, hI.stamps, hI.cursor, hI.complete⟩
    · cases h
  | pull limit =>
    cases h
    exact pullInvariant_pull hI limit

/-- A client that starts at cursor 0 and pulls, among pushes whose chunks commit in clock order,
until a query with a positive limit returns nothing, has received every policy in the store. -/
theorem pulls_lose_nothing {s₀ s : PullWorld} {labels : List PullLabel} {limit : Nat}
    (hwf : s₀.store.WellFormed)
    (hstamps : ∀ ip p, s₀.store.view ip = some p →
      0 < p.lastSeenNs ∧ p.lastSeenNs ≤ s₀.committedNs)
    (hcursor : s₀.cursorNs = 0) (hc : Exec.Along pullStep InClockOrder s₀ labels)
    (hrun : Exec.exec pullStep s₀ labels = some s) (hlimit : limit ≠ 0)
    (hdone : (s.store.querySince s.cursorNs limit).1 = []) :
    ∀ (ck : CompositeKey) (p : SharedPolicy), s.store.policies[ck]? = some p → p ∈ s.received := by
  have hinit : PullInvariant s₀ :=
    { wellFormed := hwf
      stamps := fun ip p hp => (hstamps ip p hp).2
      cursor := hcursor ▸ UInt64.zero_le
      complete := fun ip p hp hle =>
        absurd (hcursor ▸ hle) (not_le.2 (hstamps ip p hp).1) }
  have hI : PullInvariant s :=
    Exec.exec_invariant (fun _ _ _ hI hc h => pullInvariant_step hI hc h) hinit hc hrun
  obtain ⟨_, _, hempty⟩ := Store.querySince_spec hI.wellFormed s.cursorNs hlimit
  intro ck p hp
  have hrow : s.Row p.ip p := hI.wellFormed.view_iff.2 ⟨rfl, hI.wellFormed.key_eq ck p hp ▸ hp⟩
  exact hI.complete.done (hempty hdone) hrow

/-- A permanent policy of one IP, as a node reports it. -/
def sampleReport (octets : BitVec 32) : NodePolicy :=
  { ip := .fromIpv4 octets, reason := 2, hitCount := 10, trustScore := 0
    blockedUntilNs := BLOCK_PERMANENT, ttlS := 0 }

/-- Two pushes that overlap and commit in the order of their readings, and a client that pulls after each. -/
def pulledPushes : List PullLabel :=
  [.push 0 "a" [sampleReport 1], .push 1 "b" [sampleReport 2], .readClock 0 100, .readClock 1 200,
    .commit 0, .pull 1, .commit 1, .pull 1]

theorem pulls_lose_nothing_two_pushes :
    ∃ s, Exec.exec pullStep {} pulledPushes = some s ∧
      s.received.map SharedPolicy.ip = [.fromIpv4 1, .fromIpv4 2] ∧
      ∀ (ck : CompositeKey) (p : SharedPolicy),
        s.store.policies[ck]? = some p → p ∈ s.received := by
  have horder : Exec.Along pullStep InClockOrder {} pulledPushes := by
    refine .cons rfl trivial (.cons rfl trivial (.cons rfl trivial (.cons rfl trivial (.cons rfl ?_
      (.cons rfl trivial (.cons rfl ?_ (.cons rfl trivial trivial)))))))
    · rintro _ _ _ _ ⟨⟩
      decide
    · rintro _ _ _ _ ⟨⟩
      decide
  exact ⟨_, rfl, by decide, @pulls_lose_nothing {} _ pulledPushes 1 Store.wellFormed_empty
    (by simp [Store.view]) rfl horder rfl (by decide) (by decide)⟩

/-- Two pushes read the clock at 100 and 200 and commit the other way round. A client that pulls
between the commits has its cursor at 200 and never receives the policy stamped 100. -/
theorem late_commit_is_never_pulled :
    ∃ s, Exec.exec pullStep {}
        [.push 0 "a" [sampleReport 1], .push 1 "b" [sampleReport 2], .readClock 0 100,
          .readClock 1 200, .commit 1, .pull 100, .commit 0, .pull 100] = some s ∧
      TaskTable.Idle s.writers ∧ (s.store.querySince s.cursorNs 100).1 = [] ∧
      ∃ p, s.store.policies[(⟨100, .fromIpv4 1⟩ : CompositeKey)]? = some p ∧ p ∉ s.received := by
  refine ⟨_, rfl, ?_, by decide, _, rfl, by decide⟩
  intro id
  by_cases h0 : id = 0
  · simp [TaskTable.set, Writer.next, h0]
  · by_cases h1 : id = 1 <;> simp [TaskTable.set, Writer.next, h0, h1]

end EShield.Hub
