import EShield.Lib.Exec
import EShield.Node.Proofs.ReloadProofs

/-!
# Blocks across a restart and across a reboot

The map keeps the latest expiry of a source, the store the one that was written last. As long as no
call asks for less than what is in force, and none has the reason of the static configuration, the
row of a source reaches as far as its entry, and a restart brings the block back. After a reboot the
same rows are read against a clock that began anew.
-/

namespace EShield.Node

open Ebpf (LruHashMap mergeInto)
open Exec

/-! ## How far an expiry reaches -/

/-- The expiry `a` is not before `b`. -/
def CoversUntil (a b : UInt64) : Prop := a = BLOCK_PERMANENT ∨ b ≠ BLOCK_PERMANENT ∧ b ≤ a

instance (a b : UInt64) : Decidable (CoversUntil a b) := inferInstanceAs (Decidable (_ ∨ _))

theorem CoversUntil.refl (a : UInt64) : CoversUntil a a := by
  by_cases hperm : a = BLOCK_PERMANENT
  · exact .inl hperm
  · exact .inr ⟨hperm, UInt64.le_rfl⟩

theorem coversUntil_laterUntil {a b c : UInt64} (hb : CoversUntil a b) (hc : CoversUntil a c) :
    CoversUntil a (laterUntil b c) := by
  rcases hb with hperm | ⟨hb, hba⟩
  · exact .inl hperm
  · rcases hc with hperm | ⟨hc, hca⟩
    · exact .inl hperm
    · refine .inr ⟨laterUntil_ne_permanent hb hc, ?_⟩
      rw [laterUntil, if_neg (not_or.2 ⟨hb, hc⟩)]
      split
      · exact hba
      · exact hca

/-- The same duration from a later reading. -/
theorem coversUntil_blockUntil {mapNs rowNs : UInt64} (h : mapNs ≤ rowNs) (durationS : UInt64) :
    CoversUntil (blockUntil rowNs durationS) (blockUntil mapNs durationS) := by
  by_cases hzero : durationS = 0
  · exact .inl (if_pos hzero)
  · refine .inr ⟨blockUntil_ne_permanent hzero, ?_⟩
    rw [UInt64.le_iff_toNat_le] at h
    rw [UInt64.le_iff_toNat_le, toNat_blockUntil hzero, toNat_blockUntil hzero]
    omega

/-- What covers the new block and the old entry, if that is in force, covers the merged entry. -/
theorem coversUntil_merge {a nowNs untilNs : UInt64} {prev : Option BlockEntry} (reason : UInt8)
    (explicit : Bool) (huntil : CoversUntil a untilNs)
    (hprev : ∀ p, prev = some p → EffectiveAt p.blockedUntilNs nowNs →
      CoversUntil a p.blockedUntilNs) :
    CoversUntil a (mergeBlockEntry prev nowNs untilNs reason explicit).blockedUntilNs := by
  by_cases h : ∃ p, prev = some p ∧ EffectiveAt p.blockedUntilNs nowNs
  · obtain ⟨p, rfl, heff⟩ := h
    rw [(mergeBlockEntry_of_effective _ _ _ heff).1]
    exact coversUntil_laterUntil (hprev p rfl heff) huntil
  · rw [mergeBlockEntry_of_not_effective fun p hp heff => h ⟨p, hp, heff⟩]
    exact huntil

/-! ## Calls -/

/-- A call that blocks, from its start to its end. -/
inductive BlockCall where
  | blockIpKey (key : IpKey) (durationS : UInt64) (reason : UInt8) (origin : BlockOrigin)
    (clock : BlockClock)
  | blockIpKeysBatch (keys : List IpKey) (durationS : UInt64) (reason : UInt8)
    (origin : BlockOrigin) (nowNs updatedNs : UInt64)

namespace BlockCall

def keys : BlockCall → List IpKey
  | blockIpKey key _ _ _ _ => [key]
  | blockIpKeysBatch keys _ _ _ _ _ => keys

def reason : BlockCall → UInt8
  | blockIpKey _ _ reason _ _ => reason
  | blockIpKeysBatch _ _ reason _ _ _ => reason

/-- The clock when the map is written. -/
def mapNs : BlockCall → UInt64
  | blockIpKey _ _ _ _ clock => clock.mapNs
  | blockIpKeysBatch _ _ _ _ nowNs _ => nowNs

/-- The expiry that is stored. -/
def rowUntil : BlockCall → UInt64
  | blockIpKey _ durationS _ _ clock => blockUntil clock.rowNs durationS
  | blockIpKeysBatch _ durationS _ _ nowNs _ => blockUntil nowNs durationS

end BlockCall

/-- One call after the other. The row is built after the map is written. -/
def blockCallStep (s : ControlState) : BlockCall → Option ControlState
  | .blockIpKey key durationS reason origin clock =>
    if clock.mapNs ≤ clock.rowNs then some (blockIpKey s key durationS reason origin clock)
    else none
  | .blockIpKeysBatch keys durationS reason origin nowNs updatedNs =>
    some (blockIpKeysBatch s keys durationS reason origin nowNs updatedNs)

/-- The call has not the reason of the static configuration, and what it stores reaches as far as what
is in force. -/
def KeepsReach (s : ControlState) (call : BlockCall) : Prop :=
  call.reason ≠ rules.BLACKLIST.toUInt8 ∧
    ∀ key ∈ call.keys, ∀ e, s.maps.blacklist key = some e →
      EffectiveAt e.blockedUntilNs call.mapNs → CoversUntil call.rowUntil e.blockedUntilNs

/-- Every entry has a row that is restored and reaches as far. -/
def StoreCovers (s : ControlState) : Prop :=
  ∀ key e, s.maps.blacklist key = some e → ∃ row, s.store[key]? = some row ∧
    row.blockReason ≠ rules.BLACKLIST.toUInt8 ∧
    CoversUntil row.blockedUntilNs e.blockedUntilNs

/-! ## One call -/

section Call

variable {blacklist : LruHashMap IpKey BlockEntry} {keys : List IpKey} {a nowNs untilNs : UInt64}
  {reason : UInt8} {explicit : Bool}

theorem foldl_mergeInto_of_notMem {k : IpKey} (hk : k ∉ keys) :
    (keys.foldl (fun blacklist key => mergeInto blacklist key nowNs untilNs reason explicit)
      blacklist) k = blacklist k := by
  induction keys generalizing blacklist with
  | nil => rfl
  | cons key keys ih =>
    rw [List.mem_cons, not_or] at hk
    rw [List.foldl_cons, ih hk.2]
    exact LruHashMap.insert_of_ne _ _ hk.1

/-- All that a batch leaves on its keys is covered by what covers its block and what was in force. -/
theorem coversUntil_foldl_mergeInto (huntil : CoversUntil a untilNs)
    (hprev : ∀ k ∈ keys, ∀ e, blacklist k = some e → EffectiveAt e.blockedUntilNs nowNs →
      CoversUntil a e.blockedUntilNs) {k : IpKey} (hk : k ∈ keys) {e : BlockEntry}
    (he : (keys.foldl (fun blacklist key => mergeInto blacklist key nowNs untilNs reason explicit)
      blacklist) k = some e) : CoversUntil a e.blockedUntilNs := by
  induction keys generalizing blacklist with
  | nil => cases hk
  | cons key keys ih =>
    have hself : ∀ e, mergeInto blacklist key nowNs untilNs reason explicit key = some e →
        CoversUntil a e.blockedUntilNs := by
      intro e he
      rw [mergeInto, LruHashMap.insert_self] at he
      cases he
      exact coversUntil_merge _ _ huntil fun p hp heff =>
        hprev key List.mem_cons_self p hp heff
    have hnext : ∀ k ∈ keys, ∀ e, mergeInto blacklist key nowNs untilNs reason explicit k = some e →
        EffectiveAt e.blockedUntilNs nowNs → CoversUntil a e.blockedUntilNs := by
      intro k hmem e he heff
      by_cases hne : k = key
      · subst hne
        exact hself e he
      · rw [mergeInto, LruHashMap.insert_of_ne _ _ hne] at he
        exact hprev k (List.mem_cons_of_mem _ hmem) e he heff
    rw [List.foldl_cons] at he
    by_cases hmem : k ∈ keys
    · exact ih hnext hmem he
    · obtain rfl := (List.mem_cons.1 hk).resolve_right hmem
      rw [foldl_mergeInto_of_notMem hmem] at he
      exact hself e he

theorem getElem?_saveBlacklistMany (store : RuleStore) (keys : List IpKey) (k : IpKey)
    (origin : BlockOrigin) (updatedNs : UInt64) :
    (store.saveBlacklistMany keys untilNs reason nowNs origin updatedNs)[k]? =
      if k ∈ keys then
        some
          { blockedUntilNs := untilNs, blockReason := reason, firstSeenNs := nowNs
            origin := origin, lastUpdatedNs := updatedNs }
      else store[k]? := by
  unfold RuleStore.saveBlacklistMany
  induction keys generalizing store with
  | nil => simp
  | cons key keys ih =>
    rw [List.foldl_cons, ih, RuleStore.getElem?_saveBlacklist]
    by_cases hmem : k ∈ keys
    · rw [if_pos hmem, if_pos (List.mem_cons_of_mem _ hmem)]
    · rw [if_neg hmem]
      by_cases hk : key = k
      · rw [if_pos hk, if_pos (hk ▸ List.mem_cons_self)]
      · rw [if_neg hk, if_neg (by simp [hmem, Ne.symm hk])]

end Call

theorem storeCovers_step {s s' : ControlState} {call : BlockCall} (h : StoreCovers s)
    (hcond : KeepsReach s call) (hstep : blockCallStep s call = some s') : StoreCovers s' := by
  obtain ⟨hreason, hreach⟩ := hcond
  cases call with
  | blockIpKey key durationS reason origin clock =>
    simp only [blockCallStep] at hstep
    split at hstep
    · rename_i hclock
      cases hstep
      intro k e he
      show ∃ row, (persistBlock s.store key durationS reason origin clock.rowNs
        clock.updatedNs)[k]? = some row ∧ _
      have he : mergeInto s.maps.blacklist key clock.mapNs (blockUntil clock.mapNs durationS) reason
          (isExplicit reason) k = some e := he
      rw [persistBlock, RuleStore.getElem?_saveBlacklist]
      by_cases hk : key = k
      · subst hk
        rw [if_pos rfl]
        refine ⟨_, rfl, hreason, ?_⟩
        rw [mergeInto, LruHashMap.insert_self] at he
        cases he
        refine coversUntil_merge _ _ (coversUntil_blockUntil hclock durationS) ?_
        exact fun p hp heff => hreach key List.mem_cons_self p hp heff
      · rw [if_neg hk]
        rw [mergeInto, LruHashMap.insert_of_ne _ _ (Ne.symm hk)] at he
        exact h k e he
    · cases hstep
  | blockIpKeysBatch keys durationS reason origin nowNs updatedNs =>
    cases hstep
    intro k e he
    show ∃ row, (s.store.saveBlacklistMany keys (blockUntil nowNs durationS) reason nowNs origin
      updatedNs)[k]? = some row ∧ _
    have he : (keys.foldl (fun blacklist key =>
        mergeInto blacklist key nowNs (blockUntil nowNs durationS) reason false)
        s.maps.blacklist) k = some e := he
    rw [getElem?_saveBlacklistMany]
    by_cases hk : k ∈ keys
    · rw [if_pos hk]
      exact ⟨_, rfl, hreason, coversUntil_foldl_mergeInto (CoversUntil.refl _) hreach hk he⟩
    · rw [if_neg hk]
      rw [foldl_mergeInto_of_notMem hk] at he
      exact h k e he

/-! ## The restart -/

/-- A block is in force when it is written, unless the clock is at its last reading. -/
theorem effectiveAt_blockUntil_self {readNs : UInt64} (durationS : UInt64)
    (h : readNs.toNat + 1 < 2 ^ 64) : EffectiveAt (blockUntil readNs durationS) readNs := by
  rw [effectiveAt_blockUntil]
  by_cases hd : durationS = 0
  · exact .inl hd
  · have hpos := UInt64.ne_zero_iff_toNat_pos.1 hd
    exact .inr (by omega)

/-- What a row brings back into an empty map. -/
theorem restored_of_row {store : RuleStore} {key : IpKey} {row : BlacklistRow}
    (hrow : store[key]? = some row) (hstatic : row.blockReason ≠ rules.BLACKLIST.toUInt8)
    {nowNs : UInt64} {readNs : IpKey → UInt64} (hread : nowNs ≤ readNs key)
    (hlive : ¬ row.Expired nowNs) :
    ∃ e, loadPersistedRules store nowNs readNs .empty key = some e ∧
      ((readNs key).toNat + 1 < 2 ^ 64 → EffectiveAt e.blockedUntilNs (readNs key)) ∧
      (row.blockedUntilNs = BLOCK_PERMANENT → e.blockedUntilNs = BLOCK_PERMANENT) ∧
      (e.blockedUntilNs = BLOCK_PERMANENT ∨
        row.blockedUntilNs.toNat ≤ e.blockedUntilNs.toNat + 10 ^ 9) := by
  rw [loadPersistedRules_of_row hrow, reloadedEntry_of_live hstatic hlive]
  refine ⟨_, rfl, effectiveAt_blockUntil_self _, ?_⟩
  rw [show (LruHashMap.empty : LruHashMap IpKey BlockEntry) key = none from rfl]
  show (_ → blockUntil _ _ = _) ∧ (blockUntil _ _ = _ ∨ _ ≤ (blockUntil _ _).toNat + 10 ^ 9)
  by_cases hperm : row.blockedUntilNs = BLOCK_PERMANENT
  · rw [if_pos hperm]
    exact ⟨fun _ => rfl, .inl rfl⟩
  · rw [if_neg hperm]
    refine ⟨fun h => absurd h hperm, ?_⟩
    rw [UInt64.le_iff_toNat_le] at hread
    by_cases hleft : nowNs.toNat + 10 ^ 9 ≤ row.blockedUntilNs.toNat
    · obtain ⟨-, hlt, -⟩ := within_blockUntil hread hleft
      exact .inr (by omega)
    · -- less than a second left, which as a duration means for ever
      have hzero : row.blockedUntilNs.saturatingSub nowNs / 1000000000 = 0 := by
        rw [UInt64.eq_zero_iff_toNat, UInt64.toNat_div, UInt64.toNat_saturatingSub]
        have hsecond : (1000000000 : UInt64).toNat = 10 ^ 9 := rfl
        rw [hsecond]
        omega
      rw [hzero]
      exact .inl (if_pos rfl)

/-- In every run of calls that meet `KeepsReach`, from a state without entries: a restart at `t` gives
every source that is blocked then an entry that is in force when it is written (`readNs`, unless the
clock is at its last reading then), is permanent if it was, and ends at most a second earlier
otherwise. -/
theorem restart_keeps_blocks {s₀ s : ControlState} {calls : List BlockCall}
    (hempty : s₀.maps.blacklist = .empty) (hcond : Along blockCallStep KeepsReach s₀ calls)
    (hrun : exec blockCallStep s₀ calls = some s) (t : UInt64) (readNs : IpKey → UInt64)
    (hread : ∀ key, t ≤ readNs key) (key : IpKey) (e : BlockEntry)
    (he : s.maps.blacklist key = some e) (heff : EffectiveAt e.blockedUntilNs t) :
    ∃ e', loadPersistedRules s.store t readNs .empty key = some e' ∧
      ((readNs key).toNat + 1 < 2 ^ 64 → EffectiveAt e'.blockedUntilNs (readNs key)) ∧
      (e.blockedUntilNs = BLOCK_PERMANENT → e'.blockedUntilNs = BLOCK_PERMANENT) ∧
      (e'.blockedUntilNs = BLOCK_PERMANENT ∨
        e.blockedUntilNs.toNat ≤ e'.blockedUntilNs.toNat + 10 ^ 9) := by
  have hstart : StoreCovers s₀ := by
    intro k e he
    rw [hempty] at he
    cases he
  have hcovers : StoreCovers s :=
    exec_invariant (fun _ _ _ hI hc h => storeCovers_step hI hc h) hstart hcond hrun
  obtain ⟨row, hrow, hstatic, hreach⟩ := hcovers key e he
  have hlive : ¬ row.Expired t := by
    rintro ⟨hne, hle⟩
    obtain ⟨hperm, hcover⟩ := hreach.resolve_left hne
    exact absurd (UInt64.lt_of_lt_of_le (heff.resolve_left hperm) hcover) (UInt64.not_lt.2 hle)
  obtain ⟨e', he', hforce, hperm, hexpiry⟩ := restored_of_row hrow hstatic (hread key) hlive
  refine ⟨e', he', hforce, fun h => ?_, ?_⟩
  · exact hperm (hreach.resolve_right fun hcover => hcover.1 h)
  · rcases hexpiry with hperm' | hexpiry
    · exact .inl hperm'
    · rcases hreach with hrowPerm | ⟨-, hle⟩
      · exact .inl (hperm hrowPerm)
      · rw [UInt64.le_iff_toNat_le] at hle
        exact .inr (by omega)

/-- A minute and then an hour: the hour is restored. -/
theorem restart_keeps_blocks_hour :
    ∃ s e', exec blockCallStep {}
        [.blockIpKey (.fromIpv4 1) 60 rules.API_BLOCK.toUInt8 .api ⟨1000000000, 1000000000, 1000000000⟩,
          .blockIpKey (.fromIpv4 1) 3600 rules.API_BLOCK.toUInt8 .api
            ⟨2000000000, 2000000000, 2000000000⟩] = some s ∧
      loadPersistedRules s.store 3000000000 (fun _ => 3000000000) .empty (.fromIpv4 1) = some e' ∧
      EffectiveAt e'.blockedUntilNs 3000000000 ∧
      (e'.blockedUntilNs = BLOCK_PERMANENT ∨ 3602000000000 ≤ e'.blockedUntilNs.toNat + 10 ^ 9) := by
  have hcond : Along blockCallStep KeepsReach {}
      [.blockIpKey (.fromIpv4 1) 60 rules.API_BLOCK.toUInt8 .api ⟨1000000000, 1000000000, 1000000000⟩,
        .blockIpKey (.fromIpv4 1) 3600 rules.API_BLOCK.toUInt8 .api
          ⟨2000000000, 2000000000, 2000000000⟩] := by
    refine .cons rfl ⟨by decide, fun key _ e he => ?_⟩ (.cons rfl ⟨by decide, fun key hkey e he _ => ?_⟩
      trivial)
    · cases he
    · obtain rfl : key = .fromIpv4 1 := List.mem_singleton.1 hkey
      cases he
      decide
  obtain ⟨e', he', hforce, -, hexpiry⟩ := restart_keeps_blocks rfl hcond rfl 3000000000
    (fun _ => 3000000000) (fun _ => UInt64.le_rfl) (.fromIpv4 1) _ rfl (by decide)
  exact ⟨_, e', rfl, he', hforce (by decide), hexpiry⟩

/-- An hour and then a minute: the map has the hour, the store only the minute. -/
theorem shorter_call_weakens_restart :
    ∃ s e e', exec blockCallStep {}
        [.blockIpKey (.fromIpv4 1) 3600 rules.API_BLOCK.toUInt8 .api
            ⟨1000000000, 1000000000, 1000000000⟩,
          .blockIpKey (.fromIpv4 1) 60 rules.API_BLOCK.toUInt8 .api
            ⟨2000000000, 2000000000, 2000000000⟩] = some s ∧
      s.maps.blacklist (.fromIpv4 1) = some e ∧ EffectiveAt e.blockedUntilNs 3000000000 ∧
      loadPersistedRules s.store 3000000000 (fun _ => 3000000000) .empty (.fromIpv4 1) = some e' ∧
      e'.blockedUntilNs ≠ BLOCK_PERMANENT ∧
      e'.blockedUntilNs.toNat + 10 ^ 9 < e.blockedUntilNs.toNat :=
  ⟨_, _, _, rfl, rfl, by decide, rfl, by decide, by decide⟩

/-! ## The reboot -/

/-- At the real time `x` an expiry is in force that was written in the boot whose clock began at the
real time `epoch`. -/
def EffectiveReal (epoch : Nat) (untilNs : UInt64) (x : Nat) : Prop :=
  untilNs = BLOCK_PERMANENT ∨ x < epoch + untilNs.toNat

/-- The row of a block of `durationS` seconds, saved at `savedNs`. -/
def savedRow (savedNs durationS : UInt64) (reason : UInt8) (origin : BlockOrigin)
    (updatedNs : UInt64) : BlacklistRow :=
  { blockedUntilNs := blockUntil savedNs durationS
    blockReason := reason
    firstSeenNs := savedNs
    origin := origin
    lastUpdatedNs := updatedNs }

/-- The whole seconds that the reload, begun at `nowNs`, sees in front of the stored expiry. -/
def secondsLeft (savedNs durationS nowNs : UInt64) : UInt64 :=
  (blockUntil savedNs durationS).saturatingSub nowNs / 1000000000

/-- What the reload drops of the time left: the fraction of a second, and what the clock could not
hold when the block was saved. -/
def droppedNs (savedNs durationS nowNs : UInt64) : Nat :=
  savedNs.toNat + durationS.toNat * 10 ^ 9 - nowNs.toNat -
    (secondsLeft savedNs durationS nowNs).toNat * 10 ^ 9

section Reboot

variable {store : RuleStore} {key : IpKey} {savedNs durationS updatedNs nowNs : UInt64}
  {reason : UInt8} {origin : BlockOrigin} {readNs : IpKey → UInt64} {oldEpoch newEpoch : Nat}

theorem savedRow_expired_iff (hd : durationS ≠ 0) :
    (savedRow savedNs durationS reason origin updatedNs).Expired nowNs ↔
      blockUntil savedNs durationS ≤ nowNs :=
  and_iff_right (blockUntil_ne_permanent hd)

/-- The expiry that is restored. -/
theorem restored_savedRow (hd : durationS ≠ 0)
    (hrow : store[key]? = some (savedRow savedNs durationS reason origin updatedNs))
    (hstatic : reason ≠ rules.BLACKLIST.toUInt8) (hlive : ¬ blockUntil savedNs durationS ≤ nowNs) :
    ∃ e, loadPersistedRules store nowNs readNs .empty key = some e ∧
      e.blockedUntilNs = blockUntil (readNs key) (secondsLeft savedNs durationS nowNs) := by
  rw [loadPersistedRules_of_row hrow,
    reloadedEntry_of_live hstatic (mt (savedRow_expired_iff hd).1 hlive)]
  refine ⟨_, rfl, ?_⟩
  show blockUntil _ (if blockUntil savedNs durationS = BLOCK_PERMANENT then 0 else _) = _
  rw [if_neg (blockUntil_ne_permanent hd)]
  rfl

theorem not_restored_savedRow (hd : durationS ≠ 0)
    (hrow : store[key]? = some (savedRow savedNs durationS reason origin updatedNs))
    (h : reason = rules.BLACKLIST.toUInt8 ∨ blockUntil savedNs durationS ≤ nowNs) :
    loadPersistedRules store nowNs readNs .empty key = none := by
  rw [loadPersistedRules_of_row hrow]
  exact if_pos (h.imp_right (savedRow_expired_iff hd).2)

/-- A second or more is left, and the restored expiry is after the beginning of the reload by as
much. -/
theorem second_before_restored (hread : nowNs ≤ readNs key)
    (hleft : secondsLeft savedNs durationS nowNs ≠ 0) :
    nowNs.toNat + 10 ^ 9 ≤
      (blockUntil (readNs key) (secondsLeft savedNs durationS nowNs)).toNat := by
  have hsecond : (1000000000 : UInt64).toNat = 10 ^ 9 := rfl
  have hsec : (secondsLeft savedNs durationS nowNs).toNat =
      ((blockUntil savedNs durationS).toNat - nowNs.toNat) / 10 ^ 9 := by
    rw [secondsLeft, UInt64.toNat_div, UInt64.toNat_saturatingSub, hsecond]
  have hpos := UInt64.ne_zero_iff_toNat_pos.1 hleft
  have hmax := (blockUntil savedNs durationS).toNat_lt
  rw [UInt64.le_iff_toNat_le] at hread
  rw [toNat_blockUntil hleft]
  omega

theorem add_min_le_iff_dropped {new old read now whole stored saved asked most : Nat}
    (hread : now ≤ read) (hlive : ¬ stored ≤ now) (hwhole : whole ≤ stored - now)
    (hstored : stored ≤ saved + asked) :
    new + min (read + whole) most ≤ old + saved + asked + 1 ↔
      new + (read - now) ≤ old + (saved + asked - now - whole) + 1 ∨
        new + most ≤ old + saved + asked + 1 := by
  omega

/-- What is restored ends in time exactly when the new boot, with the delay between the two readings,
is no further from the old one than what the reload drops, or when the clock cannot hold more. -/
theorem restored_in_time_iff (hread : nowNs ≤ readNs key)
    (hlive : ¬ blockUntil savedNs durationS ≤ nowNs)
    (hd : durationS ≠ 0) (hleft : secondsLeft savedNs durationS nowNs ≠ 0) :
    newEpoch + (blockUntil (readNs key) (secondsLeft savedNs durationS nowNs)).toNat ≤
        oldEpoch + savedNs.toNat + durationS.toNat * 10 ^ 9 + 1 ↔
      newEpoch + ((readNs key).toNat - nowNs.toNat) ≤
          oldEpoch + droppedNs savedNs durationS nowNs + 1 ∨
        newEpoch + (2 ^ 64 - 1) ≤ oldEpoch + savedNs.toNat + durationS.toNat * 10 ^ 9 + 1 := by
  have hstored : (blockUntil savedNs durationS).toNat = _ := toNat_blockUntil hd
  have hwhole : (secondsLeft savedNs durationS nowNs).toNat * 10 ^ 9 ≤
      (blockUntil savedNs durationS).toNat - nowNs.toNat := by
    have hsecond : (1000000000 : UInt64).toNat = 10 ^ 9 := rfl
    rw [secondsLeft, UInt64.toNat_div, UInt64.toNat_saturatingSub, hsecond]
    exact Nat.div_mul_le_self _ _
  rw [UInt64.le_iff_toNat_le] at hread hlive
  rw [toNat_blockUntil hleft, droppedNs]
  exact add_min_le_iff_dropped hread hlive hwhole (hstored ▸ min_le_left _ _)

/-- The conclusion of `reboot_keeps_end`, in terms of the restored expiry. -/
theorem restored_ends_iff (hd : durationS ≠ 0)
    (hrow : store[key]? = some (savedRow savedNs durationS reason origin updatedNs))
    (hread : nowNs ≤ readNs key) :
    ((∀ e, loadPersistedRules store nowNs readNs .empty key = some e →
        ∀ x, oldEpoch + savedNs.toNat + durationS.toNat * 10 ^ 9 < x →
          ¬ EffectiveReal newEpoch e.blockedUntilNs x) ∧
      ((loadPersistedRules store nowNs readNs .empty key).isSome →
        newEpoch + nowNs.toNat < oldEpoch + savedNs.toNat + durationS.toNat * 10 ^ 9)) ↔
    reason = rules.BLACKLIST.toUInt8 ∨ blockUntil savedNs durationS ≤ nowNs ∨
      secondsLeft savedNs durationS nowNs ≠ 0 ∧
        newEpoch + (blockUntil (readNs key) (secondsLeft savedNs durationS nowNs)).toNat ≤
          oldEpoch + savedNs.toNat + durationS.toNat * 10 ^ 9 + 1 := by
  by_cases hnone : reason = rules.BLACKLIST.toUInt8 ∨ blockUntil savedNs durationS ≤ nowNs
  · rw [not_restored_savedRow hd hrow hnone]
    refine iff_of_true ⟨fun e he => (by cases he), fun h => (by cases h)⟩ ?_
    rcases hnone with hstatic | hexpired
    · exact .inl hstatic
    · exact .inr (.inl hexpired)
  · obtain ⟨hstatic, hlive⟩ := not_or.1 hnone
    obtain ⟨e, he, huntil⟩ : ∃ e, loadPersistedRules store nowNs readNs .empty key = some e ∧ _ :=
      restored_savedRow hd hrow hstatic hlive
    rw [he]
    constructor
    · rintro ⟨hend, -⟩
      refine .inr (.inr ?_)
      have hover := hend e rfl _ (Nat.lt_succ_self _)
      obtain ⟨htimed, hle⟩ := not_or.1 hover
      rw [huntil] at htimed hle
      refine ⟨fun hzero => htimed (if_pos hzero), ?_⟩
      omega
    · intro hcond
      obtain ⟨hleft, hle⟩ := (hcond.resolve_left hstatic).resolve_left hlive
      have hsecond := second_before_restored hread hleft
      refine ⟨fun e' he' x hx => ?_, fun _ => ?_⟩
      · cases he'
        rw [huntil]
        rintro (hperm | hlt)
        · exact blockUntil_ne_permanent hleft hperm
        · omega
      · omega

/-- A timed block, saved at `savedNs` on the clock that began at `oldEpoch`, is not in force after its
end once the reload has run at `nowNs` on the clock that began at `newEpoch`, and is restored only
before its end: this holds exactly when it is not restored at all, or has a whole second left and the
two boots are as close as `restored_in_time_iff` says. -/
theorem reboot_keeps_end (hd : durationS ≠ 0)
    (hrow : store[key]? = some (savedRow savedNs durationS reason origin updatedNs))
    (hread : nowNs ≤ readNs key) :
    ((∀ e, loadPersistedRules store nowNs readNs .empty key = some e →
        ∀ x, oldEpoch + savedNs.toNat + durationS.toNat * 10 ^ 9 < x →
          ¬ EffectiveReal newEpoch e.blockedUntilNs x) ∧
      ((loadPersistedRules store nowNs readNs .empty key).isSome →
        newEpoch + nowNs.toNat < oldEpoch + savedNs.toNat + durationS.toNat * 10 ^ 9)) ↔
    reason = rules.BLACKLIST.toUInt8 ∨ blockUntil savedNs durationS ≤ nowNs ∨
      secondsLeft savedNs durationS nowNs ≠ 0 ∧
        (newEpoch + ((readNs key).toNat - nowNs.toNat) ≤
            oldEpoch + droppedNs savedNs durationS nowNs + 1 ∨
          newEpoch + (2 ^ 64 - 1) ≤ oldEpoch + savedNs.toNat + durationS.toNat * 10 ^ 9 + 1) := by
  rw [restored_ends_iff hd hrow hread]
  by_cases hlive : blockUntil savedNs durationS ≤ nowNs
  · simp only [hlive, true_or, or_true]
  · refine or_congr_right (or_congr_right (and_congr_right fun hleft => ?_))
    exact restored_in_time_iff hread hlive hd hleft

/-- If the machine had been up for a second when the block was saved, and the clock can hold its end,
a block that is restored after a reboot outlives its end. -/
theorem restored_outlives_end (hd : durationS ≠ 0)
    (hrow : store[key]? = some (savedRow savedNs durationS reason origin updatedNs))
    (hread : nowNs ≤ readNs key) (hstatic : reason ≠ rules.BLACKLIST.toUInt8)
    (hlive : nowNs < blockUntil savedNs durationS) (hup : 10 ^ 9 < savedNs.toNat)
    (hfits : savedNs.toNat + durationS.toNat * 10 ^ 9 < 2 ^ 64)
    (hboot : oldEpoch + savedNs.toNat ≤ newEpoch) :
    ∃ e x, loadPersistedRules store nowNs readNs .empty key = some e ∧
      oldEpoch + savedNs.toNat + durationS.toNat * 10 ^ 9 < x ∧
      EffectiveReal newEpoch e.blockedUntilNs x := by
  by_contra hnever
  push Not at hnever
  have hlive' : ¬ blockUntil savedNs durationS ≤ nowNs := UInt64.not_le.2 hlive
  obtain ⟨e, he, huntil⟩ : ∃ e, loadPersistedRules store nowNs readNs .empty key = some e ∧ _ :=
      restored_savedRow hd hrow hstatic hlive'
  have hend := hnever e _ he (Nat.lt_succ_self _)
  obtain ⟨htimed, hle⟩ := not_or.1 hend
  rw [huntil] at htimed hle
  have hleft : secondsLeft savedNs durationS nowNs ≠ 0 := fun hzero => htimed (if_pos hzero)
  have hstored : (blockUntil savedNs durationS).toNat = _ := toNat_blockUntil hd
  have hsecond : (1000000000 : UInt64).toNat = 10 ^ 9 := rfl
  have hsec : (secondsLeft savedNs durationS nowNs).toNat =
      ((blockUntil savedNs durationS).toNat - nowNs.toNat) / 10 ^ 9 := by
    rw [secondsLeft, UInt64.toNat_div, UInt64.toNat_saturatingSub, hsecond]
  rw [toNat_blockUntil hleft, hsec] at hle
  rw [UInt64.le_iff_toNat_le] at hread
  rw [UInt64.lt_iff_toNat_lt] at hlive
  omega

end Reboot

/-- Saved half a second after the boot for a minute; the next boot begins 0.2 seconds later, and 0.6
seconds into it the daemon starts. The block is restored with 59 seconds and over in time. -/
theorem reboot_keeps_end_quick_boot :
    ∃ e, loadPersistedRules
        ((∅ : RuleStore).insert (.fromIpv4 1) (savedRow 500000000 60 6 .api 500000000))
        600000000 (fun _ => 600000000) .empty (.fromIpv4 1) = some e ∧
      EffectiveReal 700000000 e.blockedUntilNs 60000000000 ∧
      ∀ x, 0 + (500000000 : UInt64).toNat + (60 : UInt64).toNat * 10 ^ 9 < x →
        ¬ EffectiveReal 700000000 e.blockedUntilNs x := by
  have hrow : ((∅ : RuleStore).insert (.fromIpv4 1) (savedRow 500000000 60 6 .api 500000000))[
      IpKey.fromIpv4 1]? = some (savedRow 500000000 60 6 .api 500000000) := by
    simp
  have hends : ∀ e, loadPersistedRules
        ((∅ : RuleStore).insert (.fromIpv4 1) (savedRow 500000000 60 6 .api 500000000))
        600000000 (fun _ => 600000000) .empty (.fromIpv4 1) = some e →
      ∀ x, 0 + (500000000 : UInt64).toNat + (60 : UInt64).toNat * 10 ^ 9 < x →
        ¬ EffectiveReal 700000000 e.blockedUntilNs x := by
    refine ((reboot_keeps_end ?_ hrow ?_).2 (.inr (.inr ⟨?_, .inl ?_⟩))).1
    · decide
    · exact UInt64.le_rfl
    · decide
    · decide
  exact ⟨_, rfl, .inr (by decide), hends _ rfl⟩

/-- Saved a thousand seconds after the boot for a minute; ten seconds later the next boot begins, and
after another five the daemon starts. The block is still in force a thousand seconds later. -/
theorem reboot_extends_block :
    ∃ e, loadPersistedRules
        ((∅ : RuleStore).insert (.fromIpv4 1) (savedRow 1000000000000 60 6 .api 1000000000000))
        5000000000 (fun _ => 5000000000) .empty (.fromIpv4 1) = some e ∧
      EffectiveReal 1010000000000 e.blockedUntilNs 2000000000000 ∧
      0 + (1000000000000 : UInt64).toNat + (60 : UInt64).toNat * 10 ^ 9 < 2000000000000 :=
  ⟨_, rfl, .inr (by decide), by decide⟩

end EShield.Node
