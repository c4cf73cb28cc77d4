import EShield.Node.Proofs.ReloadAtomicProofs
import EShield.Node.Proofs.ReloadProofs
import EShield.Node.Proofs.RuleSetProofs

/-!
# Static and dynamic blocks

An address has one entry in BLACKLIST, which both the static list of the file and the API write. What
a reload knows of the two parts is the reason of the entry and the address's row in the store.
-/

namespace EShield.Node

open Attempt Checks ControlPlane Ebpf Exec

/-! ## The static list of a file -/

/-- The address is in the static blacklist of the file. -/
def InStaticList (config : Config) (key : IpKey) : Prop :=
  ∃ ip ∈ config.blacklist, parseIpOrCidr ip = .ok key

theorem mem_configBlacklist {config : Config} {static : List IpKey}
    (h : configBlacklist config = .ok static) (key : IpKey) :
    key ∈ static ↔ InStaticList config key := by
  unfold configBlacklist at h
  cases hkeys : config.blacklist.mapM parseIpOrCidr with
  | error e =>
    rw [hkeys] at h
    cases h
  | ok keys =>
    rw [hkeys] at h
    cases h
    rw [List.mem_dedup]
    constructor
    · intro hkey
      exact mapM_eq_ok_mem_result hkeys hkey
    · rintro ⟨ip, hip, hparse⟩
      exact mapM_eq_ok_of_mem hkeys hip hparse

/-! ## The entry of one address -/

/-- What remains of the entry of an address that leaves the static list. -/
def leftEntry (prev : Option BlockEntry) : Option BlockEntry :=
  prev.filter fun entry => entry.blockReason ≠ rules.BLACKLIST.toUInt8

theorem leftEntry_some (entry : BlockEntry) :
    leftEntry (some entry) =
      if entry.blockReason = rules.BLACKLIST.toUInt8 then none else some entry := by
  unfold leftEntry
  rw [Option.filter_some]
  by_cases hreason : entry.blockReason = rules.BLACKLIST.toUInt8
  · simp [hreason]
  · simp [hreason]

theorem removeStatic_apply (new : List IpKey) (blacklist : LruHashMap IpKey BlockEntry)
    (key k : IpKey) :
    removeStatic new blacklist key k =
      if key = k ∧ k ∉ new then leftEntry (blacklist k) else blacklist k := by
  unfold removeStatic
  by_cases hk : key = k
  · subst hk
    by_cases hnew : key ∈ new
    · simp [hnew]
    · rw [if_neg hnew, if_pos ⟨rfl, hnew⟩]
      cases hentry : blacklist key with
      | none => exact hentry
      | some entry =>
        rw [leftEntry_some]
        by_cases hreason : entry.blockReason = rules.BLACKLIST.toUInt8
        · simp [hreason]
        · simp [hreason, hentry]
  · rw [if_neg (fun h : key = k ∧ k ∉ new => hk h.1)]
    by_cases hnew : key ∈ new
    · rw [if_pos hnew]
    · rw [if_neg hnew]
      cases blacklist key with
      | none => rfl
      | some entry =>
        dsimp only
        split
        · exact LruHashMap.remove_of_ne _ (Ne.symm hk)
        · rfl

theorem leftEntry_leftEntry (prev : Option BlockEntry) :
    leftEntry (leftEntry prev) = leftEntry prev := by
  unfold leftEntry
  rw [Option.filter_filter]
  simp

theorem foldl_removeStatic (new keys : List IpKey) (blacklist : LruHashMap IpKey BlockEntry)
    (k : IpKey) :
    keys.foldl (removeStatic new) blacklist k =
      if k ∈ keys ∧ k ∉ new then leftEntry (blacklist k) else blacklist k := by
  induction keys generalizing blacklist with
  | nil => simp
  | cons key keys ih =>
    rw [List.foldl_cons, ih, removeStatic_apply]
    by_cases hnew : k ∈ new
    · simp [hnew]
    · by_cases hk : key = k
      · subst hk
        simp [hnew, leftEntry_leftEntry]
      · simp [hnew, hk, Ne.symm hk]

theorem foldl_addStatic (current keys : List IpKey) (blacklist : LruHashMap IpKey BlockEntry)
    (k : IpKey) :
    keys.foldl (addStatic current) blacklist k =
      if k ∈ keys ∧ k ∉ current then some staticEntry else blacklist k := by
  induction keys generalizing blacklist with
  | nil => simp
  | cons key keys ih =>
    rw [List.foldl_cons, ih]
    unfold addStatic
    by_cases hcurrent : k ∈ current
    · by_cases hk : key = k
      · subst hk
        simp [hcurrent]
      · by_cases hkey : key ∈ current
        · simp [hcurrent, hkey]
        · simp [hcurrent, hkey, LruHashMap.insert_of_ne _ _ (Ne.symm hk)]
    · by_cases hk : key = k
      · subst hk
        simp [hcurrent]
      · by_cases hkey : key ∈ current
        · simp [hcurrent, hkey, Ne.symm hk]
        · simp [hcurrent, hkey, Ne.symm hk, LruHashMap.insert_of_ne _ _ (Ne.symm hk)]

/-- An address that joins the list gets a fresh entry, whatever it had; one that leaves it loses an
entry that still has the reason of the list; the others keep theirs. -/
theorem changeStatic_apply (current new : List IpKey) (blacklist : LruHashMap IpKey BlockEntry)
    (k : IpKey) :
    changeStatic current new blacklist k =
      if k ∈ new then if k ∈ current then blacklist k else some staticEntry
      else if k ∈ current then leftEntry (blacklist k) else blacklist k := by
  unfold changeStatic
  rw [foldl_addStatic, foldl_removeStatic]
  by_cases hnew : k ∈ new
  · by_cases hcurrent : k ∈ current
    · simp [hnew, hcurrent]
    · simp [hnew, hcurrent]
  · simp [hnew]

/-! ## BLACKLIST across a reload -/

section Reload

variable {csv : CsvFiles} {config : Config} {insertFails : Option Nat} {s t : ControlPlane}

/-- The parts before the static blacklist pass. -/
def ReachesBlacklist (config : Config) (s : ControlPlane) : Prop :=
  (∃ entries, expandProjects config.protectionProjects = .ok entries) ∧
    ∀ new, configWhitelist config = .ok new →
      Possible (whitelistTries s.maps) (whitelistChanges s.whitelist new)

theorem blocks_of_applied (hout : ReloadOutcome csv config insertFails s (.ok (), t)) :
    ∃ static, configBlacklist config = .ok static ∧
      t.maps.blacklist = changeStatic s.blacklist static s.maps.blacklist ∧
      t.blacklist = static ∧ t.store = s.store := by
  cases hout with
  | applied hentries hnew hpossible hstatic => exact ⟨_, hstatic, rfl, rfl, rfl⟩

/-- A failure leaves the blocks alone, unless it comes behind a static list with other members. -/
theorem blocks_of_failed {e : String} (hout : ReloadOutcome csv config insertFails s (.error e, t))
    (hsame : ReachesBlacklist config s → ∀ key, InStaticList config key ↔ key ∈ s.blacklist) :
    t.maps.blacklist = s.maps.blacklist ∧ (∀ key, key ∈ t.blacklist ↔ key ∈ s.blacklist) ∧
      t.store = s.store := by
  have hreached : ∀ entries new static, expandProjects config.protectionProjects = .ok entries →
      configWhitelist config = .ok new →
      Possible (whitelistTries s.maps) (whitelistChanges s.whitelist new) →
      configBlacklist config = .ok static → ∀ key, key ∈ static ↔ key ∈ s.blacklist := by
    intro entries new static hentries hnew hpossible hstatic key
    rw [mem_configBlacklist hstatic]
    refine hsame ⟨⟨entries, hentries⟩, fun new' hnew' => ?_⟩ key
    rw [hnew] at hnew'
    cases hnew'
    exact hpossible
  cases hout with
  | tooManyEntries => exact ⟨rfl, fun _ => Iff.rfl, rfl⟩
  | prefixAbsent => exact ⟨rfl, fun _ => Iff.rfl, rfl⟩
  | listUnreadable hentries hnew hpossible hstatic =>
    have hkeys := hreached _ _ _ hentries hnew hpossible hstatic
    exact ⟨changeStatic_of_same hkeys _, hkeys, rfl⟩
  | trieFull hentries hnew hpossible hstatic =>
    have hkeys := hreached _ _ _ hentries hnew hpossible hstatic
    exact ⟨changeStatic_of_same hkeys _, hkeys, rfl⟩

/-- The persisted rules add the rows of the store to BLACKLIST. -/
theorem blocks_of_loadPersisted (nowNs : UInt64) (readNs : IpKey → UInt64) (s : ControlPlane) :
    (loadPersisted nowNs readNs s).2.maps.blacklist =
        loadPersistedRules s.store nowNs readNs s.maps.blacklist ∧
      (loadPersisted nowNs readNs s).2.blacklist = s.blacklist ∧
      (loadPersisted nowNs readNs s).2.store = s.store := by
  have hview := congrArg (fun t : ControlPlane => (t.maps.blacklist, t.blacklist, t.store))
    (outsideRules_loadPersisted nowNs readNs s)
  obtain ⟨hmap, hrest⟩ := Prod.mk.inj hview
  obtain ⟨hlist, hstore⟩ := Prod.mk.inj hrest
  exact ⟨hmap, hlist, hstore⟩

end Reload

/-! ## Runs -/

/-- A block through the API, written to the map when the clock showed `mapNs`. -/
structure ApiBlock where
  key : IpKey
  durationS : UInt64
  mapNs : UInt64
  deriving DecidableEq, Repr

/-- The node with what has been asked for: the file applied last and the API blocks so far. -/
structure BlockRun where
  node : ControlPlane
  config : Config
  blocks : List ApiBlock := []
  clockNs : UInt64 := 0

/-- The API blocks and the reloads; `endNs` is the clock when the reload has ended. -/
inductive BlockEvent where
  | block (key : IpKey) (durationS : UInt64) (clock : BlockClock)
  | reload (env : ReloadEnv) (file : Except String Config) (endNs : UInt64)

/-- The run after `block_ip_key` by the API. -/
def BlockRun.blocked (r : BlockRun) (key : IpKey) (durationS : UInt64) (clock : BlockClock) :
    BlockRun :=
  { r with
    node :=
      { r.node with
        toControlState :=
          blockIpKey r.node.toControlState key durationS rules.API_BLOCK.toUInt8 .api clock }
    blocks := { key, durationS, mapNs := clock.mapNs } :: r.blocks
    clockNs := clock.updatedNs }

def blockStep (r : BlockRun) : BlockEvent → Option BlockRun
  | .block key durationS clock => some (r.blocked key durationS clock)
  | .reload env file endNs =>
    match file, reloadConfigFile env file r.node with
    | .ok config, (.ok (), node) => some { r with node, config, clockNs := endNs }
    | _, (_, node) => some { r with node, clockNs := endNs }

/-- The operations do not overlap and the clock does not run backwards. -/
def InOrder (r : BlockRun) : BlockEvent → Prop
  | .block _ _ clock =>
    r.clockNs ≤ clock.mapNs ∧ clock.mapNs ≤ clock.rowNs ∧ clock.rowNs ≤ clock.updatedNs
  | .reload env _ endNs =>
    r.clockNs ≤ env.nowNs ∧ ∀ key, env.nowNs ≤ env.readNs key ∧ env.readNs key ≤ endNs

namespace BlockRun

/-- An API block of the address has not expired at `t`. -/
def ApiBlocked (r : BlockRun) (key : IpKey) (t : UInt64) : Prop :=
  ∃ b ∈ r.blocks, b.key = key ∧ Reaches b.mapNs b.durationS t

/-- The API has blocked the address for good. -/
def ApiPermanent (r : BlockRun) (key : IpKey) : Prop :=
  ∃ b ∈ r.blocks, b.key = key ∧ b.durationS = 0

/-- From now on an address is blocked exactly by the static list or by the API. -/
def Exact (r : BlockRun) : Prop :=
  ∀ t, r.clockNs ≤ t → ∀ key,
    Blacklisted r.node.maps.blacklist key t ↔ InStaticList r.config key ∨ r.ApiBlocked key t

/-- The expiry with which the row comes back. -/
def refreshedUntil (row : BlacklistRow) (env : ReloadEnv) (key : IpKey) : UInt64 :=
  blockUntil (env.readNs key) (row.blockedUntilNs.saturatingSub env.nowNs / 1000000000)

/-- What the two parts of an entry have left of each other when the file is applied: an address that
leaves the static list has no API block left if its entry has the reason of the list, and a permanent
one if the entry has that of the API; and the row of an address outside the list comes back with at
least a whole second and no later than the API blocks of the address. -/
structure Separable (r : BlockRun) (env : ReloadEnv) (config : Config) (endNs : UInt64) : Prop where
  leaves : ∀ key entry, InStaticList r.config key → ¬ InStaticList config key →
    r.node.maps.blacklist key = some entry →
      if entry.blockReason = rules.BLACKLIST.toUInt8 then ¬ r.ApiBlocked key endNs
      else r.ApiPermanent key
  refreshed : ∀ key row, ¬ InStaticList config key → r.node.store[key]? = some row →
    row.blockedUntilNs ≠ BLOCK_PERMANENT → env.nowNs < row.blockedUntilNs →
      r.ApiPermanent key ∨ env.nowNs.toNat + 10 ^ 9 ≤ row.blockedUntilNs.toNat ∧
        ∃ b ∈ r.blocks, b.key = key ∧ refreshedUntil row env key ≤ blockUntil b.mapNs b.durationS

end BlockRun

/-- The condition on a reload: its file finds the two parts separable if it is applied, and has the
static list of before if it fails behind the static list. -/
def KeepsApart (r : BlockRun) : BlockEvent → Prop
  | .block .. => True
  | .reload env file endNs =>
    ∀ config, acceptedFile env.host file = .ok config →
      (Applies env.csv config env.insertFails r.node → r.Separable env config endNs) ∧
        (¬ Applies env.csv config env.insertFails r.node → ReachesBlacklist config r.node →
          ∀ key, InStaticList config key ↔ InStaticList r.config key)

/-! ## What holds of every state -/

/-- An address of the static list has a permanent entry; while that has the reason of the list, the
address has no row that would come back. Of the other addresses BLACKLIST has the API blocks. -/
structure BlockRun.Inv (r : BlockRun) : Prop where
  tracked : ∀ key, key ∈ r.node.blacklist ↔ InStaticList r.config key
  static : ∀ key, InStaticList r.config key →
    ∃ entry, r.node.maps.blacklist key = some entry ∧ entry.blockedUntilNs = BLOCK_PERMANENT ∧
      (entry.blockReason = rules.BLACKLIST.toUInt8 →
        ∀ row, r.node.store[key]? = some row → row.Expired r.clockNs)
  dynamic : ∀ key, ¬ InStaticList r.config key → ∀ t, r.clockNs ≤ t →
    (Blacklisted r.node.maps.blacklist key t ↔ r.ApiBlocked key t)
  rows : ∀ key row, r.node.store[key]? = some row →
    row.blockReason = rules.API_BLOCK.toUInt8 ∧
      (row.blockedUntilNs = BLOCK_PERMANENT → r.ApiPermanent key)

theorem BlockRun.Inv.exact {r : BlockRun} (h : r.Inv) : r.Exact := by
  intro t ht key
  by_cases hstatic : InStaticList r.config key
  · obtain ⟨entry, hentry, hperm, -⟩ := h.static key hstatic
    exact ⟨fun _ => .inl hstatic, fun _ => ⟨entry, hentry, .inl hperm⟩⟩
  · rw [h.dynamic key hstatic t ht]
    exact ⟨.inr, fun hor => hor.resolve_left hstatic⟩

theorem BlacklistRow.Expired.mono {row : BlacklistRow} {nowNs t : UInt64} (h : row.Expired nowNs)
    (hle : nowNs ≤ t) : row.Expired t := ⟨h.1, h.2.trans hle⟩

theorem BlockRun.ApiPermanent.blocked {r : BlockRun} {key : IpKey} (h : r.ApiPermanent key)
    (t : UInt64) : r.ApiBlocked key t := by
  obtain ⟨b, hb, hkey, hzero⟩ := h
  exact ⟨b, hb, hkey, .inl hzero⟩

/-! ## An API block -/

section Block

variable {r : BlockRun} {key : IpKey} {durationS : UInt64} {clock : BlockClock}

theorem apiBlocked_blocked {k : IpKey} {t : UInt64} :
    (r.blocked key durationS clock).ApiBlocked k t ↔
      r.ApiBlocked k t ∨ (key = k ∧ Reaches clock.mapNs durationS t) := by
  unfold BlockRun.ApiBlocked BlockRun.blocked
  simp only [List.mem_cons, exists_eq_or_imp]
  exact or_comm

theorem store_blocked (k : IpKey) :
    (r.blocked key durationS clock).node.store[k]? =
      if key = k then
        some
          { blockedUntilNs := blockUntil clock.rowNs durationS
            blockReason := rules.API_BLOCK.toUInt8
            firstSeenNs := clock.rowNs
            origin := .api
            lastUpdatedNs := clock.updatedNs }
      else r.node.store[k]? :=
  RuleStore.getElem?_saveBlacklist _ _ _ _ _ _ _ _

theorem blacklist_blocked_of_ne {k : IpKey} (h : key ≠ k) :
    (r.blocked key durationS clock).node.maps.blacklist k = r.node.maps.blacklist k :=
  LruHashMap.insert_of_ne _ _ (Ne.symm h)

/-- A block merged over a permanent entry leaves it permanent, with the reason of the API. -/
theorem merge_over_permanent {entry : BlockEntry} (hperm : entry.blockedUntilNs = BLOCK_PERMANENT)
    (nowNs untilNs : UInt64) :
    (mergeBlockEntry (some entry) nowNs untilNs rules.API_BLOCK.toUInt8
        (isExplicit rules.API_BLOCK.toUInt8)).blockedUntilNs = BLOCK_PERMANENT ∧
      (mergeBlockEntry (some entry) nowNs untilNs rules.API_BLOCK.toUInt8
        (isExplicit rules.API_BLOCK.toUInt8)).blockReason = rules.API_BLOCK.toUInt8 := by
  have heff : EffectiveAt entry.blockedUntilNs nowNs := .inl hperm
  constructor
  · rw [(mergeBlockEntry_of_effective _ _ _ heff).1, hperm, laterUntil_permanent]
  · have hexplicit : isExplicit rules.API_BLOCK.toUInt8 = true := by decide
    simp only [mergeBlockEntry, if_pos heff, hexplicit, if_true]

theorem apiReason_ne : rules.API_BLOCK.toUInt8 ≠ rules.BLACKLIST.toUInt8 := by decide

theorem inv_block (h : r.Inv) (horder : InOrder r (.block key durationS clock)) :
    (r.blocked key durationS clock).Inv := by
  obtain ⟨hmap, hrow, hupdated⟩ := horder
  have hclock : r.clockNs ≤ clock.updatedNs := hmap.trans (hrow.trans hupdated)
  refine ⟨h.tracked, fun k hk => ?_, fun k hk t ht => ?_, fun k row hkrow => ?_⟩
  · obtain ⟨entry, hentry, hperm, hrows⟩ := h.static k hk
    by_cases hkey : key = k
    · subst hkey
      obtain ⟨hperm', hreason⟩ := merge_over_permanent hperm clock.mapNs
        (blockUntil clock.mapNs durationS)
      refine ⟨_, LruHashMap.insert_self _ _ _, ?_, ?_⟩
      · rw [hentry]
        exact hperm'
      · rw [hentry, hreason]
        exact fun heq => absurd heq apiReason_ne
    · refine ⟨entry, ?_, hperm, fun hreason row hkrow => ?_⟩
      · exact (blacklist_blocked_of_ne hkey).trans hentry
      · rw [store_blocked, if_neg hkey] at hkrow
        exact (hrows hreason row hkrow).mono hclock
  · rw [apiBlocked_blocked, ← h.dynamic k hk t (hclock.trans ht), ← effectiveAt_blockUntil]
    exact blacklisted_mergeInto ((hrow.trans hupdated).trans ht)
  · rw [store_blocked] at hkrow
    by_cases hkey : key = k
    · rw [if_pos hkey] at hkrow
      cases hkrow
      refine ⟨rfl, fun hperm => ⟨_, List.mem_cons_self, hkey, ?_⟩⟩
      by_contra hzero
      exact blockUntil_ne_permanent hzero hperm
    · rw [if_neg hkey] at hkrow
      obtain ⟨hreason, hpermanent⟩ := h.rows k row hkrow
      refine ⟨hreason, fun hperm => ?_⟩
      obtain ⟨b, hb, hb'⟩ := hpermanent hperm
      exact ⟨b, List.mem_cons_of_mem _ hb, hb'⟩

end Block

/-! ## A reload -/

section Rows

variable {store : RuleStore} {nowNs : UInt64} {readNs : IpKey → UInt64}
  {blacklist : LruHashMap IpKey BlockEntry} {k : IpKey} {row : BlacklistRow}

theorem loadPersistedRules_of_expired (h : ∀ row, store[k]? = some row → row.Expired nowNs) :
    loadPersistedRules store nowNs readNs blacklist k = blacklist k := by
  cases hrow : store[k]? with
  | none => exact loadPersistedRules_of_no_row hrow _ _ _
  | some row =>
    rw [loadPersistedRules_of_row hrow]
    exact if_pos (.inr (h row hrow))

/-- The duration that a row is reloaded with. -/
def reloadedS (row : BlacklistRow) (nowNs : UInt64) : UInt64 :=
  if row.blockedUntilNs = BLOCK_PERMANENT then 0
  else row.blockedUntilNs.saturatingSub nowNs / 1000000000

theorem loadPersistedRules_of_live (hrow : store[k]? = some row)
    (hreason : row.blockReason = rules.API_BLOCK.toUInt8) (hlive : ¬ row.Expired nowNs) :
    loadPersistedRules store nowNs readNs blacklist k =
      some (mergeBlockEntry (blacklist k) (readNs k) (blockUntil (readNs k) (reloadedS row nowNs))
        rules.API_BLOCK.toUInt8 (isExplicit rules.API_BLOCK.toUInt8)) := by
  have hstatic : row.blockReason ≠ rules.BLACKLIST.toUInt8 := hreason ▸ apiReason_ne
  rw [loadPersistedRules_of_row hrow, reloadedEntry_of_live hstatic hlive, hreason]
  rfl

/-- A permanent entry stays permanent, and takes the reason of the API from a row that comes back. -/
theorem loaded_over_permanent {entry : BlockEntry} {endNs : UInt64}
    (hrows : ∀ row, store[k]? = some row → row.blockReason = rules.API_BLOCK.toUInt8)
    (hentry : blacklist k = some entry) (hperm : entry.blockedUntilNs = BLOCK_PERMANENT)
    (hend : nowNs ≤ endNs) :
    ∃ entry', loadPersistedRules store nowNs readNs blacklist k = some entry' ∧
      entry'.blockedUntilNs = BLOCK_PERMANENT ∧
      (entry'.blockReason = rules.BLACKLIST.toUInt8 →
        ∀ row, store[k]? = some row → row.Expired endNs) := by
  by_cases hexpired : ∀ row, store[k]? = some row → row.Expired nowNs
  · refine ⟨entry, (loadPersistedRules_of_expired hexpired).trans hentry, hperm, fun _ row hrow => ?_⟩
    exact (hexpired row hrow).mono hend
  · obtain ⟨row, hlive⟩ := not_forall.1 hexpired
    obtain ⟨hrow, hlive⟩ := Classical.not_imp.1 hlive
    obtain ⟨hperm', hreason⟩ := merge_over_permanent hperm (readNs k)
      (blockUntil (readNs k) (reloadedS row nowNs))
    refine ⟨_, loadPersistedRules_of_live hrow (hrows row hrow) hlive, ?_, ?_⟩
    · rw [hentry]
      exact hperm'
    · rw [hentry, hreason]
      exact fun heq => absurd heq apiReason_ne

end Rows

section Applied

variable {r : BlockRun} {env : ReloadEnv} {config : Config} {endNs : UInt64} {static : List IpKey}

/-- BLACKLIST when the file has been applied, before the rows come back. -/
def BlockRun.changed (r : BlockRun) (static : List IpKey) : LruHashMap IpKey BlockEntry :=
  changeStatic r.node.blacklist static r.node.maps.blacklist

/-- An address of the new list. -/
theorem changed_of_static (h : r.Inv) {k : IpKey} (hk : k ∈ static) :
    ∃ entry, r.changed static k = some entry ∧ entry.blockedUntilNs = BLOCK_PERMANENT := by
  unfold BlockRun.changed
  rw [changeStatic_apply, if_pos hk]
  by_cases hcurrent : k ∈ r.node.blacklist
  · obtain ⟨entry, hentry, hperm, -⟩ := h.static k ((h.tracked k).1 hcurrent)
    rw [if_pos hcurrent]
    exact ⟨entry, hentry, hperm⟩
  · rw [if_neg hcurrent]
    exact ⟨staticEntry, rfl, rfl⟩

/-- An address that leaves the list. -/
theorem loaded_of_leaving (h : r.Inv) (hcond : r.Separable env config endNs)
    (hstart : r.clockNs ≤ env.nowNs) (hend : env.nowNs ≤ endNs)
    {k : IpKey} (hold : InStaticList r.config k) (hnew : ¬ InStaticList config k)
    (hchanged : r.changed static k = leftEntry (r.node.maps.blacklist k)) {t : UInt64}
    (ht : endNs ≤ t) :
    Blacklisted (loadPersistedRules r.node.store env.nowNs env.readNs (r.changed static)) k t ↔
      r.ApiBlocked k t := by
  obtain ⟨entry, hentry, hperm, hrows⟩ := h.static k hold
  have hleaves := hcond.leaves k entry hold hnew hentry
  rw [hentry, leftEntry_some] at hchanged
  by_cases hreason : entry.blockReason = rules.BLACKLIST.toUInt8
  · rw [if_pos hreason] at hleaves hchanged
    have hexpired : ∀ row, r.node.store[k]? = some row → row.Expired env.nowNs :=
      fun row hrow => (hrows hreason row hrow).mono hstart
    have hnone : ¬ r.ApiBlocked k t := by
      rintro ⟨b, hb, hkey, hreach⟩
      refine hleaves ⟨b, hb, hkey, ?_⟩
      exact effectiveAt_blockUntil.1 ((effectiveAt_blockUntil.2 hreach).anti ht)
    unfold Blacklisted
    rw [loadPersistedRules_of_expired hexpired, hchanged]
    exact ⟨fun ⟨e, he, _⟩ => (by cases he), fun hblocked => absurd hblocked hnone⟩
  · rw [if_neg hreason] at hleaves hchanged
    have hkept : ∃ entry',
        loadPersistedRules r.node.store env.nowNs env.readNs (r.changed static) k = some entry' ∧
          entry'.blockedUntilNs = BLOCK_PERMANENT ∧ _ :=
      loaded_over_permanent (fun row hrow => (h.rows k row hrow).1) hchanged hperm hend
    obtain ⟨entry', hloaded, hperm', -⟩ := hkept
    exact ⟨fun _ => hleaves.blocked t, fun _ => ⟨entry', hloaded, .inl hperm'⟩⟩

/-- An address outside both lists. -/
theorem loaded_of_dynamic (h : r.Inv) (hcond : r.Separable env config endNs)
    (hstart : r.clockNs ≤ env.nowNs)
    (hread : ∀ key, env.nowNs ≤ env.readNs key ∧ env.readNs key ≤ endNs)
    {k : IpKey} (hold : ¬ InStaticList r.config k) (hnew : ¬ InStaticList config k)
    (hchanged : r.changed static k = r.node.maps.blacklist k) {t : UInt64} (ht : endNs ≤ t) :
    Blacklisted (loadPersistedRules r.node.store env.nowNs env.readNs (r.changed static)) k t ↔
      r.ApiBlocked k t := by
  obtain ⟨hbegin, hend⟩ := hread k
  have hbefore := h.dynamic k hold t (hstart.trans (hbegin.trans (hend.trans ht)))
  by_cases hexpired : ∀ row, r.node.store[k]? = some row → row.Expired env.nowNs
  · unfold Blacklisted at hbefore ⊢
    rw [loadPersistedRules_of_expired hexpired, hchanged]
    exact hbefore
  · obtain ⟨row, hlive⟩ := not_forall.1 hexpired
    obtain ⟨hrow, hlive⟩ := Classical.not_imp.1 hlive
    obtain ⟨hreason, hpermanent⟩ := h.rows k row hrow
    have hreload : EffectiveAt (blockUntil (env.readNs k) (reloadedS row env.nowNs)) t →
        r.ApiBlocked k t := by
      intro heff
      by_cases hperm : row.blockedUntilNs = BLOCK_PERMANENT
      · exact (hpermanent hperm).blocked t
      · have hleft : env.nowNs < row.blockedUntilNs :=
          not_le.1 fun hle => hlive ⟨hperm, hle⟩
        rcases hcond.refreshed k row hnew hrow hperm hleft with hapi | ⟨hsecond, b, hb, hkey, hle⟩
        · exact hapi.blocked t
        · rw [reloadedS, if_neg hperm] at heff
          obtain ⟨hne, -⟩ := within_blockUntil (UInt64.le_iff_toNat_le.1 hbegin) hsecond
          have hlt := heff.resolve_left (blockUntil_ne_permanent hne)
          exact ⟨b, hb, hkey, effectiveAt_blockUntil.1 (.inr (lt_of_lt_of_le hlt hle))⟩
    unfold Blacklisted at hbefore ⊢
    rw [loadPersistedRules_of_live hrow hreason hlive, hchanged]
    simp only [Option.some.injEq, exists_eq_left']
    rw [effectiveAt_mergeBlockEntry (hend.trans ht), hbefore]
    exact ⟨fun hor => hor.elim id hreload, .inl⟩

theorem inv_applied (h : r.Inv) (hcond : r.Separable env config endNs)
    (hstart : r.clockNs ≤ env.nowNs)
    (hread : ∀ key, env.nowNs ≤ env.readNs key ∧ env.readNs key ≤ endNs)
    (hstatic : configBlacklist config = .ok static) {node : ControlPlane}
    (hmap : node.maps.blacklist =
      loadPersistedRules r.node.store env.nowNs env.readNs (r.changed static))
    (hlist : node.blacklist = static) (hstore : node.store = r.node.store) :
    BlockRun.Inv { r with node, config, clockNs := endNs } := by
  have hend : env.nowNs ≤ endNs := (hread (.fromIpv4 0)).1.trans (hread (.fromIpv4 0)).2
  refine ⟨fun key => ?_, fun key hkey => ?_, fun key hkey t ht => ?_, fun key row hrow => ?_⟩
  · rw [hlist]
    exact mem_configBlacklist hstatic key
  · obtain ⟨entry, hentry, hperm⟩ := changed_of_static h ((mem_configBlacklist hstatic key).2 hkey)
    rw [hmap, hstore]
    exact loaded_over_permanent (fun row hrow => (h.rows key row hrow).1) hentry hperm hend
  · have hnew : key ∉ static := fun hmem => hkey ((mem_configBlacklist hstatic key).1 hmem)
    have hchanged := changeStatic_apply r.node.blacklist static r.node.maps.blacklist key
    rw [if_neg hnew] at hchanged
    rw [hmap]
    by_cases hold : InStaticList r.config key
    · rw [if_pos ((h.tracked key).2 hold)] at hchanged
      exact loaded_of_leaving h hcond hstart hend hold hkey hchanged ht
    · rw [if_neg fun hmem => hold ((h.tracked key).1 hmem)] at hchanged
      exact loaded_of_dynamic h hcond hstart hread hold hkey hchanged ht
  · rw [hstore] at hrow
    exact h.rows key row hrow

end Applied

/-- A reload that leaves the blocks alone, at a later time. -/
theorem inv_later {r : BlockRun} (h : r.Inv) {node : ControlPlane} {endNs : UInt64}
    (hmap : node.maps.blacklist = r.node.maps.blacklist)
    (hlist : ∀ key, key ∈ node.blacklist ↔ key ∈ r.node.blacklist)
    (hstore : node.store = r.node.store) (hle : r.clockNs ≤ endNs) :
    BlockRun.Inv { r with node, clockNs := endNs } where
  tracked key := (hlist key).trans (h.tracked key)
  static key hkey := by
    obtain ⟨entry, hentry, hperm, hrows⟩ := h.static key hkey
    rw [hmap, hstore]
    exact ⟨entry, hentry, hperm, fun hreason row hrow => (hrows hreason row hrow).mono hle⟩
  dynamic key hkey t ht := by
    rw [hmap]
    exact h.dynamic key hkey t (hle.trans ht)
  rows key row hrow := h.rows key row (hstore ▸ hrow)

theorem inv_blockReload {r r' : BlockRun} {env : ReloadEnv} {file : Except String Config}
    {endNs : UInt64} (h : r.Inv) (horder : InOrder r (.reload env file endNs))
    (hcond : KeepsApart r (.reload env file endNs))
    (hstep : blockStep r (.reload env file endNs) = some r') : r'.Inv := by
  obtain ⟨hstart, hread⟩ := horder
  have hle : r.clockNs ≤ endNs := hstart.trans ((hread (.fromIpv4 0)).1.trans (hread (.fromIpv4 0)).2)
  cases hfile : acceptedFile env.host file with
  | error e =>
    dsimp only [blockStep] at hstep
    rw [reloadConfigFile_of_refused hfile] at hstep
    have hsame : BlockRun.Inv { r with clockNs := endNs } :=
      inv_later h rfl (fun _ => Iff.rfl) rfl hle
    cases file <;> cases hstep <;> exact hsame
  | ok config =>
    obtain ⟨hseparable, hfails⟩ := hcond config hfile
    rw [file_of_accepted hfile] at hstep hfile
    dsimp only [blockStep] at hstep
    by_cases happlies : Applies env.csv config env.insertFails r.node
    · obtain ⟨t, hout, hrun⟩ := reloadConfigFile_of_applies hfile happlies
      rw [hrun] at hstep
      cases hstep
      obtain ⟨static, hstatic, hmap, hlist, hstore⟩ := blocks_of_applied hout
      obtain ⟨hmap', hlist', hstore'⟩ :=
        blocks_of_loadPersisted env.nowNs env.readNs (replaceSnapshot config t)
      have hmapEnd := hmap'.trans
        (congrArg₂ (fun store bl => loadPersistedRules store env.nowNs env.readNs bl) hstore hmap)
      exact inv_applied h (hseparable happlies) hstart hread hstatic hmapEnd
        (hlist'.trans hlist) (hstore'.trans hstore)
    · obtain ⟨e, t, hout, hrun⟩ := reloadConfigFile_of_not_applies hfile happlies
      rw [hrun] at hstep
      cases hstep
      obtain ⟨hmap, hlist, hstore⟩ := blocks_of_failed hout fun hreached key => by
        rw [hfails happlies hreached key]
        exact (h.tracked key).symm
      exact inv_later h hmap hlist hstore hle

theorem inv_blockStep {r r' : BlockRun} {event : BlockEvent} (h : r.Inv)
    (hcond : InOrder r event ∧ KeepsApart r event) (hstep : blockStep r event = some r') :
    r'.Inv := by
  cases event with
  | block key durationS clock =>
    cases hstep
    exact inv_block h hcond.1
  | reload env file endNs => exact inv_blockReload h hcond.1 hcond.2 hstep

/-- A start with an empty store. -/
theorem inv_blockStart {env : ReloadEnv} {config : Config} {tables : RuleTables}
    {s : ControlPlane} (hstart : startUp env (.ok config) ∅ tables = .ok s) :
    BlockRun.Inv { node := s, config } := by
  obtain ⟨config', t, hfile, hout, rfl⟩ := startUp_outcome hstart
  cases file_of_accepted hfile
  obtain ⟨static, hstatic, hmap, hlist, hstore⟩ := blocks_of_applied hout
  obtain ⟨hmap', hlist', hstore'⟩ := blocks_of_loadPersisted env.nowNs env.readNs t
  have hstoreEnd : (loadPersisted env.nowNs env.readNs t).2.store = ∅ := hstore'.trans hstore
  have hmapEnd : ∀ key, (loadPersisted env.nowNs env.readNs t).2.maps.blacklist key =
      if key ∈ static then some staticEntry else none := by
    intro key
    have hrow : t.store[key]? = none := by
      rw [show t.store = ∅ from hstore]
      rfl
    rw [hmap', loadPersistedRules_of_no_row hrow, hmap, changeStatic_apply]
    simp [fresh, LruHashMap.empty]
  refine ⟨fun key => ?_, fun key hkey => ?_, fun key hkey t' _ => ?_, fun key row hrow => ?_⟩
  · rw [hlist', hlist]
    exact mem_configBlacklist hstatic key
  · refine ⟨staticEntry, ?_, rfl, fun _ row hrow => ?_⟩
    · rw [hmapEnd, if_pos ((mem_configBlacklist hstatic key).2 hkey)]
    · rw [hstoreEnd] at hrow
      cases hrow
  · have hnew : key ∉ static := fun hmem => hkey ((mem_configBlacklist hstatic key).1 hmem)
    constructor
    · rintro ⟨entry, hentry, -⟩
      rw [hmapEnd, if_neg hnew] at hentry
      cases hentry
    · rintro ⟨b, hb, -⟩
      cases hb
  · rw [hstoreEnd] at hrow
    cases hrow

/-- After every run from a start with an empty store in which no reload meets parts that it cannot
tell apart, an address is blocked exactly by the static list or by an API block. -/
theorem static_and_api_blocks_independent {env : ReloadEnv} {config : Config}
    {tables : RuleTables} {s : ControlPlane} {events : List BlockEvent} {r : BlockRun}
    (hstart : startUp env (.ok config) ∅ tables = .ok s)
    (horder : Along blockStep InOrder { node := s, config } events)
    (hcond : Along blockStep KeepsApart { node := s, config } events)
    (hrun : exec blockStep { node := s, config } events = some r) : r.Exact :=
  (exec_invariant (I := BlockRun.Inv) (fun _ _ _ => inv_blockStep) (inv_blockStart hstart)
    (horder.and hcond) hrun).exact

/-- A second in nanoseconds. -/
def secondNs : UInt64 := 1000000000

/-- The surroundings of a reload that takes no time. -/
def envAt (nowNs : UInt64) : ReloadEnv := { plainEnv with nowNs, readNs := fun _ => nowNs }

/-- One reading for the whole call. -/
def clockAt (nowNs : UInt64) : BlockClock := ⟨nowNs, nowNs, nowNs⟩

/-- The file with a static blacklist. -/
def staticFile : Config := { limiterOff with blacklist := ["10.0.0.1"] }

/-- The API blocks an address of the static list for a minute; a reload takes it off the list. -/
def leavingEvents : List BlockEvent :=
  [.block (.fromIpv4 0x0a000001) 60 (clockAt secondNs),
    .reload (envAt (2 * secondNs)) (.ok limiterOff) (2 * secondNs)]

theorem inOrder_block_reload (s : ControlPlane) (config : Config) (key : IpKey)
    (file : Except String Config) :
    Along blockStep InOrder { node := s, config }
      [.block key 60 (clockAt secondNs), .reload (envAt (2 * secondNs)) file (2 * secondNs)] := by
  have hbegin : (0 : UInt64) ≤ secondNs := by decide
  have hnext : secondNs ≤ 2 * secondNs := by decide
  refine ⟨⟨hbegin, le_rfl, le_rfl⟩, fun r hr => ⟨?_, fun _ _ => trivial⟩⟩
  cases hr
  exact ⟨hnext, fun key => ⟨le_rfl, le_rfl⟩⟩

/-- The address is blocked for good although neither part blocks it any more. -/
theorem static_block_becomes_permanent :
    ∃ s r, startUp plainEnv (.ok staticFile) ∅ {} = .ok s ∧
      Along blockStep InOrder { node := s, config := staticFile } leavingEvents ∧
      exec blockStep { node := s, config := staticFile } leavingEvents = some r ∧ ¬ r.Exact := by
  have hview : ((startUp plainEnv (.ok staticFile) ∅ {}).toOption.bind fun s =>
      exec blockStep { node := s, config := staticFile } leavingEvents).map
      (fun r => (r.clockNs, r.config.blacklist, r.blocks,
        decide (Blacklisted r.node.maps.blacklist (.fromIpv4 0x0a000001) (100 * secondNs)))) =
      some (2 * secondNs, [], [⟨.fromIpv4 0x0a000001, 60, secondNs⟩], true) := by
    decide +kernel
  obtain ⟨r, hr, hview⟩ := Option.map_eq_some_iff.1 hview
  obtain ⟨s, hstart, hrun⟩ := Option.bind_eq_some_iff.1 hr
  have hstart' : startUp plainEnv (.ok staticFile) ∅ {} = .ok s := by
    cases hok : startUp plainEnv (.ok staticFile) ∅ {} with
    | error e =>
      rw [hok] at hstart
      cases hstart
    | ok s' =>
      rw [hok] at hstart
      cases hstart
      rfl
  simp only [Prod.mk.injEq, decide_eq_true_eq] at hview
  obtain ⟨hclock, hlist, hblocks, hblacklisted⟩ := hview
  refine ⟨s, r, hstart', inOrder_block_reload _ _ _ _, hrun, fun h => ?_⟩
  have hle : r.clockNs ≤ 100 * secondNs := by
    rw [hclock]
    decide
  rcases (h _ hle _).1 hblacklisted with ⟨ip, hip, -⟩ | ⟨b, hb, -, hreach⟩
  · rw [hlist] at hip
    cases hip
  · rw [hblocks, List.mem_singleton] at hb
    subst hb
    exact absurd hreach (by decide)

/-- The API blocks an address beside the static list for a minute; a reload empties the list. -/
def apartEvents : List BlockEvent :=
  [.block (.fromIpv4 0x0a000002) 60 (clockAt secondNs),
    .reload (envAt (2 * secondNs)) (.ok limiterOff) (2 * secondNs)]

/-- Nothing stands in the way of the file without lists. -/
theorem limiterOff_applies {env : ReloadEnv} {s : ControlPlane} (hfails : env.insertFails = none)
    (hempty : s.whitelist = []) : Applies env.csv limiterOff env.insertFails s := by
  refine ⟨⟨[], rfl⟩, fun new hnew => ?_, [], [], rfl, fun h => ?_⟩
  · cases hnew
    rw [hempty]
    trivial
  · obtain ⟨n, hn, -⟩ := h
    rw [hfails] at hn
    cases hn

/-- After the reload the address of the list is free, and the one of the API still blocked. -/
theorem static_and_api_blocks_independent_minute :
    ∃ s r, startUp plainEnv (.ok staticFile) ∅ {} = .ok s ∧
      Blacklisted s.maps.blacklist (.fromIpv4 0x0a000001) secondNs ∧
      exec blockStep { node := s, config := staticFile } apartEvents = some r ∧ r.Exact ∧
      ¬ Blacklisted r.node.maps.blacklist (.fromIpv4 0x0a000001) (3 * secondNs) ∧
      Blacklisted r.node.maps.blacklist (.fromIpv4 0x0a000002) (3 * secondNs) := by
  obtain ⟨s, hstart, hstore, hwhitelist, hentry⟩ :
      ∃ s, startUp plainEnv (.ok staticFile) ∅ {} = .ok s ∧ s.store = ∅ ∧ s.whitelist = [] ∧
        s.maps.blacklist (.fromIpv4 0x0a000001) = some staticEntry :=
    ⟨_, rfl, rfl, rfl, by decide +kernel⟩
  have hkey : parseIpOrCidr "10.0.0.1" = .ok (.fromIpv4 0x0a000001) := by decide +kernel
  have horder : Along blockStep InOrder { node := s, config := staticFile } apartEvents :=
    inOrder_block_reload s staticFile (.fromIpv4 0x0a000002) (.ok limiterOff)
  have hcond : Along blockStep KeepsApart { node := s, config := staticFile } apartEvents := by
    refine ⟨trivial, fun r₁ hr₁ => ⟨fun config hfile => ?_, fun _ _ => trivial⟩⟩
    cases hr₁
    cases file_of_accepted hfile
    have happlies : Applies (envAt (2 * secondNs)).csv limiterOff (envAt (2 * secondNs)).insertFails
        (BlockRun.blocked { node := s, config := staticFile } (.fromIpv4 0x0a000002) 60
          (clockAt secondNs)).node :=
      limiterOff_applies rfl hwhitelist
    refine ⟨fun _ => ⟨fun key entry hold hnew hmap => ?_, fun key row _ hrow hne hleft => ?_⟩,
      fun hfails => absurd happlies hfails⟩
    · -- the one block of the API is of another address
      obtain ⟨ip, hip, hread⟩ := hold
      cases List.mem_singleton.1 hip
      cases hkey.symm.trans hread
      rw [blacklist_blocked_of_ne (by decide), hentry] at hmap
      cases hmap
      rw [if_pos (by decide)]
      rintro ⟨b, hb, hbkey, -⟩
      cases List.mem_singleton.1 hb
      exact absurd hbkey (by decide)
    · rw [store_blocked] at hrow
      by_cases hkey : IpKey.fromIpv4 0x0a000002 = key
      · subst hkey
        rw [if_pos rfl] at hrow
        cases hrow
        exact .inr ⟨by decide, _, List.mem_cons_self, rfl, by decide⟩
      · rw [if_neg hkey, hstore] at hrow
        cases hrow
  have hview : ((startUp plainEnv (.ok staticFile) ∅ {}).toOption.bind fun s =>
      exec blockStep { node := s, config := staticFile } apartEvents).map
      (fun r => (decide (Blacklisted r.node.maps.blacklist (.fromIpv4 0x0a000001) (3 * secondNs)),
        decide (Blacklisted r.node.maps.blacklist (.fromIpv4 0x0a000002) (3 * secondNs)))) =
      some (false, true) := by
    decide +kernel
  rw [hstart] at hview
  obtain ⟨r, hrun, hview⟩ := Option.map_eq_some_iff.1 hview
  simp only [Prod.mk.injEq, decide_eq_true_eq, decide_eq_false_iff_not] at hview
  exact ⟨s, r, hstart, ⟨staticEntry, hentry, .inl rfl⟩, hrun,
    static_and_api_blocks_independent hstart horder hcond hrun, hview⟩

end EShield.Node
