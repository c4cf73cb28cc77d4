import EShield.Ebpf.Isolation
import EShield.Ebpf.Proofs.StageProofs

/-!
# What the modules keep about a source

Each module reads the settings and the rows of the source that it is asked about, and writes rows of
that source only.
-/

namespace EShield.Ebpf

variable {h : Helpers} {src other : IpKey} {m m' u u' : Maps} {nowNs : UInt64}

/-! ## Maps that are the same for a source -/

namespace SameFor

theorem refl (src : IpKey) (m : Maps) : SameFor src m m := ⟨rfl, rfl, rfl, fun _ => rfl, rfl, rfl⟩

theorem symm (hmu : SameFor src m u) : SameFor src u m where
  settings := hmu.settings.symm
  blacklist := hmu.blacklist.symm
  rateMap := hmu.rateMap.symm
  rateMapPort dport := (hmu.rateMapPort dport).symm
  synProxyConn := hmu.synProxyConn.symm
  connTrack := hmu.connTrack.symm

theorem trans {v : Maps} (hmu : SameFor src m u) (huv : SameFor src u v) : SameFor src m v where
  settings := hmu.settings.trans huv.settings
  blacklist := hmu.blacklist.trans huv.blacklist
  rateMap := hmu.rateMap.trans huv.rateMap
  rateMapPort dport := (hmu.rateMapPort dport).trans (huv.rateMapPort dport)
  synProxyConn := hmu.synProxyConn.trans huv.synProxyConn
  connTrack := hmu.connTrack.trans huv.connTrack

theorem config (hmu : SameFor src m u) : m.config = u.config :=
  (congrArg Maps.config hmu.settings :)

theorem rateLimitCfg (hmu : SameFor src m u) : m.rateLimitCfg = u.rateLimitCfg :=
  (congrArg Maps.rateLimitCfg hmu.settings :)

/-- The statistics and the books about packets are nothing that a source sees. -/
theorem of_core {g : GlobalStats}
    (hcore : m'.core = { m.core with globalStats := g }) : SameFor src m' m where
  settings := (congrArg Maps.settings hcore :)
  blacklist := (congrArg (fun m => (m.blacklist src).map unsampled) hcore :)
  rateMap := (congrArg (fun m => m.rateMap src) hcore :)
  rateMapPort dport := (congrArg (fun m => m.rateMapPort { ip := src, dport := dport }) hcore :)
  synProxyConn := (congrArg (fun m => m.synProxyConn src) hcore :)
  connTrack := (congrArg (fun m => m.connTrack src) hcore :)

/-- The same bookkeeping may be done on both sides. -/
theorem booked {f g : GlobalStats} (hmu : SameFor src m u)
    (hm : m'.core = { m.core with globalStats := f })
    (hu : u'.core = { u.core with globalStats := g }) : SameFor src m' u' :=
  (of_core hm).trans (hmu.trans (of_core hu).symm)

end SameFor

namespace TouchesOnly

theorem refl (src : IpKey) (m : Maps) : TouchesOnly src m m := fun other _ => .refl other m

theorem trans {v : Maps} (hmu : TouchesOnly src m u) (huv : TouchesOnly src u v) :
    TouchesOnly src m v := fun other hne => (huv other hne).trans (hmu other hne)

theorem of_core {g : GlobalStats}
    (hcore : m'.core = { m.core with globalStats := g }) : TouchesOnly src m m' :=
  fun _ _ => .of_core hcore

end TouchesOnly

/-! ## The modules on a packet of the source -/

/-- Two outcomes of a module are the same for a source. -/
def SameResult {A : Type} (src : IpKey) (r r' : A × Maps) : Prop := r.1 = r'.1 ∧ SameFor src r.2 r'.2

/-- What holds wherever the two have one answer holds of both. -/
@[elab_as_elim]
theorem SameResult.elim {A : Type} {P : A × Maps → A × Maps → Prop} {r r' : A × Maps}
    (hr : SameResult src r r') (hP : ∀ a m u, SameFor src m u → P (a, m) (a, u)) : P r r' := by
  obtain ⟨a, m⟩ := r
  obtain ⟨b, u⟩ := r'
  obtain ⟨rfl, hmu⟩ : a = b ∧ SameFor src m u := hr
  exact hP a m u hmu

theorem rateUpdate_same (hmu : SameFor src m u) (htrust : m.config.trustEnabled = 0)
    (updated : RateCounter) : rateUpdate m src updated = rateUpdate u src updated := by
  have htrust' : u.config.trustEnabled = 0 := by rw [← hmu.config, htrust]
  simp [rateUpdate, effectiveThreshold, htrust, htrust', hmu.rateLimitCfg]

/-- A hit finds the entry in force and changes its hit count at most. -/
theorem isBlacklisted_hit {e : BlockEntry} (he : m.blacklist src = some e)
    (heff : EffectiveAt e.blockedUntilNs nowNs) :
    (isBlacklisted m src nowNs).1 = true ∧ SameFor src (isBlacklisted m src nowNs).2 m := by
  unfold isBlacklisted
  rw [he]
  dsimp only
  rw [if_pos heff]
  split
  · have hrow : m.blacklist.insert src { e with hitCount := e.hitCount.saturatingAdd 16 } src =
        some { e with hitCount := e.hitCount.saturatingAdd 16 } := LruHashMap.insert_self _ _ _
    refine ⟨rfl, rfl, ?_, rfl, fun _ => rfl, rfl, rfl⟩
    rw [he]
    exact (congrArg (Option.map unsampled) hrow :)
  · exact ⟨rfl, { SameFor.refl src m with }⟩

theorem isBlacklisted_same (hmu : SameFor src m u) :
    SameResult src (isBlacklisted m src nowNs) (isBlacklisted u src nowNs) := by
  have hrow := hmu.blacklist
  cases hm : m.blacklist src with
  | none =>
    rw [hm] at hrow
    have hu : u.blacklist src = none := Option.map_eq_none_iff.1 hrow.symm
    simp only [isBlacklisted, hm, hu]
    exact ⟨rfl, hmu⟩
  | some e =>
    rw [hm] at hrow
    obtain ⟨e', hu, he⟩ := Option.map_eq_some_iff.1 hrow.symm
    have huntil : e'.blockedUntilNs = e.blockedUntilNs := (congrArg BlockEntry.blockedUntilNs he :)
    by_cases heff : EffectiveAt e.blockedUntilNs nowNs
    · obtain ⟨hm₁, hm₂⟩ := isBlacklisted_hit hm heff
      obtain ⟨hu₁, hu₂⟩ := isBlacklisted_hit hu (by rwa [huntil])
      exact ⟨hm₁.trans hu₁.symm, hm₂.trans (hmu.trans hu₂.symm)⟩
    · have heff' : ¬ EffectiveAt e'.blockedUntilNs nowNs := by rwa [huntil]
      simp only [isBlacklisted, hm, hu, if_neg heff, if_neg heff']
      exact ⟨rfl, { hmu with blacklist := by simp }⟩

/-- The source's counter is the same on both sides, and so is its update. -/
theorem SameFor.counted (hmu : SameFor src m u) (updated : RateCounter) :
    SameFor src { m with rateMap := m.rateMap.insert src updated }
      { u with rateMap := u.rateMap.insert src updated } :=
  { hmu with rateMap := by simp }

theorem SameFor.portCounted (hmu : SameFor src m u) (dport : UInt16) (updated : RateCounter) :
    SameFor src
      { m with rateMapPort := m.rateMapPort.insert { ip := src, dport := dport } updated }
      { u with rateMapPort := u.rateMapPort.insert { ip := src, dport := dport } updated } :=
  { hmu with
    rateMapPort := fun d => by
      by_cases hd : d = dport
      · simp [hd]
      · have hne : RateLimitPortKey.mk src d ≠ { ip := src, dport := dport } :=
          fun heq => hd (congrArg RateLimitPortKey.dport heq)
        simp only [LruHashMap.insert_of_ne _ _ hne]
        exact hmu.rateMapPort d }

theorem updateRateCounter_same (hmu : SameFor src m u) (htrust : m.config.trustEnabled = 0) :
    SameResult src (updateRateCounter m src nowNs) (updateRateCounter u src nowNs) := by
  by_cases htick : msToNs m.rateLimitCfg.tickMs = 0
  · have htick' : msToNs u.rateLimitCfg.tickMs = 0 := by rwa [← hmu.rateLimitCfg]
    simp only [updateRateCounter, if_pos htick, if_pos htick']
    exact ⟨rfl, hmu⟩
  · have htick' : ¬ msToNs u.rateLimitCfg.tickMs = 0 := by rwa [← hmu.rateLimitCfg]
    have hcount : countPacket u.rateLimitCfg (msToNs u.rateLimitCfg.tickMs) nowNs (u.rateMap src) =
        countPacket m.rateLimitCfg (msToNs m.rateLimitCfg.tickMs) nowNs (m.rateMap src) := by
      rw [hmu.rateLimitCfg, hmu.rateMap]
    have hnew := hmu.counted
      (countPacket m.rateLimitCfg (msToNs m.rateLimitCfg.tickMs) nowNs (m.rateMap src))
    simp only [updateRateCounter, if_neg htick, if_neg htick', hcount]
    exact ⟨congrArg some (rateUpdate_same hnew htrust _), hnew⟩

theorem updateRateCounterPort_same (hmu : SameFor src m u) (htrust : m.config.trustEnabled = 0)
    (dport : UInt16) :
    SameResult src (updateRateCounterPort m src dport nowNs)
      (updateRateCounterPort u src dport nowNs) := by
  by_cases htick : msToNs m.rateLimitCfg.tickMs = 0
  · have htick' : msToNs u.rateLimitCfg.tickMs = 0 := by rwa [← hmu.rateLimitCfg]
    simp only [updateRateCounterPort, if_pos htick, if_pos htick']
    exact ⟨rfl, hmu⟩
  · have htick' : ¬ msToNs u.rateLimitCfg.tickMs = 0 := by rwa [← hmu.rateLimitCfg]
    have hcount : countPacket u.rateLimitCfg (msToNs u.rateLimitCfg.tickMs) nowNs
          (u.rateMapPort { ip := src, dport := bswap16 dport }) =
        countPacket m.rateLimitCfg (msToNs m.rateLimitCfg.tickMs) nowNs
          (m.rateMapPort { ip := src, dport := bswap16 dport }) := by
      rw [hmu.rateLimitCfg, hmu.rateMapPort]
    have hnew := hmu.portCounted (bswap16 dport)
      (countPacket m.rateLimitCfg (msToNs m.rateLimitCfg.tickMs) nowNs
        (m.rateMapPort { ip := src, dport := bswap16 dport }))
    simp only [updateRateCounterPort, if_neg htick, if_neg htick', hcount]
    exact ⟨congrArg some (rateUpdate_same hnew htrust _), hnew⟩

theorem unsampled_mergeBlockEntry (prev : Option BlockEntry) (untilNs : UInt64) (reason : UInt8)
    (explicit : Bool) :
    unsampled (mergeBlockEntry prev nowNs untilNs reason explicit) =
      unsampled (mergeBlockEntry (prev.map unsampled) nowNs untilNs reason explicit) := by
  cases prev with
  | none => rfl
  | some e =>
    by_cases heff : EffectiveAt e.blockedUntilNs nowNs
    · have heff' : EffectiveAt (unsampled e).blockedUntilNs nowNs := heff
      simp only [mergeBlockEntry, Option.map_some, if_pos heff, if_pos heff']
      split <;> rfl
    · have heff' : ¬ EffectiveAt (unsampled e).blockedUntilNs nowNs := heff
      simp only [mergeBlockEntry, Option.map_some, if_neg heff, if_neg heff']

/-- A block of the source is merged into the same row on both sides. -/
theorem addToBlacklist_same (hmu : SameFor src m u) (durationS : UInt64) (reason : UInt8) :
    SameFor src (addToBlacklist m src nowNs durationS reason)
      (addToBlacklist u src nowNs durationS reason) where
  settings := hmu.settings
  blacklist := by
    simp only [addToBlacklist, mergeInto, Maps.withStats, LruHashMap.insert_self, Option.map_some]
    rw [unsampled_mergeBlockEntry, hmu.blacklist, ← unsampled_mergeBlockEntry]
  rateMap := hmu.rateMap
  rateMapPort := hmu.rateMapPort
  synProxyConn := hmu.synProxyConn
  connTrack := hmu.connTrack

theorem enforceRate_same {r r' : Option RateUpdate × Maps} (hr : SameResult src r r')
    (reason : UInt16) (soft : Bool) :
    SameResult src (enforceRate r src nowNs reason soft) (enforceRate r' src nowNs reason soft) := by
  refine hr.elim fun update m u hmu => ?_
  unfold enforceRate
  cases update with
  | none => exact ⟨rfl, hmu⟩
  | some update =>
    dsimp only
    split
    · refine ⟨rfl, ?_⟩
      dsimp only
      split
      · exact hmu
      · exact addToBlacklist_same hmu _ _
    · exact ⟨rfl, hmu⟩

theorem handleSynFlood_same (hmu : SameFor src m u) (htrust : m.config.trustEnabled = 0)
    (tcpFlags : UInt8) :
    SameResult src (handleSynFlood m src tcpFlags nowNs) (handleSynFlood u src tcpFlags nowNs) := by
  unfold handleSynFlood
  split
  · exact ⟨rfl, hmu⟩
  · exact enforceRate_same (updateRateCounter_same hmu htrust) _ _

theorem FloodHandler.same {handleFlood : Maps → IpKey → UInt64 → Bool × Maps}
    {enabled : RuntimeConfig → UInt8} {reason : UInt16}
    (hflood : FloodHandler handleFlood enabled reason) (hmu : SameFor src m u)
    (htrust : m.config.trustEnabled = 0) :
    SameResult src (handleFlood m src nowNs) (handleFlood u src nowNs) := by
  rw [hflood, hflood, ← hmu.config]
  split
  · exact ⟨rfl, hmu⟩
  · exact enforceRate_same (updateRateCounter_same hmu htrust) _ _

theorem checkRateLimit_same (hmu : SameFor src m u) (htrust : m.config.trustEnabled = 0)
    (dport : UInt16) :
    SameResult src (checkRateLimit m src dport nowNs) (checkRateLimit u src dport nowNs) := by
  simp only [checkRateLimit, ← hmu.config]
  split
  · exact ⟨rfl, hmu⟩
  · split
    · exact enforceRate_same (updateRateCounterPort_same hmu htrust dport) _ _
    · exact enforceRate_same (updateRateCounter_same hmu htrust) _ _

theorem checkConnTrack_same (hmu : SameFor src m u) (tcpFlags : UInt8) (threshold : UInt32)
    (windowMs : UInt64) :
    SameResult src (checkConnTrack m src tcpFlags nowNs threshold windowMs)
      (checkConnTrack u src tcpFlags nowNs threshold windowMs) := by
  simp only [checkConnTrack, ← hmu.connTrack]
  split
  · exact ⟨rfl, hmu⟩
  · refine ⟨rfl, { hmu with connTrack := ?_ }⟩
    dsimp only
    split <;> simp

/-! ### The SYN proxy -/

theorem trigger_same (hmu : SameFor src m u) (htrust : m.config.trustEnabled = 0) :
    SameResult src (isChallengedOrTrigger.trigger nowNs src m)
      (isChallengedOrTrigger.trigger nowNs src u) := by
  have hcount : SameResult src (updateRateCounter m src nowNs) (updateRateCounter u src nowNs) :=
    updateRateCounter_same hmu htrust
  unfold isChallengedOrTrigger.trigger
  refine hcount.elim fun update m u hmu => ?_
  cases update with
  | none => exact ⟨rfl, hmu⟩
  | some update =>
    dsimp only
    split
    · exact ⟨rfl, { hmu with synProxyConn := by simp }⟩
    · exact ⟨rfl, hmu⟩

theorem isChallengedOrTrigger_same {saddr : UInt32} (hmu : SameFor (srcKey saddr) m u)
    (htrust : m.config.trustEnabled = 0) :
    SameResult (srcKey saddr) (isChallengedOrTrigger m saddr nowNs)
      (isChallengedOrTrigger u saddr nowNs) := by
  simp only [isChallengedOrTrigger, ← hmu.synProxyConn]
  split
  · split
    · exact ⟨rfl, hmu⟩
    · exact trigger_same { hmu with synProxyConn := by simp } htrust
  · exact trigger_same hmu htrust

theorem cookieSecrets_same (hmu : SameFor src m u) : m.cookieSecrets = u.cookieSecrets :=
  (congrArg Maps.cookieSecrets hmu.settings :)

theorem handleSyn_same (h : Helpers) {ctx : XdpContext} {ip : Nat}
    (hmu : SameFor (srcKey (IpHdr.saddr ctx ip)) m u) (htrust : m.config.trustEnabled = 0)
    (pc : PacketCtxRef) (tcp : Nat) :
    (handleSyn h ctx m pc ip tcp).1 = (handleSyn h ctx u pc ip tcp).1 ∧
      (handleSyn h ctx m pc ip tcp).2.1 = (handleSyn h ctx u pc ip tcp).2.1 ∧
      SameFor (srcKey (IpHdr.saddr ctx ip)) (handleSyn h ctx m pc ip tcp).2.2
        (handleSyn h ctx u pc ip tcp).2.2 := by
  unfold handleSyn
  split
  · exact ⟨rfl, rfl, hmu⟩
  · have hchallenged : SameResult (srcKey (IpHdr.saddr ctx ip))
        (isChallengedOrTrigger m (IpHdr.saddr ctx ip) pc.nowNs)
        (isChallengedOrTrigger u (IpHdr.saddr ctx ip) pc.nowNs) :=
      isChallengedOrTrigger_same hmu htrust
    refine hchallenged.elim fun challenged m' u' hmu' => ?_
    cases challenged with
    | false => exact ⟨rfl, rfl, hmu'⟩
    | true =>
      have hcookie : ∀ n, synChallenge h ctx m' pc ip tcp n = synChallenge h ctx u' pc ip tcp n := by
        intro n
        unfold synChallenge
        rw [cookieSecrets_same hmu']
      dsimp only
      rw [hcookie]
      repeat' split
      all_goals exact ⟨rfl, rfl, hmu'⟩

theorem SameFor.released (hmu : SameFor src m u) :
    SameFor src { m with synProxyConn := m.synProxyConn.remove src }
      { u with synProxyConn := u.synProxyConn.remove src } :=
  { hmu with synProxyConn := by simp }

theorem handleAck_same {ctx : XdpContext} {ip : Nat}
    (hmu : SameFor (srcKey (IpHdr.saddr ctx ip)) m u) (pc : PacketCtxRef) (tcp : Nat) :
    SameResult (srcKey (IpHdr.saddr ctx ip)) (handleAck ctx m pc ip tcp)
      (handleAck ctx u pc ip tcp) := by
  have hsecret : ∀ bucket,
      verifySecret u.cookieSecrets bucket = verifySecret m.cookieSecrets bucket := by
    intro bucket
    rw [cookieSecrets_same hmu]
  simp only [handleAck, ← hmu.synProxyConn, hsecret]
  repeat' split
  all_goals first
    | exact ⟨rfl, hmu⟩
    | exact ⟨rfl, hmu.released⟩

/-! ## The modules on a packet of another source -/

theorem isBlacklisted_touches (m : Maps) (src : IpKey) (nowNs : UInt64) :
    TouchesOnly src m (isBlacklisted m src nowNs).2 := by
  intro other hne
  unfold isBlacklisted
  split
  · split
    · dsimp only
      split
      · exact { SameFor.refl other m with
          blacklist := by simp [Maps.withStats, LruHashMap.insert_of_ne _ _ hne] }
      · exact .of_core (g := m.core.globalStats) rfl
    · exact { SameFor.refl other m with
        blacklist := by simp [LruHashMap.remove_of_ne _ hne] }
  · exact .refl other m

theorem updateRateCounter_touches (m : Maps) (src : IpKey) (nowNs : UInt64) :
    TouchesOnly src m (updateRateCounter m src nowNs).2 := by
  intro other hne
  simp only [updateRateCounter]
  split
  · exact .refl other m
  · exact { SameFor.refl other m with rateMap := LruHashMap.insert_of_ne _ _ hne }

theorem updateRateCounterPort_touches (m : Maps) (src : IpKey) (dport : UInt16) (nowNs : UInt64) :
    TouchesOnly src m (updateRateCounterPort m src dport nowNs).2 := by
  intro other hne
  simp only [updateRateCounterPort]
  split
  · exact .refl other m
  · exact { SameFor.refl other m with
      rateMapPort := fun d => LruHashMap.insert_of_ne _ _ fun heq =>
        hne (congrArg RateLimitPortKey.ip heq) }

theorem enforceRate_touches {r : Option RateUpdate × Maps} (hr : TouchesOnly src m r.2)
    (reason : UInt16) (soft : Bool) : TouchesOnly src m (enforceRate r src nowNs reason soft).2 := by
  have hblock : ∀ (m : Maps) (durationS : UInt64),
      TouchesOnly src m (addToBlacklist m src nowNs durationS reason.toUInt8) := by
    intro m durationS other hne
    refine ⟨rfl, ?_, rfl, fun _ => rfl, rfl, rfl⟩
    exact congrArg (Option.map unsampled) (LruHashMap.insert_of_ne _ _ hne)
  rcases r with ⟨_ | update, m'⟩
  · exact hr
  · unfold enforceRate
    dsimp only
    split
    · dsimp only
      split
      · exact hr
      · exact hr.trans (hblock m' _)
    · exact hr

theorem handleSynFlood_touches (m : Maps) (src : IpKey) (tcpFlags : UInt8) (nowNs : UInt64) :
    TouchesOnly src m (handleSynFlood m src tcpFlags nowNs).2 := by
  unfold handleSynFlood
  split
  · exact .refl src m
  · exact enforceRate_touches (updateRateCounter_touches m src nowNs) _ _

theorem FloodHandler.touches {handleFlood : Maps → IpKey → UInt64 → Bool × Maps}
    {enabled : RuntimeConfig → UInt8} {reason : UInt16}
    (hflood : FloodHandler handleFlood enabled reason) (m : Maps) (src : IpKey) (nowNs : UInt64) :
    TouchesOnly src m (handleFlood m src nowNs).2 := by
  rw [hflood]
  split
  · exact .refl src m
  · exact enforceRate_touches (updateRateCounter_touches m src nowNs) _ _

theorem checkRateLimit_touches (m : Maps) (src : IpKey) (dport : UInt16) (nowNs : UInt64) :
    TouchesOnly src m (checkRateLimit m src dport nowNs).2 := by
  simp only [checkRateLimit]
  split
  · exact .refl src m
  · split
    · exact enforceRate_touches (updateRateCounterPort_touches m src dport nowNs) _ _
    · exact enforceRate_touches (updateRateCounter_touches m src nowNs) _ _

theorem checkPortRate_touches (m : Maps) (src : IpKey) (key : PortRateKey) (nowNs : UInt64) :
    TouchesOnly src m (checkPortRate m key nowNs).2 := by
  intro other _
  simp only [checkPortRate]
  split <;> exact { SameFor.refl other m with }

theorem checkConnTrack_touches (m : Maps) (src : IpKey) (tcpFlags : UInt8) (nowNs : UInt64)
    (threshold : UInt32) (windowMs : UInt64) :
    TouchesOnly src m (checkConnTrack m src tcpFlags nowNs threshold windowMs).2 := by
  intro other hne
  simp only [checkConnTrack]
  split
  · exact .refl other m
  · refine { SameFor.refl other m with connTrack := ?_ }
    dsimp only
    split
    · exact LruHashMap.remove_of_ne _ hne
    · exact LruHashMap.insert_of_ne _ _ hne

theorem trigger_touches (m : Maps) (src : IpKey) (nowNs : UInt64) :
    TouchesOnly src m (isChallengedOrTrigger.trigger nowNs src m).2 := by
  have hcount := updateRateCounter_touches m src nowNs
  simp only [isChallengedOrTrigger.trigger]
  generalize updateRateCounter m src nowNs = r at hcount
  obtain ⟨update, m'⟩ := r
  split
  · split
    · rename_i heq _
      cases heq
      exact hcount.trans fun other hne =>
        { SameFor.refl other m' with synProxyConn := LruHashMap.insert_of_ne _ _ hne }
    · rename_i heq _
      cases heq
      exact hcount
  · rename_i heq
    cases heq
    exact hcount

theorem removeConn_touches (m : Maps) (src : IpKey) :
    TouchesOnly src m { m with synProxyConn := m.synProxyConn.remove src } := fun other hne =>
  { SameFor.refl other m with synProxyConn := LruHashMap.remove_of_ne _ hne }

theorem isChallengedOrTrigger_touches (m : Maps) (saddr : UInt32) (nowNs : UInt64) :
    TouchesOnly (srcKey saddr) m (isChallengedOrTrigger m saddr nowNs).2 := by
  simp only [isChallengedOrTrigger]
  split
  · split
    · exact .refl _ m
    · exact (removeConn_touches m _).trans (trigger_touches _ _ nowNs)
  · exact trigger_touches _ _ nowNs

theorem handleSyn_touches (ctx : XdpContext) (m : Maps) (pc : PacketCtxRef) (ip tcp : Nat) :
    TouchesOnly (srcKey (IpHdr.saddr ctx ip)) m (handleSyn h ctx m pc ip tcp).2.2 := by
  have hchallenged := isChallengedOrTrigger_touches m (IpHdr.saddr ctx ip) pc.nowNs
  unfold handleSyn
  split
  · exact .refl _ m
  · split
    · rename_i heq
      rwa [heq] at hchallenged
    · rename_i heq
      rw [heq] at hchallenged
      dsimp only
      repeat' split
      all_goals exact hchallenged

theorem handleAck_touches (ctx : XdpContext) (m : Maps) (pc : PacketCtxRef) (ip tcp : Nat) :
    TouchesOnly (srcKey (IpHdr.saddr ctx ip)) m (handleAck ctx m pc ip tcp).2 := by
  simp only [handleAck]
  repeat' split
  all_goals first
    | exact .refl _ m
    | exact removeConn_touches m _

end EShield.Ebpf
