import EShield.Ebpf.Proofs.PathProofs

/-!
# The rate counter counts a packet once

The flood modules, the SYN proxy and the global limit share one counter of the source. The packet
carries along whether it has been counted, and every path through the stages keeps to it.
-/

namespace EShield.Ebpf

variable {src : IpKey} {dport : UInt16} {nowNs : UInt64} {m m₁ m₂ m₃ : Maps} {s t u : PacketState}

/-! ## Counting -/

/-- No rate counter of a source has changed. -/
structure NotCounted (m m' : Maps) : Prop where
  source : m'.rateMap = m.rateMap
  port : m'.rateMapPort = m.rateMapPort

/-- One packet of `src` has been counted, in RATE_MAP or, for `dport`, in RATE_MAP_PORT; all other
counters are as they were. -/
def CountedOnce (src : IpKey) (dport : UInt16) (nowNs : UInt64) (m m' : Maps) : Prop :=
  let tickNs := msToNs m.rateLimitCfg.tickMs
  let key : RateLimitPortKey := { ip := src, dport := bswap16 dport }
  (m'.rateMap =
        m.rateMap.insert src (countPacket m.rateLimitCfg tickNs nowNs (m.rateMap src)) ∧
      m'.rateMapPort = m.rateMapPort) ∨
    (m'.rateMap = m.rateMap ∧
      m'.rateMapPort =
        m.rateMapPort.insert key (countPacket m.rateLimitCfg tickNs nowNs (m.rateMapPort key)))

/-- The counter of `src` was asked to count one packet, which it does if it has a tick. -/
def Asked (src : IpKey) (dport : UInt16) (nowNs : UInt64) (m m' : Maps) : Prop :=
  (m.rateLimitCfg.tickMs = 0 ∧ NotCounted m m') ∨ CountedOnce src dport nowNs m m'

theorem NotCounted.refl (m : Maps) : NotCounted m m := ⟨rfl, rfl⟩

theorem NotCounted.trans (h₁ : NotCounted m₁ m₂) (h₂ : NotCounted m₂ m₃) : NotCounted m₁ m₃ :=
  ⟨h₂.source.trans h₁.source, h₂.port.trans h₁.port⟩

theorem Asked.then (h₁ : Asked src dport nowNs m₁ m₂) (h₂ : NotCounted m₂ m₃) :
    Asked src dport nowNs m₁ m₃ := by
  rcases h₁ with ⟨htick, hnot⟩ | ⟨hs, hp⟩ | ⟨hs, hp⟩
  · exact .inl ⟨htick, hnot.trans h₂⟩
  · exact .inr (.inl ⟨h₂.source.trans hs, h₂.port.trans hp⟩)
  · exact .inr (.inr ⟨h₂.source.trans hs, h₂.port.trans hp⟩)

theorem NotCounted.asked (h₁ : NotCounted m₁ m₂) (hcfg : m₂.rateLimitCfg = m₁.rateLimitCfg)
    (h₂ : Asked src dport nowNs m₂ m₃) : Asked src dport nowNs m₁ m₃ := by
  unfold Asked CountedOnce at h₂ ⊢
  rw [hcfg, h₁.source, h₁.port] at h₂
  rcases h₂ with ⟨htick, hnot⟩ | hcounted
  · exact .inl ⟨htick, h₁.trans hnot⟩
  · exact .inr hcounted

/-- What changes neither counter is seen on the maps without their books. -/
theorem notCounted_of_core {m' : Maps} (hsrc : m'.core.rateMap = m.core.rateMap)
    (hport : m'.core.rateMapPort = m.core.rateMapPort) : NotCounted m m' := ⟨hsrc, hport⟩

/-! ## The modules -/

theorem updateRateCounter_asked (m : Maps) (src : IpKey) (dport : UInt16) (nowNs : UInt64) :
    Asked src dport nowNs m (updateRateCounter m src nowNs).2 := by
  simp only [updateRateCounter]
  split
  · rename_i htick
    exact .inl ⟨msToNs_eq_zero_iff.1 htick, .refl m⟩
  · exact .inr (.inl ⟨rfl, rfl⟩)

theorem enforceRate_notCounted (r : Option RateUpdate × Maps) (src : IpKey) (nowNs : UInt64)
    (reason : UInt16) (soft : Bool) : NotCounted r.2 (enforceRate r src nowNs reason soft).2 := by
  obtain ⟨blacklist, hcore⟩ := core_enforceRate r src nowNs reason soft
  exact notCounted_of_core (by rw [hcore]) (by rw [hcore])

theorem handleSynFlood_asked (m : Maps) (src : IpKey) (dport : UInt16) {tcpFlags : UInt8}
    (nowNs : UInt64) (hsyn : isSynFlags tcpFlags = true) :
    Asked src dport nowNs m (handleSynFlood m src tcpFlags nowNs).2 := by
  rw [handleSynFlood, if_neg (by rw [hsyn]; decide)]
  exact (updateRateCounter_asked m src dport nowNs).then (enforceRate_notCounted _ _ _ _ _)

theorem handleSynFlood_of_not_syn (m : Maps) (src : IpKey) {tcpFlags : UInt8} (nowNs : UInt64)
    (hsyn : isSynFlags tcpFlags = false) :
    handleSynFlood m src tcpFlags nowNs = (false, m) := by
  rw [handleSynFlood, if_pos (by rw [hsyn]; decide)]

theorem FloodHandler.asked {handleFlood : Maps → IpKey → UInt64 → Bool × Maps}
    {enabled : RuntimeConfig → UInt8} {reason : UInt16}
    (hflood : FloodHandler handleFlood enabled reason) (src : IpKey) (dport : UInt16)
    (nowNs : UInt64) (henabled : enabled m.config ≠ 0) :
    Asked src dport nowNs m (handleFlood m src nowNs).2 := by
  rw [hflood m src nowNs, if_neg henabled]
  exact (updateRateCounter_asked m src dport nowNs).then (enforceRate_notCounted _ _ _ _ _)

/-- An IPv4 frame contains its whole datagram; of an IPv6 frame nothing is asked. -/
def HoldsDatagram (ctx : XdpContext) : Prop :=
  EthHdr.proto ctx 0 = ETH_P_IP →
    ETH_HDR_LEN + (bswap16 (IpHdr.totLen ctx ETH_HDR_LEN)).toNat ≤ ctx.len

theorem Answers.notCounted {r : Option XdpAction × PacketState} (hans : Answers t r) :
    NotCounted t.maps r.2.maps := by
  obtain ⟨_, hcore⟩ := hans.core
  exact notCounted_of_core (by rw [hcore]) (by rw [hcore])

/-- From `s` on, the packet `t` has not been counted and says so, or says that it has been; then its
counter was asked, or the frame is cut off. -/
def Counted (s t : PacketState) : Prop :=
  (t.pc.rateCounted = false ∧ NotCounted s.maps t.maps) ∨
    (t.pc.rateCounted = true ∧
      (Asked s.pc.src s.pc.dport s.pc.nowNs s.maps t.maps ∨
        (NotCounted s.maps t.maps ∧ ¬ HoldsDatagram s.ctx)))

/-- Counted once or not at all. -/
def CountedAtMostOnce (s : PacketState) (m : Maps) : Prop :=
  NotCounted s.maps m ∨ Asked s.pc.src s.pc.dport s.pc.nowNs s.maps m

theorem CountedAtMostOnce.then (h₁ : CountedAtMostOnce s m₁) (h₂ : NotCounted m₁ m₂) :
    CountedAtMostOnce s m₂ :=
  h₁.imp (fun hnot => hnot.trans h₂) fun hasked => hasked.then h₂

theorem Counted.then (hcount : Counted s t) (hpc : u.pc.rateCounted = t.pc.rateCounted)
    (hnot : NotCounted t.maps u.maps) : Counted s u := by
  unfold Counted
  rw [hpc]
  rcases hcount with ⟨hfalse, hsame⟩ | ⟨htrue, hasked | ⟨hsame, hcut⟩⟩
  · exact .inl ⟨hfalse, hsame.trans hnot⟩
  · exact .inr ⟨htrue, .inl (hasked.then hnot)⟩
  · exact .inr ⟨htrue, .inr ⟨hsame.trans hnot, hcut⟩⟩

theorem FloodWork.counted (hwork : FloodWork s t) (hfresh : s.pc.rateCounted = false) :
    Counted s t := by
  cases hwork with
  | idle => exact .inl ⟨hfresh, .refl s.maps⟩
  | @syn tcp _ _ _ =>
    unfold Counted synCounted
    dsimp only
    cases hsyn : TcpHdr.isSyn s.ctx tcp with
    | true => exact .inr ⟨rfl, .inl (handleSynFlood_asked s.maps s.pc.src s.pc.dport _ hsyn)⟩
    | false =>
      rw [handleSynFlood_of_not_syn s.maps s.pc.src s.pc.nowNs hsyn]
      exact .inl ⟨hfresh, .refl s.maps⟩
  | flood hflood henabled =>
    exact .inr ⟨rfl, .inl (hflood.asked s.pc.src s.pc.dport s.pc.nowNs henabled)⟩

theorem Vetted.notCounted (hvet : Vetted s t) : NotCounted s.maps t.maps :=
  ⟨hvet.rateMap, hvet.rateMapPort⟩

theorem Vetted.asked (hvet : Vetted s t) (hasked : Asked t.pc.src t.pc.dport t.pc.nowNs t.maps m) :
    Asked s.pc.src s.pc.dport s.pc.nowNs s.maps m := by
  rw [hvet.worked.src, hvet.worked.dport, hvet.worked.nowNs] at hasked
  exact hvet.notCounted.asked hvet.worked.rateLimitCfg hasked

theorem Vetted.counted (hvet : Vetted s t) (hcount : Counted t u) : Counted s u := by
  rcases hcount with ⟨hfresh, hnot⟩ | ⟨hmarked, hasked | ⟨hnot, hcut⟩⟩
  · exact .inl ⟨hfresh, hvet.notCounted.trans hnot⟩
  · exact .inr ⟨hmarked, .inl (hvet.asked hasked)⟩
  · exact .inr ⟨hmarked, .inr ⟨hvet.notCounted.trans hnot, hvet.ctx ▸ hcut⟩⟩

/-- The stages before the global limit. -/
def stagesBeforeRateLimit (h : Helpers) (runtime : RuntimeConfig) :
    List (PacketState → Option XdpAction × PacketState) :=
  (stages h runtime).take 10

theorem stages_eq_append_rateLimit (h : Helpers) (runtime : RuntimeConfig) :
    stages h runtime = stagesBeforeRateLimit h runtime ++ [checkRateLimitDrop h] := rfl

end EShield.Ebpf
