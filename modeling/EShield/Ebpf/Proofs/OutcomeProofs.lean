import EShield.Ebpf.Proofs.ResetProofs

/-!
# How stages end

A stage hands the packet on, lets it pass, leaves it to `drop_packet`, or, where it is the SYN proxy,
ends it with the frame that `handle_syn` has made. In all cases the packet is the one that came, and no
sample has been taken yet.
-/

namespace EShield.Ebpf

variable {h : Helpers} {own : Prop} {runtime : RuntimeConfig} {s t u : PacketState} {m : Maps}
  {src : IpKey} {nowNs : UInt64}

/-! ## Samples -/

@[simp] theorem samples_withStats (m : Maps) (f : GlobalStats → GlobalStats) :
    (m.withStats f).packetSamples = m.packetSamples := rfl

@[simp] theorem samples_trustPassSampled (m : Maps) (src : IpKey) (nowNs : UInt64)
    (addDivisor : UInt32) :
    (trustPassSampled m src nowNs addDivisor).packetSamples = m.packetSamples := by
  simp only [trustPassSampled]
  split <;> rfl

@[simp] theorem samples_countPassed (m : Maps) (pc : PacketCtx) :
    (countPassed m pc).packetSamples = m.packetSamples := by
  rw [countPassed, samples_trustPassSampled, samples_withStats]

@[simp] theorem samples_trustDrop (m : Maps) (src : IpKey) (nowNs : UInt64) (subDivisor : UInt32) :
    (trustDrop m src nowNs subDivisor).packetSamples = m.packetSamples := by
  simp only [trustDrop]
  repeat' split
  all_goals rfl

@[simp] theorem samples_emitDropEvent (h : Helpers) (pc : PacketCtx) (m : Maps) :
    (emitDropEvent h pc m).packetSamples = m.packetSamples := by
  unfold emitDropEvent
  split <;> rfl

@[simp] theorem samples_replyTcpRst (h : Helpers) (ctx : XdpContext) (m : Maps) (ipHdrLen : Nat) :
    (replyTcpRst h ctx m ipHdrLen).2.2.packetSamples = m.packetSamples := by
  unfold replyTcpRst
  split
  · split <;> rfl
  · rfl

@[simp] theorem samples_isBlacklisted (m : Maps) (src : IpKey) (nowNs : UInt64) :
    (isBlacklisted m src nowNs).2.packetSamples = m.packetSamples := by
  unfold isBlacklisted
  split
  · split
    · dsimp only
      split <;> rfl
    · rfl
  · rfl

@[simp] theorem samples_checkPortRate (m : Maps) (key : PortRateKey) (nowNs : UInt64) :
    (checkPortRate m key nowNs).2.packetSamples = m.packetSamples := by
  simp only [checkPortRate]
  split <;> rfl

@[simp] theorem samples_checkConnTrack (m : Maps) (src : IpKey) (tcpFlags : UInt8) (nowNs : UInt64)
    (threshold : UInt32) (windowMs : UInt64) :
    (checkConnTrack m src tcpFlags nowNs threshold windowMs).2.packetSamples = m.packetSamples := by
  simp only [checkConnTrack]
  split <;> rfl

@[simp] theorem samples_updateRateCounter (m : Maps) (src : IpKey) (nowNs : UInt64) :
    (updateRateCounter m src nowNs).2.packetSamples = m.packetSamples := by
  simp only [updateRateCounter]
  split <;> rfl

@[simp] theorem samples_updateRateCounterPort (m : Maps) (src : IpKey) (dport : UInt16)
    (nowNs : UInt64) :
    (updateRateCounterPort m src dport nowNs).2.packetSamples = m.packetSamples := by
  simp only [updateRateCounterPort]
  split <;> rfl

@[simp] theorem samples_enforceRate (r : Option RateUpdate × Maps) (src : IpKey) (nowNs : UInt64)
    (reason : UInt16) (soft : Bool) :
    (enforceRate r src nowNs reason soft).2.packetSamples = r.2.packetSamples := by
  unfold enforceRate
  split
  · rfl
  · split
    · dsimp only
      split <;> rfl
    · rfl

@[simp] theorem samples_handleSynFlood (m : Maps) (src : IpKey) (tcpFlags : UInt8)
    (nowNs : UInt64) : (handleSynFlood m src tcpFlags nowNs).2.packetSamples = m.packetSamples := by
  unfold handleSynFlood
  split
  · rfl
  · rw [samples_enforceRate, samples_updateRateCounter]

theorem FloodHandler.samples {handleFlood : Maps → IpKey → UInt64 → Bool × Maps}
    {enabled : RuntimeConfig → UInt8} {reason : UInt16}
    (hflood : FloodHandler handleFlood enabled reason) (m : Maps) (src : IpKey) (nowNs : UInt64) :
    (handleFlood m src nowNs).2.packetSamples = m.packetSamples := by
  rw [hflood m src nowNs]
  split
  · rfl
  · rw [samples_enforceRate, samples_updateRateCounter]

@[simp] theorem samples_checkRateLimit (m : Maps) (src : IpKey) (dport : UInt16) (nowNs : UInt64) :
    (checkRateLimit m src dport nowNs).2.packetSamples = m.packetSamples := by
  simp only [checkRateLimit]
  split
  · rfl
  · rw [samples_enforceRate]
    split
    · exact samples_updateRateCounterPort m src dport nowNs
    · exact samples_updateRateCounter m src nowNs

theorem samples_trigger (m : Maps) (src : IpKey) (nowNs : UInt64) :
    (isChallengedOrTrigger.trigger nowNs src m).2.packetSamples = m.packetSamples := by
  have hcount := samples_updateRateCounter m src nowNs
  unfold isChallengedOrTrigger.trigger
  split
  · rename_i heq
    rw [heq] at hcount
    split <;> exact hcount
  · rename_i heq
    rw [heq] at hcount
    exact hcount

theorem samples_isChallengedOrTrigger (m : Maps) (saddr : UInt32) (nowNs : UInt64) :
    (isChallengedOrTrigger m saddr nowNs).2.packetSamples = m.packetSamples := by
  unfold isChallengedOrTrigger
  dsimp only
  split
  · split
    · rfl
    · exact samples_trigger _ _ _
  · exact samples_trigger _ _ _

@[simp] theorem samples_handleSyn (h : Helpers) (ctx : XdpContext) (m : Maps) (pc : PacketCtxRef)
    (ip tcp : Nat) : (handleSyn h ctx m pc ip tcp).2.2.packetSamples = m.packetSamples := by
  have htrigger := samples_isChallengedOrTrigger m (IpHdr.saddr ctx ip) pc.nowNs
  unfold handleSyn
  split
  · rfl
  · split
    · rename_i heq
      rw [heq] at htrigger
      exact htrigger
    · rename_i heq
      rw [heq] at htrigger
      dsimp only
      repeat' split
      all_goals exact htrigger

@[simp] theorem samples_handleAck (ctx : XdpContext) (m : Maps) (pc : PacketCtxRef) (ip tcp : Nat) :
    (handleAck ctx m pc ip tcp).2.packetSamples = m.packetSamples := by
  simp only [handleAck]
  repeat' split
  all_goals rfl

@[simp] theorem samples_dropPacket (h : Helpers) (s : PacketState) :
    (dropPacket h s).2.maps.packetSamples = s.maps.packetSamples := by
  have hdue : ∀ (m : Maps) (due : Prop) [Decidable due] (prev : UInt64),
      (if due then { m with topAttackers := m.topAttackers.insert s.pc.src prev } else
        m).packetSamples = m.packetSamples := by
    intro m due _ prev
    split <;> rfl
  have hemit : ∀ (m : Maps), (if s.pc.ruleId ≠ rules.BLACKLIST then emitDropEvent h s.pc m else
      m).packetSamples = m.packetSamples := by
    intro m
    split
    · exact samples_emitDropEvent h s.pc m
    · rfl
  unfold dropPacket
  dsimp only
  split
  · dsimp only
    rw [samples_replyTcpRst, hemit, hdue, samples_trustDrop, samples_withStats]
  · dsimp only
    rw [hemit, hdue, samples_trustDrop, samples_withStats]

/-! ## The packet that came -/

/-- The packet is the one that came, and no sample has been taken. -/
structure SamePacket (s t : PacketState) : Prop where
  ctx : t.ctx = s.ctx
  pc : t.pc =
    { s.pc with
      ruleId := t.pc.ruleId
      rateCounted := t.pc.rateCounted
      projectFlags := t.pc.projectFlags }
  samples : t.maps.packetSamples = s.maps.packetSamples

theorem SamePacket.refl (s : PacketState) : SamePacket s s := ⟨rfl, rfl, rfl⟩

theorem SamePacket.trans (hst : SamePacket s t) (htu : SamePacket t u) : SamePacket s u where
  ctx := htu.ctx.trans hst.ctx
  pc := by
    rw [htu.pc, hst.pc]
  samples := htu.samples.trans hst.samples

theorem samePacket_of_maps {m : Maps} (hsamples : m.packetSamples = s.maps.packetSamples) :
    SamePacket s { s with maps := m } := ⟨rfl, rfl, hsamples⟩

theorem samePacket_of_worked (hwork : Worked s t)
    (hsamples : t.maps.packetSamples = s.maps.packetSamples) : SamePacket s t :=
  ⟨hwork.ctx, hwork.pc, hsamples⟩

/-! ## Stages -/

/-- The SYN proxy's frame: that of `handle_syn`. -/
def proxyFrame (h : Helpers) (s : PacketState) : XdpContext :=
  (handleSyn h s.ctx s.maps s.ref ETH_HDR_LEN (ETH_HDR_LEN + s.pc.ipHdrLen)).2.1

/-- How a stage ends; `own` is where it gives verdicts itself. -/
inductive Outcome (h : Helpers) (own : Prop) (s : PacketState) :
    Option XdpAction × PacketState → Prop where
  | goesOn (t : PacketState) (hsame : SamePacket s t) : Outcome h own s (none, t)
  | passes (t : PacketState) (hsame : SamePacket s t) : Outcome h own s (some .pass, t)
  | dropped (t : PacketState) (hsame : SamePacket s t) (hown : ¬ own) :
    Outcome h own s (some (dropPacket h t).1, (dropPacket h t).2)
  | proxied (a : XdpAction) (t : PacketState) (hown : own) (ha : a ≠ .pass)
    (hsame : SamePacket s { t with ctx := s.ctx }) (hframe : t.ctx = proxyFrame h s)
    (hip : s.ctx.ptrAt IP_HDR_LEN ETH_HDR_LEN = some ETH_HDR_LEN)
    (htcp : s.ctx.ptrAt TCP_HDR_LEN (ETH_HDR_LEN + s.pc.ipHdrLen) =
      some (ETH_HDR_LEN + s.pc.ipHdrLen))
    (hsyn : (handleSyn h s.ctx s.maps s.ref ETH_HDR_LEN (ETH_HDR_LEN + s.pc.ipHdrLen)).1 = some a) :
    Outcome h own s (some a, t)

theorem outcome_self (s : PacketState) : Outcome h own s (none, s) := .goesOn s (.refl s)

theorem outcome_dropAs (ruleId : UInt16) (count : GlobalStats → GlobalStats) (protocol : UInt8)
    (hsame : SamePacket s t) (hown : ¬ own) : Outcome h own s (dropAs h ruleId count protocol t) :=
  .dropped _ (hsame.trans ⟨rfl, rfl, rfl⟩) hown

theorem outcome_ite {c : Prop} [Decidable c] {r r' : Option XdpAction × PacketState}
    (hthen : Outcome h own s r) (helse : Outcome h own s r') :
    Outcome h own s (if c then r else r') := by
  split
  · exact hthen
  · exact helse

/-- What a module leaves of the maps has no new sample. -/
theorem samePacket_of_module {r : Bool × Maps} {b : Bool} (heq : r = (b, m))
    (hsamples : r.2.packetSamples = s.maps.packetSamples) : SamePacket s { s with maps := m } := by
  rw [heq] at hsamples
  exact samePacket_of_maps hsamples

theorem outcome_portRateDrop (ruleId : UInt16) (count : GlobalStats → GlobalStats)
    (protocol : UInt8) (dport : UInt16) (hst : SamePacket s t) (hown : ¬ own) :
    Outcome h own s (portRateDrop h ruleId count protocol dport t) := by
  simp only [portRateDrop]
  split
  · rename_i heq
    have hsame := samePacket_of_module heq (samples_checkPortRate _ _ _)
    exact outcome_dropAs _ _ _ (hst.trans hsame) hown
  · rename_i heq
    exact .goesOn _ (hst.trans (samePacket_of_module heq (samples_checkPortRate _ _ _)))

theorem outcome_checkBlacklistDrop (hown : ¬ own) (s : PacketState) :
    Outcome h own s (checkBlacklistDrop h s) := by
  simp only [checkBlacklistDrop]
  split
  · rename_i heq
    exact outcome_dropAs _ _ _ (samePacket_of_module heq (samples_isBlacklisted _ _ _)) hown
  · rename_i heq
    exact .goesOn _ (samePacket_of_module heq (samples_isBlacklisted _ _ _))

theorem outcome_checkProjectPolicy (hown : ¬ own) (s : PacketState) :
    Outcome h own s (checkProjectPolicy h s) := by
  rw [checkProjectPolicy_of_matched]
  cases matchedProject s with
  | none => exact outcome_self s
  | some policy =>
    exact outcome_ite (.passes _ ⟨rfl, rfl, samples_countPassed _ _⟩)
      (outcome_ite (outcome_dropAs _ _ _ (.refl s) hown) (.goesOn _ ⟨rfl, rfl, rfl⟩))

theorem outcome_checkConnTrackDrop (hown : ¬ own) (enabled : UInt8) (threshold : UInt32)
    (windowMs : UInt64) (s : PacketState) :
    Outcome h own s (checkConnTrackDrop h enabled threshold windowMs s) := by
  refine outcome_ite (outcome_self s) ?_
  cases s.ctx.ptrAt TCP_HDR_LEN (ETH_HDR_LEN + s.pc.ipHdrLen) with
  | none => exact outcome_self s
  | some tcp =>
    dsimp only
    split
    · rename_i heq
      have hsame := samePacket_of_module heq (samples_checkConnTrack _ _ _ _ _ _)
      exact outcome_dropAs _ _ _ hsame hown
    · rename_i heq
      exact .goesOn _ (samePacket_of_module heq (samples_checkConnTrack _ _ _ _ _ _))

theorem outcome_checkRateLimitDrop (hown : ¬ own) (s : PacketState) :
    Outcome h own s (checkRateLimitDrop h s) := by
  refine outcome_ite (outcome_self s) (outcome_ite (outcome_self s) ?_)
  split
  · rename_i heq
    exact outcome_dropAs _ _ _ (samePacket_of_module heq (samples_checkRateLimit _ _ _ _)) hown
  · rename_i heq
    exact .goesOn _ (samePacket_of_module heq (samples_checkRateLimit _ _ _ _))

/-- A packet that a flood module may have counted. -/
theorem samePacket_of_counted {c : Prop} [Decidable c] {flooded : Bool × PacketState} {b : Bool}
    (hsame : SamePacket s flooded.2) (heq : (if c then flooded else (false, s)) = (b, t)) :
    SamePacket s t := by
  split at heq
  · rw [heq] at hsame
    exact hsame
  · obtain ⟨-, rfl⟩ := Prod.mk.inj heq
    exact .refl s

theorem outcome_floodDrop (hown : ¬ own) {handleFlood : Maps → IpKey → UInt64 → Bool × Maps}
    {switch : RuntimeConfig → UInt8} {reason : UInt16}
    (hflood : FloodHandler handleFlood switch reason) (enabled portRateEnabled : UInt8)
    (module : UInt16) (ruleId : UInt16) (count : GlobalStats → GlobalStats) (dport : UInt16)
    (s : PacketState) :
    Outcome h own s
      (floodDrop h enabled portRateEnabled module handleFlood ruleId count dport s) := by
  have hcounted : SamePacket s (floodCounted handleFlood s) :=
    ⟨rfl, rfl, hflood.samples s.maps s.pc.src s.pc.nowNs⟩
  unfold floodDrop
  dsimp only
  split
  · rename_i t heq
    exact outcome_dropAs _ _ _ (samePacket_of_counted hcounted heq) hown
  · rename_i t heq
    have hst : SamePacket s t := samePacket_of_counted hcounted heq
    exact outcome_ite (outcome_portRateDrop _ _ _ _ hst hown) (.goesOn t hst)

theorem outcome_synFloodDrop (hown : ¬ own) (portRateEnabled : UInt8) (s : PacketState) :
    Outcome h own s (synFloodDrop h portRateEnabled s) := by
  unfold synFloodDrop
  cases s.ctx.ptrAt TCP_HDR_LEN (ETH_HDR_LEN + s.pc.ipHdrLen) with
  | none => exact outcome_ite (outcome_portRateDrop _ _ _ _ (.refl s) hown) (outcome_self s)
  | some tcp =>
    have hcounted := samePacket_of_worked (worked_synCounted tcp s) (samples_handleSynFlood _ _ _ _)
    dsimp only
    cases (handleSynFlood s.maps s.pc.src (TcpHdr.flags s.ctx tcp) s.pc.nowNs).1 with
    | true => exact outcome_dropAs _ _ _ hcounted hown
    | false => exact outcome_ite (outcome_portRateDrop _ _ _ _ hcounted hown) (.goesOn _ hcounted)

theorem outcome_synProxy (hown : own) (s : PacketState) : Outcome h own s (synProxy h s) := by
  cases hip : s.ctx.ptrAt IP_HDR_LEN ETH_HDR_LEN with
  | none =>
    unfold synProxy
    rw [hip]
    exact .passes s (.refl s)
  | some ip =>
    cases htcp : s.ctx.ptrAt TCP_HDR_LEN (ETH_HDR_LEN + s.pc.ipHdrLen) with
    | none =>
      unfold synProxy
      rw [hip]
      dsimp only
      rw [htcp]
      exact outcome_self s
    | some tcp =>
      rw [synProxy_eq h s hip htcp]
      obtain ⟨-, rfl⟩ := ptrAt_eq_some_iff.1 hip
      obtain ⟨-, rfl⟩ := ptrAt_eq_some_iff.1 htcp
      obtain ⟨s₁, hs₁⟩ : ∃ s₁, (if TcpHdr.isSyn s.ctx (ETH_HDR_LEN + s.pc.ipHdrLen) then
          { s with pc := { s.pc with rateCounted := true } } else s) = s₁ := ⟨_, rfl⟩
      have hsame : SamePacket s s₁ := by
        rw [← hs₁]
        split
        · exact ⟨rfl, rfl, rfl⟩
        · exact .refl s
      have hmaps : s₁.maps = s.maps := by rw [← hs₁]; split <;> rfl
      have href : s₁.ref = s.ref := by rw [← hs₁]; split <;> rfl
      have hcases := handleSyn_cases h s.ctx s.maps s.ref ETH_HDR_LEN (ETH_HDR_LEN + s.pc.ipHdrLen)
      have hsamples :=
        samples_handleSyn h s.ctx s.maps s.ref ETH_HDR_LEN (ETH_HDR_LEN + s.pc.ipHdrLen)
      rw [hs₁, synProxyOn, hsame.ctx, hmaps, href]
      split
      · rename_i action ctx m heq
        rw [heq] at hcases hsamples
        refine .proxied action _ hown ?_ (hsame.trans ⟨hsame.ctx.symm, rfl, ?_⟩) ?_ hip htcp ?_
        · rintro rfl
          rcases hcases with ⟨hnone, -⟩ | hdrop | htx
          · cases hnone
          · cases hdrop
          · cases htx
        · exact hsamples.trans hsame.samples.symm
        · rw [proxyFrame, heq]
        · rw [heq]
      · rename_i ctx m heq
        rw [heq] at hcases hsamples
        obtain rfl : ctx = s.ctx := by
          rcases hcases with ⟨-, hctx⟩ | hdrop | htx
          · exact hctx
          · cases hdrop
          · cases htx
        have hack := handleAck_cases s.ctx m s.ref ETH_HDR_LEN (ETH_HDR_LEN + s.pc.ipHdrLen)
        have hsamples' :=
          samples_handleAck s.ctx m s.ref ETH_HDR_LEN (ETH_HDR_LEN + s.pc.ipHdrLen)
        split
        · rename_i action m' hpass
          rw [hpass] at hack hsamples'
          obtain rfl : action = .pass := by
            rcases hack with hnone | hpass
            · cases hnone
            · exact Option.some.inj hpass
          exact .passes _
            ⟨rfl, hsame.pc, (samples_countPassed _ _).trans (hsamples'.trans hsamples)⟩
        · rename_i m' hgo
          rw [hgo] at hsamples'
          exact .goesOn _ ⟨rfl, hsame.pc, hsamples'.trans hsamples⟩

theorem outcome_tcpStage (runtime : RuntimeConfig) (s : PacketState) :
    Outcome h (ToSynProxy runtime.synProxyEnabled s) s (tcpStage h runtime s) := by
  unfold tcpStage
  split
  case isFalse => exact outcome_self s
  rename_i htcp
  unfold checkTcpDrop
  split
  · exact outcome_self s
  rename_i hlook
  split
  · rename_i hon
    obtain ⟨hflags, hfrag⟩ := not_or.1 hlook
    exact outcome_synProxy ⟨htcp, hflags, by simpa using hfrag, hon⟩ s
  · rename_i hoff
    exact outcome_synFloodDrop (fun hto => hoff ⟨hto.2.2.2.1, hto.2.2.2.2⟩) _ s

/-- How each stage ends: it gives verdicts itself where the SYN proxy takes over. -/
theorem outcome_stage {i : Nat} {f : PacketState → Option XdpAction × PacketState}
    (hf : (stages h runtime)[i]? = some f) (s : PacketState) :
    Outcome h (i = 6 ∧ ToSynProxy runtime.synProxyEnabled s) s (f s) := by
  have hother : i ≠ 6 → ¬ (i = 6 ∧ ToSynProxy runtime.synProxyEnabled s) := fun hne hi => hne hi.1
  match i, hf with
  | 0, rfl =>
    exact outcome_ite (outcome_self s)
      (outcome_ite (outcome_dropAs _ _ _ (.refl s) (hother (by decide))) (outcome_self s))
  | 1, rfl => exact outcome_checkBlacklistDrop (hother (by decide)) s
  | 2, rfl =>
    exact outcome_ite (outcome_self s)
      (outcome_ite (outcome_dropAs _ _ _ (.refl s) (hother (by decide)))
        (outcome_ite (outcome_portRateDrop _ _ _ _ (.refl s) (hother (by decide))) (outcome_self s)))
  | 3, rfl => exact outcome_checkProjectPolicy (hother (by decide)) s
  | 4, rfl =>
    exact outcome_ite (outcome_self s)
      (outcome_ite (outcome_dropAs _ _ _ (.refl s) (hother (by decide))) (outcome_self s))
  | 5, rfl => exact outcome_checkConnTrackDrop (hother (by decide)) _ _ _ s
  | 6, rfl =>
    have hown : (6 = 6 ∧ ToSynProxy runtime.synProxyEnabled s) =
        ToSynProxy runtime.synProxyEnabled s := by simp
    rw [hown]
    exact outcome_tcpStage runtime s
  | 7, rfl =>
    exact outcome_ite (outcome_self s)
      (outcome_floodDrop (hother (by decide)) handleUdpFlood_floodHandler _ _ _ _ _ _ s)
  | 8, rfl =>
    exact outcome_ite (outcome_self s)
      (outcome_floodDrop (hother (by decide)) handleIcmpFlood_floodHandler _ _ _ _ _ _ s)
  | 9, rfl =>
    exact outcome_ite
      (outcome_ite (outcome_self s)
        (outcome_ite (outcome_dropAs _ _ _ (.refl s) (hother (by decide))) (outcome_self s)))
      (outcome_self s)
  | 10, rfl => exact outcome_checkRateLimitDrop (hother (by decide)) s

end EShield.Ebpf
