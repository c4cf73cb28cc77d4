import EShield.Ebpf.Proofs.OutcomeProofs
import EShield.Ebpf.Proofs.SourceProofs
import EShield.Lib.Silent

/-!
# Sources do not see each other

What the program does with a packet is decided by the settings and by the rows of the packet's source,
and it writes rows of that source only. Over a run the answers to the packets of one source are
therefore the same whatever the other sources send.
-/

namespace EShield.Ebpf

variable {h : Helpers} {src : IpKey} {m u : Maps} {nowNs : UInt64} {s t : PacketState}
  {pc : PacketCtx} {ctx : XdpContext} {runtime : RuntimeConfig}

/-! ## Stages -/

/-- A packet on its way through two states of the maps that are the same for its source. -/
structure Twin (s t : PacketState) : Prop where
  pc : s.pc = t.pc
  ctx : s.ctx = t.ctx
  maps : SameFor s.pc.src s.maps t.maps

/-- The same answer, and a packet that is still the same. -/
def TwinAnswers (r r' : Option XdpAction × PacketState) : Prop := r.1 = r'.1 ∧ Twin r.2 r'.2

/-- A stage answers a packet alike in states of the maps that are the same for its source. -/
def AnswersAlike (f : PacketState → Option XdpAction × PacketState) (pc : PacketCtx)
    (ctx : XdpContext) (m u : Maps) : Prop :=
  TwinAnswers (f { pc := pc, maps := m, ctx := ctx }) (f { pc := pc, maps := u, ctx := ctx })

theorem twin_goesOn (hmu : SameFor pc.src m u) :
    TwinAnswers (none, { pc := pc, maps := m, ctx := ctx })
      (none, { pc := pc, maps := u, ctx := ctx }) := ⟨rfl, rfl, rfl, hmu⟩

/-- What is read off the settings is the same on both sides. -/
theorem SameFor.read {A : Type*} (hmu : SameFor src m u) (f : Maps → A)
    (hf : ∀ m, f m = f m.settings) : f m = f u :=
  (hf m).trans ((congrArg f hmu.settings).trans (hf u).symm)

/-- The frame and the verdict of a reset do not depend on the maps. -/
theorem replyTcpRst_maps (ctx : XdpContext) (m u : Maps) (ipHdrLen : Nat) :
    (replyTcpRst h ctx m ipHdrLen).1 = (replyTcpRst h ctx u ipHdrLen).1 ∧
      (replyTcpRst h ctx m ipHdrLen).2.1 = (replyTcpRst h ctx u ipHdrLen).2.1 := by
  unfold replyTcpRst
  split
  · split <;> exact ⟨rfl, rfl⟩
  · exact ⟨rfl, rfl⟩

theorem dropPacket_twin (pc : PacketCtx) (ctx : XdpContext) (hmu : SameFor pc.src m u) :
    (dropPacket h { pc := pc, maps := m, ctx := ctx }).1 =
        (dropPacket h { pc := pc, maps := u, ctx := ctx }).1 ∧
      Twin (dropPacket h { pc := pc, maps := m, ctx := ctx }).2
        (dropPacket h { pc := pc, maps := u, ctx := ctx }).2 := by
  have hmaps : SameFor pc.src (dropPacket h { pc := pc, maps := m, ctx := ctx }).2.maps
      (dropPacket h { pc := pc, maps := u, ctx := ctx }).2.maps :=
    hmu.booked (core_dropPacket h _) (core_dropPacket h _)
  revert hmaps
  simp only [dropPacket]
  split
  · intro hmaps
    obtain ⟨hverdict, hframe⟩ := replyTcpRst_maps (h := h) ctx _ _ pc.ipHdrLen
    exact ⟨hverdict, rfl, hframe, hmaps⟩
  · intro hmaps
    exact ⟨rfl, rfl, rfl, hmaps⟩

/-- A drop writes the statistics and the books about packets only. -/
theorem core_dropAs_stats (ruleId : UInt16) (count : GlobalStats → GlobalStats) (protocol : UInt8)
    (s : PacketState) :
    ∃ globalStats, (dropAs h ruleId count protocol s).2.maps.core =
      { s.maps.core with globalStats := globalStats } := by
  simp only [dropAs, core_dropPacket]
  exact ⟨_, rfl⟩

theorem dropAs_twin (hmu : SameFor pc.src m u) (ruleId : UInt16)
    (count : GlobalStats → GlobalStats) (protocol : UInt8) :
    AnswersAlike (dropAs h ruleId count protocol) pc ctx m u := by
  have hstats : SameFor pc.src
      (m.withStats fun stats =>
        incProtocolDropped (count { stats with totalDropped := stats.totalDropped + 1 }) protocol)
      (u.withStats fun stats =>
        incProtocolDropped (count { stats with totalDropped := stats.totalDropped + 1 }) protocol) :=
    hmu.booked rfl rfl
  obtain ⟨hverdict, htwin⟩ := dropPacket_twin { pc with ruleId := ruleId } ctx hstats
  exact ⟨congrArg some hverdict, htwin⟩

theorem countPassed_same (hmu : SameFor src m u) (pc pc' : PacketCtx) :
    SameFor src (countPassed m pc) (countPassed u pc') :=
  hmu.booked (core_countPassed m pc) (core_countPassed u pc')

theorem twin_ite {c : Prop} [Decidable c] {r₁ r₂ r₁' r₂' : Option XdpAction × PacketState}
    (hthen : c → TwinAnswers r₁ r₁') (helse : ¬ c → TwinAnswers r₂ r₂') :
    TwinAnswers (if c then r₁ else r₂) (if c then r₁' else r₂') := by
  split
  · exact hthen ‹_›
  · exact helse ‹_›

theorem checkPortAclDrop_twin (hmu : SameFor pc.src m u) (aclCount : UInt8) :
    AnswersAlike (checkPortAclDrop h aclCount) pc ctx m u := by
  have hacl := hmu.read (checkPortAcl · pc.protocol pc.dport aclCount) fun _ => rfl
  unfold AnswersAlike checkPortAclDrop
  dsimp only at hacl ⊢
  rw [hacl]
  exact twin_ite (fun _ => twin_goesOn hmu)
    fun _ => twin_ite (fun _ => dropAs_twin hmu _ _ _) fun _ => twin_goesOn hmu

theorem checkBlacklistDrop_twin (hmu : SameFor pc.src m u) :
    AnswersAlike (checkBlacklistDrop h) pc ctx m u := by
  have hr : SameResult pc.src (isBlacklisted m pc.src pc.nowNs) (isBlacklisted u pc.src pc.nowNs) :=
    isBlacklisted_same hmu
  unfold AnswersAlike checkBlacklistDrop
  dsimp only
  refine hr.elim fun blocked m u hmu => ?_
  cases blocked with
  | false => exact twin_goesOn hmu
  | true => exact dropAs_twin hmu _ _ _

theorem checkFragmentDrop_twin (hmu : SameFor pc.src m u) (policy : UInt8) :
    AnswersAlike (checkFragmentDrop h policy 0) pc ctx m u := by
  unfold AnswersAlike checkFragmentDrop
  refine twin_ite (fun _ => twin_goesOn hmu) fun _ =>
    twin_ite (fun _ => dropAs_twin hmu _ _ _) fun _ => ?_
  exact twin_ite (fun hon => absurd rfl hon) fun _ => twin_goesOn hmu

theorem checkProjectPolicy_twin (hmu : SameFor pc.src m u) :
    AnswersAlike (checkProjectPolicy h) pc ctx m u := by
  have hlookup : ∀ addr dport protocol,
      lookupProject m addr dport protocol = lookupProject u addr dport protocol :=
    fun addr dport protocol => hmu.read (lookupProject · addr dport protocol) fun _ => rfl
  unfold AnswersAlike checkProjectPolicy
  dsimp only
  rw [hmu.config]
  refine twin_ite (fun _ => twin_goesOn hmu) fun _ => twin_ite (fun _ => twin_goesOn hmu) fun _ => ?_
  split
  · exact twin_goesOn hmu
  · rw [hlookup]
    split
    · exact twin_goesOn hmu
    · refine twin_ite (fun _ => ⟨rfl, rfl, rfl, countPassed_same hmu _ _⟩) fun _ => ?_
      refine twin_ite (fun _ => dropAs_twin hmu _ _ _) fun _ => ?_
      exact twin_ite (fun _ => ⟨rfl, rfl, rfl, hmu⟩) fun _ => twin_goesOn hmu

theorem checkGeoipDrop_twin (hmu : SameFor pc.src m u) (enabled defaultAction : UInt8) :
    AnswersAlike (checkGeoipDrop h enabled defaultAction) pc ctx m u := by
  have hblocked := hmu.read (isGeoipBlocked · pc.src) fun _ => rfl
  have hallowed := hmu.read (isGeoipAllowed · pc.src) fun _ => rfl
  unfold AnswersAlike checkGeoipDrop
  dsimp only at hblocked hallowed ⊢
  rw [hblocked, hallowed]
  exact twin_ite (fun _ => twin_goesOn hmu)
    fun _ => twin_ite (fun _ => dropAs_twin hmu _ _ _) fun _ => twin_goesOn hmu

theorem checkConnTrackDrop_twin (hmu : SameFor pc.src m u) (enabled : UInt8) (threshold : UInt32)
    (windowMs : UInt64) : AnswersAlike (checkConnTrackDrop h enabled threshold windowMs) pc ctx m u := by
  unfold AnswersAlike checkConnTrackDrop
  dsimp only
  refine twin_ite (fun _ => twin_goesOn hmu) fun _ => ?_
  split
  · exact twin_goesOn hmu
  · rename_i tcp _
    have hr : SameResult pc.src
        (checkConnTrack m pc.src (TcpHdr.flags ctx tcp) pc.nowNs (max threshold 1) (max windowMs 1))
        (checkConnTrack u pc.src (TcpHdr.flags ctx tcp) pc.nowNs (max threshold 1) (max windowMs 1)) :=
      checkConnTrack_same hmu _ _ _
    refine hr.elim fun refused m u hmu => ?_
    cases refused with
    | false => exact twin_goesOn hmu
    | true => exact dropAs_twin hmu _ _ _

theorem checkL7Drop_twin (hmu : SameFor pc.src m u) (patternCount : UInt8) :
    AnswersAlike (checkL7Drop h patternCount) pc ctx m u := by
  have hscan := hmu.read (scan · ctx pc.ipHdrLen pc.protocol patternCount) fun _ => rfl
  unfold AnswersAlike checkL7Drop
  dsimp only at hscan ⊢
  rw [hscan]
  exact twin_ite (fun _ => twin_goesOn hmu)
    fun _ => twin_ite (fun _ => dropAs_twin hmu _ _ _) fun _ => twin_goesOn hmu

theorem checkRateLimitDrop_twin (hmu : SameFor pc.src m u) (htrust : m.config.trustEnabled = 0) :
    AnswersAlike (checkRateLimitDrop h) pc ctx m u := by
  have hr : SameResult pc.src (checkRateLimit m pc.src pc.dport pc.nowNs)
      (checkRateLimit u pc.src pc.dport pc.nowNs) :=
    checkRateLimit_same hmu htrust pc.dport
  unfold AnswersAlike checkRateLimitDrop
  dsimp only
  refine twin_ite (fun _ => twin_goesOn hmu) fun _ => twin_ite (fun _ => twin_goesOn hmu) fun _ => ?_
  refine hr.elim fun refused m u hmu => ?_
  cases refused with
  | false => exact twin_goesOn hmu
  | true => exact dropAs_twin hmu _ _ _

theorem floodDrop_twin {handleFlood : Maps → IpKey → UInt64 → Bool × Maps}
    {flag : RuntimeConfig → UInt8} {reason : UInt16} (hflood : FloodHandler handleFlood flag reason)
    (hmu : SameFor pc.src m u) (htrust : m.config.trustEnabled = 0) (enabled : UInt8)
    (module ruleId : UInt16) (count : GlobalStats → GlobalStats) (dport : UInt16) :
    AnswersAlike (floodDrop h enabled 0 module handleFlood ruleId count dport) pc ctx m u := by
  have hport : ∀ p : Prop, ¬ ((0 : UInt8) ≠ 0 ∧ p) := fun p hp => hp.1 rfl
  unfold AnswersAlike floodDrop
  dsimp only
  by_cases hon : enabled ≠ 0 ∧ pc.projectFlags &&& module ≠ 0
  · have hr : SameResult pc.src (handleFlood m pc.src pc.nowNs) (handleFlood u pc.src pc.nowNs) :=
      hflood.same hmu htrust
    rw [if_pos hon, if_pos hon]
    refine hr.elim fun refused m u hmu => ?_
    cases refused with
    | false =>
      dsimp only
      rw [if_neg (hport _), if_neg (hport _)]
      exact ⟨rfl, rfl, rfl, hmu⟩
    | true =>
      have hcounted : SameFor ({ pc with rateCounted := true } : PacketCtx).src m u := hmu
      exact dropAs_twin hcounted _ _ _
  · rw [if_neg hon, if_neg hon]
    dsimp only
    rw [if_neg (hport _), if_neg (hport _)]
    exact twin_goesOn hmu

theorem synFloodDrop_twin (hmu : SameFor pc.src m u) (htrust : m.config.trustEnabled = 0) :
    AnswersAlike (synFloodDrop h 0) pc ctx m u := by
  have hport : ∀ p : Prop, ¬ ((0 : UInt8) ≠ 0 ∧ p) := fun p hp => hp.1 rfl
  unfold AnswersAlike synFloodDrop
  dsimp only
  rcases ctx.ptrAt TCP_HDR_LEN (ETH_HDR_LEN + pc.ipHdrLen) with _ | tcp
  · dsimp only
    rw [if_neg (hport _), if_neg (hport _)]
    exact twin_goesOn hmu
  · have hr : SameResult pc.src (handleSynFlood m pc.src (TcpHdr.flags ctx tcp) pc.nowNs)
        (handleSynFlood u pc.src (TcpHdr.flags ctx tcp) pc.nowNs) :=
      handleSynFlood_same hmu htrust (TcpHdr.flags ctx tcp)
    dsimp only
    refine hr.elim fun refused m u hmu => ?_
    obtain ⟨pc', hpc'⟩ : ∃ pc' : PacketCtx,
        (if TcpHdr.isSyn ctx tcp then { pc with rateCounted := true } else pc) = pc' := ⟨_, rfl⟩
    have hmu' : SameFor pc'.src m u := by
      rw [← hpc']
      split <;> exact hmu
    rw [hpc']
    cases refused with
    | false =>
      dsimp only
      rw [if_neg (hport _), if_neg (hport _)]
      exact twin_goesOn hmu'
    | true => exact dropAs_twin hmu' _ _ _

/-- The SYN proxy keys its rows by the address in the frame, which is the packet's source. -/
theorem synProxy_twin (hmu : SameFor pc.src m u) (htrust : m.config.trustEnabled = 0)
    (hsrc : pc.src = srcKey (IpHdr.saddr ctx ETH_HDR_LEN)) :
    AnswersAlike (synProxy h) pc ctx m u := by
  unfold AnswersAlike synProxy
  dsimp only
  split
  · exact ⟨rfl, rfl, rfl, hmu⟩
  rename_i ip hip
  obtain ⟨-, rfl⟩ := ptrAt_eq_some_iff.1 hip
  split
  · exact twin_goesOn hmu
  rename_i tcp _
  obtain ⟨pc', hpc', hsrc'⟩ : ∃ pc' : PacketCtx, (if TcpHdr.isSyn ctx tcp then
      { pc with rateCounted := true } else pc) = pc' ∧ pc'.src = pc.src := by
    refine ⟨_, rfl, ?_⟩
    split <;> rfl
  have hstate : ∀ m : Maps, (if TcpHdr.isSyn ctx tcp then
      { pc := { pc with rateCounted := true }, maps := m, ctx := ctx }
      else ({ pc := pc, maps := m, ctx := ctx } : PacketState)) =
      { pc := pc', maps := m, ctx := ctx } := by
    intro m
    rw [← hpc']
    split <;> rfl
  rw [hstate, hstate]
  dsimp only
  rw [hsrc] at hmu hsrc'
  obtain ⟨hverdict, hframe, hmu'⟩ :=
    handleSyn_same h hmu htrust { ipHdrLen := pc'.ipHdrLen, nowNs := pc'.nowNs } tcp
  have hkept := handleSyn_cases h ctx m { ipHdrLen := pc'.ipHdrLen, nowNs := pc'.nowNs }
    ETH_HDR_LEN tcp
  generalize handleSyn h ctx m _ _ _ = r at hverdict hframe hmu' hkept
  generalize handleSyn h ctx u _ _ _ = r' at hverdict hframe hmu'
  obtain ⟨action, ctx', m'⟩ := r
  obtain ⟨action', ctx'', u'⟩ := r'
  dsimp only at hverdict hframe hmu' hkept
  subst hverdict hframe
  cases action with
  | some action =>
    refine ⟨rfl, rfl, rfl, ?_⟩
    have hbooked : SameFor pc'.src m' u' := by rwa [hsrc']
    exact hbooked.booked rfl rfl
  | none =>
    have hctx : ctx' = ctx := by
      rcases hkept with ⟨-, hctx⟩ | hdrop | htx
      · exact hctx
      · cases hdrop
      · cases htx
    subst hctx
    have hr := handleAck_same hmu' { ipHdrLen := pc'.ipHdrLen, nowNs := pc'.nowNs } tcp
    dsimp only
    refine hr.elim fun answer m'' u'' hmu'' => ?_
    rw [← hsrc'] at hmu''
    cases answer with
    | none => exact twin_goesOn hmu''
    | some action => exact ⟨rfl, rfl, rfl, countPassed_same hmu'' _ _⟩

/-! ### What the stages write -/

theorem exists_other (src : IpKey) : ∃ other, other ≠ src := by
  by_cases hsrc : src = srcKey 0
  · exact ⟨srcKey 1, by rw [hsrc]; decide⟩
  · exact ⟨srcKey 0, fun heq => hsrc heq.symm⟩

theorem TouchesOnly.config (hmu : TouchesOnly src m u) : u.config = m.config := by
  obtain ⟨other, hne⟩ := exists_other src
  exact (hmu other hne).config

theorem dropAs_touches (ruleId : UInt16) (count : GlobalStats → GlobalStats) (protocol : UInt8)
    (s : PacketState) : TouchesOnly src s.maps (dropAs h ruleId count protocol s).2.maps := by
  obtain ⟨globalStats, hcore⟩ := core_dropAs_stats (h := h) ruleId count protocol s
  exact .of_core hcore

theorem countPassed_touches (m : Maps) (pc : PacketCtx) : TouchesOnly src m (countPassed m pc) :=
  .of_core (core_countPassed m pc)

theorem touches_ite {c : Prop} [Decidable c] {r r' : Option XdpAction × PacketState}
    (hthen : TouchesOnly src m r.2.maps) (helse : TouchesOnly src m r'.2.maps) :
    TouchesOnly src m (if c then r else r').2.maps := by
  split
  · exact hthen
  · exact helse

theorem portRateDrop_touches (ruleId : UInt16) (count : GlobalStats → GlobalStats)
    (protocol : UInt8) (dport : UInt16) (s : PacketState) :
    TouchesOnly src s.maps (portRateDrop h ruleId count protocol dport s).2.maps := by
  have hr := checkPortRate_touches s.maps src { protocol := s.pc.protocol, dport := dport } s.pc.nowNs
  unfold portRateDrop
  generalize checkPortRate s.maps _ _ = r at hr
  rcases r with ⟨_ | _, m⟩
  · exact hr
  · exact hr.trans (dropAs_touches _ _ _ _)

theorem checkBlacklistDrop_touches (s : PacketState) :
    TouchesOnly s.pc.src s.maps (checkBlacklistDrop h s).2.maps := by
  have hr := isBlacklisted_touches s.maps s.pc.src s.pc.nowNs
  unfold checkBlacklistDrop
  generalize isBlacklisted s.maps _ _ = r at hr
  rcases r with ⟨_ | _, m⟩
  · exact hr
  · exact hr.trans (dropAs_touches _ _ _ _)

theorem checkProjectPolicy_touches (s : PacketState) :
    TouchesOnly src s.maps (checkProjectPolicy h s).2.maps := by
  obtain ⟨flags, hans⟩ := checkProjectPolicy_answers h s
  obtain ⟨globalStats, hcore⟩ := hans.core
  exact .of_core hcore

theorem checkConnTrackDrop_touches (enabled : UInt8) (threshold : UInt32) (windowMs : UInt64)
    (s : PacketState) :
    TouchesOnly s.pc.src s.maps (checkConnTrackDrop h enabled threshold windowMs s).2.maps := by
  unfold checkConnTrackDrop
  refine touches_ite (.refl _ _) ?_
  split
  · exact .refl _ _
  · rename_i tcp _
    have hr := checkConnTrack_touches s.maps s.pc.src (TcpHdr.flags s.ctx tcp) s.pc.nowNs
      (max threshold 1) (max windowMs 1)
    generalize checkConnTrack s.maps _ _ _ _ _ = r at hr
    rcases r with ⟨_ | _, m⟩
    · exact hr
    · exact hr.trans (dropAs_touches _ _ _ _)

theorem checkRateLimitDrop_touches (s : PacketState) :
    TouchesOnly s.pc.src s.maps (checkRateLimitDrop h s).2.maps := by
  have hr := checkRateLimit_touches s.maps s.pc.src s.pc.dport s.pc.nowNs
  unfold checkRateLimitDrop
  refine touches_ite (.refl _ _) (touches_ite (.refl _ _) ?_)
  generalize checkRateLimit s.maps _ _ _ = r at hr
  rcases r with ⟨_ | _, m⟩
  · exact hr
  · exact hr.trans (dropAs_touches _ _ _ _)

theorem floodDrop_touches {handleFlood : Maps → IpKey → UInt64 → Bool × Maps}
    {flag : RuntimeConfig → UInt8} {reason : UInt16} (hflood : FloodHandler handleFlood flag reason)
    (enabled portRateEnabled : UInt8) (module ruleId : UInt16) (count : GlobalStats → GlobalStats)
    (dport : UInt16) (s : PacketState) :
    TouchesOnly s.pc.src s.maps
      (floodDrop h enabled portRateEnabled module handleFlood ruleId count dport s).2.maps := by
  obtain ⟨counted, hcounted, hmaps⟩ : ∃ counted : Bool × PacketState,
      (if enabled ≠ 0 ∧ s.pc.projectFlags &&& module ≠ 0 then
        ((handleFlood s.maps s.pc.src s.pc.nowNs).1,
          { s with
            pc := { s.pc with rateCounted := true }
            maps := (handleFlood s.maps s.pc.src s.pc.nowNs).2 })
      else (false, s)) = counted ∧ TouchesOnly s.pc.src s.maps counted.2.maps := by
    refine ⟨_, rfl, ?_⟩
    split
    · exact hflood.touches s.maps s.pc.src s.pc.nowNs
    · exact .refl _ _
  simp only [floodDrop, hcounted]
  rcases counted with ⟨_ | _, t⟩
  · exact touches_ite (hmaps.trans (portRateDrop_touches _ _ _ _ _)) hmaps
  · exact hmaps.trans (dropAs_touches _ _ _ _)

theorem synFloodDrop_touches (portRateEnabled : UInt8) (s : PacketState) :
    TouchesOnly s.pc.src s.maps (synFloodDrop h portRateEnabled s).2.maps := by
  unfold synFloodDrop
  dsimp only
  rcases s.ctx.ptrAt TCP_HDR_LEN (ETH_HDR_LEN + s.pc.ipHdrLen) with _ | tcp
  · exact touches_ite (portRateDrop_touches _ _ _ _ _) (.refl _ _)
  · have hr := handleSynFlood_touches s.maps s.pc.src (TcpHdr.flags s.ctx tcp) s.pc.nowNs
    dsimp only
    generalize handleSynFlood s.maps _ _ _ = r at hr
    rcases r with ⟨_ | _, m⟩
    · exact touches_ite (hr.trans (portRateDrop_touches _ _ _ _ _)) hr
    · exact hr.trans (dropAs_touches _ _ _ _)

theorem synProxy_touches (s : PacketState)
    (hsrc : s.pc.src = srcKey (IpHdr.saddr s.ctx ETH_HDR_LEN)) :
    TouchesOnly s.pc.src s.maps (synProxy h s).2.maps := by
  rcases hip : s.ctx.ptrAt IP_HDR_LEN ETH_HDR_LEN with _ | ip
  · simp only [synProxy, hip]
    exact .refl _ _
  rcases htcp : s.ctx.ptrAt TCP_HDR_LEN (ETH_HDR_LEN + s.pc.ipHdrLen) with _ | tcp
  · simp only [synProxy, hip, htcp]
    exact .refl _ _
  obtain ⟨-, rfl⟩ := ptrAt_eq_some_iff.1 hip
  have hsyn : TouchesOnly s.pc.src s.maps (synHandled h ETH_HDR_LEN tcp s).maps := by
    rw [hsrc]
    exact handleSyn_touches s.ctx s.maps s.ref ETH_HDR_LEN tcp
  have hack : TouchesOnly s.pc.src s.maps
      (ackHandled ETH_HDR_LEN tcp (synHandled h ETH_HDR_LEN tcp s)).maps := by
    refine hsyn.trans ?_
    rw [hsrc]
    exact handleAck_touches s.ctx _ _ ETH_HDR_LEN tcp
  rcases synProxy_cases h s hip htcp with ⟨-, -, hcore⟩ | ⟨-, -, hans⟩ | ⟨-, hans⟩
  · exact hsyn.trans (.of_core (g := (synHandled h _ tcp s).maps.core.globalStats) hcore)
  · obtain ⟨globalStats, hcore⟩ := hans.core
    exact hsyn.trans (.of_core hcore)
  · obtain ⟨globalStats, hcore⟩ := hans.core
    exact hack.trans (.of_core hcore)

/-- A stage writes rows of the packet's source only. -/
theorem stage_touches {f : PacketState → Option XdpAction × PacketState}
    (hf : f ∈ stages h runtime) (hip : HoldsIpHeader s) :
    TouchesOnly s.pc.src s.maps (f s).2.maps := by
  simp only [stages, List.mem_cons, List.not_mem_nil, or_false] at hf
  rcases hf with rfl | rfl | rfl | rfl | rfl | rfl | rfl | rfl | rfl | rfl | rfl
  · exact touches_ite (.refl _ _) (touches_ite (dropAs_touches _ _ _ _) (.refl _ _))
  · exact checkBlacklistDrop_touches s
  · exact touches_ite (.refl _ _) (touches_ite (dropAs_touches _ _ _ _)
      (touches_ite (portRateDrop_touches _ _ _ _ _) (.refl _ _)))
  · exact checkProjectPolicy_touches s
  · exact touches_ite (.refl _ _) (touches_ite (dropAs_touches _ _ _ _) (.refl _ _))
  · exact checkConnTrackDrop_touches _ _ _ s
  · refine touches_ite ?_ (.refl _ _)
    unfold checkTcpDrop
    split
    · exact .refl _ _
    split
    · rename_i hproxy
      exact synProxy_touches s (hip hproxy.1).2.2
    · exact synFloodDrop_touches _ s
  · exact touches_ite (.refl _ _) (floodDrop_touches handleUdpFlood_floodHandler _ _ _ _ _ _ s)
  · exact touches_ite (.refl _ _) (floodDrop_touches handleIcmpFlood_floodHandler _ _ _ _ _ _ s)
  · exact touches_ite (touches_ite (.refl _ _) (touches_ite (dropAs_touches _ _ _ _) (.refl _ _)))
      (.refl _ _)
  · exact checkRateLimitDrop_touches s

/-- A stage that hands the packet on hands on the packet that came. -/
theorem stage_samePacket {f : PacketState → Option XdpAction × PacketState}
    (hf : f ∈ stages h runtime) (hnone : f s = (none, t)) : SamePacket s t := by
  obtain ⟨i, hi⟩ := List.mem_iff_getElem?.1 hf
  have hout := outcome_stage hi s
  rw [hnone] at hout
  cases hout with
  | goesOn _ hsame => exact hsame

/-- Whatever a stage does, the packet keeps its source. -/
theorem stage_src {f : PacketState → Option XdpAction × PacketState} (hf : f ∈ stages h runtime)
    (s : PacketState) : (f s).2.pc.src = s.pc.src := by
  obtain ⟨i, hi⟩ := List.mem_iff_getElem?.1 hf
  have hout := outcome_stage hi s
  generalize f s = r at hout
  cases hout with
  | goesOn t hsame => exact (congrArg PacketCtx.src hsame.pc :)
  | passes t hsame => exact (congrArg PacketCtx.src hsame.pc :)
  | dropped t hsame hown =>
    dsimp only
    rw [dropPacket_pc]
    exact (congrArg PacketCtx.src hsame.pc :)
  | proxied a t hown ha hsame hframe hip htcp hsyn => exact (congrArg PacketCtx.src hsame.pc :)

theorem HoldsIpHeader.same (hip : HoldsIpHeader s) (hsame : SamePacket s t) : HoldsIpHeader t := by
  have hsrc : t.pc.src = s.pc.src := by rw [hsame.pc]
  unfold HoldsIpHeader
  rw [hsrc, hsame.ctx]
  exact hip

theorem runStages_touches {list : List (PacketState → Option XdpAction × PacketState)}
    (hsub : ∀ f ∈ list, f ∈ stages h runtime) (hip : HoldsIpHeader s) :
    TouchesOnly s.pc.src s.maps (runStages h list s).2.maps := by
  induction list generalizing s with
  | nil => exact .refl _ _
  | cons f list ih =>
    have hf := hsub f List.mem_cons_self
    have htouch := stage_touches hf hip
    rw [runStages]
    rcases hfs : f s with ⟨_ | action, t⟩
    · have hsame := stage_samePacket hf hfs
      have hrest := ih (fun g hg => hsub g (List.mem_cons_of_mem f hg)) (hip.same hsame)
      rw [hfs] at htouch
      rw [show t.pc.src = s.pc.src by rw [hsame.pc]] at hrest
      exact htouch.trans hrest
    · rw [hfs] at htouch
      exact htouch.trans
        (.of_core (g := t.maps.core.globalStats) (core_logPacketSample h action t))

theorem stage_twin {f : PacketState → Option XdpAction × PacketState} (hf : f ∈ stages h runtime)
    (hport : runtime.portRateLimitEnabled = 0) (hmu : SameFor pc.src m u)
    (htrust : m.config.trustEnabled = 0)
    (hip : HoldsIpHeader { pc := pc, maps := m, ctx := ctx }) : AnswersAlike f pc ctx m u := by
  simp only [stages, hport, List.mem_cons, List.not_mem_nil, or_false] at hf
  rcases hf with rfl | rfl | rfl | rfl | rfl | rfl | rfl | rfl | rfl | rfl | rfl
  · exact checkPortAclDrop_twin hmu _
  · exact checkBlacklistDrop_twin hmu
  · exact checkFragmentDrop_twin hmu _
  · exact checkProjectPolicy_twin hmu
  · exact checkGeoipDrop_twin hmu _ _
  · exact checkConnTrackDrop_twin hmu _ _ _
  · refine twin_ite (fun _ => ?_) fun _ => twin_goesOn hmu
    unfold checkTcpDrop
    refine twin_ite (fun _ => twin_goesOn hmu) fun _ => twin_ite (fun hproxy => ?_) fun _ => ?_
    · exact synProxy_twin hmu htrust (hip hproxy.1).2.2
    · exact synFloodDrop_twin hmu htrust
  · exact twin_ite (fun _ => twin_goesOn hmu)
      fun _ => floodDrop_twin handleUdpFlood_floodHandler hmu htrust _ _ _ _ _
  · exact twin_ite (fun _ => twin_goesOn hmu)
      fun _ => floodDrop_twin handleIcmpFlood_floodHandler hmu htrust _ _ _ _ _
  · exact twin_ite (fun _ => checkL7Drop_twin hmu _) fun _ => twin_goesOn hmu
  · exact checkRateLimitDrop_twin hmu htrust

/-- A sample is taken of the packet as it is. -/
theorem logPacketSample_eq (action : XdpAction) (s : PacketState) :
    logPacketSample h action s = { s with maps := (logPacketSample h action s).maps } := by
  simp only [logPacketSample]
  repeat' split
  all_goals rfl

theorem runStages_twin {list : List (PacketState → Option XdpAction × PacketState)}
    (hsub : ∀ f ∈ list, f ∈ stages h runtime) (hport : runtime.portRateLimitEnabled = 0)
    (hst : Twin s t) (htrust : s.maps.config.trustEnabled = 0) (hip : HoldsIpHeader s) :
    TwinAnswers (runStages h list s) (runStages h list t) := by
  induction list generalizing s t with
  | nil => exact ⟨rfl, hst⟩
  | cons f list ih =>
    have hf := hsub f List.mem_cons_self
    have htouch := stage_touches hf hip
    obtain ⟨pc, m, ctx⟩ := s
    obtain ⟨_, u, _⟩ := t
    obtain ⟨rfl, rfl, hmu⟩ := hst
    have halike := stage_twin hf hport hmu htrust hip
    unfold AnswersAlike at halike
    rw [runStages, runStages]
    rcases hfs : f { pc := pc, maps := m, ctx := ctx } with ⟨_ | action, s'⟩ <;>
      rcases hft : f { pc := pc, maps := u, ctx := ctx } with ⟨_ | action', t'⟩ <;>
      rw [hfs, hft] at halike <;> obtain ⟨hverdict, htwin⟩ := halike <;>
      dsimp only at hverdict htwin
    · rw [hfs] at htouch
      refine ih (fun g hg => hsub g (List.mem_cons_of_mem f hg)) htwin ?_
        (hip.same (stage_samePacket hf hfs))
      rw [htouch.config]
      exact htrust
    · cases hverdict
    · cases hverdict
    · cases hverdict
      refine ⟨rfl, ?_⟩
      have hbooked := htwin.maps.booked
        (f := s'.maps.core.globalStats) (g := t'.maps.core.globalStats)
        (core_logPacketSample h action s') (core_logPacketSample h action t')
      dsimp only
      rw [logPacketSample_eq action s', logPacketSample_eq action t']
      exact ⟨htwin.pc, htwin.ctx, hbooked⟩

theorem runStages_src {list : List (PacketState → Option XdpAction × PacketState)}
    (hsub : ∀ f ∈ list, f ∈ stages h runtime) (s : PacketState) :
    (runStages h list s).2.pc.src = s.pc.src := by
  induction list generalizing s with
  | nil => rfl
  | cons f list ih =>
    have hsrc := stage_src (hsub f List.mem_cons_self) s
    rw [runStages]
    rcases hfs : f s with ⟨_ | action, t⟩
    · rw [hfs] at hsrc
      exact (ih (fun g hg => hsub g (List.mem_cons_of_mem f hg)) t).trans hsrc
    · rw [hfs] at hsrc
      dsimp only
      rw [logPacketSample_eq]
      exact hsrc

/-! ## The program -/

/-- The program answers a packet by what it keeps about the packet's source. -/
theorem tryEshield_twin (h : Helpers) (nowNs : UInt64) (hfrom : FromSource src ctx)
    (hmu : SameFor src m u)
    (htrust : m.config.trustEnabled = 0) (hport : m.config.portRateLimitEnabled = 0) :
    (tryEshield h nowNs ctx m).1 = (tryEshield h nowNs ctx u).1 ∧
      (tryEshield h nowNs ctx m).2.1 = (tryEshield h nowNs ctx u).2.1 ∧
      SameFor src (tryEshield h nowNs ctx m).2.2 (tryEshield h nowNs ctx u).2.2 := by
  obtain ⟨pc, hparse, rfl⟩ := Option.map_eq_some_iff.1 hfrom
  have henter : Twin (enter nowNs ctx m pc) (enter nowNs ctx u pc) :=
    ⟨by simp only [enter, hmu.config], rfl, hmu.booked rfl rfl⟩
  have hwhite : isWhitelisted m pc.src = isWhitelisted u pc.src :=
    hmu.read (isWhitelisted · pc.src) fun _ => rfl
  rw [tryEshield_of_parse hparse, tryEshield_of_parse hparse, ← hwhite]
  split
  · exact ⟨rfl, rfl, countPassed_same henter.maps _ _⟩
  · rw [← hmu.config]
    obtain ⟨hverdict, htwin⟩ : TwinAnswers (runStages h (stages h m.config) (enter nowNs ctx m pc))
        (runStages h (stages h m.config) (enter nowNs ctx u pc)) :=
      runStages_twin (fun _ hf => hf) hport henter htrust (holdsIpHeader_enter hparse nowNs m)
    have hsrc : (runStages h (stages h m.config) (enter nowNs ctx m pc)).2.pc.src = _ :=
      runStages_src (fun _ hf => hf) (enter nowNs ctx m pc)
    generalize runStages h (stages h m.config) (enter nowNs ctx m pc) = r at hverdict htwin hsrc
    generalize runStages h (stages h m.config) (enter nowNs ctx u pc) = r' at hverdict htwin
    obtain ⟨action, s⟩ := r
    obtain ⟨action', t⟩ := r'
    dsimp only at hverdict htwin hsrc
    subst hverdict
    have hmaps := htwin.maps
    rw [hsrc] at hmaps
    cases action with
    | none => exact ⟨rfl, htwin.ctx, countPassed_same hmaps _ _⟩
    | some action => exact ⟨rfl, htwin.ctx, hmaps⟩

/-- A packet of another source, or a frame that is none, leaves everything as the source sees it. -/
theorem tryEshield_foreign (hfrom : ¬ FromSource src ctx) :
    SameFor src (tryEshield h nowNs ctx m).2.2 m := by
  cases hparse : parse ctx with
  | none =>
    unfold tryEshield
    rw [hparse]
    exact .refl src m
  | some pc =>
    have hne : src ≠ pc.src := fun heq => hfrom (by rw [FromSource, hparse, heq]; rfl)
    have henter : SameFor src (enter nowNs ctx m pc).maps m :=
      .of_core (g := tallyOf (enter nowNs ctx m pc).maps.globalStats) rfl
    rw [tryEshield_of_parse hparse]
    split
    · exact (countPassed_touches _ _ src hne).trans henter
    · have htouch : SameFor src (runStages h (stages h m.config) (enter nowNs ctx m pc)).2.maps _ :=
        runStages_touches (fun _ hf => hf) (holdsIpHeader_enter hparse nowNs m) src hne
      generalize runStages h (stages h m.config) (enter nowNs ctx m pc) = r at htouch
      rcases r with ⟨_ | action, t⟩
      · exact (countPassed_touches _ _ src hne).trans (htouch.trans henter)
      · exact htouch.trans henter

/-- No packet changes the settings. -/
theorem settings_tryEshield (h : Helpers) (nowNs : UInt64) (ctx : XdpContext) (m : Maps) :
    (tryEshield h nowNs ctx m).2.2.settings = m.settings := by
  obtain ⟨other, hfrom⟩ : ∃ other, ¬ FromSource other ctx := by
    cases hparse : parse ctx with
    | none => exact ⟨srcKey 0, by simp [FromSource, hparse]⟩
    | some pc =>
      obtain ⟨other, hne⟩ := exists_other pc.src
      exact ⟨other, by simpa [FromSource, hparse] using hne.symm⟩
  exact (tryEshield_foreign hfrom).settings

/-! ## Runs -/

variable {Cpu : Type*} [DecidableEq Cpu]

/-- The data plane takes every step. -/
theorem exec_trafficStep (w : DataPlane Cpu) (as : List (TrafficLabel Cpu)) :
    ∃ w', Exec.exec trafficStep w as = some w' := by
  induction as generalizing w with
  | nil => exact ⟨w, rfl⟩
  | cons a as ih =>
    obtain ⟨v, hv⟩ : ∃ v, trafficStep w a = some v := by
      cases a with
      | packet cpu h nowNs ctx => exact ⟨_, rfl⟩
      | write f => exact ⟨_, rfl⟩
    obtain ⟨w', hw'⟩ := ih v
    exact ⟨w', by rw [Exec.exec_cons, hv]; exact hw'⟩

omit [DecidableEq Cpu] in
/-- A CPU's statistics are nothing that a source sees. -/
theorem mapsOn_same (w : DataPlane Cpu) (cpu : Cpu) : SameFor src (w.mapsOn cpu) w.maps :=
  .of_core (g := tallyOf (w.stats cpu)) rfl

/-- A step that is not the source's is not seen by it. -/
theorem foreign_step {w v w' : DataPlane Cpu} {a : TrafficLabel Cpu}
    (hwv : SameFor src w.maps v.maps) (hforeign : foreign src a = true)
    (hstep : trafficStep w a = some w') :
    SameFor src w'.maps v.maps ∧ answerTo src w a = none := by
  cases a with
  | write f => cases hforeign
  | packet cpu h nowNs ctx =>
    have hfrom : ¬ FromSource src ctx := by simpa [foreign] using hforeign
    cases hstep
    exact ⟨(tryEshield_foreign hfrom).trans ((mapsOn_same w cpu).trans hwv), if_neg hfrom⟩

/-- A step of the source's is answered alike, and what is written keeps the states the same. -/
theorem own_step {w v w' : DataPlane Cpu} {a : TrafficLabel Cpu}
    (hwv : SameFor src w.maps v.maps) (hsep : Separate src w a) (hforeign : foreign src a = false)
    (hstep : trafficStep w a = some w') :
    answerTo src w a = answerTo src v a ∧
      ∃ v', trafficStep v a = some v' ∧ SameFor src w'.maps v'.maps := by
  cases a with
  | write f =>
    cases hstep
    exact ⟨rfl, _, rfl, hsep _ _ hwv⟩
  | packet cpu h nowNs ctx =>
    have hfrom : FromSource src ctx := by simpa [foreign] using hforeign
    cases hstep
    have hviews := (mapsOn_same w cpu).trans (hwv.trans (mapsOn_same v cpu).symm)
    obtain ⟨hverdict, hframe, hmaps⟩ := tryEshield_twin h nowNs hfrom hviews hsep.1 hsep.2
    refine ⟨?_, _, rfl, hmaps⟩
    simp only [answerTo, if_pos hfrom, hverdict, hframe]

/-- Without the packets of the others the source gets the same answers. -/
theorem outputs_without_foreign {w v : DataPlane Cpu} {as : List (TrafficLabel Cpu)}
    (hsame : SameFor src w.maps v.maps) (hsep : Exec.Along trafficStep (Separate src) w as) :
    Exec.outputs trafficStep (answerTo src) v (as.filter fun a => !foreign src a) =
      Exec.outputs trafficStep (answerTo src) w as := by
  obtain ⟨w', hw'⟩ := exec_trafficStep w as
  obtain ⟨v', -, -, houts⟩ := Exec.exec_filter_silent trafficStep (answerTo src)
    (fun w v : DataPlane Cpu => SameFor src w.maps v.maps) (Separate src) (foreign src)
    (fun _ _ _ _ hwv _ hforeign hstep => foreign_step hwv hforeign hstep)
    (fun _ _ _ _ hwv hsep hforeign hstep => own_step hwv hsep hforeign hstep) hsame hsep hw'
  exact houts

/-- Two runs that bring a source the same packets, and the same writes between them, from states that
are the same for the source, answer these packets alike, whatever the other sources send in either. An
LRU map that runs full gives up entries; these are among the writes, so the source loses the same rows
at the same places of both runs. -/
theorem sources_are_isolated {w v : DataPlane Cpu} {as bs : List (TrafficLabel Cpu)}
    (hsame : SameFor src w.maps v.maps) (hsep : Exec.Along trafficStep (Separate src) w as)
    (hsep' : Exec.Along trafficStep (Separate src) v bs)
    (hown : (as.filter fun a => !foreign src a) = bs.filter fun a => !foreign src a) :
    Exec.outputs trafficStep (answerTo src) w as = Exec.outputs trafficStep (answerTo src) v bs := by
  have hw := outputs_without_foreign hsame hsep
  have hv := outputs_without_foreign (SameFor.refl src v.maps) hsep'
  rw [← hw, hown, hv]

/-- Packets alone never switch the shared modules on. -/
theorem separate_packets {w : DataPlane Cpu} {as : List (TrafficLabel Cpu)}
    (htrust : w.maps.config.trustEnabled = 0) (hport : w.maps.config.portRateLimitEnabled = 0)
    (hpackets : ∀ a ∈ as, ∃ cpu h nowNs ctx, a = .packet cpu h nowNs ctx) :
    Exec.Along trafficStep (Separate src) w as := by
  induction as generalizing w with
  | nil => trivial
  | cons a as ih =>
    obtain ⟨cpu, h, nowNs, ctx, rfl⟩ := hpackets a List.mem_cons_self
    refine .cons rfl ⟨htrust, hport⟩ (ih ?_ ?_ fun b hb => hpackets b (List.mem_cons_of_mem _ hb))
    all_goals
      have hsettings := settings_tryEshield h nowNs ctx (w.mapsOn cpu)
      have hconfig := (congrArg Maps.config hsettings :)
      dsimp only [trafficStep]
      simp only [Maps.settings] at hconfig
      rw [hconfig]
      assumption

/-- A UDP frame from 10.0.0.`host` to 10.0.0.2. -/
def udpFrom (host : UInt8) : XdpContext :=
  .ofBytes ([2, 0, 0, 0, 0, 2, 2, 0, 0, 0, 0, 1, 0x08, 0x00] ++
    [0x45, 0, 0, 28, 0, 0, 0, 0, 64, 17, 0, 0, 10, 0, 0, host, 10, 0, 0, 2] ++
    [0x30, 0x39, 0x00, 0x35, 0, 8, 0, 0])

/-- One packet is let through; the second is over the limit. -/
def oneEach : DataPlane Nat :=
  { maps :=
      { config := { rateLimitEnabled := 1 }
        rateLimitCfg := { threshold := 1, tickMs := 1000, decayNum := 1, decayDen := 2 } } }

def alone : List (TrafficLabel Nat) :=
  [.packet 0 {} 5 (udpFrom 1), .packet 1 {} 8 (udpFrom 1)]

def crowded : List (TrafficLabel Nat) :=
  [.packet 0 {} 5 (udpFrom 1), .packet 0 {} 6 (udpFrom 7), .packet 1 {} 7 (udpFrom 7),
    .packet 0 {} 7 (udpFrom 9), .packet 1 {} 8 (udpFrom 1)]

theorem sources_are_isolated_crowd :
    Exec.outputs trafficStep (answerTo (srcKey 0x0100000a)) oneEach crowded =
        Exec.outputs trafficStep (answerTo (srcKey 0x0100000a)) oneEach alone ∧
      (Exec.outputs trafficStep (answerTo (srcKey 0x0100000a)) oneEach alone).map Prod.fst =
        [.pass, .drop] := by
  refine ⟨sources_are_isolated (.refl _ _) (separate_packets rfl rfl ?_)
    (separate_packets rfl rfl ?_) ?_, by decide⟩
  · simp [crowded]
  · simp [alone]
  · rfl

end EShield.Ebpf
