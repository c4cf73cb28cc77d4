import EShield.Ebpf.ProjectModules
import EShield.Ebpf.Proofs.ProjectProofs

/-!
# Runs with and without the reset

Only `drop_packet` looks at the reset. So the two runs of a packet agree until a stage leaves it to
`drop_packet`, and they differ exactly if the reset is then due.
-/

namespace EShield.Ebpf

variable {h : Helpers} {runtime : RuntimeConfig} {s t u : PacketState}

/-! ## Stages -/

/-- What a stage answers with the reset configured and with it switched off: the same, or the drop of
the same packet. `own` is where a stage gives verdicts itself. -/
inductive Alike (h : Helpers) (own : Prop) (s : PacketState) :
    Option XdpAction × PacketState → Option XdpAction × PacketState → Prop where
  | goesOn (t : PacketState) (hreset : t.pc.tcpResetOnDrop = s.pc.tcpResetOnDrop)
    (hprotocol : t.pc.protocol = s.pc.protocol) : Alike h own s (none, t) (none, noReset t)
  | acted (a : XdpAction) (t : PacketState) (ha : a = .pass ∨ own) :
    Alike h own s (some a, t) (some a, noReset t)
  | dropped (t : PacketState) (hreset : t.pc.tcpResetOnDrop = s.pc.tcpResetOnDrop)
    (hprotocol : t.pc.protocol = s.pc.protocol) (hown : ¬ own) :
    Alike h own s (some (dropPacket h t).1, (dropPacket h t).2)
      (some (dropPacket h (noReset t)).1, (dropPacket h (noReset t)).2)

theorem alike_self (s : PacketState) {own : Prop} :
    Alike h own s (none, s) (none, noReset s) := .goesOn s rfl rfl

theorem alike_dropAs {own : Prop} (ruleId : UInt16) (count : GlobalStats → GlobalStats)
    (protocol : UInt8) (hreset : t.pc.tcpResetOnDrop = s.pc.tcpResetOnDrop)
    (hprotocol : t.pc.protocol = s.pc.protocol) (hown : ¬ own) :
    Alike h own s (dropAs h ruleId count protocol t)
      (dropAs h ruleId count protocol (noReset t)) :=
  .dropped _ hreset hprotocol hown

/-- The conditions of the stages do not look at the reset. -/
theorem alike_ite {own c : Prop} [Decidable c] {r₁ r₁' r₂ r₂' : Option XdpAction × PacketState}
    (hthen : Alike h own s r₁ r₁') (helse : Alike h own s r₂ r₂') :
    Alike h own s (if c then r₁ else r₂) (if c then r₁' else r₂') := by
  split
  · exact hthen
  · exact helse

theorem portRateDrop_alike {own : Prop} (ruleId : UInt16) (count : GlobalStats → GlobalStats)
    (protocol : UInt8) (dport : UInt16) (hreset : t.pc.tcpResetOnDrop = s.pc.tcpResetOnDrop)
    (hprotocol : t.pc.protocol = s.pc.protocol) (hown : ¬ own) :
    Alike h own s (portRateDrop h ruleId count protocol dport t)
      (portRateDrop h ruleId count protocol dport (noReset t)) := by
  simp only [portRateDrop, noReset]
  rcases checkPortRate t.maps { protocol := t.pc.protocol, dport := dport } t.pc.nowNs with
    ⟨_ | _, m⟩
  · exact .goesOn { t with maps := m } hreset hprotocol
  · exact alike_dropAs ruleId count protocol (t := { t with maps := m }) hreset hprotocol hown

theorem checkPortAclDrop_alike (aclCount : UInt8) (s : PacketState) :
    Alike h False s (checkPortAclDrop h aclCount s) (checkPortAclDrop h aclCount (noReset s)) :=
  alike_ite (alike_self s) (alike_ite (alike_dropAs _ _ _ rfl rfl id) (alike_self s))

theorem checkBlacklistDrop_alike (s : PacketState) :
    Alike h False s (checkBlacklistDrop h s) (checkBlacklistDrop h (noReset s)) := by
  simp only [checkBlacklistDrop, noReset]
  rcases isBlacklisted s.maps s.pc.src s.pc.nowNs with ⟨_ | _, m⟩
  · exact .goesOn { s with maps := m } rfl rfl
  · exact alike_dropAs _ _ _ (t := { s with maps := m }) rfl rfl id

theorem checkFragmentDrop_alike (policy portRateEnabled : UInt8) (s : PacketState) :
    Alike h False s (checkFragmentDrop h policy portRateEnabled s)
      (checkFragmentDrop h policy portRateEnabled (noReset s)) :=
  alike_ite (alike_self s) (alike_ite (alike_dropAs _ _ _ rfl rfl id)
    (alike_ite (portRateDrop_alike _ _ _ _ rfl rfl id) (alike_self s)))

theorem checkGeoipDrop_alike (geoipEnabled geoipDefaultAction : UInt8) (s : PacketState) :
    Alike h False s (checkGeoipDrop h geoipEnabled geoipDefaultAction s)
      (checkGeoipDrop h geoipEnabled geoipDefaultAction (noReset s)) :=
  alike_ite (alike_self s) (alike_ite (alike_dropAs _ _ _ rfl rfl id) (alike_self s))

theorem checkL7Drop_alike (patternCount : UInt8) (s : PacketState) :
    Alike h False s (checkL7Drop h patternCount s) (checkL7Drop h patternCount (noReset s)) :=
  alike_ite (alike_self s) (alike_ite (alike_dropAs _ _ _ rfl rfl id) (alike_self s))

theorem checkConnTrackDrop_alike (enabled : UInt8) (threshold : UInt32) (windowMs : UInt64)
    (s : PacketState) :
    Alike h False s (checkConnTrackDrop h enabled threshold windowMs s)
      (checkConnTrackDrop h enabled threshold windowMs (noReset s)) := by
  refine alike_ite (alike_self s) ?_
  simp only [noReset]
  cases s.ctx.ptrAt TCP_HDR_LEN (ETH_HDR_LEN + s.pc.ipHdrLen) with
  | none => exact alike_self s
  | some tcp =>
    dsimp only
    rcases checkConnTrack s.maps s.pc.src (TcpHdr.flags s.ctx tcp) s.pc.nowNs (max threshold 1)
      (max windowMs 1) with ⟨_ | _, m⟩
    · exact .goesOn { s with maps := m } rfl rfl
    · exact alike_dropAs _ _ _ (t := { s with maps := m }) rfl rfl id

theorem checkRateLimitDrop_alike (s : PacketState) :
    Alike h False s (checkRateLimitDrop h s) (checkRateLimitDrop h (noReset s)) := by
  refine alike_ite (alike_self s) (alike_ite (alike_self s) ?_)
  simp only [noReset]
  rcases checkRateLimit s.maps s.pc.src s.pc.dport s.pc.nowNs with ⟨_ | _, m⟩
  · exact .goesOn { s with maps := m } rfl rfl
  · exact alike_dropAs _ _ _ (t := { s with maps := m }) rfl rfl id

theorem checkProjectPolicy_alike (s : PacketState) :
    Alike h False s (checkProjectPolicy h s) (checkProjectPolicy h (noReset s)) := by
  have hsame : matchedProject (noReset s) = matchedProject s := rfl
  have hflags : projectFlagsFor (noReset s) = projectFlagsFor s := rfl
  rw [checkProjectPolicy_of_matched, checkProjectPolicy_of_matched, hsame, hflags]
  cases matchedProject s with
  | none => exact alike_self s
  | some policy =>
    refine alike_ite (.acted .pass _ (.inl rfl))
      (alike_ite (alike_dropAs _ _ _ rfl rfl id) (.goesOn (withFlags (projectFlagsFor s) s) rfl rfl))

theorem floodDrop_alike (enabled portRateEnabled : UInt8) (module : UInt16)
    (handleFlood : Maps → IpKey → UInt64 → Bool × Maps) (ruleId : UInt16)
    (count : GlobalStats → GlobalStats) (dport : UInt16) (s : PacketState) :
    Alike h False s (floodDrop h enabled portRateEnabled module handleFlood ruleId count dport s)
      (floodDrop h enabled portRateEnabled module handleFlood ruleId count dport (noReset s)) := by
  have hcounted : ∀ t : PacketState, enabled ≠ 0 ∧ t.pc.projectFlags &&& module ≠ 0 →
      floodDrop h enabled portRateEnabled module handleFlood ruleId count dport t =
        if (handleFlood t.maps t.pc.src t.pc.nowNs).1 then
          dropAs h ruleId count t.pc.protocol (floodCounted handleFlood t)
        else if portRateEnabled ≠ 0 ∧ t.pc.projectFlags &&& module ≠ 0 then
          portRateDrop h rules.PORT_RATE countPortRate t.pc.protocol dport
            (floodCounted handleFlood t)
        else (none, floodCounted handleFlood t) := by
    intro t hactive
    unfold floodDrop
    dsimp only
    rw [if_pos hactive]
    cases (handleFlood t.maps t.pc.src t.pc.nowNs).1 <;> rfl
  have hidle : ∀ t : PacketState, ¬ (enabled ≠ 0 ∧ t.pc.projectFlags &&& module ≠ 0) →
      floodDrop h enabled portRateEnabled module handleFlood ruleId count dport t =
        if portRateEnabled ≠ 0 ∧ t.pc.projectFlags &&& module ≠ 0 then
          portRateDrop h rules.PORT_RATE countPortRate t.pc.protocol dport t
        else (none, t) := by
    intro t hactive
    unfold floodDrop
    dsimp only
    rw [if_neg hactive]
  by_cases hactive : enabled ≠ 0 ∧ s.pc.projectFlags &&& module ≠ 0
  · rw [hcounted s hactive, hcounted (noReset s) hactive]
    exact alike_ite (alike_dropAs _ _ _ (t := floodCounted handleFlood s) rfl rfl id)
      (alike_ite (portRateDrop_alike _ _ _ _ (t := floodCounted handleFlood s) rfl rfl id)
        (.goesOn (floodCounted handleFlood s) rfl rfl))
  · rw [hidle s hactive, hidle (noReset s) hactive]
    exact alike_ite (portRateDrop_alike _ _ _ _ rfl rfl id) (alike_self s)

theorem synFloodDrop_alike (portRateEnabled : UInt8) (s : PacketState) :
    Alike h False s (synFloodDrop h portRateEnabled s)
      (synFloodDrop h portRateEnabled (noReset s)) := by
  cases hptr : s.ctx.ptrAt TCP_HDR_LEN (ETH_HDR_LEN + s.pc.ipHdrLen) with
  | none =>
    have hidle : ∀ t : PacketState, t.ctx.ptrAt TCP_HDR_LEN (ETH_HDR_LEN + t.pc.ipHdrLen) = none →
        synFloodDrop h portRateEnabled t =
          if portRateEnabled ≠ 0 ∧ t.pc.projectFlags &&& project_modules.SYN_FLOOD ≠ 0 then
            portRateDrop h rules.PORT_RATE countPortRate IPPROTO_TCP (bswap16 t.pc.dport) t
          else (none, t) := by
      intro t hptr
      rw [synFloodDrop, hptr]
    rw [hidle s hptr, hidle (noReset s) hptr]
    exact alike_ite (portRateDrop_alike _ _ _ _ rfl rfl id) (alike_self s)
  | some tcp =>
    have hcounted : ∀ t : PacketState,
        t.ctx.ptrAt TCP_HDR_LEN (ETH_HDR_LEN + t.pc.ipHdrLen) = some tcp →
        synFloodDrop h portRateEnabled t =
          if (handleSynFlood t.maps t.pc.src (TcpHdr.flags t.ctx tcp) t.pc.nowNs).1 then
            dropAs h rules.SYN_FLOOD countSynFlood IPPROTO_TCP (synCounted tcp t)
          else if portRateEnabled ≠ 0 ∧
              (synCounted tcp t).pc.projectFlags &&& project_modules.SYN_FLOOD ≠ 0 then
            portRateDrop h rules.PORT_RATE countPortRate IPPROTO_TCP
              (bswap16 (synCounted tcp t).pc.dport) (synCounted tcp t)
          else (none, synCounted tcp t) := by
      intro t hptr
      rw [synFloodDrop, hptr]
      dsimp only
      cases (handleSynFlood t.maps t.pc.src (TcpHdr.flags t.ctx tcp) t.pc.nowNs).1 <;> rfl
    have hmark : synCounted tcp (noReset s) = noReset (synCounted tcp s) := by
      rw [synCounted, synCounted, noReset, noReset]
      dsimp only
      cases TcpHdr.isSyn s.ctx tcp <;> rfl
    have hreset : (synCounted tcp s).pc.tcpResetOnDrop = s.pc.tcpResetOnDrop := by
      rw [synCounted]
      dsimp only
      split <;> rfl
    have hprotocol := (worked_synCounted tcp s).protocol
    rw [hcounted s hptr, hcounted (noReset s) hptr, hmark]
    exact alike_ite (alike_dropAs _ _ _ hreset hprotocol id)
      (alike_ite (portRateDrop_alike _ _ _ _ hreset hprotocol id) (.goesOn _ hreset hprotocol))

/-- The SYN proxy behind its mark on a SYN, for a frame with whole headers. -/
def synProxyOn (h : Helpers) (ip tcp : Nat) (s : PacketState) : Option XdpAction × PacketState :=
  match handleSyn h s.ctx s.maps s.ref ip tcp with
  | (some action, ctx, m) =>
    let m := m.withStats fun st =>
      let st := countSynFlood st
      if action ≠ .tx then
        incProtocolDropped { st with totalDropped := st.totalDropped + 1 } IPPROTO_TCP
      else st
    (some action, { pc := { s.pc with ruleId := rules.SYN_FLOOD }, maps := m, ctx := ctx })
  | (none, ctx, m) =>
    match handleAck ctx m s.ref ip tcp with
    | (some action, m) => (some action, { pc := s.pc, maps := countPassed m s.pc, ctx := ctx })
    | (none, m) => (none, { pc := s.pc, maps := m, ctx := ctx })

theorem synProxy_eq (h : Helpers) (s : PacketState) {ip tcp : Nat}
    (hip : s.ctx.ptrAt IP_HDR_LEN ETH_HDR_LEN = some ip)
    (htcp : s.ctx.ptrAt TCP_HDR_LEN (ETH_HDR_LEN + s.pc.ipHdrLen) = some tcp) :
    synProxy h s =
      synProxyOn h ip tcp
        (if TcpHdr.isSyn s.ctx tcp then { s with pc := { s.pc with rateCounted := true } }
        else s) := by
  unfold synProxy
  rw [hip]
  dsimp only
  rw [htcp]
  rfl

theorem synProxyOn_alike {own : Prop} (hown : own) (ip tcp : Nat)
    (hreset : t.pc.tcpResetOnDrop = s.pc.tcpResetOnDrop)
    (hprotocol : t.pc.protocol = s.pc.protocol) :
    Alike h own s (synProxyOn h ip tcp t) (synProxyOn h ip tcp (noReset t)) := by
  simp only [synProxyOn, noReset, PacketState.ref]
  rcases handleSyn h t.ctx t.maps { ipHdrLen := t.pc.ipHdrLen, nowNs := t.pc.nowNs } ip tcp with
    ⟨_ | action, ctx, m⟩
  · dsimp only
    rcases handleAck ctx m { ipHdrLen := t.pc.ipHdrLen, nowNs := t.pc.nowNs } ip tcp with
      ⟨_ | action, m⟩
    · exact .goesOn { pc := t.pc, maps := m, ctx := ctx } hreset hprotocol
    · exact .acted action { pc := t.pc, maps := countPassed m t.pc, ctx := ctx } (.inr hown)
  · exact .acted action { pc := { t.pc with ruleId := rules.SYN_FLOOD }, maps := _, ctx := ctx }
      (.inr hown)

theorem synProxy_alike {own : Prop} (hown : own) (s : PacketState) :
    Alike h own s (synProxy h s) (synProxy h (noReset s)) := by
  cases hip : s.ctx.ptrAt IP_HDR_LEN ETH_HDR_LEN with
  | none =>
    have hpass : ∀ t : PacketState, t.ctx.ptrAt IP_HDR_LEN ETH_HDR_LEN = none →
        synProxy h t = (some .pass, t) := by
      intro t ht
      unfold synProxy
      rw [ht]
    rw [hpass s hip, hpass (noReset s) hip]
    exact .acted .pass s (.inl rfl)
  | some ip =>
    cases htcp : s.ctx.ptrAt TCP_HDR_LEN (ETH_HDR_LEN + s.pc.ipHdrLen) with
    | none =>
      have hgo : ∀ t : PacketState, t.ctx.ptrAt IP_HDR_LEN ETH_HDR_LEN = some ip →
          t.ctx.ptrAt TCP_HDR_LEN (ETH_HDR_LEN + t.pc.ipHdrLen) = none →
          synProxy h t = (none, t) := by
        intro t hip ht
        unfold synProxy
        rw [hip]
        dsimp only
        rw [ht]
      rw [hgo s hip htcp, hgo (noReset s) hip htcp]
      exact alike_self s
    | some tcp =>
      rw [synProxy_eq h s hip htcp, synProxy_eq h (noReset s) hip htcp]
      by_cases hsyn : TcpHdr.isSyn s.ctx tcp = true
      · have hsyn' : TcpHdr.isSyn (noReset s).ctx tcp = true := hsyn
        rw [if_pos hsyn, if_pos hsyn']
        exact synProxyOn_alike (t := { s with pc := { s.pc with rateCounted := true } }) hown ip tcp
          rfl rfl
      · have hsyn' : ¬ TcpHdr.isSyn (noReset s).ctx tcp = true := hsyn
        rw [if_neg hsyn, if_neg hsyn']
        exact synProxyOn_alike hown ip tcp rfl rfl

theorem Alike.of_not {own : Prop} {r r' : Option XdpAction × PacketState} (hnot : ¬ own)
    (hr : Alike h False s r r') : Alike h own s r r' := by
  cases hr with
  | goesOn t hreset hprotocol => exact .goesOn t hreset hprotocol
  | acted a t ha => exact .acted a t (.inl (ha.resolve_right id))
  | dropped t hreset hprotocol => exact .dropped t hreset hprotocol hnot

theorem tcpStage_alike (runtime : RuntimeConfig) (s : PacketState) :
    Alike h (ToSynProxy runtime.synProxyEnabled s) s (tcpStage h runtime s)
      (tcpStage h runtime (noReset s)) := by
  by_cases hproxy : ToSynProxy runtime.synProxyEnabled s
  · have hto : ∀ t : PacketState, ToSynProxy runtime.synProxyEnabled t →
        tcpStage h runtime t = synProxy h t := by
      rintro t ⟨htcp, hflags, hfrag, hfamily, hon⟩
      rw [tcpStage, if_pos htcp, checkTcpDrop, if_neg (by simp [hflags, hfrag]),
        if_pos ⟨hfamily, hon⟩]
    rw [hto s hproxy, hto (noReset s) hproxy]
    exact synProxy_alike hproxy s
  refine .of_not hproxy ?_
  by_cases hlook : s.pc.protocol = IPPROTO_TCP ∧
      s.pc.projectFlags &&& project_modules.SYN_FLOOD ≠ 0 ∧ s.pc.fragment = false
  · have hto : ∀ t : PacketState, ¬ ToSynProxy runtime.synProxyEnabled t →
        t.pc.protocol = IPPROTO_TCP ∧
          t.pc.projectFlags &&& project_modules.SYN_FLOOD ≠ 0 ∧ t.pc.fragment = false →
        tcpStage h runtime t = synFloodDrop h runtime.portRateLimitEnabled t := by
      rintro t hproxy ⟨htcp, hflags, hfrag⟩
      rw [tcpStage, if_pos htcp, checkTcpDrop, if_neg (by simp [hflags, hfrag]),
        if_neg fun hto => hproxy ⟨htcp, hflags, hfrag, hto⟩]
    rw [hto s hproxy hlook, hto (noReset s) hproxy hlook]
    exact synFloodDrop_alike _ s
  · have hskip : ∀ t : PacketState, ¬ (t.pc.protocol = IPPROTO_TCP ∧
          t.pc.projectFlags &&& project_modules.SYN_FLOOD ≠ 0 ∧ t.pc.fragment = false) →
        tcpStage h runtime t = (none, t) := by
      intro t hnot
      rw [tcpStage]
      split
      · rename_i htcp
        refine if_pos ?_
        by_contra hneither
        obtain ⟨hflags, hfrag⟩ := not_or.1 hneither
        exact hnot ⟨htcp, hflags, by simpa using hfrag⟩
      · rfl
    rw [hskip s hlook, hskip (noReset s) hlook]
    exact alike_self s

/-- Every stage answers alike; the TCP stage gives verdicts itself where the SYN proxy takes over. -/
theorem stage_alike {i : Nat} {f : PacketState → Option XdpAction × PacketState}
    (hf : (stages h runtime)[i]? = some f) (s : PacketState) :
    Alike h (i = 6 ∧ ToSynProxy runtime.synProxyEnabled s) s (f s) (f (noReset s)) := by
  match i, hf with
  | 0, rfl => exact .of_not (by simp) (checkPortAclDrop_alike _ s)
  | 1, rfl => exact .of_not (by simp) (checkBlacklistDrop_alike s)
  | 2, rfl => exact .of_not (by simp) (checkFragmentDrop_alike _ _ s)
  | 3, rfl => exact .of_not (by simp) (checkProjectPolicy_alike s)
  | 4, rfl => exact .of_not (by simp) (checkGeoipDrop_alike _ _ s)
  | 5, rfl => exact .of_not (by simp) (checkConnTrackDrop_alike _ _ _ s)
  | 6, rfl =>
    have hown : (6 = 6 ∧ ToSynProxy runtime.synProxyEnabled s) =
        ToSynProxy runtime.synProxyEnabled s := by simp
    rw [hown]
    exact tcpStage_alike runtime s
  | 7, rfl =>
    exact .of_not (by simp) (alike_ite (alike_self s) (floodDrop_alike _ _ _ _ _ _ _ s))
  | 8, rfl =>
    exact .of_not (by simp) (alike_ite (alike_self s) (floodDrop_alike _ _ _ _ _ _ _ s))
  | 9, rfl => exact .of_not (by simp) (alike_ite (checkL7Drop_alike _ s) (alike_self s))
  | 10, rfl => exact .of_not (by simp) (checkRateLimitDrop_alike s)

/-! ## Drops -/

/-- The resets that were sent or failed. -/
def tcpRstCount (st : GlobalStats) : UInt64 := st.tcpRstSent + st.tcpRstFail

/-- A drop is the drop without the reset, and then the reset if it is due. -/
theorem dropPacket_split (h : Helpers) (s : PacketState) :
    ∃ m, dropPacket h s =
        (if s.pc.tcpResetOnDrop ≠ 0 ∧ s.pc.protocol = IPPROTO_TCP then
          ((replyTcpRst h s.ctx m s.pc.ipHdrLen).1,
            { s with
              maps := (replyTcpRst h s.ctx m s.pc.ipHdrLen).2.2
              ctx := (replyTcpRst h s.ctx m s.pc.ipHdrLen).2.1 })
        else (.drop, { s with maps := m })) ∧
      dropPacket h (noReset s) = (.drop, noReset { s with maps := m }) :=
  ⟨_, rfl, rfl⟩

theorem dropPacket_pc (h : Helpers) (s : PacketState) : (dropPacket h s).2.pc = s.pc := by
  obtain ⟨m, hdrop, -⟩ := dropPacket_split h s
  rw [hdrop]
  split
  · rfl
  · rfl

theorem dropPacket_noReset (h : Helpers)
    (hskip : s.pc.tcpResetOnDrop = 0 ∨ s.pc.protocol ≠ IPPROTO_TCP) :
    dropPacket h (noReset s) = ((dropPacket h s).1, noReset (dropPacket h s).2) := by
  obtain ⟨m, hdrop, hnoReset⟩ := dropPacket_split h s
  rw [if_neg (by tauto)] at hdrop
  rw [hdrop, hnoReset]

theorem replyTcpRst_tcpRstCount (h : Helpers) (ctx : XdpContext) (m : Maps) (ipHdrLen : Nat) :
    tcpRstCount (replyTcpRst h ctx m ipHdrLen).2.2.globalStats = tcpRstCount m.globalStats + 1 := by
  have hsent : ∀ a b : UInt64, a + 1 + b = a + b + 1 := by
    intro a b
    rw [UInt64.add_assoc, UInt64.add_comm 1 b, UInt64.add_assoc]
  have hfail : ∀ a b : UInt64, a + (b + 1) = a + b + 1 := fun a b => (UInt64.add_assoc a b 1).symm
  unfold replyTcpRst
  split
  · split
    · exact hsent _ _
    · exact hfail _ _
  · exact hfail _ _

/-- A reset is counted. -/
theorem dropPacket_tcpRstCount (h : Helpers)
    (hdue : s.pc.tcpResetOnDrop ≠ 0 ∧ s.pc.protocol = IPPROTO_TCP) :
    tcpRstCount (dropPacket h s).2.maps.globalStats =
      tcpRstCount (dropPacket h (noReset s)).2.maps.globalStats + 1 := by
  obtain ⟨m, hdrop, hnoReset⟩ := dropPacket_split h s
  rw [if_pos hdue] at hdrop
  rw [hdrop, hnoReset]
  exact replyTcpRst_tcpRstCount h s.ctx m s.pc.ipHdrLen

theorem logPacketSample_globalStats (h : Helpers) (action : XdpAction) (s : PacketState) :
    (logPacketSample h action s).maps.globalStats = s.maps.globalStats := by
  simp only [logPacketSample]
  repeat' split
  all_goals rfl

theorem logPacketSample_noReset (h : Helpers) (action : XdpAction) (s : PacketState) :
    logPacketSample h action (noReset s) = noReset (logPacketSample h action s) := by
  have hite : ∀ {c : Prop} [Decidable c] {t t' u u' : PacketState}, t' = noReset t →
      u' = noReset u → (if c then t' else u') = noReset (if c then t else u) := by
    intro c _ t t' u u' ht hu
    rw [ht, hu, apply_ite noReset]
  have hl4 : l4HdrLen (noReset s) = l4HdrLen s := rfl
  simp only [logPacketSample, hl4]
  refine hite rfl (hite rfl ?_)
  cases l4HdrLen s with
  | none => rfl
  | some l4 => exact hite rfl rfl

theorem leave_noReset (action : Option XdpAction) (s : PacketState) :
    leave (action, noReset s) = leave (action, s) := by
  cases action <;> rfl

/-! ## Runs -/

/-- A stage of the run refuses the packet and leaves it to `drop_packet`; `own` is where a stage gives
verdicts itself. -/
def Leaves (h : Helpers) (own : Nat → PacketState → Prop)
    (list : List (PacketState → Option XdpAction × PacketState)) (s : PacketState) : Prop :=
  ∃ i f t, list[i]? = some f ∧ runStages h (list.take i) s = (none, t) ∧
    (∃ a, (f t).1 = some a ∧ a ≠ .pass) ∧ ¬ own i t

theorem not_leaves_nil (own : Nat → PacketState → Prop) (s : PacketState) :
    ¬ Leaves h own [] s :=
  fun ⟨_, _, _, hf, _⟩ => nomatch hf

theorem leaves_of_goesOn (own : Nat → PacketState → Prop)
    {f : PacketState → Option XdpAction × PacketState} (hf : f s = (none, t))
    (list : List (PacketState → Option XdpAction × PacketState)) :
    Leaves h own (f :: list) s ↔ Leaves h (fun i => own (i + 1)) list t := by
  have hrun : ∀ i, runStages h ((f :: list).take (i + 1)) s = runStages h (list.take i) t := by
    intro i
    rw [List.take_succ_cons, runStages, hf]
  constructor
  · rintro ⟨i, g, v, hg, hgo, hact, hown⟩
    cases i with
    | zero =>
      cases hg
      cases hgo
      obtain ⟨a, ha, _⟩ := hact
      rw [hf] at ha
      cases ha
    | succ i => exact ⟨i, g, v, hg, (hrun i).symm.trans hgo, hact, hown⟩
  · rintro ⟨i, g, v, hg, hgo, hact, hown⟩
    exact ⟨i + 1, g, v, hg, (hrun i).trans hgo, hact, hown⟩

theorem leaves_of_acts (own : Nat → PacketState → Prop) {a : XdpAction}
    {f : PacketState → Option XdpAction × PacketState} (hf : f s = (some a, t))
    (list : List (PacketState → Option XdpAction × PacketState)) :
    Leaves h own (f :: list) s ↔ a ≠ .pass ∧ ¬ own 0 s := by
  constructor
  · rintro ⟨i, g, v, hg, hgo, ⟨b, hb, hpass⟩, hown⟩
    cases i with
    | zero =>
      cases hg
      cases hgo
      rw [hf] at hb
      cases hb
      exact ⟨hpass, hown⟩
    | succ i =>
      rw [List.take_succ_cons, runStages, hf] at hgo
      cases hgo
  · rintro ⟨hpass, hown⟩
    exact ⟨0, f, s, rfl, rfl, ⟨a, by rw [hf], hpass⟩, hown⟩

/-- What a run answers with the reset configured and with it switched off. -/
inductive RunAlike (h : Helpers) (left : Prop) (s : PacketState) :
    Option XdpAction × PacketState → Option XdpAction × PacketState → Prop where
  | agrees (action : Option XdpAction) (t : PacketState) (hleft : ¬ left) :
    RunAlike h left s (action, t) (action, noReset t)
  | dropped (t : PacketState) (hreset : t.pc.tcpResetOnDrop = s.pc.tcpResetOnDrop)
    (hprotocol : t.pc.protocol = s.pc.protocol) (hleft : left) :
    RunAlike h left s
      (some (dropPacket h t).1, logPacketSample h (dropPacket h t).1 (dropPacket h t).2)
      (some (dropPacket h (noReset t)).1,
        logPacketSample h (dropPacket h (noReset t)).1 (dropPacket h (noReset t)).2)

theorem runStages_alike (own : Nat → PacketState → Prop)
    (list : List (PacketState → Option XdpAction × PacketState))
    (hstage : ∀ i f, list[i]? = some f → ∀ s, Alike h (own i s) s (f s) (f (noReset s)))
    (s : PacketState) :
    RunAlike h (Leaves h own list s) s (runStages h list s) (runStages h list (noReset s)) := by
  induction list generalizing own s with
  | nil => exact .agrees none s (not_leaves_nil own s)
  | cons f list ih =>
    have hf := hstage 0 f rfl s
    have hgo := fun t (ht : f s = (none, t)) => leaves_of_goesOn (h := h) own ht list
    have hact := fun a t (ht : f s = (some a, t)) => leaves_of_acts (h := h) own ht list
    rw [runStages, runStages]
    generalize f s = r at hf hgo hact
    generalize f (noReset s) = r' at hf
    cases hf with
    | goesOn t hreset hprotocol =>
      rw [hgo t rfl]
      have hrun := ih (fun i => own (i + 1)) (fun i g hg => hstage (i + 1) g hg) t
      dsimp only
      generalize runStages h list t = r at hrun
      generalize runStages h list (noReset t) = r' at hrun
      cases hrun with
      | agrees action u hleft => exact .agrees action u hleft
      | dropped u hreset' hprotocol' hleft =>
        exact .dropped u (hreset'.trans hreset) (hprotocol'.trans hprotocol) hleft
    | acted a t ha =>
      rw [hact a t rfl]
      dsimp only
      rw [logPacketSample_noReset]
      refine .agrees (some a) (logPacketSample h a t) fun hleft => ?_
      rcases ha with rfl | hown
      · exact hleft.1 rfl
      · exact hleft.2 hown
    | dropped t hreset hprotocol hown =>
      rw [hact _ _ rfl]
      exact .dropped t hreset hprotocol ⟨dropPacket_ne_pass h t, hown⟩

/-- What a run answers depends on the reset exactly if it is due and a stage leaves the packet to
`drop_packet`. -/
theorem RunAlike.leave_eq_iff {left : Prop} {r r' : Option XdpAction × PacketState}
    (hr : RunAlike h left s r r') :
    leave r = leave r' ↔
      s.pc.tcpResetOnDrop = 0 ∨ s.pc.protocol ≠ IPPROTO_TCP ∨ ¬ left := by
  cases hr with
  | agrees action t hleft =>
    exact ⟨fun _ => .inr (.inr hleft), fun _ => (leave_noReset action t).symm⟩
  | dropped t hreset hprotocol hleft =>
    by_cases hskip : s.pc.tcpResetOnDrop = 0 ∨ s.pc.protocol ≠ IPPROTO_TCP
    · refine ⟨fun _ => by tauto, fun _ => ?_⟩
      rw [dropPacket_noReset h (by rwa [hreset, hprotocol]), logPacketSample_noReset, leave_noReset]
    · refine ⟨fun heq => ?_, fun hor => absurd hor (by tauto)⟩
      have hdue : t.pc.tcpResetOnDrop ≠ 0 ∧ t.pc.protocol = IPPROTO_TCP := by
        rw [hreset, hprotocol]
        tauto
      have hcount := dropPacket_tcpRstCount h hdue
      have hstats := congrArg (fun r => tcpRstCount r.2.2.globalStats) heq
      simp only [leave, logPacketSample_globalStats] at hstats
      rw [hcount] at hstats
      have hne : ∀ a : UInt64, a + 1 ≠ a := by
        intro a
        simp
      exact absurd hstats (hne _)

end EShield.Ebpf
