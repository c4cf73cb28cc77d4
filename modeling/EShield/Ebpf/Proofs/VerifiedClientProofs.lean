import EShield.Ebpf.Proofs.PathProofs
import EShield.Ebpf.Proofs.SynCookieProofs
import EShield.Lib.Exec

/-!
# Clients that have answered a challenge

An ACK with the right cookie takes its source out of challenge mode. Only a SYN of the source can bring
it back, and its next one does so if the rate counter, which is not reset, is still over the threshold.
-/

namespace EShield.Ebpf

open Exec

/-- The source is not in challenge mode. -/
def Unchallenged (src : IpKey) (m : Maps) : Prop := m.synProxyConn src = none

variable {src : IpKey} {m m' : Maps} {s t : PacketState} {h : Helpers}

theorem Unchallenged.of_core (hun : Unchallenged src m)
    (hcore : m'.synProxyConn = m.synProxyConn) : Unchallenged src m' :=
  (congrFun hcore src).trans hun

theorem Unchallenged.remove (hun : Unchallenged src m) (k : IpKey) :
    Unchallenged src { m with synProxyConn := m.synProxyConn.remove k } := by
  by_cases hk : src = k
  · rw [Unchallenged, hk]
    exact LruHashMap.remove_self _ _
  · exact (LruHashMap.remove_of_ne m.synProxyConn hk).trans hun

/-! ## The handlers -/

theorem updateRateCounter_synProxyConn (m : Maps) (src : IpKey) (nowNs : UInt64) :
    (updateRateCounter m src nowNs).2.synProxyConn = m.synProxyConn := by
  simp only [updateRateCounter]
  split <;> rfl

/-- What the trigger does to a source that is not in challenge mode. -/
theorem trigger_cases (m : Maps) (src : IpKey) (nowNs : UInt64) :
    let r := isChallengedOrTrigger.trigger nowNs src m
    (r.1 = false ∧ r.2.synProxyConn = m.synProxyConn) ∨
      (r.1 = true ∧ r.2.synProxyConn = m.synProxyConn.insert src nowNs) := by
  have hkept := updateRateCounter_synProxyConn m src nowNs
  simp only [isChallengedOrTrigger.trigger]
  split
  · rename_i update m' heq
    rw [heq] at hkept
    split
    · exact .inr ⟨rfl, by rw [hkept]⟩
    · exact .inl ⟨rfl, hkept⟩
  · rename_i m' heq
    rw [heq] at hkept
    exact .inl ⟨rfl, hkept⟩

theorem Unchallenged.trigger (hun : Unchallenged src m) {k : IpKey} (hne : src ≠ k)
    (nowNs : UInt64) : Unchallenged src (isChallengedOrTrigger.trigger nowNs k m).2 := by
  rcases trigger_cases m k nowNs with ⟨-, hmap⟩ | ⟨-, hmap⟩
  · exact hun.of_core hmap
  · rw [Unchallenged, hmap, LruHashMap.insert_of_ne _ _ hne]
    exact hun

/-- A SYN of another source does not bring a source into challenge mode. -/
theorem Unchallenged.isChallengedOrTrigger (hun : Unchallenged src m) {saddr : UInt32}
    (hne : src ≠ srcKey saddr) (nowNs : UInt64) :
    Unchallenged src (Ebpf.isChallengedOrTrigger m saddr nowNs).2 := by
  simp only [Ebpf.isChallengedOrTrigger]
  split
  · split
    · exact hun
    · exact (hun.remove _).trigger hne nowNs
  · exact hun.trigger hne nowNs

/-- The maps after `handle_syn`. -/
theorem handleSyn_maps (h : Helpers) (ctx : XdpContext) (m : Maps) (pc : PacketCtxRef)
    (ip tcp : Nat) :
    (handleSyn h ctx m pc ip tcp).2.2 =
      if isSynFlags (TcpHdr.flags ctx tcp) then
        (isChallengedOrTrigger m (IpHdr.saddr ctx ip) pc.nowNs).2
      else m := by
  unfold handleSyn
  cases hsyn : isSynFlags (TcpHdr.flags ctx tcp) with
  | false => rfl
  | true =>
    rw [if_neg (by decide), if_pos rfl]
    rcases isChallengedOrTrigger m (IpHdr.saddr ctx ip) pc.nowNs with ⟨_ | _, m'⟩
    · rfl
    · dsimp only
      split
      · rfl
      · split
        · rfl
        · split <;> rfl

theorem Unchallenged.handleSyn (hun : Unchallenged src m) {ctx : XdpContext} {pc : PacketCtxRef}
    {ip tcp : Nat}
    (hother : isSynFlags (TcpHdr.flags ctx tcp) = true → src ≠ srcKey (IpHdr.saddr ctx ip)) :
    Unchallenged src (Ebpf.handleSyn h ctx m pc ip tcp).2.2 := by
  rw [handleSyn_maps]
  split
  · rename_i hsyn
    exact hun.isChallengedOrTrigger (hother hsyn) pc.nowNs
  · exact hun

/-- `handle_ack` takes sources out of challenge mode only. -/
theorem Unchallenged.handleAck (hun : Unchallenged src m) (ctx : XdpContext) (pc : PacketCtxRef)
    (ip tcp : Nat) : Unchallenged src (Ebpf.handleAck ctx m pc ip tcp).2 := by
  simp only [Ebpf.handleAck]
  split
  · exact hun
  · split
    · exact hun
    · split
      · exact hun.remove _
      · split
        · exact hun.remove _
        · exact hun

/-- A verified source is out of challenge mode. -/
theorem unchallenged_of_handleAck {ctx : XdpContext} {pc : PacketCtxRef} {ip tcp : Nat}
    (hpass : handleAck ctx m pc ip tcp = (some .pass, m')) :
    Unchallenged (srcKey (IpHdr.saddr ctx ip)) m' := by
  simp only [handleAck] at hpass
  split at hpass
  · cases hpass
  · split at hpass
    · cases hpass
    · split at hpass
      · cases hpass
      · split at hpass
        · obtain ⟨-, rfl⟩ := Prod.mk.inj hpass
          exact LruHashMap.remove_self _ _
        · cases hpass

/-! ## The program -/

theorem Answers.synProxyConn {r : Option XdpAction × PacketState} (hans : Answers t r) :
    r.2.maps.synProxyConn = t.maps.synProxyConn := by
  obtain ⟨_, hcore⟩ := hans.core
  exact (congrArg Maps.synProxyConn hcore :)

theorem FloodWork.synProxyConn (hwork : FloodWork s t) :
    t.maps.synProxyConn = s.maps.synProxyConn := by
  obtain ⟨_, _, hcore⟩ := hwork.core
  exact (congrArg Maps.synProxyConn hcore :)

theorem portCounted_synProxyConn (dport : UInt16) (s : PacketState) :
    (portCounted dport s).maps.synProxyConn = s.maps.synProxyConn := by
  obtain ⟨_, hcore⟩ :=
    core_checkPortRate s.maps { protocol := s.pc.protocol, dport := dport } s.pc.nowNs
  exact (congrArg Maps.synProxyConn hcore :)

theorem rateLimited_synProxyConn (s : PacketState) :
    (rateLimited s).maps.synProxyConn = s.maps.synProxyConn := by
  obtain ⟨_, _, _, hcore⟩ := core_checkRateLimit s.maps s.pc.src s.pc.dport s.pc.nowNs
  exact (congrArg Maps.synProxyConn hcore :)

/-- The packet is a SYN of the source for the proxy. -/
def SynOf (src : IpKey) (ctx : XdpContext) (pc : PacketCtx) : Prop :=
  pc.protocol = IPPROTO_TCP ∧ pc.fragment = false ∧ pc.src = src ∧
    ∃ tcp, ctx.ptrAt TCP_HDR_LEN (ETH_HDR_LEN + pc.ipHdrLen) = some tcp ∧
      TcpHdr.isSyn ctx tcp = true

theorem Unchallenged.protocolStage (hun : Unchallenged src s.maps) (hip : HoldsIpHeader s)
    (hother : ¬ SynOf src s.ctx s.pc) :
    Unchallenged src (protocolStage h s.maps.config s).2.maps := by
  rcases protocolStage_cases h s with ⟨hproxy, heq⟩ | ⟨-, heq⟩ | ⟨module, _, _, _, t, hwork, hans⟩
  · rw [heq]
    rcases synProxy_of_toSynProxy h hip hproxy with ⟨-, hnone, -⟩ | ⟨tcp, hptr, hsent⟩
    · rw [hnone]
      exact hun
    have hhandled : Unchallenged src (synHandled h ETH_HDR_LEN tcp s).maps := by
      refine hun.handleSyn fun hsyn hsrc => hother ?_
      exact ⟨hproxy.1, hproxy.2.2.1, (hip hproxy.2.2.2.1).2.2.trans hsrc.symm, tcp, hptr, hsyn⟩
    rcases hsent with ⟨-, -, hcore⟩ | ⟨-, -, -, hans⟩ | ⟨-, -, hans⟩
    · exact hhandled.of_core (congrArg Maps.synProxyConn hcore :)
    · exact hhandled.of_core hans.synProxyConn
    · exact Unchallenged.of_core (hhandled.handleAck _ _ _ _) hans.synProxyConn
  · rw [heq]
    exact hun
  · have hworked := hun.of_core hwork.synProxyConn
    rcases hans.answers with hans | hans
    · exact hworked.of_core hans.synProxyConn
    · exact (hworked.of_core (portCounted_synProxyConn _ t)).of_core hans.synProxyConn

/-- The frame is a SYN of the source. -/
def SynFrameOf (src : IpKey) (ctx : XdpContext) : Prop :=
  ∃ pc, parse ctx = some pc ∧ SynOf src ctx pc

theorem logPacketSample_synProxyConn (h : Helpers) (action : XdpAction) (s : PacketState) :
    (logPacketSample h action s).maps.synProxyConn = s.maps.synProxyConn :=
  (congrArg Maps.synProxyConn (core_logPacketSample h action s) :)

theorem leave_synProxyConn (r : Option XdpAction × PacketState) :
    (leave r).2.2.synProxyConn = r.2.maps.synProxyConn := by
  obtain ⟨_, hcore⟩ := core_leave r
  exact (congrArg Maps.synProxyConn hcore :)

theorem SynOf.worked (hwork : Worked s t) (hsyn : SynOf src t.ctx t.pc) : SynOf src s.ctx s.pc := by
  obtain ⟨hprotocol, hfrag, hsrc, hhdr⟩ := hsyn
  rw [hwork.ctx, show t.pc.ipHdrLen = s.pc.ipHdrLen by rw [hwork.pc]] at hhdr
  exact ⟨hwork.protocol.symm.trans hprotocol, hwork.fragment.symm.trans hfrag,
    hwork.src.symm.trans hsrc, hhdr⟩

/-- No packet but a SYN of the source brings it into challenge mode. -/
theorem Unchallenged.tryEshield (hun : Unchallenged src m) {ctx : XdpContext} (nowNs : UInt64)
    (hother : ¬ SynFrameOf src ctx) : Unchallenged src (tryEshield h nowNs ctx m).2.2 := by
  cases hparse : parse ctx with
  | none =>
    rw [Ebpf.tryEshield, hparse]
    exact hun
  | some pc =>
    rw [tryEshield_of_parse hparse]
    have hip := holdsIpHeader_enter hparse nowNs m
    split
    · have hcore := core_countPassed (enter nowNs ctx m pc).maps (enter nowNs ctx m pc).pc
      exact hun.of_core (congrArg Maps.synProxyConn hcore :)
    · refine Unchallenged.of_core ?_ (leave_synProxyConn _)
      have hsyn : ¬ SynOf src (enter nowNs ctx m pc).ctx (enter nowNs ctx m pc).pc :=
        fun hsyn => hother ⟨pc, hparse, hsyn⟩
      have hentered : Unchallenged src (enter nowNs ctx m pc).maps := hun
      have hpath := path_stages h hip
      rw [show (enter nowNs ctx m pc).maps.config = m.config from rfl] at hpath
      have hvetted : ∀ t, Vetted (enter nowNs ctx m pc) t → Unchallenged src t.maps :=
        fun t hvet => hentered.of_core (congrArg Maps.synProxyConn hvet.core :)
      generalize runStages h (stages h m.config) (enter nowNs ctx m pc) = r at hpath
      cases hpath with
      | vetted _ hvet hans => exact (hvetted _ hvet).of_core hans.synProxyConn
      | @acted t u a hgo hvet hstop =>
        have hstage := (hvetted t hvet).protocolStage (h := h) (hip.worked hvet.worked)
          fun hsyn' => hsyn (hsyn'.worked hvet.worked)
        rw [hstop] at hstage
        exact hstage.of_core (logPacketSample_synProxyConn h a u)
      | @passedOn t u v _ hgo hvet hon hdet hlimit hans =>
        have hstage := (hvetted t hvet).protocolStage (h := h) (hip.worked hvet.worked)
          fun hsyn' => hsyn (hsyn'.worked hvet.worked)
        rw [hon] at hstage
        refine Unchallenged.of_core ?_ hans.synProxyConn
        rcases hlimit with rfl | rfl
        · exact hstage
        · exact hstage.of_core (rateLimited_synProxyConn u)

/-! ## Runs -/

/-- No SYN of the source comes, and the control plane puts no source into challenge mode. -/
def QuietStep {Cpu : Type*} (src : IpKey) (w : DataPlane Cpu) : DataPlaneLabel Cpu → Prop
  | .packet _ _ _ ctx => ¬ SynFrameOf src ctx
  | .control maps => ∀ k, maps.synProxyConn k = none ∨ maps.synProxyConn k = w.maps.synProxyConn k

variable {Cpu : Type*} [DecidableEq Cpu] {w w' : DataPlane Cpu}

theorem unchallenged_step {l : DataPlaneLabel Cpu} (hun : Unchallenged src w.maps)
    (hquiet : QuietStep src w l) (hstep : dataPlaneStep w l = some w') :
    Unchallenged src w'.maps := by
  cases l with
  | packet cpu h nowNs ctx =>
    cases hstep
    have hon : Unchallenged src (w.mapsOn cpu) := hun
    exact hon.tryEshield nowNs hquiet
  | control maps =>
    cases hstep
    exact (hquiet src).elim id fun heq => heq.trans hun

/-- The counter of the source, this packet included, is within the threshold, or nothing is counted. -/
def WithinRate (m : Maps) (src : IpKey) (nowNs : UInt64) : Prop :=
  m.rateLimitCfg.tickMs = 0 ∨
    (countPacket m.rateLimitCfg (msToNs m.rateLimitCfg.tickMs) nowNs (m.rateMap src)).counter ≤
      effectiveThreshold m src

instance (m : Maps) (src : IpKey) (nowNs : UInt64) : Decidable (WithinRate m src nowNs) :=
  inferInstanceAs (Decidable (_ ∨ _))

/-- A SYN that is handed on, its source still out of challenge mode. -/
def PassedThrough (h : Helpers) (ctx : XdpContext) (m : Maps) (pc : PacketCtxRef) (ip tcp : Nat) :
    Prop :=
  (handleSyn h ctx m pc ip tcp).1 = none ∧
    Unchallenged (srcKey (IpHdr.saddr ctx ip)) (handleSyn h ctx m pc ip tcp).2.2

theorem trigger_eq_false_iff (m : Maps) (src : IpKey) (nowNs : UInt64) :
    (isChallengedOrTrigger.trigger nowNs src m).1 = false ↔ WithinRate m src nowNs := by
  by_cases htick : msToNs m.rateLimitCfg.tickMs = 0
  · have hwithin : WithinRate m src nowNs := .inl (msToNs_eq_zero_iff.1 htick)
    have hnone : updateRateCounter m src nowNs = (none, m) := by
      simp only [updateRateCounter, if_pos htick]
    simp only [isChallengedOrTrigger.trigger, hnone, hwithin]
  · generalize hupdated : countPacket m.rateLimitCfg (msToNs m.rateLimitCfg.tickMs) nowNs
      (m.rateMap src) = updated
    have hsome : updateRateCounter m src nowNs =
        (some (rateUpdate { m with rateMap := m.rateMap.insert src updated } src updated),
          { m with rateMap := m.rateMap.insert src updated }) := by
      simp only [updateRateCounter, if_neg htick, hupdated]
    have hwithin : WithinRate m src nowNs ↔ updated.counter ≤ effectiveThreshold m src := by
      rw [WithinRate, hupdated]
      exact or_iff_right fun hzero => htick (msToNs_eq_zero_iff.2 hzero)
    have hthreshold : (rateUpdate { m with rateMap := m.rateMap.insert src updated } src
        updated).threshold = effectiveThreshold m src := rfl
    have hcounter : (rateUpdate { m with rateMap := m.rateMap.insert src updated } src
        updated).counter = updated.counter := rfl
    rw [hwithin, ← UInt64.not_lt]
    simp only [isChallengedOrTrigger.trigger, hsome, hthreshold, hcounter]
    split
    · rename_i hover
      exact ⟨fun hfalse => (Bool.noConfusion hfalse), fun hnot => absurd hover hnot⟩
    · rename_i hnot
      exact ⟨fun _ => hnot, fun _ => rfl⟩

/-- Out of challenge mode, a SYN is handed on exactly within the rate. -/
theorem passedThrough_iff {ctx : XdpContext} {pc : PacketCtxRef} {ip tcp : Nat}
    (hun : Unchallenged (srcKey (IpHdr.saddr ctx ip)) m)
    (hsyn : isSynFlags (TcpHdr.flags ctx tcp) = true) :
    PassedThrough h ctx m pc ip tcp ↔ WithinRate m (srcKey (IpHdr.saddr ctx ip)) pc.nowNs := by
  have hmaps := handleSyn_maps h ctx m pc ip tcp
  rw [if_pos hsyn] at hmaps
  have hasked : isChallengedOrTrigger m (IpHdr.saddr ctx ip) pc.nowNs =
      isChallengedOrTrigger.trigger pc.nowNs (srcKey (IpHdr.saddr ctx ip)) m := by
    simp only [isChallengedOrTrigger, show m.synProxyConn (srcKey (IpHdr.saddr ctx ip)) = none
      from hun]
  rw [PassedThrough, hmaps, ← trigger_eq_false_iff, hasked]
  rcases trigger_cases m (srcKey (IpHdr.saddr ctx ip)) pc.nowNs with ⟨hfalse, hmap⟩ | ⟨htrue, hmap⟩
  · refine iff_of_true ⟨?_, hun.of_core hmap⟩ hfalse
    unfold handleSyn
    rw [hsyn, if_neg (by decide), hasked]
    rw [show isChallengedOrTrigger.trigger pc.nowNs (srcKey (IpHdr.saddr ctx ip)) m =
      (false, (isChallengedOrTrigger.trigger pc.nowNs (srcKey (IpHdr.saddr ctx ip)) m).2) from
        Prod.ext hfalse rfl]
  · refine iff_of_false (fun hpassed => ?_) (by rw [htrue]; decide)
    have hin := hpassed.2
    rw [Unchallenged, hmap, LruHashMap.insert_self] at hin
    cases hin

/-- After an ACK has been let pass, and any packets but SYNs of its source, the next SYN of the source
is handed on exactly if the rate counter, which the ACK does not reset, is within the threshold. -/
theorem verified_client_passes_iff {m₀ : Maps} {ack syn : XdpContext} {pcAck pcSyn : PacketCtxRef}
    {ipAck tcpAck ipSyn tcpSyn : Nat} {labels : List (DataPlaneLabel Cpu)}
    (hpass : (handleAck ack m₀ pcAck ipAck tcpAck).1 = some .pass)
    (hafter : w.maps.synProxyConn = (handleAck ack m₀ pcAck ipAck tcpAck).2.synProxyConn)
    (hquiet : Along dataPlaneStep (QuietStep (srcKey (IpHdr.saddr ack ipAck))) w labels)
    (hrun : exec dataPlaneStep w labels = some w') (cpu : Cpu)
    (hsame : IpHdr.saddr syn ipSyn = IpHdr.saddr ack ipAck)
    (hsyn : isSynFlags (TcpHdr.flags syn tcpSyn) = true) :
    PassedThrough h syn (w'.mapsOn cpu) pcSyn ipSyn tcpSyn ↔
      WithinRate w'.maps (srcKey (IpHdr.saddr ack ipAck)) pcSyn.nowNs := by
  have hlifted : Unchallenged (srcKey (IpHdr.saddr ack ipAck)) w.maps :=
    (unchallenged_of_handleAck (Prod.ext hpass rfl)).of_core hafter
  have hun := exec_invariant (I := fun w => Unchallenged (srcKey (IpHdr.saddr ack ipAck)) w.maps)
    (fun _ _ _ hI hc hstep => unchallenged_step hI hc hstep) hlifted hquiet hrun
  have hon : Unchallenged (srcKey (IpHdr.saddr syn ipSyn)) (w'.mapsOn cpu) := hsame ▸ hun
  rw [passedThrough_iff hon hsyn, hsame]
  rfl

/-! ## A threshold of one -/

/-- One packet a minute is allowed. -/
def onePerMinute : Maps :=
  { config := { synProxyEnabled := 1 }
    rateLimitCfg := { threshold := 1, tickMs := 60000 } }

/-- The maps after two SYNs have come, the second of which is challenged. -/
def challengedFrom (m : Maps) : Maps :=
  (tryEshield {} 200 sampleSyn (tryEshield {} 100 sampleSyn m).2.2).2.2

def challengedMaps : Maps := challengedFrom onePerMinute

/-- The ACK that answers the challenge of `sampleSyn` in the first minute. -/
def sampleAck : XdpContext :=
  let cookie := cookieFor (IpHdr.saddr sampleSyn 14) (IpHdr.daddr sampleSyn 14)
    (bswap16 (TcpHdr.source sampleSyn 34)) (bswap16 (TcpHdr.dest sampleSyn 34)) 0 0 0
  (sampleSyn.setU8 47 TCP_FLAG_ACK).setU32 42 (bswap32 (cookie + 1))

/-- The right answer ends the challenge, and the next SYN, 100 nanoseconds later, is challenged
again. -/
theorem verified_client_challenged_again :
    (handleAck sampleAck challengedMaps ⟨20, 300⟩ 14 34).1 = some .pass ∧
      ¬ PassedThrough {} sampleSyn (handleAck sampleAck challengedMaps ⟨20, 300⟩ 14 34).2 ⟨20, 400⟩
        14 34 := by
  refine ⟨by decide +kernel, fun hpassed => ?_⟩
  have hchallenged : (handleSyn {} sampleSyn
      (handleAck sampleAck challengedMaps ⟨20, 300⟩ 14 34).2 ⟨20, 400⟩ 14 34).1 = some .tx := by
    decide +kernel
  rw [PassedThrough, hchallenged] at hpassed
  cases hpassed.1

/-- One packet in ten milliseconds is allowed. -/
def oneInTen : Maps :=
  { config := { synProxyEnabled := 1 }
    rateLimitCfg := { threshold := 1, tickMs := 10 } }

/-- Between the answer and a SYN half a second later comes a frame without a header. The counter has
decayed, and the SYN is handed on. -/
theorem verified_client_passes_iff_later :
    ∃ w w' : DataPlane Unit,
      (handleAck sampleAck (challengedFrom oneInTen) ⟨20, 300⟩ 14 34).1 = some .pass ∧
        w.maps = (handleAck sampleAck (challengedFrom oneInTen) ⟨20, 300⟩ 14 34).2 ∧
        exec dataPlaneStep w [.packet () {} 350 (XdpContext.ofBytes [])] = some w' ∧
        WithinRate w'.maps (srcKey (IpHdr.saddr sampleAck 14)) 500000000 ∧
        PassedThrough {} sampleSyn (w'.mapsOn ()) ⟨20, 500000000⟩ 14 34 := by
  have hpass : (handleAck sampleAck (challengedFrom oneInTen) ⟨20, 300⟩ 14 34).1 = some .pass := by
    decide +kernel
  have hquiet : ¬ SynFrameOf (srcKey (IpHdr.saddr sampleAck 14)) (XdpContext.ofBytes []) := by
    rintro ⟨pc, hparse, -⟩
    exact absurd hparse (by rw [show parse (XdpContext.ofBytes []) = none by decide]; nofun)
  have hsame : IpHdr.saddr sampleSyn 14 = IpHdr.saddr sampleAck 14 := by decide +kernel
  have hsyn : isSynFlags (TcpHdr.flags sampleSyn 34) = true := by decide +kernel
  obtain ⟨m, hm⟩ : ∃ m, m = (handleAck sampleAck (challengedFrom oneInTen) ⟨20, 300⟩ 14 34).2 :=
    ⟨_, rfl⟩
  have hafter : m.synProxyConn =
      (handleAck sampleAck (challengedFrom oneInTen) ⟨20, 300⟩ 14 34).2.synProxyConn := by
    rw [hm]
  have hlater : (exec dataPlaneStep ({ maps := m } : DataPlane Unit)
      [.packet () {} 350 (XdpContext.ofBytes [])]).map (fun w' =>
        decide (WithinRate w'.maps (srcKey (IpHdr.saddr sampleAck 14)) 500000000)) = some true := by
    rw [hm]
    decide +kernel
  obtain ⟨w', hrun, hwithin⟩ := Option.map_eq_some_iff.1 hlater
  have hwhole : Along dataPlaneStep (QuietStep (srcKey (IpHdr.saddr sampleAck 14)))
      ({ maps := m } : DataPlane Unit) [.packet () {} 350 (XdpContext.ofBytes [])] :=
    ⟨hquiet, fun _ _ => trivial⟩
  have hrate := of_decide_eq_true hwithin
  exact ⟨{ maps := m }, w', hpass, hm, hrun, hrate,
    (verified_client_passes_iff hpass hafter hwhole hrun () hsame hsyn).2 hrate⟩

end EShield.Ebpf
