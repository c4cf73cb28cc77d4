import EShield.Ebpf.Proofs.PathProofs

/-!
# Statistics are conserved

Every packet that parses is counted as passed, as dropped (in total and for its protocol), or is
answered with a SYN cookie, and only one of them. So the sums over all CPUs agree after every run in
which no counter wraps.
-/

namespace EShield.Ebpf

/-! ## One packet -/

/-- The stages send a cookie, which they do not count, or answer the packet and count it. -/
theorem stages_answer (h : Helpers) {s : PacketState} (hip : HoldsIpHeader s) (cookie : Bool)
    (hcookie : cookie =
      match runStages h (stagesBeforeTcp h s.maps.config) s with
      | (none, t) => answersWithCookie h s.maps.config.synProxyEnabled t
      | (some _, _) => false) :
    (cookie = true ∧ (runStages h (stages h s.maps.config) s).1 = some .tx ∧
        ∃ t, Worked s t ∧ (runStages h (stages h s.maps.config) s).2.maps.core = t.maps.core) ∨
      (cookie = false ∧ ∃ t, Worked s t ∧ Answers t (runStages h (stages h s.maps.config) s)) := by
  have hpath := path_stages h hip
  generalize runStages h (stages h s.maps.config) s = r at hpath
  cases hpath with
  | @vetted t _ _ hstop hvet hans =>
    rw [hstop] at hcookie
    exact .inr ⟨hcookie, t, hvet.worked, hans⟩
  | @acted t _ _ hgo hvet hstop =>
    rw [hgo] at hcookie
    have hstage := protocolStage_answers h (hip.worked hvet.worked)
    rw [hstop, hvet.worked.config] at hstage
    rcases hstage with ⟨hsent, htx, u, hu, hcore⟩ | ⟨hsent, u, hu, hans⟩
    · exact .inl ⟨hcookie.trans hsent, htx, u, hvet.worked.trans hu.toWorked,
        (core_logPacketSample h _ _).trans hcore⟩
    · exact .inr ⟨hcookie.trans hsent, u, hvet.worked.trans hu.toWorked, hans.sampled h⟩
  | @passedOn t u v _ hgo hvet hon hdet hlimit hans =>
    rw [hgo] at hcookie
    have hstage := protocolStage_answers h (hip.worked hvet.worked)
    rw [hon, hvet.worked.config] at hstage
    have hwork : Worked u v := by
      rcases hlimit with rfl | rfl
      · exact .refl v
      · exact worked_rateLimited u
    rcases hstage with ⟨_, htx, _⟩ | ⟨hsent, _⟩
    · cases htx
    · exact .inr ⟨hcookie.trans hsent, v, (hvet.worked.trans hdet.toWorked).trans hwork, hans⟩

theorem core_globalStats (m : Maps) : m.core.globalStats = tallyOf m.globalStats := rfl

/-- A packet that was answered is counted once, by its verdict. -/
theorem Answers.tally_leave {t : PacketState} {r : Option XdpAction × PacketState}
    (hans : Answers t r) :
    ((leave r).1 = .pass ∧
        tallyOf (leave r).2.2.globalStats = tallyPassed t.maps.core.globalStats) ∨
      ((leave r).1 ≠ .pass ∧ ∃ protocol,
        tallyOf (leave r).2.2.globalStats = tallyDropped t.maps.core.globalStats protocol) := by
  cases hans with
  | goesOn => exact .inl ⟨rfl, (congrArg Maps.globalStats (core_countPassed t.maps t.pc) :)⟩
  | passes hu => exact .inl ⟨rfl, (congrArg Maps.globalStats hu :)⟩
  | drops ha protocol hu => exact .inr ⟨ha, protocol, (congrArg Maps.globalStats hu :)⟩

/-- The tally with one more packet. -/
def tallyPacket (s : GlobalStats) : GlobalStats := { s with totalPackets := s.totalPackets + 1 }

/-- A packet that parses is counted, and by what became of it: as answered with a cookie not at all,
else as passed or as dropped. -/
theorem tally_tryEshield (h : Helpers) (nowNs : UInt64) {ctx : XdpContext} (m : Maps)
    {pc : PacketCtx} (hparse : parse ctx = some pc) :
    (cookieAnswered h nowNs ctx m = true ∧ (tryEshield h nowNs ctx m).1 = .tx ∧
        tallyOf (tryEshield h nowNs ctx m).2.2.globalStats = tallyPacket (tallyOf m.globalStats)) ∨
      (cookieAnswered h nowNs ctx m = false ∧
        (((tryEshield h nowNs ctx m).1 = .pass ∧
            tallyOf (tryEshield h nowNs ctx m).2.2.globalStats =
              tallyPassed (tallyPacket (tallyOf m.globalStats))) ∨
          ((tryEshield h nowNs ctx m).1 ≠ .pass ∧ ∃ protocol,
            tallyOf (tryEshield h nowNs ctx m).2.2.globalStats =
              tallyDropped (tallyPacket (tallyOf m.globalStats)) protocol))) := by
  rw [tryEshield_of_parse hparse, cookieAnswered, hparse]
  dsimp only
  cases isWhitelisted m pc.src with
  | true =>
    refine .inr ⟨rfl, .inl ⟨rfl, ?_⟩⟩
    exact (congrArg Maps.globalStats
      (core_countPassed (enter nowNs ctx m pc).maps (enter nowNs ctx m pc).pc) :)
  | false =>
    rw [Bool.not_false, Bool.true_and, if_neg Bool.false_ne_true]
    have hstages := stages_answer h (holdsIpHeader_enter hparse nowNs m) _ rfl
    rw [show (enter nowNs ctx m pc).maps.config = m.config from rfl] at hstages
    rcases hstages with ⟨hsent, htx, t, hwork, hcore⟩ | ⟨hsent, t, hwork, hans⟩
    · refine .inl ⟨hsent, ?_⟩
      have htally :
          tallyOf (runStages h (stages h m.config) (enter nowNs ctx m pc)).2.maps.globalStats =
            tallyPacket (tallyOf m.globalStats) := by
        rw [← core_globalStats, hcore, hwork.tally]
        rfl
      generalize runStages h (stages h m.config) (enter nowNs ctx m pc) = r at htx htally
      obtain ⟨action, u⟩ := r
      dsimp only at htx htally
      rw [htx]
      exact ⟨rfl, htally⟩
    · refine .inr ⟨hsent, ?_⟩
      have htally := hans.tally_leave
      rw [hwork.tally] at htally
      exact htally

/-! ## All CPUs -/

/-- The packets dropped, over all protocols. -/
def protocolDrops (s : GlobalStats) : Nat :=
  s.tcpDropped.toNat + s.udpDropped.toNat + s.icmpDropped.toNat + s.otherDropped.toNat

/-- One more packet does not make a statistic of the tally wrap. -/
def NoWrap (s : GlobalStats) : Prop :=
  ∀ n ∈ [s.totalPackets, s.totalPassed, s.totalDropped, s.tcpDropped, s.udpDropped, s.icmpDropped,
    s.otherDropped], n.toNat + 1 < 2 ^ 64

/-- No statistic wraps on the CPU that a packet comes to. -/
def Roomy {Cpu : Type*} (w : DataPlane Cpu) : DataPlaneLabel Cpu → Prop
  | .packet cpu _ _ _ => NoWrap (w.stats cpu)
  | .control _ => True

/-- The sums over all CPUs agree. -/
structure Conserved {Cpu : Type*} [Fintype Cpu] (w : DataPlane Cpu) : Prop where
  dropped : ∑ c, (w.stats c).totalDropped.toNat = ∑ c, protocolDrops (w.stats c)
  packets : ∑ c, (w.stats c).totalPackets.toNat =
    ∑ c, (w.stats c).totalPassed.toNat + ∑ c, (w.stats c).totalDropped.toNat +
      (w.log.filter PacketRecord.cookie).length

/-- What one packet may do to the tally of its CPU; `cookie` packets are in neither column. -/
def Balances (before after : GlobalStats) (cookie : Bool) : Prop :=
  after.totalDropped.toNat + protocolDrops before = before.totalDropped.toNat + protocolDrops after ∧
    after.totalPackets.toNat + before.totalPassed.toNat + before.totalDropped.toNat =
      before.totalPackets.toNat + after.totalPassed.toNat + after.totalDropped.toNat +
        (if cookie then 1 else 0)

theorem toNat_add_one {n : UInt64} (hn : n.toNat + 1 < 2 ^ 64) : (n + 1).toNat = n.toNat + 1 := by
  rw [UInt64.toNat_add, UInt64.toNat_one, Nat.mod_eq_of_lt hn]

theorem protocolDrops_tallyDropped {s : GlobalStats} (protocol : UInt8)
    (hroom : ∀ n ∈ [s.tcpDropped, s.udpDropped, s.icmpDropped, s.otherDropped],
      n.toNat + 1 < 2 ^ 64) :
    protocolDrops (tallyDropped s protocol) = protocolDrops s + 1 := by
  have htcp := toNat_add_one (hroom s.tcpDropped (by simp))
  have hudp := toNat_add_one (hroom s.udpDropped (by simp))
  have hicmp := toNat_add_one (hroom s.icmpDropped (by simp))
  have hother := toNat_add_one (hroom s.otherDropped (by simp))
  simp only [protocolDrops, tallyDropped, incProtocolDropped]
  repeat' split
  all_goals
    dsimp only
    omega

theorem tallyDropped_totals (s : GlobalStats) (protocol : UInt8) :
    (tallyDropped s protocol).totalPackets = s.totalPackets ∧
      (tallyDropped s protocol).totalPassed = s.totalPassed ∧
      (tallyDropped s protocol).totalDropped = s.totalDropped + 1 := by
  simp only [tallyDropped, incProtocolDropped]
  repeat' split
  all_goals exact ⟨rfl, rfl, rfl⟩

theorem balances_of_tally {before after : GlobalStats} (hroom : NoWrap before) {cookie : Bool}
    (htally : (cookie = true ∧ tallyOf after = tallyPacket (tallyOf before)) ∨
      (cookie = false ∧ (tallyOf after = tallyPassed (tallyPacket (tallyOf before)) ∨
        ∃ protocol, tallyOf after = tallyDropped (tallyPacket (tallyOf before)) protocol))) :
    Balances before after cookie := by
  have hpackets := toNat_add_one (hroom before.totalPackets (by simp))
  have hpassed := toNat_add_one (hroom before.totalPassed (by simp))
  have hdropped := toNat_add_one (hroom before.totalDropped (by simp))
  -- the four numbers that `Balances` speaks of, read off the tally
  have hread : ∀ t, tallyOf after = t → after.totalPackets = t.totalPackets ∧
      after.totalPassed = t.totalPassed ∧ after.totalDropped = t.totalDropped ∧
      protocolDrops after = protocolDrops t := by
    rintro t rfl
    exact ⟨rfl, rfl, rfl, rfl⟩
  rcases htally with ⟨rfl, htally⟩ | ⟨rfl, htally | ⟨protocol, htally⟩⟩
  · obtain ⟨h₁, h₂, h₃, h₄⟩ := hread _ htally
    rw [Balances, h₁, h₂, h₃, h₄]
    exact ⟨rfl, by simp only [tallyPacket, tallyOf, if_true]; omega⟩
  · obtain ⟨h₁, h₂, h₃, h₄⟩ := hread _ htally
    rw [Balances, h₁, h₂, h₃, h₄]
    exact ⟨rfl, by simp only [tallyPassed, tallyPacket, tallyOf, Bool.false_eq_true, if_false]; omega⟩
  · obtain ⟨h₁, h₂, h₃, h₄⟩ := hread _ htally
    have hdrops : protocolDrops (tallyDropped (tallyPacket (tallyOf before)) protocol) =
        protocolDrops before + 1 :=
      protocolDrops_tallyDropped protocol fun n hn => hroom n (List.mem_append_right [_, _, _] hn)
    obtain ⟨h₅, h₆, h₇⟩ := tallyDropped_totals (tallyPacket (tallyOf before)) protocol
    rw [Balances, h₁, h₂, h₃, h₄, h₅, h₆, h₇, hdrops]
    simp only [tallyPacket, tallyOf, Bool.false_eq_true, if_false]
    omega

/-- What every packet does to the tally of its CPU. -/
theorem balances_tryEshield (h : Helpers) (nowNs : UInt64) (ctx : XdpContext) {m : Maps}
    (hroom : NoWrap m.globalStats) :
    Balances m.globalStats (tryEshield h nowNs ctx m).2.2.globalStats
      (cookieAnswered h nowNs ctx m) := by
  cases hparse : parse ctx with
  | none =>
    rw [tryEshield, cookieAnswered, hparse]
    exact ⟨rfl, rfl⟩
  | some pc =>
    refine balances_of_tally hroom ?_
    rcases tally_tryEshield h nowNs m hparse with
      ⟨hsent, _, htally⟩ | ⟨hsent, ⟨_, htally⟩ | ⟨_, protocol, htally⟩⟩
    · exact .inl ⟨hsent, htally⟩
    · exact .inr ⟨hsent, .inl htally⟩
    · exact .inr ⟨hsent, .inr ⟨protocol, htally⟩⟩

section conserved

variable {Cpu : Type*} [Fintype Cpu] [DecidableEq Cpu] {w w' : DataPlane Cpu}

/-- A sum over all CPUs when one of them changes. -/
theorem sum_update (stats : Cpu → GlobalStats) (cpu : Cpu) (after : GlobalStats)
    (g : GlobalStats → Nat) :
    ∑ c, g (Function.update stats cpu after c) + g (stats cpu) = ∑ c, g (stats c) + g after := by
  rw [← Finset.add_sum_erase _ _ (Finset.mem_univ cpu),
    ← Finset.add_sum_erase _ (fun c => g (stats c)) (Finset.mem_univ cpu)]
  have hrest : ∑ c ∈ Finset.univ.erase cpu, g (Function.update stats cpu after c) =
      ∑ c ∈ Finset.univ.erase cpu, g (stats c) := by
    refine Finset.sum_congr rfl fun c hc => ?_
    rw [Function.update_of_ne (Finset.ne_of_mem_erase hc)]
  rw [hrest, Function.update_self]
  omega

theorem conserved_step (hI : Conserved w) {l : DataPlaneLabel Cpu} (hroom : Roomy w l)
    (hstep : dataPlaneStep w l = some w') : Conserved w' := by
  cases l with
  | control maps =>
    cases hstep
    exact ⟨hI.dropped, hI.packets⟩
  | packet cpu h nowNs ctx =>
    cases hstep
    obtain ⟨hdrops, hpackets⟩ := balances_tryEshield h nowNs ctx (m := w.mapsOn cpu) hroom
    have hsum := sum_update w.stats cpu (tryEshield h nowNs ctx (w.mapsOn cpu)).2.2.globalStats
    have h₁ := hsum fun s => s.totalPackets.toNat
    have h₂ := hsum fun s => s.totalPassed.toNat
    have h₃ := hsum fun s => s.totalDropped.toNat
    have h₄ := hsum protocolDrops
    have hmine : (w.mapsOn cpu).globalStats = w.stats cpu := rfl
    rw [hmine] at hdrops hpackets
    have hI₁ := hI.dropped
    have hI₂ := hI.packets
    constructor
    · dsimp only at h₃ ⊢
      omega
    · rw [List.filter_append, List.length_append, List.filter_singleton]
      cases hsent : cookieAnswered h nowNs ctx (w.mapsOn cpu) with
      | true =>
        rw [hsent, if_pos rfl] at hpackets
        dsimp only at h₁ h₂ h₃ ⊢
        simp only [cond_true, List.length_singleton]
        omega
      | false =>
        rw [hsent, if_neg Bool.false_ne_true] at hpackets
        dsimp only at h₁ h₂ h₃ ⊢
        simp only [cond_false, List.length_nil]
        omega

/-- From the load of the program on, as long as no statistic wraps: over all CPUs the drops are the
drops of the protocols, and the packets are those passed, dropped and answered with a SYN cookie.
Each single packet that parses is counted once: as passed if it passes, and otherwise as dropped
unless a cookie answers it. -/
theorem stats_conserved {w₀ : DataPlane Cpu} {labels : List (DataPlaneLabel Cpu)}
    (hstats : ∀ c, w₀.stats c = {}) (hlog : w₀.log = [])
    (hroom : Exec.Along dataPlaneStep Roomy w₀ labels)
    (hrun : Exec.exec dataPlaneStep w₀ labels = some w) :
    ∑ c, (w.stats c).totalDropped.toNat =
        ∑ c, ((w.stats c).tcpDropped.toNat + (w.stats c).udpDropped.toNat +
          (w.stats c).icmpDropped.toNat + (w.stats c).otherDropped.toNat) ∧
      ∑ c, (w.stats c).totalPackets.toNat =
        ∑ c, (w.stats c).totalPassed.toNat + ∑ c, (w.stats c).totalDropped.toNat +
          (w.log.filter PacketRecord.cookie).length ∧
      ∀ cpu h nowNs ctx, (parse ctx).isSome →
        let r := tryEshield h nowNs ctx (w.mapsOn cpu)
        let before := w.stats cpu
        let after := r.2.2.globalStats
        after.totalPackets = before.totalPackets + 1 ∧
          (r.1 = .pass →
            after.totalPassed = before.totalPassed + 1 ∧
              after.totalDropped = before.totalDropped) ∧
          (r.1 ≠ .pass → cookieAnswered h nowNs ctx (w.mapsOn cpu) = false →
            after.totalPassed = before.totalPassed ∧
              after.totalDropped = before.totalDropped + 1) ∧
          (cookieAnswered h nowNs ctx (w.mapsOn cpu) = true →
            r.1 = .tx ∧ after.totalPassed = before.totalPassed ∧
              after.totalDropped = before.totalDropped) := by
  have hinit : Conserved w₀ :=
    { dropped := by simp [hstats, protocolDrops]
      packets := by simp [hstats, hlog] }
  have hI := Exec.exec_invariant (I := Conserved) (fun _ _ _ hI hc h => conserved_step hI hc h) hinit
    hroom hrun
  refine ⟨hI.dropped, hI.packets, fun cpu h nowNs ctx hparse => ?_⟩
  obtain ⟨pc, hparse⟩ := Option.isSome_iff_exists.1 hparse
  dsimp only
  -- the statistics that the tally equation fixes
  have hread : ∀ {after t : GlobalStats}, tallyOf after = t → after.totalPackets = t.totalPackets ∧
      after.totalPassed = t.totalPassed ∧ after.totalDropped = t.totalDropped := by
    rintro after t rfl
    exact ⟨rfl, rfl, rfl⟩
  rcases tally_tryEshield h nowNs (w.mapsOn cpu) hparse with
    ⟨hsent, htx, htally⟩ | ⟨hsent, ⟨hpass, htally⟩ | ⟨hne, protocol, htally⟩⟩
  · obtain ⟨hpackets, hpassed, hdropped⟩ := hread htally
    refine ⟨hpackets, fun hpass => ?_, fun _ hnot => ?_, fun _ => ⟨htx, hpassed, hdropped⟩⟩
    · rw [htx] at hpass
      cases hpass
    · rw [hsent] at hnot
      cases hnot
  · obtain ⟨hpackets, hpassed, hdropped⟩ := hread htally
    refine ⟨hpackets, fun _ => ⟨hpassed, hdropped⟩, fun hne => absurd hpass hne, fun hyes => ?_⟩
    rw [hsent] at hyes
    cases hyes
  · obtain ⟨hpackets, hpassed, hdropped⟩ := hread htally
    obtain ⟨h₁, h₂, h₃⟩ := tallyDropped_totals (tallyPacket (tallyOf (w.stats cpu))) protocol
    have hcount := And.intro (hpassed.trans h₂) (hdropped.trans h₃)
    refine ⟨hpackets.trans h₁, fun hpass => absurd hpass hne, fun _ _ => hcount, fun hyes => ?_⟩
    rw [hsent] at hyes
    cases hyes

/-- A packet from a blocked source, and then one that passes. -/
def blockedRun : List (DataPlaneLabel (Fin 2)) :=
  [.packet 0 {} 5 (tcpFrame (List.replicate 20 0)), .control {},
    .packet 1 {} 6 (tcpFrame (List.replicate 20 0))]

theorem stats_conserved_two_packets :
    ∃ w, Exec.exec dataPlaneStep { maps := blockedMaps } blockedRun = some w ∧
      (w.stats 0).totalDropped = 1 ∧ (w.stats 1).totalPassed = 1 ∧
      ∑ c, (w.stats c).totalPackets.toNat =
        ∑ c, (w.stats c).totalPassed.toNat + ∑ c, (w.stats c).totalDropped.toNat +
          (w.log.filter PacketRecord.cookie).length := by
  have hroom : Exec.Along dataPlaneStep Roomy { maps := blockedMaps } blockedRun := by
    refine .cons rfl ?_ (.cons rfl trivial (.cons rfl ?_ trivial))
    · intro n hn
      simp only [List.mem_cons, List.not_mem_nil, or_false, or_self] at hn
      subst hn
      decide
    · have hnew : NoWrap {} := by
        intro n hn
        simp only [List.mem_cons, List.not_mem_nil, or_false, or_self] at hn
        subst hn
        decide
      exact hnew
  exact ⟨_, rfl, by decide, by decide, (stats_conserved (fun _ => rfl) rfl hroom rfl).2.1⟩

end conserved

end EShield.Ebpf
