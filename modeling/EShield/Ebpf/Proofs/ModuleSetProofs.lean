import EShield.Ebpf.Proofs.ResetProofs

/-!
# A project's module set

Seven of the modules that a project can select have a stage of their own, which lets a packet go on
when its flags lack the module; so the stage may as well be missing. The reset is not asked for: it
belongs to `drop_packet`, which does not look at the flags.
-/

namespace EShield.Ebpf

variable {h : Helpers} {runtime : RuntimeConfig} {s t u : PacketState}

/-! ## Stages that are switched off -/

/-- A stage whose module the flags lack lets the packet go on as it is. -/
theorem stage_off {module : ProjectModule} {i : Nat} (hstage : module.stage = some i)
    {f : PacketState → Option XdpAction × PacketState} (hf : (stages h runtime)[i]? = some f)
    (hoff : s.pc.projectFlags &&& module.bit = 0) : f s = (none, s) := by
  have hflood : ∀ enabled portRateEnabled bit handleFlood ruleId count dport,
      s.pc.projectFlags &&& bit = 0 →
      floodDrop h enabled portRateEnabled bit handleFlood ruleId count dport s = (none, s) := by
    intro enabled portRateEnabled bit handleFlood ruleId count dport hoff
    simp [floodDrop, hoff]
  cases module with
  | tcpReset => cases hstage
  | geoip =>
    cases hstage
    cases hf
    exact if_pos (.inr hoff)
  | connTrack =>
    cases hstage
    cases hf
    exact if_pos (.inr (.inr (.inr hoff)))
  | synFlood =>
    cases hstage
    cases hf
    dsimp only
    split
    · exact if_pos (.inl hoff)
    · rfl
  | udpFlood =>
    cases hstage
    cases hf
    unfold checkUdpDrop
    split
    · rfl
    · exact hflood _ _ _ _ _ _ _ hoff
  | icmpFlood =>
    cases hstage
    cases hf
    unfold checkIcmpDrop
    split
    · rfl
    · exact hflood _ _ _ _ _ _ _ hoff
  | l7Scan =>
    cases hstage
    cases hf
    dsimp only
    split
    · exact if_pos (.inr (.inl hoff))
    · rfl
  | rateLimit =>
    cases hstage
    cases hf
    exact if_pos hoff

/-- A stage that lets every packet of the run go on may be left out. -/
theorem runStages_set (h : Helpers) {I : PacketState → Prop}
    (list : List (PacketState → Option XdpAction × PacketState)) (i : Nat)
    (hkeep : ∀ f ∈ list, ∀ s t, I s → f s = (none, t) → I t)
    (hoff : ∀ f, list[i]? = some f → ∀ s, I s → f s = (none, s)) (hs : I s) :
    runStages h (list.set i fun s => (none, s)) s = runStages h list s := by
  induction list generalizing i s with
  | nil => rfl
  | cons f list ih =>
    cases i with
    | zero =>
      rw [List.set_cons_zero, runStages, runStages, hoff f rfl s hs]
    | succ i =>
      have hf := hkeep f List.mem_cons_self s
      rw [List.set_cons_succ, runStages, runStages]
      generalize f s = r at hf
      rcases r with ⟨_ | action, t⟩
      · exact ih i (fun g hg => hkeep g (List.mem_cons_of_mem f hg)) hoff (hf t hs rfl)
      · rfl

/-! ## The flags on the way -/

/-- A stage behind the project's that lets a packet go on keeps its flags. -/
theorem detected_of_goesOn (hip : HoldsIpHeader s)
    {f : PacketState → Option XdpAction × PacketState}
    (hf : f ∈ (stages h s.maps.config).drop 4) (hgo : f s = (none, t)) : Detected s t := by
  have hprotocol := protocolStage_none (h := h) (t := t) hip
  simp only [stages, List.drop, List.mem_cons, List.not_mem_nil, or_false] at hf
  have hvetted : ∀ f ∈ stagesBeforeTcp h s.maps.config, Quiet h s (f s) → f s = (none, t) →
      Detected s t := by
    intro f hf hquiet hgo
    obtain ⟨u, hvet, hans⟩ := stagesBeforeTcp_answers h s.maps.config hf s
    rw [hgo] at hans hquiet
    refine ⟨?_, hquiet.projectFlags⟩
    rw [hans.eq_of_none]
    exact hvet.worked
  have hsame : Answers s (none, t) → Detected s t := by
    intro hans
    rw [hans.eq_of_none]
    exact .refl s
  rcases hf with rfl | rfl | rfl | rfl | rfl | rfl | rfl
  · exact hvetted _ (by simp [stagesBeforeTcp, stages]) (checkGeoipDrop_quiet h _ _ s) hgo
  · exact hvetted _ (by simp [stagesBeforeTcp, stages]) (checkConnTrackDrop_quiet h _ _ _ s) hgo
  · dsimp only at hgo
    by_cases htcp : s.pc.protocol = IPPROTO_TCP
    · rw [if_pos htcp] at hgo
      exact hprotocol (by rw [protocolStage, if_pos htcp, hgo])
    · rw [if_neg htcp] at hgo
      exact hsame (hgo ▸ .goesOn)
  · by_cases hudp : s.pc.protocol = IPPROTO_UDP
    · have htcp : s.pc.protocol ≠ IPPROTO_TCP := by
        rw [hudp]
        decide
      exact hprotocol (by rw [protocolStage, if_neg htcp, if_pos hudp, hgo])
    · rw [checkUdpDrop, if_pos (.inl hudp)] at hgo
      exact hsame (hgo ▸ .goesOn)
  · by_cases hother : s.pc.protocol = IPPROTO_TCP ∨ s.pc.protocol = IPPROTO_UDP
    · have hicmp : s.pc.protocol ≠ IPPROTO_ICMP ∧ s.pc.protocol ≠ IPPROTO_ICMPV6 := by
        rcases hother with heq | heq <;> rw [heq] <;> decide
      rw [checkIcmpDrop, if_pos (.inl hicmp)] at hgo
      exact hsame (hgo ▸ .goesOn)
    · obtain ⟨htcp, hudp⟩ := not_or.1 hother
      exact hprotocol (by rw [protocolStage, if_neg htcp, if_neg hudp, hgo])
  · have hans := l7Stage_answers h s.maps.config s
    exact hsame (hgo ▸ hans)
  · rcases checkRateLimitDrop_answers h s with ⟨_, hans⟩ | ⟨_, _, hans⟩
    · exact hsame (hgo ▸ hans)
    · rw [hgo] at hans
      rw [hans.eq_of_none]
      exact detected_rateLimited s

/-- With the flags that its project gives a packet, a stage whose module is missing in them may as
well be left out. -/
theorem runStages_without (h : Helpers) (hip : HoldsIpHeader s) {module : ProjectModule}
    (hoff : projectFlagsFor s &&& module.bit = 0) :
    runStages h (stagesWithout h s.maps.config module) s =
      runStages h (stages h s.maps.config) s := by
  rw [stagesWithout]
  cases hstage : module.stage with
  | none => rfl
  | some i =>
    dsimp only
    have hi : 4 ≤ i := by
      cases module <;> cases hstage <;> decide
    obtain ⟨j, rfl⟩ := Nat.exists_eq_add_of_le' hi
    have hset : ((stages h s.maps.config).set (j + 4) fun s => (none, s)) =
        (stages h s.maps.config).take 4 ++
          ((stages h s.maps.config).drop 4).set j fun s => (none, s) := rfl
    have hrun := runStages_append h ((stages h s.maps.config).take 4)
      ((stages h s.maps.config).drop 4) s
    rw [List.take_append_drop] at hrun
    rw [hset, runStages_append, hrun]
    rcases hrun : runStages h ((stages h s.maps.config).take 4) s with ⟨_ | a, t⟩
    swap
    · rfl
    have hmem : ∀ f ∈ (stages h s.maps.config).take 4, f ∈ stagesBeforeTcp h s.maps.config :=
      List.take_subset_take_left _ (by decide)
    have hwork := runStages_vetted h s.maps.config hmem hrun
    refine runStages_set h (I := fun u => HoldsIpHeader u ∧ u.maps.config = s.maps.config ∧
      u.pc.projectFlags = projectFlagsFor s) _ j ?_ ?_
      ⟨hip.worked hwork, hwork.config, (runStages_toProject h s).1 t hrun⟩
    · rintro f hf u v ⟨hip, hconfig, hflags⟩ hgo
      have hdet := detected_of_goesOn (h := h) hip (by rwa [hconfig]) hgo
      exact ⟨hip.worked hdet.toWorked, hdet.config.trans hconfig, hdet.projectFlags.trans hflags⟩
    · rintro f hf u ⟨_, _, hflags⟩
      have hget : (stages h s.maps.config)[j + 4]? = some f := by
        rw [← hf, List.getElem?_drop, Nat.add_comm]
      exact stage_off hstage hget (by rwa [hflags])

/-! ## Modules without effect -/

/-- Without its module's bit in the flags of its project, a packet does not meet the module. -/
theorem hasNoEffect_of_stage (h : Helpers) (nowNs : UInt64) {ctx : XdpContext} (m : Maps)
    {pc : PacketCtx} (hparse : parse ctx = some pc) {module : ProjectModule}
    (hstage : module ≠ .tcpReset)
    (hoff : projectFlagsFor (enter nowNs ctx m pc) &&& module.bit = 0) :
    HasNoEffect module h nowNs ctx m := by
  have hrun := runStages_without h (holdsIpHeader_enter hparse nowNs m) hoff
  rw [HasNoEffect, tryEshield_of_parse hparse, tryEshieldWithout, hparse]
  dsimp only
  rw [enterWithout, if_neg hstage]
  exact congrArg
    (fun r => if isWhitelisted m pc.src then
      (.pass, ctx, countPassed (enter nowNs ctx m pc).maps (enter nowNs ctx m pc).pc)
    else leave r) hrun.symm

/-- The reset has an effect exactly if it is due and a stage leaves the packet to `drop_packet`. -/
theorem tcpReset_hasNoEffect_iff (h : Helpers) (nowNs : UInt64) {ctx : XdpContext} (m : Maps)
    {pc : PacketCtx} (hparse : parse ctx = some pc) :
    HasNoEffect .tcpReset h nowNs ctx m ↔
      isWhitelisted m pc.src = true ∨ m.config.tcpResetOnDrop = 0 ∨
        pc.protocol ≠ IPPROTO_TCP ∨ ¬ LeftToDropPacket h m.config (enter nowNs ctx m pc) := by
  have hrun := runStages_alike (h := h) (fun i t => i = 6 ∧ ToSynProxy m.config.synProxyEnabled t)
    (stages h m.config) (fun _ _ hf s => stage_alike hf s) (enter nowNs ctx m pc)
  rw [HasNoEffect, tryEshield_of_parse hparse, tryEshieldWithout, hparse]
  dsimp only
  rw [enterWithout, if_pos rfl]
  by_cases hwhite : isWhitelisted m pc.src = true
  · rw [if_pos hwhite, if_pos hwhite]
    exact ⟨fun _ => .inl hwhite, fun _ => rfl⟩
  · rw [if_neg hwhite, if_neg hwhite]
    exact hrun.leave_eq_iff.trans ⟨.inr, fun hor => hor.resolve_left hwhite⟩

/-- The module set of a project that defends a packet's destination is exact but for the reset, and
in that too unless it is due without the project asking for it. -/
theorem defend_modules_exact (h : Helpers) (nowNs : UInt64) {ctx : XdpContext} (m : Maps)
    {pc : PacketCtx} (hparse : parse ctx = some pc) {policy : ProjectPolicy}
    (hproject : matchedProject (enter nowNs ctx m pc) = some policy)
    (hdefend : policy.action = project_action.DEFEND) (hflags : policy.flags ≠ 0) :
    (∀ module, module ≠ .tcpReset → policy.flags &&& module.bit = 0 →
        HasNoEffect module h nowNs ctx m) ∧
      ((∀ module : ProjectModule, policy.flags &&& module.bit = 0 →
          HasNoEffect module h nowNs ctx m) ↔
        policy.flags &&& project_modules.TCP_RESET ≠ 0 ∨ isWhitelisted m pc.src = true ∨
          m.config.tcpResetOnDrop = 0 ∨ pc.protocol ≠ IPPROTO_TCP ∨
            ¬ LeftToDropPacket h m.config (enter nowNs ctx m pc)) := by
  have hown : projectFlagsFor (enter nowNs ctx m pc) = policy.flags := by
    rw [projectFlagsFor, hproject]
    dsimp only
    rw [if_pos hdefend, if_neg hflags]
  have hstages : ∀ module, module ≠ .tcpReset → policy.flags &&& module.bit = 0 →
      HasNoEffect module h nowNs ctx m :=
    fun module hstage hoff => hasNoEffect_of_stage h nowNs m hparse hstage (hown ▸ hoff)
  refine ⟨hstages, fun hexact => ?_, fun hwhen module hoff => ?_⟩
  · by_cases hasks : policy.flags &&& project_modules.TCP_RESET = 0
    · exact .inr ((tcpReset_hasNoEffect_iff h nowNs m hparse).1 (hexact .tcpReset hasks))
    · exact .inl hasks
  · by_cases hreset : module = .tcpReset
    · rw [hreset] at hoff ⊢
      exact (tcpReset_hasNoEffect_iff h nowNs m hparse).2 (hwhen.resolve_left (not_not.2 hoff))
    · exact hstages module hreset hoff

/-- Maps under which all drops are answered with a reset, and whose one project asks for the GeoIP
check of what goes to 10.0.0.2, which drops all sources. -/
def geoipProjectMaps (tcpResetOnDrop : UInt8) : Maps :=
  { config :=
      { projectEnabled := 1, geoipEnabled := 1, geoipDefaultAction := 1
        tcpResetOnDrop := tcpResetOnDrop }
    projectPolicy := LruHashMap.insert .empty { addr := 0x0200000a, dport := 0, protocol := 0 }
      { flags := project_modules.GEOIP, action := project_action.DEFEND } }

/-- With the reset switched off, no module but the GeoIP check has an effect on a TCP frame. -/
theorem defend_modules_exact_geoip :
    (tryEshield {} 5 (tcpFrame (List.replicate 20 0)) (geoipProjectMaps 0)).1 = .drop ∧
      ∀ module : ProjectModule, project_modules.GEOIP &&& module.bit = 0 →
        HasNoEffect module {} 5 (tcpFrame (List.replicate 20 0)) (geoipProjectMaps 0) := by
  have hparse : parse (tcpFrame (List.replicate 20 0)) =
      some ((parse (tcpFrame (List.replicate 20 0))).get (by decide)) := rfl
  have hproject : matchedProject (enter 5 (tcpFrame (List.replicate 20 0)) (geoipProjectMaps 0)
      ((parse (tcpFrame (List.replicate 20 0))).get (by decide))) =
      some { flags := project_modules.GEOIP, action := project_action.DEFEND } := rfl
  exact ⟨by decide, (defend_modules_exact {} 5 (geoipProjectMaps 0) hparse hproject rfl
    (by decide)).2.2 (.inr (.inr (.inl rfl)))⟩

/-- A project that does not ask for the reset: the packet it drops is answered with one. -/
theorem defend_answers_with_reset :
    ∃ pc policy, parse (tcpFrame (List.replicate 20 0)) = some pc ∧
      matchedProject (enter 5 (tcpFrame (List.replicate 20 0)) (geoipProjectMaps 1) pc) =
        some policy ∧
      policy.action = project_action.DEFEND ∧ policy.flags ≠ 0 ∧
      policy.flags &&& ProjectModule.tcpReset.bit = 0 ∧
      (tryEshield {} 5 (tcpFrame (List.replicate 20 0)) (geoipProjectMaps 1)).1 = .tx ∧
      ¬ HasNoEffect .tcpReset {} 5 (tcpFrame (List.replicate 20 0)) (geoipProjectMaps 1) := by
  have hsent :
      (tryEshield {} 5 (tcpFrame (List.replicate 20 0)) (geoipProjectMaps 1)).1 = .tx := by
    decide
  have hsilent : (tryEshieldWithout .tcpReset {} 5 (tcpFrame (List.replicate 20 0))
      (geoipProjectMaps 1)).1 = .drop := by
    decide
  refine ⟨_, { flags := project_modules.GEOIP, action := project_action.DEFEND }, rfl, rfl, rfl,
    by decide, by decide, hsent, fun heq => ?_⟩
  rw [HasNoEffect] at heq
  rw [heq, hsilent] at hsent
  cases hsent

end EShield.Ebpf
