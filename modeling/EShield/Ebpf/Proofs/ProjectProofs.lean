import EShield.Ebpf.Proofs.PathProofs

/-!
# Protection projects

Which project matches a packet is fixed when the packet comes in; when it has been vetted it carries
the flags of that project, and nothing but a project's PASS has let it through by then.
-/

namespace EShield.Ebpf

variable {s t u : PacketState} {r : Option XdpAction × PacketState}

/-- The project that covers the packet's destination, for an IPv4 packet that is no fragment. -/
def matchedProject (s : PacketState) : Option ProjectPolicy :=
  if s.maps.config.projectEnabled = 0 ∨ s.pc.fragment then none
  else if s.pc.src.ipFamily ≠ some .ipv4 then none
  else
    (s.ctx.ptrAt IP_HDR_LEN ETH_HDR_LEN).bind fun ip =>
      lookupProject s.maps (IpHdr.daddr s.ctx ip) (bswap16 s.pc.dport) s.pc.protocol

/-- The modules that the packet's project keeps on. -/
def projectFlagsFor (s : PacketState) : UInt16 :=
  match matchedProject s with
  | some policy =>
    if policy.action = project_action.DEFEND then
      if policy.flags = 0 then PROJECT_FLAGS_ALL else policy.flags
    else s.pc.projectFlags
  | none => s.pc.projectFlags

theorem matchedProject_worked (hst : Worked s t) : matchedProject t = matchedProject s := by
  unfold matchedProject lookupProject
  rw [hst.config, hst.fragment, hst.src, hst.ctx, hst.projectPolicy, hst.dport, hst.protocol]

/-- What a stage other than the project's may answer: the packet goes on with other maps, or it is
dropped. -/
inductive Quiet (h : Helpers) (s : PacketState) : Option XdpAction × PacketState → Prop where
  | goesOn (m : Maps) : Quiet h s (none, { s with maps := m })
  | drops (ruleId : UInt16) (count : GlobalStats → GlobalStats) (protocol : UInt8)
    (t : PacketState) : Quiet h s (dropAs h ruleId count protocol t)

theorem Quiet.projectFlags {h : Helpers} (hr : Quiet h s (none, t)) :
    t.pc.projectFlags = s.pc.projectFlags := by
  generalize heq : (none, t) = r at hr
  cases hr with
  | goesOn m =>
    cases heq
    rfl
  | drops => cases congrArg Prod.fst heq

theorem Quiet.ne_pass {h : Helpers} (hr : Quiet h s r) : r.1 ≠ some .pass := by
  cases hr with
  | goesOn m => exact (Option.some_ne_none _).symm
  | drops ruleId count protocol t =>
    exact fun heq => dropPacket_ne_pass h _ (Option.some.inj heq)

theorem portRateDrop_quiet (h : Helpers) (ruleId : UInt16) (count : GlobalStats → GlobalStats)
    (protocol : UInt8) (dport : UInt16) (s : PacketState) :
    Quiet h s (portRateDrop h ruleId count protocol dport s) := by
  unfold portRateDrop
  split
  · exact .drops _ _ _ _
  · exact .goesOn _

theorem checkPortAclDrop_quiet (h : Helpers) (aclCount : UInt8) (s : PacketState) :
    Quiet h s (checkPortAclDrop h aclCount s) := by
  unfold checkPortAclDrop
  split
  · exact .goesOn s.maps
  · split
    · exact .drops _ _ _ _
    · exact .goesOn s.maps

theorem checkBlacklistDrop_quiet (h : Helpers) (s : PacketState) :
    Quiet h s (checkBlacklistDrop h s) := by
  unfold checkBlacklistDrop
  split
  · exact .drops _ _ _ _
  · exact .goesOn _

theorem checkFragmentDrop_quiet (h : Helpers) (policy portRateEnabled : UInt8) (s : PacketState) :
    Quiet h s (checkFragmentDrop h policy portRateEnabled s) := by
  unfold checkFragmentDrop
  repeat' split
  · exact .goesOn s.maps
  · exact .drops _ _ _ _
  · exact portRateDrop_quiet h _ _ _ _ s
  · exact .goesOn s.maps

theorem checkGeoipDrop_quiet (h : Helpers) (geoipEnabled geoipDefaultAction : UInt8)
    (s : PacketState) : Quiet h s (checkGeoipDrop h geoipEnabled geoipDefaultAction s) := by
  unfold checkGeoipDrop
  repeat' split
  · exact .goesOn s.maps
  · exact .drops _ _ _ _
  · exact .goesOn s.maps

theorem checkConnTrackDrop_quiet (h : Helpers) (enabled : UInt8) (threshold : UInt32)
    (windowMs : UInt64) (s : PacketState) :
    Quiet h s (checkConnTrackDrop h enabled threshold windowMs s) := by
  unfold checkConnTrackDrop
  repeat' split
  · exact .goesOn s.maps
  · exact .goesOn s.maps
  · exact .drops _ _ _ _
  · exact .goesOn _

/-- The project's stage in terms of the project that matches. -/
theorem checkProjectPolicy_of_matched (h : Helpers) (s : PacketState) :
    checkProjectPolicy h s =
      match matchedProject s with
      | none => (none, s)
      | some policy =>
        if policy.action = project_action.PASS then
          (some .pass,
            { s with
              pc := { s.pc with ruleId := rules.PROJECT_POLICY }
              maps := countPassed s.maps { s.pc with ruleId := rules.PROJECT_POLICY } })
        else if policy.action = project_action.DROP then
          dropAs h rules.PROJECT_POLICY id s.pc.protocol s
        else (none, withFlags (projectFlagsFor s) s) := by
  unfold projectFlagsFor checkProjectPolicy matchedProject
  split
  · rfl
  split
  · rfl
  cases s.ctx.ptrAt IP_HDR_LEN ETH_HDR_LEN with
  | none => rfl
  | some ip =>
    dsimp only [Option.bind_some]
    cases lookupProject s.maps (IpHdr.daddr s.ctx ip) (bswap16 s.pc.dport) s.pc.protocol with
    | none => rfl
    | some policy =>
      dsimp only
      split
      · rfl
      split
      · rfl
      split
      · rfl
      · rfl

/-- A run keeps what each of its stages keeps, and passes a packet only if one of them does. -/
theorem runStages_keeps (h : Helpers) {I : PacketState → Prop} {P : Prop}
    (list : List (PacketState → Option XdpAction × PacketState))
    (hstage : ∀ f ∈ list, ∀ s, I s →
      (∀ t, f s = (none, t) → I t) ∧ ((f s).1 = some .pass → P)) (hs : I s) :
    (∀ t, runStages h list s = (none, t) → I t) ∧ ((runStages h list s).1 = some .pass → P) := by
  induction list generalizing s with
  | nil =>
    refine ⟨fun t heq => ?_, fun heq => absurd heq.symm (Option.some_ne_none _)⟩
    cases heq
    exact hs
  | cons f list ih =>
    obtain ⟨hkeep, hpass⟩ := hstage f List.mem_cons_self s hs
    rw [runStages]
    generalize f s = r at hkeep hpass
    rcases r with ⟨_ | action, t⟩
    · exact ih (fun g hg => hstage g (List.mem_cons_of_mem f hg)) (hkeep t rfl)
    · exact ⟨fun _ heq => absurd heq acted_ne_goesOn, hpass⟩

theorem projectFlagsFor_worked (hst : Worked s t)
    (hflags : t.pc.projectFlags = s.pc.projectFlags) : projectFlagsFor t = projectFlagsFor s := by
  unfold projectFlagsFor
  rw [matchedProject_worked hst, hflags]

/-- The stages up to that of the project. -/
theorem stagesToProject_split (h : Helpers) (runtime : RuntimeConfig) :
    ∃ before, (stages h runtime).take 4 = before ++ [checkProjectPolicy h] ∧
      ∀ f ∈ before, ∀ s, Quiet h s (f s) := by
  refine ⟨[_, _, _], rfl, fun f hf s => ?_⟩
  simp only [List.mem_cons, List.not_mem_nil, or_false] at hf
  rcases hf with rfl | rfl | rfl
  · exact checkPortAclDrop_quiet h _ s
  · exact checkBlacklistDrop_quiet h s
  · exact checkFragmentDrop_quiet h _ _ s

/-- Quiet stages keep the flags and pass nothing. -/
theorem runStages_quiet (h : Helpers)
    {list : List (PacketState → Option XdpAction × PacketState)}
    (hquiet : ∀ f ∈ list, ∀ s, Quiet h s (f s)) (s : PacketState) :
    (∀ t, runStages h list s = (none, t) → t.pc.projectFlags = s.pc.projectFlags) ∧
      (runStages h list s).1 ≠ some .pass := by
  refine runStages_keeps h (I := fun t => t.pc.projectFlags = s.pc.projectFlags) (P := False) list
    (fun f hf t ht => ⟨fun u hu => ?_, (hquiet f hf t).ne_pass⟩) rfl
  have hgo := hquiet f hf t
  rw [hu] at hgo
  exact hgo.projectFlags.trans ht

theorem runStages_vetted (h : Helpers) (runtime : RuntimeConfig)
    {list : List (PacketState → Option XdpAction × PacketState)}
    (hlist : ∀ f ∈ list, f ∈ stagesBeforeTcp h runtime)
    (hgo : runStages h list s = (none, t)) : Worked s t := by
  obtain ⟨u, hvet, hans⟩ := runStages_answers h Vetted.refl Vetted.trans list
    (fun f hf s' => stagesBeforeTcp_answers h runtime (hlist f hf) s') s
  rw [hgo] at hans
  rw [hans.eq_of_none]
  exact hvet.worked

/-- Behind its project's stage a packet carries the flags of the project; one that was let through up
to there owes that to a PASS of its project. -/
theorem runStages_toProject (h : Helpers) (s : PacketState) :
    (∀ t, runStages h ((stages h s.maps.config).take 4) s = (none, t) →
        t.pc.projectFlags = projectFlagsFor s) ∧
      ((runStages h ((stages h s.maps.config).take 4) s).1 = some .pass →
        ∃ policy, matchedProject s = some policy ∧ policy.action = project_action.PASS) := by
  obtain ⟨before, hsplit, hquiet⟩ := stagesToProject_split h s.maps.config
  obtain ⟨hkeep, hpass⟩ := runStages_quiet h hquiet s
  have hmem : ∀ f ∈ before, f ∈ stagesBeforeTcp h s.maps.config := by
    intro f hf
    have hf4 : f ∈ (stages h s.maps.config).take 4 := hsplit ▸ List.mem_append_left _ hf
    exact List.take_subset_take_left _ (by decide) hf4
  rw [hsplit, runStages_append]
  rcases hrun : runStages h before s with ⟨_ | a, t⟩
  swap
  · rw [hrun] at hpass
    exact ⟨fun _ heq => absurd heq acted_ne_goesOn, fun heq => absurd heq hpass⟩
  have hwork := runStages_vetted h s.maps.config hmem hrun
  have hflags := hkeep t hrun
  dsimp only
  rw [runStages, checkProjectPolicy_of_matched, matchedProject_worked hwork]
  cases hproject : matchedProject s with
  | none =>
    have hown : projectFlagsFor s = s.pc.projectFlags := by
      rw [projectFlagsFor, hproject]
    refine ⟨fun u hu => ?_, fun heq => absurd heq.symm (Option.some_ne_none _)⟩
    cases hu
    exact hflags.trans hown.symm
  | some policy =>
    dsimp only
    by_cases hpassed : policy.action = project_action.PASS
    · rw [if_pos hpassed]
      exact ⟨fun _ heq => absurd heq acted_ne_goesOn, fun _ => ⟨policy, rfl, hpassed⟩⟩
    by_cases hdropped : policy.action = project_action.DROP
    · rw [if_neg hpassed, if_pos hdropped]
      have hdrop := dropPacket_ne_pass h
      exact ⟨fun _ heq => absurd heq acted_ne_goesOn, fun heq => absurd (Option.some.inj heq) (hdrop _)⟩
    · rw [if_neg hpassed, if_neg hdropped]
      refine ⟨fun u hu => ?_, fun heq => absurd heq.symm (Option.some_ne_none _)⟩
      cases hu
      exact projectFlagsFor_worked hwork hflags

/-- A packet that has been vetted carries the flags of its project; one that was let through while it
was vetted owes that to a PASS of its project. -/
theorem runStages_beforeTcp_project (h : Helpers) (s : PacketState) :
    (∀ t, runStages h (stagesBeforeTcp h s.maps.config) s = (none, t) →
        t.pc.projectFlags = projectFlagsFor s) ∧
      ((runStages h (stagesBeforeTcp h s.maps.config) s).1 = some .pass →
        ∃ policy, matchedProject s = some policy ∧ policy.action = project_action.PASS) := by
  have hsplit : stagesBeforeTcp h s.maps.config =
      (stages h s.maps.config).take 4 ++ (stagesBeforeTcp h s.maps.config).drop 4 := rfl
  have hquiet : ∀ f ∈ (stagesBeforeTcp h s.maps.config).drop 4, ∀ t, Quiet h t (f t) := by
    intro f hf t
    simp only [stagesBeforeTcp, stages, List.take, List.drop, List.mem_cons, List.not_mem_nil,
      or_false] at hf
    rcases hf with rfl | rfl
    · exact checkGeoipDrop_quiet h _ _ t
    · exact checkConnTrackDrop_quiet h _ _ _ t
  obtain ⟨hkeep, hpass⟩ := runStages_toProject h s
  rw [hsplit, runStages_append]
  rcases hrun : runStages h ((stages h s.maps.config).take 4) s with ⟨_ | a, t⟩
  · obtain ⟨hkeep', hpass'⟩ := runStages_quiet h hquiet t
    exact ⟨fun u hu => (hkeep' u hu).trans (hkeep t hrun), fun heq => absurd heq hpass'⟩
  · rw [hrun] at hpass
    exact ⟨fun _ heq => absurd heq acted_ne_goesOn, hpass⟩

end EShield.Ebpf
