import EShield.Node.Proofs.RuleSetProofs

/-!
# CONFIG and the snapshot

The settings are kept twice, in the snapshot of the control plane and in the CONFIG map of the data
plane. A reload writes the danger level 0 to CONFIG but keeps the level of the snapshot, and a patch
knows the soft mode only in lower case. Where neither matters, and no reload stops half-way, the two
copies agree after every operation.
-/

namespace EShield.Node

open Attempt Checks ControlPlane Ebpf Exec Text

/-! ## The encoding of a snapshot -/

/-- CONFIG as the snapshot has it: what a patch writes, and the fields that a patch leaves alone. The
mode may be spelt in upper case, as in a file. -/
def RuntimeConfigSnapshot.encode (s : RuntimeConfigSnapshot) : RuntimeConfig :=
  { s.writeConfig {} with
    dangerLevel := s.dangerLevel
    portAclCount := tableCount s.portAcl.length MAX_PORT_ACL
    l7PatternCount := tableCount s.l7Scan.patterns.length MAX_L7_PATTERNS
    rateLimitSoft := (decide (lowercase s.rateLimitBlockMode = "soft".toList)).toUInt8 }

/-- Every field of CONFIG is that of the snapshot. -/
def Mirrors (s : ControlPlane) : Prop := s.maps.config = s.runtime.encode

/-- A patch encodes the mode as a file does. -/
def PlainMode (mode : String) : Prop := lowercase mode = "soft".toList → mode = "soft"

instance (mode : String) : Decidable (PlainMode mode) := inferInstanceAs (Decidable (_ → _))

theorem lowercase_toAsciiLowercase (s : String) :
    lowercase (toAsciiLowercase s) = lowercase s := by
  unfold lowercase toAsciiLowercase
  rw [String.toList_ofList, lowercase, List.map_map]
  refine List.map_congr_left fun c _ => ?_
  exact Char.toLower_toLower_eq_toLower c

/-- What a patch sets is in lower case. -/
theorem plainMode_toAsciiLowercase (s : String) : PlainMode (toAsciiLowercase s) := by
  intro hsoft
  rw [lowercase_toAsciiLowercase] at hsoft
  unfold toAsciiLowercase
  rw [hsoft, String.ofList_toList]

theorem softBit_eq {mode : String} (h : PlainMode mode) :
    (decide (mode = "soft")).toUInt8 = (decide (lowercase mode = "soft".toList)).toUInt8 := by
  have hiff : mode = "soft" ↔ lowercase mode = "soft".toList := by
    constructor
    · rintro rfl
      decide
    · exact h
  rw [decide_eq_decide.2 hiff]

/-! ## Operations -/

/-- What changes the configuration of a running node. -/
inductive ControlOp where
  | reload (env : ReloadEnv) (file : Except String Config)
  | patch (patch : RuntimeConfigPatch)
  | setPortAcl (items : List PortAclItem)
  | setL7Patterns (patterns : List L7PatternConfig)
  | setProtectionProjects (projects : List ProtectionProject)
  | setDangerLevel (level : UInt8)

/-- An operation from its start to its end, whether it succeeds or fails. -/
def controlStep (s : ControlPlane) : ControlOp → Option ControlPlane
  | .reload env file => some (reloadConfigFile env file s).2
  | .patch patch => some (patchRuntime patch s).2
  | .setPortAcl items => some (ControlPlane.setPortAcl items s).2
  | .setL7Patterns patterns => some (ControlPlane.setL7Patterns patterns s).2
  | .setProtectionProjects projects => some (ControlPlane.setProtectionProjects projects s).2
  | .setDangerLevel level => some (ControlPlane.setDangerLevel level s).2

/-- A file that passes its checks is reloaded at danger level 0 and to its end; a patch that does not
set the block mode finds one in lower case. -/
def KeepsMirror (s : ControlPlane) : ControlOp → Prop
  | .reload env file =>
    ∀ config, acceptedFile env.host file = .ok config →
      s.runtime.dangerLevel = 0 ∧ Applies env.csv config env.insertFails s
  | .patch patch => patch.rateLimitBlockMode = none → PlainMode s.runtime.rateLimitBlockMode
  | _ => True

/-- CONFIG after a patch that changes the fields it names and no other: `next` is the snapshot it
leaves. -/
def RuntimeConfigPatch.writeNamed (patch : RuntimeConfigPatch) (next : RuntimeConfigSnapshot)
    (cfg : RuntimeConfig) : RuntimeConfig :=
  let named {α : Type} (isNamed : Bool) (new old : α) : α := if isNamed then new else old
  let w := next.writeConfig cfg
  { cfg with
    rateLimitEnabled :=
      named (patch.rateLimitEnabled.isSome || patch.rateLimit.isSome) w.rateLimitEnabled
        cfg.rateLimitEnabled
    synProxyEnabled := named patch.synProxyEnabled.isSome w.synProxyEnabled cfg.synProxyEnabled
    l7ScanEnabled := named patch.l7ScanEnabled.isSome w.l7ScanEnabled cfg.l7ScanEnabled
    udpFloodEnabled := named patch.udpFloodEnabled.isSome w.udpFloodEnabled cfg.udpFloodEnabled
    icmpFloodEnabled := named patch.icmpFloodEnabled.isSome w.icmpFloodEnabled cfg.icmpFloodEnabled
    geoipEnabled := named patch.geoipEnabled.isSome w.geoipEnabled cfg.geoipEnabled
    geoipDefaultAction :=
      named patch.geoipDefaultAction.isSome w.geoipDefaultAction cfg.geoipDefaultAction
    tcpResetOnDrop := named patch.tcpResetOnDrop.isSome w.tcpResetOnDrop cfg.tcpResetOnDrop
    trustEnabled := named patch.trustEnabled.isSome w.trustEnabled cfg.trustEnabled
    connTrackEnabled := named patch.connTrackEnabled.isSome w.connTrackEnabled cfg.connTrackEnabled
    connTrackThreshold :=
      named patch.connTrackThreshold.isSome w.connTrackThreshold cfg.connTrackThreshold
    connTrackWindowMs :=
      named patch.connTrackWindowMs.isSome w.connTrackWindowMs cfg.connTrackWindowMs
    trustAddDivisor := named patch.trustAddDivisor.isSome w.trustAddDivisor cfg.trustAddDivisor
    trustSubDivisor := named patch.trustSubDivisor.isSome w.trustSubDivisor cfg.trustSubDivisor
    portRateLimitEnabled :=
      named patch.portRateLimit.isSome w.portRateLimitEnabled cfg.portRateLimitEnabled
    rateLimitDportGrouping :=
      named patch.rateLimit.isSome w.rateLimitDportGrouping cfg.rateLimitDportGrouping
    fragmentPolicy := named patch.fragmentPolicy.isSome w.fragmentPolicy cfg.fragmentPolicy
    rateLimitSoft := named patch.rateLimitBlockMode.isSome w.rateLimitSoft cfg.rateLimitSoft }

/-! ## Patches -/

/-- A patch leaves CONFIG as its snapshot has it. -/
theorem writeConfig_encode {old next : RuntimeConfigSnapshot}
    (hmode : PlainMode next.rateLimitBlockMode) (hlevel : next.dangerLevel = old.dangerLevel)
    (hacl : next.portAcl = old.portAcl) (hscan : next.l7Scan = old.l7Scan) :
    next.writeConfig old.encode = next.encode := by
  unfold RuntimeConfigSnapshot.encode RuntimeConfigSnapshot.writeConfig
  rw [softBit_eq hmode, hlevel, hacl, hscan]

/-- The mode in the snapshot that a patch leaves. -/
theorem plainMode_applyTo {patch : RuntimeConfigPatch} {s : RuntimeConfigSnapshot}
    (h : patch.rateLimitBlockMode = none → PlainMode s.rateLimitBlockMode) :
    PlainMode (patch.applyTo s).rateLimitBlockMode := by
  show PlainMode ((patch.rateLimitBlockMode.map toAsciiLowercase).getD s.rateLimitBlockMode)
  cases hmode : patch.rateLimitBlockMode with
  | none => exact h hmode
  | some mode => exact plainMode_toAsciiLowercase mode

theorem mirrors_patch {s : ControlPlane} (patch : RuntimeConfigPatch) (h : Mirrors s)
    (hcond : KeepsMirror s (.patch patch)) : Mirrors (patchRuntime patch s).2 := by
  unfold patchRuntime Attempt.commit
  cases hvalid : validateRuntimePatch patch with
  | error e => exact h
  | ok u =>
    show (patch.applyTo s.runtime).writeConfig s.maps.config = (patch.applyTo s.runtime).encode
    rw [show s.maps.config = s.runtime.encode from h]
    exact writeConfig_encode (plainMode_applyTo hcond) rfl rfl rfl

/-- What is written of a field that the patch may name. -/
theorem getD_eq_ite {α β : Type} (o : Option α) (f : α → β) (old : α) :
    f (o.getD old) = if o.isSome = true then f (o.getD old) else f old := by
  cases o with
  | none => rfl
  | some a => rfl

theorem writeConfig_eq_writeNamed {patch : RuntimeConfigPatch} {s : RuntimeConfigSnapshot}
    (h : patch.rateLimitBlockMode = none → PlainMode s.rateLimitBlockMode) :
    (patch.applyTo s).writeConfig s.encode = patch.writeNamed (patch.applyTo s) s.encode := by
  unfold RuntimeConfigPatch.writeNamed RuntimeConfigSnapshot.encode
    RuntimeConfigSnapshot.writeConfig RuntimeConfigPatch.applyTo RuntimeConfigPatch.applyLimits
    RuntimeConfigPatch.applySwitches
  dsimp only
  congr 1
  case e_trustAddDivisor => exact getD_eq_ite _ (max · 1) _
  case e_trustSubDivisor => exact getD_eq_ite _ (max · 1) _
  case e_connTrackThreshold => exact getD_eq_ite _ (max · 1) _
  case e_connTrackWindowMs => exact getD_eq_ite _ (max · 1) _
  case e_rateLimitEnabled =>
    cases hlimit : patch.rateLimit with
    | none => simpa using getD_eq_ite patch.rateLimitEnabled Bool.toUInt8 _
    | some rl => simp
  case e_synProxyEnabled => exact getD_eq_ite _ Bool.toUInt8 _
  case e_l7ScanEnabled => exact getD_eq_ite _ Bool.toUInt8 _
  case e_udpFloodEnabled => exact getD_eq_ite _ Bool.toUInt8 _
  case e_icmpFloodEnabled => exact getD_eq_ite _ Bool.toUInt8 _
  case e_geoipEnabled => exact getD_eq_ite _ Bool.toUInt8 _
  case e_geoipDefaultAction => exact getD_eq_ite _ id _
  case e_tcpResetOnDrop => exact getD_eq_ite _ Bool.toUInt8 _
  case e_trustEnabled => exact getD_eq_ite _ Bool.toUInt8 _
  case e_portRateLimitEnabled =>
    exact getD_eq_ite _ (fun limit : RateLimitParams => limit.enabled.toUInt8) _
  case e_connTrackEnabled => exact getD_eq_ite _ Bool.toUInt8 _
  case e_rateLimitDportGrouping =>
    exact getD_eq_ite _ (fun limit : RateLimitParams => limit.dportGrouping.toUInt8) _
  case e_fragmentPolicy =>
    rw [← Option.isSome_map]
    exact getD_eq_ite _ fragmentPolicyToU8 _
  case e_rateLimitSoft =>
    -- the two spellings of the mode differ only where the patch does not name it
    cases hmode : patch.rateLimitBlockMode with
    | none => exact softBit_eq (h hmode)
    | some mode => rfl

theorem config_of_patch {s : ControlPlane} {patch : RuntimeConfigPatch} (h : Mirrors s)
    (hvalid : validateRuntimePatch patch = .ok ()) (hcond : KeepsMirror s (.patch patch)) :
    (patchRuntime patch s).2.maps.config =
      patch.writeNamed (patch.applyTo s.runtime) s.maps.config := by
  have hrun : (patchRuntime patch s).2.maps.config =
      (patch.applyTo s.runtime).writeConfig s.maps.config := by
    unfold patchRuntime Attempt.commit
    rw [hvalid]
    rfl
  rw [hrun, show s.maps.config = s.runtime.encode from h]
  exact writeConfig_eq_writeNamed hcond

/-! ## Rule sets -/

theorem preserves_setPortAcl (items : List PortAclItem) :
    Preserves Mirrors (ControlPlane.setPortAcl items) := by
  intro s h
  cases hvalid : validatePortAclItems items with
  | error e =>
    have hrun : ControlPlane.setPortAcl items s = (.error e, s) :=
      sequence_cons_of_error (check_of_error hvalid s) _
    rw [hrun]
    exact h
  | ok u =>
    have hrun := setPortAcl_passes hvalid s
    unfold Passes at hrun
    rw [hrun]
    show { s.maps.config with portAclCount := tableCount items.length MAX_PORT_ACL } = _
    rw [show s.maps.config = s.runtime.encode from h]
    rfl

theorem preserves_setL7Patterns (patterns : List L7PatternConfig) :
    Preserves Mirrors (ControlPlane.setL7Patterns patterns) := by
  intro s h
  cases hvalid : validateL7Patterns patterns with
  | error e =>
    have hrun : ControlPlane.setL7Patterns patterns s = (.error e, s) :=
      sequence_cons_of_error (check_of_error hvalid s) _
    rw [hrun]
    exact h
  | ok u =>
    have hrun := setL7Patterns_passes hvalid s
    unfold Passes at hrun
    rw [hrun]
    show { s.maps.config with l7PatternCount := tableCount patterns.length MAX_L7_PATTERNS } = _
    rw [show s.maps.config = s.runtime.encode from h]
    rfl

theorem preserves_setProtectionProjects (projects : List ProtectionProject) :
    Preserves Mirrors (ControlPlane.setProtectionProjects projects) := by
  intro s h
  by_cases hsettable : Settable projects
  · obtain ⟨hvalid, entries, hentries⟩ := hsettable
    have henabled := projectEnabled_eq hvalid hentries
    have hrun := setProtectionProjects_passes hvalid hentries s
    unfold Passes at hrun
    rw [hrun]
    show { s.maps.config with projectEnabled := if entries.length > 0 then 1 else 0 } = _
    rw [show s.maps.config = s.runtime.encode from h, ← henabled]
    rfl
  · obtain ⟨e, hrun⟩ := setProtectionProjects_of_not_settable hsettable s
    rw [hrun]
    exact h

theorem preserves_setStored {α : Type} {set : List α → Attempt ControlPlane String}
    (h : ∀ as, Preserves Mirrors (set as)) (stored : List α) :
    Preserves Mirrors (setStored set stored) := by
  unfold setStored
  split
  · exact fun _ hs => hs
  · exact h stored

/-- An attempt on the maps that leaves CONFIG alone. -/
theorem preserves_onMaps {a : Attempt Maps String} (h : ∀ m, (a m).2.config = m.config) :
    Preserves Mirrors (onMaps a) := by
  intro s hs
  show (a s.maps).2.config = s.runtime.encode
  rw [h]
  exact hs

theorem config_allowCidrRaw (c : Cidr) (m : Maps) : ((allowCidrRaw c) m).2.config = m.config := by
  by_cases hfamily : c.1.ipFamily = none
  · rw [allowCidrRaw_of_unknown hfamily]
  · have hrun := allowCidrRaw_passes hfamily m
    unfold Passes at hrun
    rw [hrun]
    rfl

/-- The persisted rules. -/
theorem preserves_loadPersisted (nowNs : UInt64) (readNs : IpKey → UInt64) :
    Preserves Mirrors (loadPersisted nowNs readNs) := by
  intro s hs
  refine preserves_sequence (fun a ha => ?_) s hs
  simp only [List.mem_append, List.mem_cons, List.mem_map, List.not_mem_nil, or_false] at ha
  rcases ha with (rfl | ⟨c, -, rfl⟩) | rfl | rfl | rfl
  · exact preserves_onMaps fun _ => rfl
  · exact preserves_onMaps (config_allowCidrRaw c)
  · exact preserves_setStored preserves_setPortAcl _
  · exact preserves_setStored preserves_setL7Patterns _
  · exact preserves_setStored preserves_setProtectionProjects _

/-! ## Files -/

theorem max_one_max_one (x : UInt32) : max (max x 1) 1 = max x 1 := by
  simp only [UInt32.max_def]
  by_cases hle : x ≤ 1
  · rw [if_pos hle]
    rfl
  · rw [if_neg hle, if_neg hle]

/-- What a file writes to CONFIG is its snapshot, at danger level 0. -/
theorem encode_fromConfig (config : Config) (m : Maps) :
    (RuntimeConfigSnapshot.fromConfig config).encode = (initConfigMap config m).config := by
  unfold RuntimeConfigSnapshot.encode RuntimeConfigSnapshot.writeConfig
    RuntimeConfigSnapshot.fromConfig initConfigMap
  simp only [max_assoc, max_self, max_one_max_one]

theorem config_of_applied {csv : CsvFiles} {config : Config} {insertFails : Option Nat}
    {s t : ControlPlane} (h : ReloadOutcome csv config insertFails s (.ok (), t)) :
    t.maps.config = (RuntimeConfigSnapshot.fromConfig config).encode := by
  cases h with
  | applied => exact (encode_fromConfig config _).symm

theorem mirrors_reload {s : ControlPlane} (env : ReloadEnv) (file : Except String Config)
    (h : Mirrors s) (hcond : KeepsMirror s (.reload env file)) :
    Mirrors (reloadConfigFile env file s).2 := by
  cases hfile : acceptedFile env.host file with
  | error e =>
    rw [reloadConfigFile_of_refused hfile]
    exact h
  | ok config =>
    obtain ⟨hlevel, happlies⟩ := hcond config hfile
    obtain ⟨t, hout, hrun⟩ := reloadConfigFile_of_applies hfile happlies
    obtain ⟨-, hruntime⟩ := kept_of_outcome hout
    rw [hrun]
    refine preserves_loadPersisted _ _ _ ?_
    show t.maps.config = { RuntimeConfigSnapshot.fromConfig config with
      dangerLevel := t.runtime.dangerLevel }.encode
    have hzero : t.runtime.dangerLevel = 0 := (congrArg _ hruntime).trans hlevel
    rw [hzero]
    exact config_of_applied hout

theorem mirrors_startUp {env : ReloadEnv} {file : Except String Config} {store : RuleStore}
    {tables : RuleTables} {s : ControlPlane} (h : startUp env file store tables = .ok s) :
    Mirrors s := by
  obtain ⟨config, t, -, hout, rfl⟩ := startUp_outcome h
  obtain ⟨-, hruntime⟩ := kept_of_outcome hout
  refine preserves_loadPersisted _ _ _ ?_
  show t.maps.config = t.runtime.encode
  rw [hruntime]
  exact config_of_applied hout

/-! ## Runs -/

theorem mirrors_step {s s' : ControlPlane} {op : ControlOp} (h : Mirrors s)
    (hcond : KeepsMirror s op) (hstep : controlStep s op = some s') : Mirrors s' := by
  cases op with
  | reload env file =>
    cases hstep
    exact mirrors_reload env file h hcond
  | patch patch =>
    cases hstep
    exact mirrors_patch patch h hcond
  | setPortAcl items =>
    cases hstep
    exact preserves_setPortAcl items s h
  | setL7Patterns patterns =>
    cases hstep
    exact preserves_setL7Patterns patterns s h
  | setProtectionProjects projects =>
    cases hstep
    exact preserves_setProtectionProjects projects s h
  | setDangerLevel level =>
    cases hstep
    show { s.maps.config with dangerLevel := clampDangerLevel level } = _
    rw [show s.maps.config = s.runtime.encode from h]
    rfl

/-- In every run from a start in which each operation meets `KeepsMirror`, CONFIG is the encoding of
the snapshot, and an accepted patch changes in it only the fields that it names. -/
theorem config_mirrors_snapshot {env : ReloadEnv} {file : Except String Config}
    {store : RuleStore} {tables : RuleTables} {s₀ s : ControlPlane} {ops : List ControlOp}
    (hstart : startUp env file store tables = .ok s₀)
    (hcond : Along controlStep KeepsMirror s₀ ops) (hrun : exec controlStep s₀ ops = some s) :
    Mirrors s ∧ ∀ patch, validateRuntimePatch patch = .ok () → KeepsMirror s (.patch patch) →
      (patchRuntime patch s).2.maps.config =
        patch.writeNamed (patch.applyTo s.runtime) s.maps.config := by
  have hmirrors : Mirrors s :=
    exec_invariant (fun _ _ _ hI hc h => mirrors_step hI hc h) (mirrors_startUp hstart) hcond hrun
  exact ⟨hmirrors, fun patch hvalid hplain => config_of_patch hmirrors hvalid hplain⟩

theorem config_mirrors_snapshot_patched :
    ∃ s₀ s, startUp plainEnv (.ok limiterOff) ∅ {} = .ok s₀ ∧
      exec controlStep s₀ [.setDangerLevel 2, .patch limiterPatch] = some s ∧
      s.maps.config.dangerLevel = 2 ∧ Mirrors s := by
  obtain ⟨s₀, hstart, hmode⟩ : ∃ s₀, startUp plainEnv (.ok limiterOff) ∅ {} = .ok s₀ ∧
      s₀.runtime.rateLimitBlockMode = "hard" := ⟨_, rfl, rfl⟩
  have hplain : PlainMode s₀.runtime.rateLimitBlockMode := by
    rw [hmode]
    decide
  have hcond : Along controlStep KeepsMirror s₀ [.setDangerLevel 2, .patch limiterPatch] :=
    .cons rfl trivial (.cons rfl (fun _ => hplain) trivial)
  exact ⟨s₀, _, hstart, rfl, rfl, (config_mirrors_snapshot hstart hcond rfl).1⟩

/-- A run from a start with `config`. -/
def controlRun (config : Config) (ops : List ControlOp) : Option ControlPlane :=
  (startUp plainEnv (.ok config) ∅ {}).toOption.bind fun s => exec controlStep s ops

theorem controlRun_eq_some {config : Config} {ops : List ControlOp} {s : ControlPlane}
    (h : controlRun config ops = some s) :
    ∃ s₀, startUp plainEnv (.ok config) ∅ {} = .ok s₀ ∧ exec controlStep s₀ ops = some s := by
  unfold controlRun at h
  cases hstart : startUp plainEnv (.ok config) ∅ {} with
  | error e =>
    rw [hstart] at h
    cases h
  | ok s₀ =>
    rw [hstart] at h
    exact ⟨s₀, rfl, h⟩

/-- A reload puts the danger level of CONFIG back to 0 and keeps that of the snapshot. -/
theorem reload_resets_danger_level :
    ∃ s₀ s, startUp plainEnv (.ok limiterOff) ∅ {} = .ok s₀ ∧
      exec controlStep s₀ [.setDangerLevel 2, .reload plainEnv (.ok limiterOff)] = some s ∧
      ¬ Mirrors s := by
  have hview : (controlRun limiterOff [.setDangerLevel 2, .reload plainEnv (.ok limiterOff)]).map
      (fun s => (s.runtime.dangerLevel, s.maps.config.dangerLevel)) = some (2, 0) := by
    decide +kernel
  obtain ⟨s, hs, hview⟩ := Option.map_eq_some_iff.1 hview
  obtain ⟨s₀, hstart, hrun⟩ := controlRun_eq_some hs
  obtain ⟨hsnapshot, hconfig⟩ := Prod.mk.inj hview
  refine ⟨s₀, s, hstart, hrun, fun h => ?_⟩
  have hlevel : s.maps.config.dangerLevel = s.runtime.dangerLevel :=
    congrArg RuntimeConfig.dangerLevel h
  rw [hsnapshot, hconfig] at hlevel
  exact absurd hlevel (by decide)

/-- The soft mode of a file may be spelt in upper case, and then a patch that names no field at all
turns it off. -/
theorem empty_patch_hardens_mode :
    ((controlRun { limiterOff with
        rateLimit := { limiterOff.rateLimit with blockMode := "SOFT" } } []).map
          fun s => s.maps.config.rateLimitSoft) = some 1 ∧
      ((controlRun { limiterOff with
        rateLimit := { limiterOff.rateLimit with blockMode := "SOFT" } } [.patch {}]).map
          fun s => s.maps.config.rateLimitSoft) = some 0 := by
  constructor
  · decide +kernel
  · decide +kernel

end EShield.Node
