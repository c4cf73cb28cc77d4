import EShield.Common.Proofs.DecayProofs
import EShield.Lib.Exec
import EShield.Node.Proofs.ReloadPartsProofs

/-!
# The limiters and their parameters

The parameters of a limiter are in a map of their own, its switch is in CONFIG. A file or a patch
that brings parameters is checked; a patch that only turns the switch is not. As long as no such
patch meets unusable parameters, and no reload fails after it has written some, an enabled limiter
has parameters it can work with.
-/

namespace EShield.Node

open Attempt Checks ControlPlane Ebpf Exec

/-! ## Usable parameters -/

/-- The threshold can be reached, time passes, and the decay can be computed. -/
def UsableRate (cfg : RateLimitConfig) : Prop :=
  0 < cfg.threshold ∧ 0 < cfg.tickMs ∧ 0 < cfg.decayDen

/-- The port limiter counts in windows of `tickMs`. -/
def UsablePortRate (cfg : RateLimitConfig) : Prop := 0 < cfg.threshold ∧ 0 < cfg.tickMs

/-- Each limiter that CONFIG enables has usable parameters. -/
def LimitersUsable (m : Maps) : Prop :=
  (m.config.rateLimitEnabled ≠ 0 → UsableRate m.rateLimitCfg) ∧
    (m.config.portRateLimitEnabled ≠ 0 → UsablePortRate m.portRateLimitCfg)

/-! ## What the other parts leave alone -/

/-- What there is about the limiters: parameters and switches in the maps and in the snapshot. -/
def mapLimits (m : Maps) : RateLimitConfig × RateLimitConfig × UInt8 × UInt8 :=
  (m.rateLimitCfg, m.portRateLimitCfg, m.config.rateLimitEnabled, m.config.portRateLimitEnabled)

def switches (s : RuntimeConfigSnapshot) : Bool × Bool :=
  (s.rateLimitEnabled, s.portRateLimit.enabled)

def limits (s : ControlPlane) :
    (RateLimitConfig × RateLimitConfig × UInt8 × UInt8) × Bool × Bool :=
  (mapLimits s.maps, switches s.runtime)

/-- The persisted rules have no part in the limiters. -/
theorem limits_loadPersisted (nowNs : UInt64) (readNs : IpKey → UInt64) (s : ControlPlane) :
    limits (loadPersisted nowNs readNs s).2 = limits s := by
  have hview : ∀ t, limits (outsideRules t) = limits t := fun _ => rfl
  rw [← hview, outsideRules_loadPersisted, hview]
  rfl

/-! ## A reload -/

/-- The parameters that a file brings. -/
def fileLimits (config : Config) : RateLimitConfig × RateLimitConfig :=
  ((initRateLimitMap config {}).rateLimitCfg, (initPortRateMap config {}).portRateLimitCfg)

/-- The limiters after the parameters are written. -/
def afterParameters (config : Config) (s : ControlPlane) :
    (RateLimitConfig × RateLimitConfig × UInt8 × UInt8) × Bool × Bool :=
  (((fileLimits config).1, (fileLimits config).2, s.maps.config.rateLimitEnabled,
    s.maps.config.portRateLimitEnabled), switches s.runtime)

/-- The limiters after CONFIG is written. -/
def afterConfig (config : Config) (s : ControlPlane) :
    (RateLimitConfig × RateLimitConfig × UInt8 × UInt8) × Bool × Bool :=
  (((fileLimits config).1, (fileLimits config).2, config.rateLimit.enabled.toUInt8,
    config.portRateLimit.enabled.toUInt8), switches s.runtime)

/-- The parameters come first and CONFIG comes last; the other parts have nothing to do with the
limiters. -/
theorem limits_of_outcome {csv : CsvFiles} {config : Config} {insertFails : Option Nat}
    {s : ControlPlane} {r : Except String Unit × ControlPlane}
    (h : ReloadOutcome csv config insertFails s r) :
    (∃ e, r.1 = .error e ∧ limits r.2 = afterParameters config s) ∨
      r.1 = .ok () ∧ limits r.2 = afterConfig config s := by
  cases h with
  | tooManyEntries => exact .inl ⟨_, rfl, rfl⟩
  | prefixAbsent => exact .inl ⟨_, rfl, rfl⟩
  | listUnreadable => exact .inl ⟨_, rfl, rfl⟩
  | trieFull => exact .inl ⟨_, rfl, rfl⟩
  | applied => exact .inr ⟨rfl, rfl⟩

/-! ## What holds of every state -/

/-- The enabled limiters are usable, and CONFIG has the switches of the snapshot. -/
structure LimitsInv (l : (RateLimitConfig × RateLimitConfig × UInt8 × UInt8) × Bool × Bool) :
    Prop where
  rate : l.1.2.2.1 ≠ 0 → UsableRate l.1.1
  portRate : l.1.2.2.2 ≠ 0 → UsablePortRate l.1.2.1
  rateSwitch : l.1.2.2.1 = l.2.1.toUInt8
  portRateSwitch : l.1.2.2.2 = l.2.2.toUInt8

theorem LimitsInv.usable {s : ControlPlane} (h : LimitsInv (limits s)) : LimitersUsable s.maps :=
  ⟨h.rate, h.portRate⟩

theorem toUInt8_ne_zero_iff {b : Bool} : b.toUInt8 ≠ 0 ↔ b = true := by
  cases b <;> decide

/-- The parameters of an accepted file are usable where it enables the limiter. -/
theorem fileLimits_usable {config : Config} (h : Accepted config) :
    (config.rateLimit.enabled = true → UsableRate (fileLimits config).1) ∧
      (config.portRateLimit.enabled = true → UsablePortRate (fileLimits config).2) := by
  constructor
  · intro henabled
    obtain ⟨hthreshold, htick, hden⟩ := h.rateLimit henabled
    exact ⟨UInt64.pos_iff_ne_zero.2 hthreshold, UInt64.pos_iff_ne_zero.2 htick,
      UInt64.pos_iff_ne_zero.2 hden⟩
  · intro henabled
    obtain ⟨hthreshold, htick⟩ := h.portRateLimit henabled
    exact ⟨UInt64.pos_iff_ne_zero.2 hthreshold, UInt64.pos_iff_ne_zero.2 htick⟩

theorem limitsInv_of_file {config : Config} (h : Accepted config) :
    LimitsInv (((fileLimits config).1, (fileLimits config).2, config.rateLimit.enabled.toUInt8,
      config.portRateLimit.enabled.toUInt8),
      switches (RuntimeConfigSnapshot.fromConfig config)) where
  rate henabled := (fileLimits_usable h).1 (toUInt8_ne_zero_iff.1 henabled)
  portRate henabled := (fileLimits_usable h).2 (toUInt8_ne_zero_iff.1 henabled)
  rateSwitch := rfl
  portRateSwitch := rfl

/-! ## Steps -/

/-- An accepted patch brings usable parameters with an enabled limiter. -/
theorem validateRuntimePatch_limits {patch : RuntimeConfigPatch}
    (h : validateRuntimePatch patch = .ok ()) :
    (∀ rl, patch.rateLimit = some rl → rl.enabled = true →
        0 < rl.threshold ∧ 0 < rl.tickMs ∧ 0 < rl.decayDen) ∧
      ∀ prl, patch.portRateLimit = some prl → prl.enabled = true →
        0 < prl.threshold ∧ 0 < prl.tickMs := by
  obtain ⟨hrate, h⟩ := check_bind_eq_ok.1 h
  obtain ⟨hport, -⟩ := check_bind_eq_ok.1 h
  constructor
  · intro rl hrl henabled
    rw [hrl, checkField_some, if_pos henabled] at hrate
    obtain ⟨hthreshold, hrate⟩ := check_bind_eq_ok.1 hrate
    obtain ⟨htick, hden⟩ := check_bind_eq_ok.1 hrate
    rw [rejectIf_eq_ok] at hthreshold htick hden
    exact ⟨UInt64.pos_iff_ne_zero.2 hthreshold, UInt64.pos_iff_ne_zero.2 htick,
      UInt64.pos_iff_ne_zero.2 hden⟩
  · intro prl hprl henabled
    rw [hprl, checkField_some, if_pos henabled] at hport
    obtain ⟨hthreshold, htick⟩ := check_bind_eq_ok.1 hport
    rw [rejectIf_eq_ok] at hthreshold htick
    exact ⟨UInt64.pos_iff_ne_zero.2 hthreshold, UInt64.pos_iff_ne_zero.2 htick⟩

/-- What changes the limiters while the node runs. -/
inductive ConfigEvent where
  | reload (env : ReloadEnv) (file : Except String Config)
  | patch (patch : RuntimeConfigPatch)

def configStep (s : ControlPlane) : ConfigEvent → Option ControlPlane
  | .reload env file => some (reloadConfigFile env file s).2
  | .patch patch => some (patchRuntime patch s).2

/-- A patch that turns the limiter on without parameters finds usable ones, and a reload that cannot
apply its file to the end does not leave unusable ones to a limiter that is on. -/
def LeavesUsable (s : ControlPlane) : ConfigEvent → Prop
  | .reload env file =>
    ∀ config, acceptedFile env.host file = .ok config →
      ¬ Applies env.csv config env.insertFails s →
        (s.maps.config.rateLimitEnabled ≠ 0 → UsableRate (fileLimits config).1) ∧
          (s.maps.config.portRateLimitEnabled ≠ 0 → UsablePortRate (fileLimits config).2)
  | .patch patch =>
    patch.rateLimitEnabled = some true → patch.rateLimit = none → UsableRate s.maps.rateLimitCfg

theorem limitsInv_patch {s : ControlPlane} (patch : RuntimeConfigPatch)
    (hinv : LimitsInv (limits s)) (hcond : LeavesUsable s (.patch patch)) :
    LimitsInv (limits (patchRuntime patch s).2) := by
  unfold patchRuntime Attempt.commit
  cases hvalid : validateRuntimePatch patch with
  | error e => exact hinv
  | ok u =>
    obtain ⟨hrate, hport⟩ := validateRuntimePatch_limits hvalid
    refine ⟨fun henabled => ?_, fun henabled => ?_, rfl, rfl⟩
    · have henabled := toUInt8_ne_zero_iff.1 henabled
      show UsableRate (Option.getD _ s.maps.rateLimitCfg)
      cases hrl : patch.rateLimit with
      | some rl =>
        have hon : rl.enabled = true := by
          simpa [RuntimeConfigPatch.applyTo, RuntimeConfigPatch.applyLimits, hrl] using henabled
        exact hrate rl hrl hon
      | none =>
        have hon : patch.rateLimitEnabled.getD s.runtime.rateLimitEnabled = true := by
          simpa [RuntimeConfigPatch.applyTo, RuntimeConfigPatch.applyLimits,
            RuntimeConfigPatch.applySwitches, hrl] using henabled
        cases hswitch : patch.rateLimitEnabled with
        | some b =>
          rw [hswitch] at hon
          exact hcond (hswitch.trans (congrArg some hon)) hrl
        | none =>
          rw [hswitch] at hon
          refine hinv.rate ?_
          rw [hinv.rateSwitch]
          exact toUInt8_ne_zero_iff.2 hon
    · have henabled := toUInt8_ne_zero_iff.1 henabled
      show UsablePortRate (Option.getD _ s.maps.portRateLimitCfg)
      cases hprl : patch.portRateLimit with
      | some prl =>
        have hon : prl.enabled = true := by
          simpa [RuntimeConfigPatch.applyTo, RuntimeConfigPatch.applyLimits, hprl] using henabled
        exact hport prl hprl hon
      | none =>
        have hon : s.runtime.portRateLimit.enabled = true := by
          simpa [RuntimeConfigPatch.applyTo, RuntimeConfigPatch.applyLimits,
            RuntimeConfigPatch.applySwitches, hprl] using henabled
        refine hinv.portRate ?_
        rw [hinv.portRateSwitch]
        exact toUInt8_ne_zero_iff.2 hon

theorem limitsInv_reload {s : ControlPlane} (env : ReloadEnv) (file : Except String Config)
    (hinv : LimitsInv (limits s)) (hcond : LeavesUsable s (.reload env file)) :
    LimitsInv (limits (reloadConfigFile env file s).2) := by
  cases hfile : acceptedFile env.host file with
  | error e =>
    rw [reloadConfigFile_of_refused hfile]
    exact hinv
  | ok config =>
    by_cases happlies : Applies env.csv config env.insertFails s
    · obtain ⟨t, hout, hrun⟩ := reloadConfigFile_of_applies hfile happlies
      rw [hrun, limits_loadPersisted]
      rcases limits_of_outcome hout with ⟨e, he, -⟩ | ⟨-, hlimits⟩
      · cases he
      · have hmaps : mapLimits t.maps = _ := congrArg Prod.fst hlimits
        show LimitsInv (mapLimits t.maps, switches (RuntimeConfigSnapshot.fromConfig config))
        rw [hmaps]
        exact limitsInv_of_file (accepted_of_acceptedFile hfile)
    · obtain ⟨e, t, hout, hrun⟩ := reloadConfigFile_of_not_applies hfile happlies
      obtain ⟨hrate, hport⟩ := hcond config hfile happlies
      rcases limits_of_outcome hout with ⟨e, -, hlimits⟩ | ⟨hok, -⟩
      · rw [hrun, hlimits]
        exact ⟨hrate, hport, hinv.rateSwitch, hinv.portRateSwitch⟩
      · cases hok

theorem limitsInv_startUp {env : ReloadEnv} {file : Except String Config} {store : RuleStore}
    {tables : RuleTables} {s : ControlPlane} (h : startUp env file store tables = .ok s) :
    LimitsInv (limits s) := by
  obtain ⟨config, t, hfile, hout, rfl⟩ := startUp_outcome h
  rcases limits_of_outcome hout with ⟨e, he, -⟩ | ⟨-, hlimits⟩
  · cases he
  · rw [limits_loadPersisted, hlimits]
    exact limitsInv_of_file (accepted_of_acceptedFile hfile)

theorem limitsInv_step {s s' : ControlPlane} {event : ConfigEvent} (hinv : LimitsInv (limits s))
    (hcond : LeavesUsable s event) (h : configStep s event = some s') :
    LimitsInv (limits s') := by
  cases event with
  | reload env file =>
    cases h
    exact limitsInv_reload env file hinv hcond
  | patch patch =>
    cases h
    exact limitsInv_patch patch hinv hcond

/-- In every run in which no event hands an enabled limiter unusable parameters. -/
theorem enabled_limiters_usable {env : ReloadEnv} {file : Except String Config}
    {store : RuleStore} {tables : RuleTables} {s₀ s : ControlPlane} {events : List ConfigEvent}
    (hstart : startUp env file store tables = .ok s₀)
    (hcond : Along configStep LeavesUsable s₀ events)
    (hrun : exec configStep s₀ events = some s) : LimitersUsable s.maps := by
  have hinv := exec_invariant (I := fun s => LimitsInv (limits s))
    (fun s event s' hI hc h => limitsInv_step hI hc h) (limitsInv_startUp hstart) hcond hrun
  exact hinv.usable

/-- A host on which every check of the surroundings passes, without CSV files. -/
def plainEnv : ReloadEnv :=
  { host := { interfaceExists := fun _ => true, storeDirReady := fun _ => true }
    csv := fun _ => none }

/-- A file that leaves the limiter off and its parameters at zero. -/
def limiterOff : Config :=
  { interface := "eth0"
    whitelist := []
    blacklist := []
    rateLimit := { enabled := false, threshold := 0, tickMs := 0, decayDen := 0 } }

/-- Turning the limiter on is accepted although its parameters are zero. -/
theorem switch_without_parameters :
    ∃ s₀ s, startUp plainEnv (.ok limiterOff) ∅ {} = .ok s₀ ∧
      exec configStep s₀ [.patch { rateLimitEnabled := some true }] = some s ∧
      ¬ LimitersUsable s.maps := by
  refine ⟨_, _, rfl, rfl, fun h => ?_⟩
  obtain ⟨-, htick, -⟩ := h.1 (by decide)
  exact absurd htick (by decide)

/-- The parameters come with the switch. -/
def limiterPatch : RuntimeConfigPatch :=
  { rateLimit :=
      some { enabled := true, threshold := 100, tickMs := 50, decayNum := 1, decayDen := 2 } }

theorem enabled_limiters_usable_patch :
    ∃ s₀ s, startUp plainEnv (.ok limiterOff) ∅ {} = .ok s₀ ∧
      exec configStep s₀ [.patch limiterPatch] = some s ∧
      s.maps.config.rateLimitEnabled = 1 ∧ LimitersUsable s.maps := by
  obtain ⟨s₀, hstart⟩ : ∃ s₀, startUp plainEnv (.ok limiterOff) ∅ {} = .ok s₀ := ⟨_, rfl⟩
  have hcond : Along configStep LeavesUsable s₀ [.patch limiterPatch] :=
    .cons rfl (fun hswitch => by cases hswitch) trivial
  exact ⟨s₀, _, hstart, rfl, rfl, enabled_limiters_usable hstart hcond rfl⟩

/-! ## The decay that the checks let through -/

/-- A rate limit that a check has let through with the limiter on, as it is in the map. -/
inductive AdmittedRate : RateLimitConfig → Prop
  | file {host : Host} {config : Config} (hvalid : validate host config = .ok ())
      (henabled : config.rateLimit.enabled = true) :
      AdmittedRate (initRateLimitMap config {}).rateLimitCfg
  | patch {patch : RuntimeConfigPatch} {rl : RateLimitParams} {s : ControlPlane}
      (hvalid : validateRuntimePatch patch = .ok ()) (hrl : patch.rateLimit = some rl)
      (henabled : rl.enabled = true) :
      AdmittedRate (patchRuntime patch s).2.maps.rateLimitCfg

theorem AdmittedRate.usable {cfg : RateLimitConfig} (h : AdmittedRate cfg) : UsableRate cfg := by
  cases h with
  | file hvalid henabled => exact (fileLimits_usable (accepted_of_validate hvalid)).1 henabled
  | @patch patch rl s hvalid hrl henabled =>
    have husable := (validateRuntimePatch_limits hvalid).1 rl hrl henabled
    unfold patchRuntime Attempt.commit
    rw [hvalid]
    show UsableRate (Option.getD _ s.maps.rateLimitCfg)
    rw [hrl]
    exact husable

/-- The checks look at the denominator only. -/
theorem admitted_decays_iff {cfg : RateLimitConfig} (h : AdmittedRate cfg) :
    Decays (msToNs cfg.tickMs) cfg.decayNum cfg.decayDen ↔
      cfg.decayNum.toNat ≤ 1 ∨
        2 ^ 64 - cfg.decayNum.toNat.gcd (2 ^ 64) < cfg.decayDen.toNat := by
  obtain ⟨-, htick, hden⟩ := h.usable
  have htick' : msToNs cfg.tickMs ≠ 0 :=
    mt msToNs_eq_zero_iff.1 (UInt64.pos_iff_ne_zero.1 htick)
  exact decays_iff htick' (UInt64.pos_iff_ne_zero.1 hden)

theorem admitted_decays_iff_half :
    ∃ cfg, AdmittedRate cfg ∧ Decays (msToNs cfg.tickMs) cfg.decayNum cfg.decayDen := by
  obtain ⟨s, -⟩ : ∃ s, startUp plainEnv (.ok limiterOff) ∅ {} = .ok s := ⟨_, rfl⟩
  have hadmitted : AdmittedRate (patchRuntime limiterPatch s).2.maps.rateLimitCfg :=
    .patch (by rfl) (by rfl) (by rfl)
  exact ⟨_, hadmitted, (admitted_decays_iff hadmitted).2 (.inl (Nat.le_refl 1))⟩

/-- Three halves for each tick. -/
def growingPatch : RuntimeConfigPatch :=
  { rateLimit :=
      some { enabled := true, threshold := 100, tickMs := 50, decayNum := 3, decayDen := 2 } }

/-- They are let through, and in one tick two becomes three. -/
theorem growth_admitted :
    ∃ cfg, AdmittedRate cfg ∧
      decayCounter 2 (msToNs cfg.tickMs) (msToNs cfg.tickMs) cfg.decayNum cfg.decayDen = 3 ∧
      ¬ Decays (msToNs cfg.tickMs) cfg.decayNum cfg.decayDen := by
  obtain ⟨s, -⟩ : ∃ s, startUp plainEnv (.ok limiterOff) ∅ {} = .ok s := ⟨_, rfl⟩
  have hgrows : decayCounter 2 (msToNs 50) (msToNs 50) 3 2 = 3 := by decide +kernel
  refine ⟨(patchRuntime growingPatch s).2.maps.rateLimitCfg, .patch (by rfl) (by rfl) (by rfl),
    hgrows, fun h => ?_⟩
  have hle : decayCounter 2 (msToNs 50) (msToNs 50) 3 2 ≤ 2 := h.le 2 (msToNs 50)
  rw [hgrows] at hle
  exact absurd hle (by decide)

end EShield.Node
