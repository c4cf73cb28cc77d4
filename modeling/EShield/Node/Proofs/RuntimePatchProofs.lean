import EShield.Node.RuntimeTasks

/-!
# Concurrent patches

A patch is lost when another call writes the snapshot between the patch's own read and write of it.
As long as each patch finds at its write what it has read, both calls' changes are in the snapshot
and in CONFIG in the end, in whatever order the steps came.
-/

namespace EShield.Node

open Ebpf Exec

/-! ## The fields of a call -/

/-- The settings of the runtime configuration. The switch of the rate limiter is one of its
parameters. -/
inductive RuntimeField where
  | rateLimit
  | synProxyEnabled
  | l7ScanEnabled
  | udpFloodEnabled
  | icmpFloodEnabled
  | geoipEnabled
  | tcpResetOnDrop
  | trustEnabled
  | connTrackEnabled
  | connTrackThreshold
  | connTrackWindowMs
  | trustAddDivisor
  | trustSubDivisor
  | geoipDefaultAction
  | portRateLimit
  | adaptive
  | fragmentPolicy
  | rateLimitBlockMode
  | dangerLevel

/-- The patch sets the field. -/
def RuntimeConfigPatch.Sets (patch : RuntimeConfigPatch) : RuntimeField → Prop
  | .rateLimit => patch.rateLimitEnabled.isSome ∨ patch.rateLimit.isSome
  | .synProxyEnabled => patch.synProxyEnabled.isSome
  | .l7ScanEnabled => patch.l7ScanEnabled.isSome
  | .udpFloodEnabled => patch.udpFloodEnabled.isSome
  | .icmpFloodEnabled => patch.icmpFloodEnabled.isSome
  | .geoipEnabled => patch.geoipEnabled.isSome
  | .tcpResetOnDrop => patch.tcpResetOnDrop.isSome
  | .trustEnabled => patch.trustEnabled.isSome
  | .connTrackEnabled => patch.connTrackEnabled.isSome
  | .connTrackThreshold => patch.connTrackThreshold.isSome
  | .connTrackWindowMs => patch.connTrackWindowMs.isSome
  | .trustAddDivisor => patch.trustAddDivisor.isSome
  | .trustSubDivisor => patch.trustSubDivisor.isSome
  | .geoipDefaultAction => patch.geoipDefaultAction.isSome
  | .portRateLimit => patch.portRateLimit.isSome
  | .adaptive => patch.adaptive.isSome
  | .fragmentPolicy => patch.fragmentPolicy.isSome
  | .rateLimitBlockMode => patch.rateLimitBlockMode.isSome
  | .dangerLevel => False

def RuntimeCall.Sets : RuntimeCall → RuntimeField → Prop
  | .patchRuntime patch, field => patch.Sets field
  | .setDangerLevel _, field => field = .dangerLevel

/-- The two calls set disjoint fields. -/
def DisjointCalls (calls : Bool → RuntimeCall) : Prop :=
  ∀ field, ¬ ((calls true).Sets field ∧ (calls false).Sets field)

/-! ## What a call leaves behind -/

/-- The snapshot contains the changes of the call. -/
def RuntimeCall.InSnapshot : RuntimeCall → RuntimeConfigSnapshot → Prop
  | .patchRuntime patch, s => patch.applyTo s = s
  | .setDangerLevel level, s => s.dangerLevel = clampDangerLevel level

/-- CONFIG contains the changes of the call: it is what writing some snapshot with these changes
gives. -/
def RuntimeCall.InConfig : RuntimeCall → RuntimeConfig → Prop
  | .patchRuntime patch, cfg =>
    ∃ s, (RuntimeCall.patchRuntime patch).InSnapshot s ∧ s.writeConfig cfg = cfg
  | .setDangerLevel level, cfg => cfg.dangerLevel = clampDangerLevel level

section Patches

variable {p q : RuntimeConfigPatch} (s : RuntimeConfigSnapshot)

theorem getD_comm {α : Type} {x y : Option α} (h : ¬ (x.isSome ∧ y.isSome)) (a : α) :
    x.getD (y.getD a) = y.getD (x.getD a) := by
  cases x with
  | none => rfl
  | some b =>
    cases y with
    | none => rfl
    | some c => exact absurd ⟨rfl, rfl⟩ h

theorem getD_idem {α : Type} (x : Option α) (a : α) : x.getD (x.getD a) = x.getD a := by
  cases x with
  | none => rfl
  | some b => rfl

/-- The fields of both changes of the rate limiter. -/
theorem applyTo_rateLimit_comm (h : ¬ (p.Sets .rateLimit ∧ q.Sets .rateLimit)) :
    (p.applyTo (q.applyTo s)).rateLimit = (q.applyTo (p.applyTo s)).rateLimit ∧
      (p.applyTo (q.applyTo s)).rateLimitEnabled =
        (q.applyTo (p.applyTo s)).rateLimitEnabled := by
  have hnone : (p.rateLimitEnabled = none ∧ p.rateLimit = none) ∨
      (q.rateLimitEnabled = none ∧ q.rateLimit = none) := by
    simp only [RuntimeConfigPatch.Sets, Option.isSome_iff_ne_none] at h
    tauto
  rcases hnone with ⟨henabled, hlimit⟩ | ⟨henabled, hlimit⟩
  · simp [RuntimeConfigPatch.applyTo, RuntimeConfigPatch.applyLimits,
      RuntimeConfigPatch.applySwitches, henabled, hlimit]
  · simp [RuntimeConfigPatch.applyTo, RuntimeConfigPatch.applyLimits,
      RuntimeConfigPatch.applySwitches, henabled, hlimit]

/-- Patches of disjoint fields can change places. -/
theorem applyTo_comm (h : ∀ field, ¬ (p.Sets field ∧ q.Sets field)) :
    p.applyTo (q.applyTo s) = q.applyTo (p.applyTo s) := by
  obtain ⟨hlimit, henabled⟩ := applyTo_rateLimit_comm s (h .rateLimit)
  have hpolicy : ¬ ((p.fragmentPolicy.map toAsciiLowercase).isSome ∧
      (q.fragmentPolicy.map toAsciiLowercase).isSome) := by
    rw [Option.isSome_map, Option.isSome_map]
    exact h .fragmentPolicy
  have hmode : ¬ ((p.rateLimitBlockMode.map toAsciiLowercase).isSome ∧
      (q.rateLimitBlockMode.map toAsciiLowercase).isSome) := by
    rw [Option.isSome_map, Option.isSome_map]
    exact h .rateLimitBlockMode
  unfold RuntimeConfigPatch.applyTo RuntimeConfigPatch.applyLimits
    RuntimeConfigPatch.applySwitches at *
  congr 1
  · exact getD_comm (h .synProxyEnabled) _
  · exact getD_comm (h .l7ScanEnabled) _
  · exact getD_comm (h .udpFloodEnabled) _
  · exact getD_comm (h .icmpFloodEnabled) _
  · exact getD_comm (h .geoipEnabled) _
  · exact getD_comm (h .tcpResetOnDrop) _
  · exact getD_comm (h .trustEnabled) _
  · exact getD_comm (h .connTrackEnabled) _
  · exact getD_comm (h .connTrackThreshold) _
  · exact getD_comm (h .connTrackWindowMs) _
  · exact getD_comm (h .trustAddDivisor) _
  · exact getD_comm (h .trustSubDivisor) _
  · exact getD_comm (h .geoipDefaultAction) _
  · exact getD_comm (h .portRateLimit) _
  · exact getD_comm (h .adaptive) _
  · exact getD_comm hpolicy _
  · exact getD_comm hmode _

theorem applyTo_idem : p.applyTo (p.applyTo s) = p.applyTo s := by
  unfold RuntimeConfigPatch.applyTo RuntimeConfigPatch.applyLimits
    RuntimeConfigPatch.applySwitches
  cases hlimit : p.rateLimit with
  | none =>
    cases henabled : p.rateLimitEnabled with
    | none => simp only [Option.map_none, Option.getD_none, getD_idem]
    | some e => simp only [Option.map_none, Option.getD_none, Option.getD_some, getD_idem]
  | some rl => simp only [Option.map_some, Option.getD_some, getD_idem]

end Patches

/-- A call finds its changes in the snapshot it has just made. -/
theorem inSnapshot_applyTo (patch : RuntimeConfigPatch) (s : RuntimeConfigSnapshot) :
    (RuntimeCall.patchRuntime patch).InSnapshot (patch.applyTo s) := applyTo_idem s

/-- Writing such a snapshot brings the changes into CONFIG. -/
theorem inConfig_writeConfig {patch : RuntimeConfigPatch} {s : RuntimeConfigSnapshot}
    (h : (RuntimeCall.patchRuntime patch).InSnapshot s) (cfg : RuntimeConfig) :
    (RuntimeCall.patchRuntime patch).InConfig (s.writeConfig cfg) := ⟨s, h, rfl⟩

/-- The other call's changes survive a patch that is made on top of them. -/
theorem inSnapshot_of_base {call : RuntimeCall} {patch : RuntimeConfigPatch}
    {s : RuntimeConfigSnapshot} (hdisjoint : ∀ field, ¬ (call.Sets field ∧ patch.Sets field))
    (h : call.InSnapshot s) : call.InSnapshot (patch.applyTo s) := by
  cases call with
  | patchRuntime other =>
    have hbase : other.applyTo s = s := h
    show other.applyTo (patch.applyTo s) = patch.applyTo s
    rw [applyTo_comm s hdisjoint, hbase]
  | setDangerLevel level => exact h

/-- A patch leaves the level in CONFIG alone. -/
theorem inConfig_of_snapshot {call : RuntimeCall} {s : RuntimeConfigSnapshot}
    {cfg : RuntimeConfig} (hsnapshot : call.InSnapshot s) (hcfg : call.InConfig cfg) :
    call.InConfig (s.writeConfig cfg) := by
  cases call with
  | patchRuntime patch => exact inConfig_writeConfig hsnapshot cfg
  | setDangerLevel level => exact hcfg

/-- The level leaves the patched fields of CONFIG alone. -/
theorem inConfig_writeDangerLevel {patch : RuntimeConfigPatch} {m : Maps}
    (h : (RuntimeCall.patchRuntime patch).InConfig m.config) (level : UInt8) :
    (RuntimeCall.patchRuntime patch).InConfig (writeDangerLevel level m).config := by
  obtain ⟨s, hs, hcfg⟩ := h
  refine ⟨s, hs, ?_⟩
  show { s.writeConfig m.config with dangerLevel := level } = _
  rw [hcfg]
  rfl

/-! ## Steps -/

/-- What a step of call `i` can be. -/
inductive RuntimeMove (calls : Bool → RuntimeCall) (w : RuntimeWorld) (i : Bool) :
    RuntimeWorld → Prop where
  | read (patch : RuntimeConfigPatch) (hcall : calls i = .patchRuntime patch)
    (hphase : w.phase i = .ready) (hvalid : validateRuntimePatch patch = .ok ()) :
    RuntimeMove calls w i (w.setPhase i (.read w.runtime (patch.applySwitches w.runtime)))
  | tune (adaptive : Option AdaptiveConfig) (base next : RuntimeConfigSnapshot)
    (hphase : w.phase i = .read base next) :
    RuntimeMove calls w i ({ w with adaptive := adaptive }.setPhase i (.tuned base next))
  | apply (patch : RuntimeConfigPatch) (base next : RuntimeConfigSnapshot)
    (hcall : calls i = .patchRuntime patch) (hphase : w.phase i = .tuned base next)
    (hfree : w.mapsLocked i = false) :
    RuntimeMove calls w i
      ({ w with maps := patch.writeMaps (patch.applyLimits next) w.maps }.setPhase i
        (.applied base (patch.applyLimits next)))
  | write (base next : RuntimeConfigSnapshot) (hphase : w.phase i = .applied base next) :
    RuntimeMove calls w i ({ w with runtime := next }.setPhase i .done)
  | publish (level : UInt8) (hcall : calls i = .setDangerLevel level) (hphase : w.phase i = .ready) :
    RuntimeMove calls w i
      ({ w with
        runtime := { w.runtime with dangerLevel := clampDangerLevel level } }.setPhase i .shown)
  | set (level : UInt8) (hcall : calls i = .setDangerLevel level) (hphase : w.phase i = .shown)
    (hfree : w.mapsLocked i = false) :
    RuntimeMove calls w i
      ({ w with maps := writeDangerLevel (clampDangerLevel level) w.maps }.setPhase i .done)

theorem runtimeStep_moves {calls : Bool → RuntimeCall} {w w' : RuntimeWorld} {i : Bool}
    (h : runtimeStep calls w i = some w') : RuntimeMove calls w i w' := by
  unfold runtimeStep at h
  split at h
  · rename_i patch hcall hphase
    split at h
    · rename_i hvalid
      cases h
      exact .read patch hcall hphase hvalid
    · cases h
  · rename_i patch base next hcall hphase
    cases h
    exact .tune _ base next hphase
  · rename_i patch base next hcall hphase
    split at h
    · cases h
    · rename_i hfree
      cases h
      exact .apply patch base next hcall hphase (Bool.eq_false_of_not_eq_true hfree)
  · rename_i patch base next hcall hphase
    cases h
    exact .write base next hphase
  · rename_i level hcall hphase
    cases h
    exact .publish level hcall hphase
  · rename_i level hcall hphase
    split at h
    · cases h
    · rename_i hfree
      cases h
      exact .set level hcall hphase (Bool.eq_false_of_not_eq_true hfree)
  · cases h

@[simp] theorem phase_setPhase_self (w : RuntimeWorld) (i : Bool) (phase : CallPhase) :
    (w.setPhase i phase).phase i = phase := Function.update_self ..

@[simp] theorem phase_setPhase_other (w : RuntimeWorld) (i : Bool) (phase : CallPhase) :
    (w.setPhase (!i) phase).phase i = w.phase i :=
  Function.update_of_ne (Bool.self_ne_not i) ..

/-! ## The invariant -/

/-- What call `i` is about to write is no longer made of what is there. -/
def Outdated (w : RuntimeWorld) (i : Bool) : Prop :=
  ∃ base next, w.phase i = .applied base next ∧ w.runtime ≠ base

/-- What holds of call `i` in a phase. When it is done, CONFIG has its changes unless a patch on an
old base has just been written over them. -/
def PhaseInv (calls : Bool → RuntimeCall) (w : RuntimeWorld) (i : Bool) : CallPhase → Prop
  | .ready => True
  | .read base next | .tuned base next =>
    ∃ patch, calls i = .patchRuntime patch ∧ next = patch.applySwitches base
  | .applied base next =>
    ∃ patch, calls i = .patchRuntime patch ∧ next = patch.applyTo base ∧
      (calls i).InConfig w.maps.config
  | .shown => (calls i).InSnapshot w.runtime
  | .done =>
    (calls i).InSnapshot w.runtime ∧ ((calls i).InConfig w.maps.config ∨ Outdated w (!i))

def CallInv (calls : Bool → RuntimeCall) (w : RuntimeWorld) (i : Bool) : Prop :=
  PhaseInv calls w i (w.phase i)

/-- A patch writes the snapshot only while it is still the one it has read. -/
def NotOvertaken (w : RuntimeWorld) (i : Bool) : Prop :=
  ∀ base next, w.phase i = .applied base next → w.runtime = base

theorem disjoint_other {calls : Bool → RuntimeCall} (h : DisjointCalls calls) (i : Bool)
    (field : RuntimeField) : ¬ ((calls i).Sets field ∧ (calls (!i)).Sets field) := by
  cases i with
  | true => exact h field
  | false => exact fun hboth => h field hboth.symm

section Invariant

variable {calls : Bool → RuntimeCall} {w w' : RuntimeWorld} {i : Bool}

/-- A step of a call as the call itself sees it. -/
theorem callInv_self (hinv : CallInv calls w i) (h : RuntimeMove calls w i w') :
    CallInv calls w' i := by
  unfold CallInv at hinv ⊢
  cases h with
  | read patch hcall hphase hvalid =>
    rw [phase_setPhase_self]
    exact ⟨patch, hcall, rfl⟩
  | tune adaptive base next hphase =>
    rw [hphase] at hinv
    rw [phase_setPhase_self]
    exact hinv
  | apply patch base next hcall hphase hfree =>
    rw [hphase] at hinv
    obtain ⟨patch', hcall', rfl⟩ := hinv
    cases hcall.symm.trans hcall'
    rw [phase_setPhase_self]
    refine ⟨patch, hcall, rfl, ?_⟩
    rw [hcall]
    exact inConfig_writeConfig (inSnapshot_applyTo patch base) _
  | write base next hphase =>
    rw [hphase] at hinv
    obtain ⟨patch, hcall, rfl, hconfig⟩ := hinv
    rw [phase_setPhase_self]
    refine ⟨?_, .inl hconfig⟩
    rw [hcall]
    exact inSnapshot_applyTo patch base
  | publish level hcall hphase =>
    rw [phase_setPhase_self]
    show (calls i).InSnapshot _
    rw [hcall]
    exact rfl
  | set level hcall hphase hfree =>
    rw [hphase] at hinv
    rw [phase_setPhase_self]
    refine ⟨hinv, .inl ?_⟩
    rw [hcall]
    exact rfl

/-- Call `i` keeps its changes in the snapshot while the other call takes a step. -/
theorem inSnapshot_other (hdisjoint : DisjointCalls calls) (hother : CallInv calls w (!i))
    (hfresh : NotOvertaken w (!i)) (h : RuntimeMove calls w (!i) w')
    (hin : (calls i).InSnapshot w.runtime) : (calls i).InSnapshot w'.runtime := by
  have hsets := disjoint_other hdisjoint i
  cases h with
  | read patch hcall hphase hvalid => exact hin
  | tune adaptive base next hphase => exact hin
  | apply patch base next hcall hphase hfree => exact hin
  | write base next hphase =>
    unfold CallInv at hother
    rw [hphase] at hother
    obtain ⟨patch, hcall, rfl, -⟩ := hother
    rw [hcall] at hsets
    rw [hfresh base _ hphase] at hin
    exact inSnapshot_of_base hsets hin
  | publish level hcall hphase =>
    rw [hcall] at hsets
    cases hself : calls i with
    | patchRuntime patch =>
      rw [hself] at hin
      have hpatched : patch.applyTo w.runtime = w.runtime := hin
      show { patch.applyTo w.runtime with dangerLevel := clampDangerLevel level } = _
      rw [hpatched]
      rfl
    | setDangerLevel other =>
      rw [hself] at hsets
      exact absurd ⟨rfl, rfl⟩ (hsets .dangerLevel)
  | set level hcall hphase hfree => exact hin

/-- CONFIG has the changes of call `i`, or is about to lose them to an old base, after a step of the
other call. -/
theorem inConfig_other (hdisjoint : DisjointCalls calls) (hother : CallInv calls w (!i))
    (hfresh : NotOvertaken w (!i)) (h : RuntimeMove calls w (!i) w')
    (hin : (calls i).InSnapshot w.runtime)
    (hcfg : (calls i).InConfig w.maps.config ∨ Outdated w (!i)) :
    (calls i).InConfig w'.maps.config ∨ Outdated w' (!i) := by
  have hsets := disjoint_other hdisjoint i
  have hnow : ∀ phase, w.phase (!i) = phase → (∀ base next, phase ≠ .applied base next) →
      (calls i).InConfig w.maps.config := by
    rintro phase hphase hne
    rcases hcfg with hcfg | ⟨base, next, happlied, -⟩
    · exact hcfg
    · exact absurd (hphase.symm.trans happlied) (hne base next)
  cases h with
  | read patch hcall hphase hvalid => exact .inl (hnow _ hphase (by simp))
  | tune adaptive base next hphase => exact .inl (hnow _ hphase (by simp))
  | apply patch base next hcall hphase hfree =>
    by_cases hbase : w.runtime = base
    · have hconfig := hnow _ hphase (by simp)
      unfold CallInv at hother
      rw [hphase] at hother
      obtain ⟨patch', hcall', rfl⟩ := hother
      cases hcall.symm.trans hcall'
      rw [hcall] at hsets
      rw [hbase] at hin
      exact .inl (inConfig_of_snapshot (inSnapshot_of_base hsets hin) hconfig)
    · exact .inr ⟨base, _, phase_setPhase_self _ _ _, hbase⟩
  | write base next hphase =>
    rcases hcfg with hcfg | ⟨base', next', happlied, hne⟩
    · exact .inl hcfg
    · exact absurd (hfresh base' next' happlied) hne
  | publish level hcall hphase => exact .inl (hnow _ hphase (by simp))
  | set level hcall hphase hfree =>
    rw [hcall] at hsets
    have hconfig := hnow _ hphase (by simp)
    cases hself : calls i with
    | patchRuntime patch =>
      rw [hself] at hconfig
      exact .inl (inConfig_writeDangerLevel hconfig _)
    | setDangerLevel other =>
      rw [hself] at hsets
      exact absurd ⟨rfl, rfl⟩ (hsets .dangerLevel)

/-- The maps do not change under a call that holds their lock. -/
theorem maps_of_applied {base next : RuntimeConfigSnapshot}
    (hphase : w.phase i = .applied base next) (h : RuntimeMove calls w (!i) w') :
    w'.maps = w.maps := by
  have hlocked : w.mapsLocked (!i) = true := by
    unfold RuntimeWorld.mapsLocked
    rw [Bool.not_not, hphase]
  cases h with
  | read patch hcall hphase hvalid => rfl
  | tune adaptive base next hphase => rfl
  | apply patch base next hcall hphase hfree =>
    rw [hlocked] at hfree
    cases hfree
  | write base next hphase => rfl
  | publish level hcall hphase => rfl
  | set level hcall hphase hfree =>
    rw [hlocked] at hfree
    cases hfree

theorem phase_other (h : RuntimeMove calls w (!i) w') : w'.phase i = w.phase i := by
  cases h <;> exact phase_setPhase_other _ i _

/-- A step of a call as the other one sees it. -/
theorem callInv_other (hdisjoint : DisjointCalls calls) (hinv : CallInv calls w i)
    (hother : CallInv calls w (!i)) (hfresh : NotOvertaken w (!i))
    (h : RuntimeMove calls w (!i) w') : CallInv calls w' i := by
  unfold CallInv at hinv ⊢
  rw [phase_other h]
  cases hphase : w.phase i with
  | ready => trivial
  | read base next =>
    rw [hphase] at hinv
    exact hinv
  | tuned base next =>
    rw [hphase] at hinv
    exact hinv
  | applied base next =>
    rw [hphase] at hinv
    obtain ⟨patch, hcall, hnext, hconfig⟩ := hinv
    refine ⟨patch, hcall, hnext, ?_⟩
    rw [maps_of_applied hphase h]
    exact hconfig
  | shown =>
    rw [hphase] at hinv
    exact inSnapshot_other hdisjoint hother hfresh h hinv
  | done =>
    rw [hphase] at hinv
    exact ⟨inSnapshot_other hdisjoint hother hfresh h hinv.1,
      inConfig_other hdisjoint hother hfresh h hinv.1 hinv.2⟩

/-- One step of either call. -/
theorem callInv_step (hdisjoint : DisjointCalls calls) (hinv : ∀ j, CallInv calls w j)
    (hfresh : NotOvertaken w i) (h : runtimeStep calls w i = some w') : ∀ j, CallInv calls w' j := by
  intro j
  have hmove := runtimeStep_moves h
  rcases Bool.eq_or_eq_not j i with rfl | rfl
  · exact callInv_self (hinv j) hmove
  · have hself : i = !(!i) := (Bool.not_not i).symm
    rw [hself] at hmove hfresh
    exact callInv_other hdisjoint (hinv (!i)) (hself ▸ hinv i) hfresh hmove

end Invariant

/-! ## Whole runs -/

/-- Both calls have returned. -/
def RuntimeWorld.BothDone (w : RuntimeWorld) : Prop := ∀ i, w.phase i = .done

/-- The changes of both calls are in the snapshot and in CONFIG. -/
def ContainsBoth (calls : Bool → RuntimeCall) (w : RuntimeWorld) : Prop :=
  ∀ i, (calls i).InSnapshot w.runtime ∧ (calls i).InConfig w.maps.config

/-- Two calls with disjoint fields, of which each patch writes the snapshot it has read. -/
theorem no_lost_patch {calls : Bool → RuntimeCall} (hdisjoint : DisjointCalls calls)
    {runtime : RuntimeConfigSnapshot} {maps : Maps} {adaptive : Option AdaptiveConfig}
    {steps : List Bool} {w : RuntimeWorld}
    (hfresh : Along (runtimeStep calls) NotOvertaken (.start runtime maps adaptive) steps)
    (hrun : exec (runtimeStep calls) (.start runtime maps adaptive) steps = some w)
    (hdone : w.BothDone) : ContainsBoth calls w := by
  have hstart : ∀ i, CallInv calls (.start runtime maps adaptive) i := fun _ => trivial
  have hinv := exec_invariant (fun s i s' hI hc h => callInv_step hdisjoint hI hc h) hstart
    hfresh hrun
  intro i
  have hi := hinv i
  unfold CallInv at hi
  rw [hdone i] at hi
  obtain ⟨hsnapshot, hconfig | ⟨base, next, hother, -⟩⟩ := hi
  · exact ⟨hsnapshot, hconfig⟩
  · rw [hdone (!i)] at hother
    cases hother

/-- A patch of one switch and a patch of another. -/
def synAndUdpPatches : Bool → RuntimeCall
  | true => .patchRuntime { synProxyEnabled := some true }
  | false => .patchRuntime { udpFloodEnabled := some true }

/-- The snapshot of a file that sets nothing but the interface. -/
def plainSnapshot : RuntimeConfigSnapshot :=
  .fromConfig { interface := "eth0", whitelist := [], blacklist := [] }

theorem synAndUdpPatches_disjoint : DisjointCalls synAndUdpPatches := by
  rintro field ⟨hsyn, hudp⟩
  cases field <;> simp [synAndUdpPatches, RuntimeCall.Sets, RuntimeConfigPatch.Sets] at hsyn hudp

/-- Both calls read the snapshot first; the second one to write takes the first one's switch back. -/
theorem second_write_loses_first_patch :
    ∃ w, exec (runtimeStep synAndUdpPatches) (.start plainSnapshot {} none)
        [true, false, true, false, true, true, false, false] = some w ∧
      DisjointCalls synAndUdpPatches ∧ w.BothDone ∧ ¬ ContainsBoth synAndUdpPatches w := by
  refine ⟨_, rfl, synAndUdpPatches_disjoint, fun i => by cases i <;> rfl, fun h => ?_⟩
  have hsyn := congrArg RuntimeConfigSnapshot.synProxyEnabled (h true).1
  cases hsyn

/-- The same calls, one after the other. -/
theorem no_lost_patch_serial :
    ∃ w, exec (runtimeStep synAndUdpPatches) (.start plainSnapshot {} none)
        [true, true, true, true, false, false, false, false] = some w ∧
      ContainsBoth synAndUdpPatches w := by
  have hfresh : Along (runtimeStep synAndUdpPatches) NotOvertaken (.start plainSnapshot {} none)
      [true, true, true, true, false, false, false, false] := by
    refine .cons rfl ?_ (.cons rfl ?_ (.cons rfl ?_ (.cons rfl ?_ (.cons rfl ?_ (.cons rfl ?_
      (.cons rfl ?_ (.cons rfl ?_ trivial)))))))
    all_goals
      intro base next hphase
      cases hphase
    · rfl
    · rfl
  exact ⟨_, rfl, no_lost_patch synAndUdpPatches_disjoint hfresh rfl fun i => by cases i <;> rfl⟩

end EShield.Node
