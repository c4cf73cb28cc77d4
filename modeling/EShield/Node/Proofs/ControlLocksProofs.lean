import EShield.Node.ControlLocks

/-!
# When the control plane can deadlock

The locks are taken in one order, with the eBPF handle first, by all operations but one: a reload of the
configuration file gives the handle back, keeps the GeoIP lists, and takes the handle again for each
rule it restores. So tasks that wait for each other include a reload that does so, and one that has
taken the handle meanwhile on its way to the GeoIP lists.
-/

namespace EShield.Node.ControlLocks

open Exec Locks

variable {sink : AuditSink} {tasks tasks' : List (Locks.Task ControlLock)} {e : Event ControlOp}
  {events : List (Event ControlOp)} {held : List (Guard ControlLock)}
  {p : List (LockAct ControlLock)}

/-! ## The order -/

/-- Each lock is taken behind those of lower rank. -/
def rank : ControlLock → Nat
  | .ebpf => 0
  | .whitelist => 1
  | .blacklist => 2
  | .geoipBlocks => 3
  | .geoipAllows => 4
  | .runtime => 5
  | .auditEntries => 6
  | .auditWrite => 7
  | .auditFile => 8

/-- The lock of one of the two GeoIP lists. -/
def ListsGeoip (lock : ControlLock) : Prop := lock = .geoipBlocks ∨ lock = .geoipAllows

instance (lock : ControlLock) : Decidable (ListsGeoip lock) := inferInstanceAs (Decidable (_ ∨ _))

/-- Guards are taken in the order of their locks, the GeoIP lists under the eBPF handle; or it is the
handle that is taken, while nothing but GeoIP lists is held. -/
def InOrder (held : List (Guard ControlLock)) (g : Guard ControlLock) : Prop :=
  ((∀ g' ∈ held, rank g'.lock < rank g.lock) ∨
      g = mutex .ebpf ∧ ∀ g' ∈ held, ListsGeoip g'.lock) ∧
    (ListsGeoip g.lock → mutex .ebpf ∈ held)

instance (held : List (Guard ControlLock)) (g : Guard ControlLock) : Decidable (InOrder held g) :=
  inferInstanceAs (Decidable (_ ∧ _))

/-! ## Programs -/

/-- What a reload holds while it restores rules. -/
def geoipGuards : List (Guard ControlLock) := [mutex .geoipAllows, mutex .geoipBlocks]

/-- A section that is in order by itself and under the GeoIP guards of a reload. -/
structure Orderly (p : List (LockAct ControlLock)) : Prop where
  balanced : Balanced p
  alone : Obeys InOrder [] p
  restoring : Obeys InOrder geoipGuards p

theorem orderly_scope (g : Guard ControlLock) (halone : Obeys InOrder [] (scope g []))
    (hrestoring : Obeys InOrder geoipGuards (scope g [])) : Orderly (scope g []) :=
  ⟨balanced_nil.scope g, halone, hrestoring⟩

theorem orderly_ebpf : Orderly (scope (mutex .ebpf) []) :=
  orderly_scope _ (by decide) (by decide)

theorem orderly_runtime : Orderly (scope (mutex .runtime) []) :=
  orderly_scope _ (by decide) (by decide)

theorem orderly_readRuntime : Orderly (scope readRuntime []) :=
  orderly_scope _ (by decide) (by decide)

theorem orderly_audit (hp : p ∈ audit sink) : Orderly p := by
  cases sink with
  | absent => cases hp
  | memory =>
    cases List.mem_singleton.1 hp
    exact orderly_scope _ (by decide) (by decide)
  | file =>
    cases List.mem_singleton.1 hp
    exact ⟨(balanced_nil.scope _).scope _, by decide, by decide⟩

theorem orderly_setL7Patterns (hp : p ∈ setL7Patterns sink) : Orderly p := by
  rcases List.mem_cons.1 hp with rfl | hp
  · exact orderly_ebpf
  rcases List.mem_cons.1 hp with rfl | hp
  · exact orderly_runtime
  · exact orderly_audit hp

theorem orderly_setProtectionProjects (hp : p ∈ setProtectionProjects sink) : Orderly p := by
  rcases List.mem_cons.1 hp with rfl | hp
  · exact orderly_ebpf
  rcases List.mem_cons.1 hp with rfl | hp
  · exact orderly_runtime
  · exact orderly_setL7Patterns (List.mem_cons_of_mem _ hp)

theorem orderly_loadPersistedRules {stored : StoredRules} (hp : p ∈ loadPersistedRules sink stored) :
    Orderly p := by
  have hsets : ∀ {c : Bool} {ps : Sections}, (∀ q ∈ ps, Orderly q) →
      p ∈ (if c then ps else []) → Orderly p := by
    intro c ps hps hmem
    cases c with
    | true => exact hps p hmem
    | false => cases hmem
  simp only [loadPersistedRules, List.mem_append] at hp
  rcases hp with (((hp | hp) | hp) | hp) | hp
  · obtain ⟨-, rfl⟩ := List.mem_replicate.1 hp
    exact orderly_ebpf
  · obtain ⟨-, rfl⟩ := List.mem_replicate.1 hp
    exact orderly_ebpf
  · exact hsets (fun q hq => orderly_setL7Patterns hq) hp
  · exact hsets (fun q hq => orderly_setL7Patterns hq) hp
  · exact hsets (fun q hq => orderly_setProtectionProjects hq) hp

theorem balanced_sections {ps : Sections} (h : ∀ p ∈ ps, Orderly p) : Balanced ps.flatten :=
  balanced_flatten fun p hp => (h p hp).balanced

/-- Sections one after the other are in order. -/
theorem obeys_sections {ps : Sections} (h : ∀ p ∈ ps, Orderly p) : Obeys InOrder [] ps.flatten :=
  obeys_flatten fun p hp => ⟨(h p hp).balanced, (h p hp).alone⟩

theorem obeys_restoring {ps : Sections} (h : ∀ p ∈ ps, Orderly p) :
    Obeys InOrder geoipGuards ps.flatten :=
  obeys_flatten fun p hp => ⟨(h p hp).balanced, (h p hp).restoring⟩

/-- A reload of the configuration file is in order. -/
theorem obeys_reloadConfigFile (stored : StoredRules) (restored : Nat) :
    Obeys InOrder [] (reloadConfigFile sink stored restored) := by
  have hload : ∀ p ∈ (loadPersistedRules sink stored).take restored, Orderly p :=
    fun p hp => orderly_loadPersistedRules (List.mem_of_mem_take hp)
  have haudit : ∀ p ∈ audit sink, Orderly p := fun p hp => orderly_audit hp
  have hheld : heldAfter [] applyConfig = geoipGuards := by decide
  rw [reloadConfigFile, obeys_append, obeys_append, obeys_append, heldAfter_append, hheld,
    balanced_sections hload]
  exact ⟨⟨⟨by decide, obeys_restoring hload⟩, obeys_restoring haudit⟩,
    obeys_releases [mutex .geoipAllows, mutex .geoipBlocks]⟩

/-- All operations take their locks in order. -/
theorem obeys_program (op : ControlOp) : Obeys InOrder [] (op.program sink) := by
  have haudit : ∀ p ∈ audit sink, Orderly p := fun p hp => orderly_audit hp
  have hl7 : ∀ p ∈ setL7Patterns sink, Orderly p := fun p hp => orderly_setL7Patterns hp
  have hprojects : ∀ p ∈ setProtectionProjects sink, Orderly p :=
    fun p hp => orderly_setProtectionProjects hp
  have hunblock : ∀ p ∈ unblockIpKey sink, Balanced p ∧ Obeys InOrder [] p := by
    intro p hp
    rcases List.mem_cons.1 hp with rfl | hp
    · exact ⟨orderly_ebpf.balanced, orderly_ebpf.alone⟩
    rcases List.mem_cons.1 hp with rfl | hp
    · exact ⟨balanced_nil.scope _, by decide⟩
    · exact ⟨(haudit p hp).balanced, (haudit p hp).alone⟩
  have hblock : ∀ p ∈ blockIpKey sink, Orderly p := List.forall_mem_cons.2 ⟨orderly_ebpf, haudit⟩
  cases op with
  | reloadConfigFile stored restored => exact obeys_reloadConfigFile stored restored
  | reloadGeoip => cases sink <;> decide
  | loadPersistedRules stored => exact obeys_sections fun p hp => orderly_loadPersistedRules hp
  | patchRuntime => cases sink <;> decide
  | setDangerLevel =>
    exact orderly_runtime.balanced.obeys_append.2 ⟨orderly_runtime.alone, orderly_ebpf.alone⟩
  | setL7Patterns => exact obeys_sections hl7
  | setPortAcl => exact obeys_sections hl7
  | setProtectionProjects => exact obeys_sections hprojects
  | applyHubRules =>
    refine obeys_sections ?_
    simp only [List.forall_mem_append]
    exact ⟨⟨⟨hl7, hl7⟩, hprojects⟩, haudit⟩
  | blockIpKey => exact obeys_sections hblock
  | blockIpKeysBatch => exact obeys_sections hblock
  | unblockIpKey => exact obeys_flatten hunblock
  | allowCidrKey => exact obeys_sections hblock
  | disallowCidr => cases sink <;> decide
  | applyHubPolicies applied =>
    refine obeys_sections (List.forall_mem_cons.2 ⟨orderly_ebpf, fun p hp => ?_⟩)
    obtain ⟨trust, -, hp⟩ := List.mem_flatMap.1 hp
    rcases List.mem_append.1 hp with hp | hp
    · exact hblock p hp
    · rcases trust with _ | _ | _
      · cases hp
      · cases List.mem_singleton.1 hp
        exact orderly_readRuntime
      · rcases List.mem_cons.1 hp with rfl | hp
        · exact orderly_readRuntime
        · cases List.mem_singleton.1 hp
          exact orderly_ebpf
  | unblockHubPolicies unblocked =>
    refine obeys_flatten fun p hp => ?_
    obtain ⟨ps, hps, hp⟩ := List.mem_flatten.1 hp
    obtain ⟨-, rfl⟩ := List.mem_replicate.1 hps
    exact hunblock p hp
  | collectHubPublishablePolicies hits =>
    refine obeys_sections (List.forall_mem_cons.2 ⟨orderly_ebpf, fun p hp => ?_⟩)
    obtain ⟨-, rfl⟩ := List.mem_replicate.1 hp
    exact orderly_ebpf
  | statsSnapshotJson => exact orderly_readRuntime.alone
  | listWhitelist => exact (by decide : Obeys InOrder [] (scope (mutex .whitelist) []))
  | useEbpf => exact orderly_ebpf.alone

/-! ## Reloads in each other's way -/

/-- The task goes on to lock a GeoIP list. -/
def WillCollect (t : Locks.Task ControlLock) : Prop :=
  ∃ g, .acquire g ∈ t.todo ∧ ListsGeoip g.lock

/-- The task holds a GeoIP list and goes on to take the eBPF handle. -/
def Restoring (t : Locks.Task ControlLock) : Prop :=
  (∃ g ∈ t.held, ListsGeoip g.lock) ∧ .acquire (mutex .ebpf) ∈ t.todo

/-- The eBPF handle is not taken on the way to the GeoIP lists (by `reload_geoip` or a reload of the
configuration file) while another operation, a reload of the configuration file, holds these and still
has a rule to restore. -/
def NoReloadCrosses (tasks : List (Locks.Task ControlLock)) (e : Event ControlOp) : Prop :=
  ∀ (i j : Nat) (t u : Locks.Task ControlLock), i ≠ j → e = .advance i → tasks[i]? = some t →
    tasks[j]? = some u → t.wanted = some (mutex .ebpf) → WillCollect t → ¬ Restoring u

/-- No task that holds the handle goes on to the GeoIP lists while another restores rules. -/
def Apart (tasks : List (Locks.Task ControlLock)) : Prop :=
  ∀ (i j : Nat) (t u : Locks.Task ControlLock), i ≠ j → tasks[i]? = some t → tasks[j]? = some u →
    mutex .ebpf ∈ t.held → WillCollect t → ¬ Restoring u

/-- What holds of the tasks at any time. -/
structure LocksInv (tasks : List (Locks.Task ControlLock)) : Prop where
  inOrder : ∀ (i : Nat) (t : Locks.Task ControlLock), tasks[i]? = some t →
    Obeys InOrder t.held t.todo
  excludes : Excludes tasks
  apart : Apart tasks

theorem WillCollect.of_moves {i : Nat} {t t' : Locks.Task ControlLock}
    (hmove : Moves tasks i e t t') (hcollect : WillCollect t') : WillCollect t := by
  obtain ⟨g, hg, hlist⟩ := hcollect
  exact ⟨g, hmove.acquire_mem hg, hlist⟩

/-- A task begins to hold the handle when it asks for it. -/
theorem holds_ebpf_of_moves {i : Nat} {t t' : Locks.Task ControlLock}
    (hmove : Moves tasks i e t t') (hheld : mutex .ebpf ∈ t'.held) :
    mutex .ebpf ∈ t.held ∨ e = .advance i ∧ t.wanted = some (mutex .ebpf) := by
  cases hmove with
  | acquires held g rest =>
    rcases List.mem_cons.1 hheld with rfl | hheld
    · exact .inr ⟨rfl, rfl⟩
    · exact .inl hheld
  | releases held g rest => exact .inl (List.mem_of_mem_erase hheld)
  | leaves held todo => exact .inl hheld

/-- A task comes to restore rules while it holds the handle. -/
theorem restoring_of_moves {i : Nat} {t t' : Locks.Task ControlLock}
    (hmove : Moves tasks i e t t') (horder : Obeys InOrder t.held t.todo) (hrest : Restoring t') :
    Restoring t ∨ mutex .ebpf ∈ t.held := by
  obtain ⟨⟨g, hg, hlist⟩, htakes⟩ := hrest
  have htakes₀ := hmove.acquire_mem htakes
  cases hmove with
  | acquires held g' rest =>
    rcases List.mem_cons.1 hg with rfl | hheld
    · exact .inr (horder.1.2 hlist)
    · exact .inl ⟨⟨g, hheld, hlist⟩, htakes₀⟩
  | releases held g' rest => exact .inl ⟨⟨g, List.mem_of_mem_erase hg, hlist⟩, htakes₀⟩
  | leaves held todo => exact .inl ⟨⟨g, hg, hlist⟩, htakes₀⟩

theorem apart_step (hinv : LocksInv tasks) (hcross : NoReloadCrosses tasks e)
    (h : controlLockStep sink tasks e = some tasks') : Apart tasks' := by
  intro i j t u hij ht hu hheld hcollect hrest
  rcases getElem?_lockStep h ht with ⟨p, -, rfl⟩ | ⟨t₀, ht₀, hmove⟩ | hsame
  · cases hheld
  · rcases getElem?_lockStep h hu with ⟨p, -, rfl⟩ | ⟨u₀, -, hmove'⟩ | hsame'
    · obtain ⟨⟨g, hg, -⟩, -⟩ := hrest
      cases hg
    · exact hij (hmove.unique hmove')
    · have hcollect₀ := hcollect.of_moves hmove
      rcases holds_ebpf_of_moves hmove hheld with hheld₀ | ⟨he, hwanted⟩
      · exact hinv.apart i j t₀ u hij ht₀ hsame' hheld₀ hcollect₀ hrest
      · exact hcross i j t₀ u hij he ht₀ hsame' hwanted hcollect₀ hrest
  · rcases getElem?_lockStep h hu with ⟨p, -, rfl⟩ | ⟨u₀, hu₀, hmove⟩ | hsame'
    · obtain ⟨⟨g, hg, -⟩, -⟩ := hrest
      cases hg
    · rcases restoring_of_moves hmove (hinv.inOrder j u₀ hu₀) hrest with hrest₀ | hheld₀
      · exact hinv.apart i j t u₀ hij hsame hu₀ hheld hcollect hrest₀
      · refine hinv.excludes i j t u₀ hij hsame hu₀ _ hheld _ hheld₀ ⟨rfl, ?_⟩
        decide
    · exact hinv.apart i j t u hij hsame hsame' hheld hcollect hrest

theorem locksInv_step (hinv : LocksInv tasks) (hcross : NoReloadCrosses tasks e)
    (h : controlLockStep sink tasks e = some tasks') : LocksInv tasks' where
  inOrder := fun _ _ ht => obeys_step obeys_program hinv.inOrder h ht
  excludes := excludes_step hinv.excludes h
  apart := apart_step hinv hcross h

/-- Tasks that wait for each other include one that holds the handle and waits for a GeoIP list, and
another that holds that list and waits for the handle. -/
theorem not_deadlocked (hinv : LocksInv tasks) : ¬ Deadlocked tasks := by
  intro hdead
  obtain ⟨i, j, t, u, g, g', g₂, ht, hu, hg, hg', hconf, hg₂, hrank⟩ := hdead.breaks_order rank
  obtain ⟨horder, -⟩ := rule_of_wanted (hinv.inOrder j u hu) hg₂
  rcases horder with hbelow | ⟨rfl, hlists⟩
  · exact absurd (hbelow g' hg') (not_lt.2 hrank)
  · have hlist : ListsGeoip g.lock := hconf.1 ▸ hlists g' hg'
    have hheld := (rule_of_wanted (hinv.inOrder i t ht) hg).2 hlist
    have hij : i ≠ j := by
      rintro rfl
      cases ht.symm.trans hu
      cases hg.symm.trans hg₂
      exact absurd hlist (by decide)
    exact hinv.apart i j t u hij ht hu hheld ⟨g, acquire_mem_of_wanted hg, hlist⟩
      ⟨⟨g', hg', hlists g' hg'⟩, acquire_mem_of_wanted hg₂⟩

/-- However many operations run, and however their steps are interleaved: they do not deadlock as long
as no reload crosses another. -/
theorem control_locks_do_not_deadlock
    (hrun : exec (controlLockStep sink) [] events = some tasks)
    (hcross : Along (controlLockStep sink) NoReloadCrosses [] events) : ¬ Deadlocked tasks := by
  have hinit : LocksInv [] := ⟨nofun, nofun, nofun⟩
  refine not_deadlocked (exec_invariant (fun s e s' hinv hcross h => ?_) hinit hcross hrun)
  exact locksInv_step hinv hcross h

/-! ## Two reloads -/

/-- The task holds nothing, or has nothing to restore any more. -/
def RestoresNothing (t : Locks.Task ControlLock) : Prop :=
  t.held = [] ∨ .acquire (mutex .ebpf) ∉ t.todo

instance : DecidablePred RestoresNothing := fun _ => inferInstanceAs (Decidable (_ ∨ _))

/-- No other task than the one that goes on restores rules. -/
def OthersRestoreNothing (tasks : List (Locks.Task ControlLock)) : Event ControlOp → Prop
  | .advance i => ∀ p ∈ tasks.zipIdx, p.2 ≠ i → RestoresNothing p.1
  | _ => True

instance (tasks : List (Locks.Task ControlLock)) : ∀ e, Decidable (OthersRestoreNothing tasks e)
  | .advance i => inferInstanceAs (Decidable (∀ p ∈ tasks.zipIdx, p.2 ≠ i → RestoresNothing p.1))
  | .start _ => isTrue trivial
  | .leave _ => isTrue trivial

theorem noReloadCrosses_of_others (h : OthersRestoreNothing tasks e) : NoReloadCrosses tasks e := by
  rintro i j t u hij rfl ht hu - - ⟨⟨g, hg, -⟩, htakes⟩
  have hmem : (u, j) ∈ tasks.zipIdx := List.mem_zipIdx_iff_getElem?.2 hu
  rcases h _ hmem (Ne.symm hij) with hheld | hnot
  · rw [hheld] at hg
    cases hg
  · exact hnot htakes

/-- A reload of the configuration file restores a block while a reload of the GeoIP lists waits, which
then takes the handle and waits for the lists until the first has given them back. -/
def reloadsInTurn : List (Event ControlOp) :=
  [.start (.reloadConfigFile { blocks := 1 } 1), .start .reloadGeoip] ++
    List.replicate 14 (.advance 0) ++ [.advance 1] ++ List.replicate 6 (.advance 0) ++
      List.replicate 2 (.advance 1)

theorem control_locks_do_not_deadlock_in_turn :
    ∃ tasks, exec (controlLockStep .file) [] reloadsInTurn = some tasks ∧
      (tasks.map Locks.Task.held)[1]? =
        some [mutex .geoipAllows, mutex .geoipBlocks, mutex .ebpf] ∧ ¬ Deadlocked tasks := by
  have hrun : (exec (controlLockStep .file) [] reloadsInTurn).map (fun tasks =>
      (tasks.map Locks.Task.held)[1]?) =
        some (some [mutex .geoipAllows, mutex .geoipBlocks, mutex .ebpf]) := by
    decide
  obtain ⟨tasks, hrun, hheld⟩ := Option.map_eq_some_iff.1 hrun
  have hcross : Along (controlLockStep .file) OthersRestoreNothing [] reloadsInTurn := by
    decide
  exact ⟨tasks, hrun, hheld,
    control_locks_do_not_deadlock hrun (hcross.mono fun _ _ => noReloadCrosses_of_others)⟩

/-- The reload of the configuration file has given back the handle when the other takes it. -/
def crossingReloads : List (Event ControlOp) :=
  [.start (.reloadConfigFile { blocks := 1 } 1), .start .reloadGeoip] ++
    List.replicate 12 (.advance 0) ++ [.advance 1]

/-- The first waits for the handle to restore a block, the second for the GeoIP lists. -/
theorem crossing_reloads_deadlock :
    ∃ tasks, exec (controlLockStep .file) [] crossingReloads = some tasks ∧ Deadlocked tasks := by
  refine ⟨_, rfl, {0, 1}, ⟨0, .inl rfl⟩, ?_⟩
  rintro i (rfl | rfl)
  · exact ⟨_, mutex .ebpf, rfl, rfl, 1, .inr rfl, _, rfl, mutex .ebpf, by decide, by decide⟩
  · exact ⟨_, mutex .geoipBlocks, rfl, rfl, 0, .inl rfl, _, rfl, mutex .geoipBlocks, by decide,
      by decide⟩

end EShield.Node.ControlLocks
