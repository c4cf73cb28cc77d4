import EShield.Node.StatsSync

/-!
# Failed reads and the exported statistics

A failed read exports zero for every total and starts the next increase from zero. So the totals never
fall and the rates never exceed what the kernel counted exactly if no read fails after a total has
been exported.
-/

namespace EShield.Node

open Exec

variable {w w' : StatsRun} {t : StatsTick}

/-! ## One tick -/

theorem exported_of_read (s : StatsSync) (values : List GlobalStats) (c : Counter) :
    c.exported (syncGlobalStats s (some values)).stats = c.kernel (sumCpus values) := by
  cases c <;> rfl

theorem exported_of_failed (s : StatsSync) (c : Counter) :
    c.exported (syncGlobalStats s none).stats = 0 := by
  cases c <;> rfl

theorem kernel_default (c : Counter) : c.kernel {} = 0 := by
  cases c <;> rfl

theorem exported_default (c : Counter) : c.exported {} = 0 := by
  cases c <;> rfl

/-! ## Runs -/

/-- The kernel counters have not fallen since the last successful read. -/
def KernelGrows (w : StatsRun) (t : StatsTick) : Prop :=
  ∀ c : Counter, c.kernel w.lastRead ≤ c.kernel (sumCpus t.values)

/-- After the tick no exported total is lower than before, and the rates are no more than the kernel
has counted since the last successful read. -/
def MetricsSound (w : StatsRun) (t : StatsTick) : Prop :=
  ∀ w', statsStep w t = some w' →
    (∀ c : Counter, c.exported w.sync.stats ≤ c.exported w'.sync.stats) ∧
      w'.sync.stats.currentPps.toNat ≤
        (sumCpus t.values).totalPackets.toNat - w.lastRead.totalPackets.toNat ∧
      w'.sync.stats.currentDps.toNat ≤
        (sumCpus t.values).totalDropped.toNat - w.lastRead.totalDropped.toNat

/-- A read fails only while every exported total is zero. -/
def FailsAtZero (w : StatsRun) : StatsTick → Prop
  | .read _ => True
  | .failed _ => ∀ c : Counter, c.exported w.sync.stats = 0

/-- The totals are those of the last successful read, and the next increase starts from them. -/
structure ExportsLastRead (w : StatsRun) : Prop where
  totals : ∀ c : Counter, c.exported w.sync.stats = c.kernel w.lastRead
  packets : w.sync.lastPackets = w.lastRead.totalPackets
  dropped : w.sync.lastDropped = w.lastRead.totalDropped

theorem exportsLastRead_start : ExportsLastRead {} :=
  ⟨fun c => (exported_default c).trans (kernel_default c).symm, rfl, rfl⟩

theorem exportsLastRead_step (h : ExportsLastRead w) (hzero : FailsAtZero w t)
    (hstep : statsStep w t = some w') : ExportsLastRead w' := by
  cases t with
  | read values =>
    cases hstep
    exact ⟨exported_of_read w.sync values, rfl, rfl⟩
  | failed values =>
    cases hstep
    -- What was exported was zero, and so was what the last read found.
    have hread : ∀ c : Counter, c.kernel w.lastRead = 0 := fun c =>
      (h.totals c).symm.trans (hzero c)
    refine ⟨fun c => ?_, ?_, ?_⟩
    · rw [hread c]
      exact exported_of_failed w.sync c
    · exact (hread .totalPackets).symm
    · exact (hread .totalDropped).symm

theorem metricsSound_iff (h : ExportsLastRead w) (hgrows : KernelGrows w t) :
    MetricsSound w t ↔ FailsAtZero w t := by
  cases t with
  | read values =>
    refine iff_of_true (fun w' hstep => ?_) trivial
    cases hstep
    refine ⟨fun c => ?_, ?_, ?_⟩
    · rw [h.totals c, exported_of_read]
      exact hgrows c
    · show ((sumCpus values).totalPackets.saturatingSub w.sync.lastPackets).toNat ≤ _
      rw [UInt64.toNat_saturatingSub, h.packets]
      exact le_rfl
    · show ((sumCpus values).totalDropped.saturatingSub w.sync.lastDropped).toNat ≤ _
      rw [UInt64.toNat_saturatingSub, h.dropped]
      exact le_rfl
  | failed values =>
    constructor
    · intro hsound c
      have hfall := (hsound _ rfl).1 c
      rw [exported_of_failed] at hfall
      exact UInt64.le_zero_iff.1 hfall
    · intro hzero w' hstep
      cases hstep
      refine ⟨fun c => ?_, ?_, ?_⟩
      · rw [hzero c]
        exact UInt64.zero_le
      · show ((0 : UInt64).saturatingSub w.sync.lastPackets).toNat ≤ _
        rw [UInt64.toNat_saturatingSub, UInt64.toNat_zero, Nat.zero_sub]
        exact Nat.zero_le _
      · show ((0 : UInt64).saturatingSub w.sync.lastDropped).toNat ≤ _
        rw [UInt64.toNat_saturatingSub, UInt64.toNat_zero, Nat.zero_sub]
        exact Nat.zero_le _

/-- In every run over kernel counters that do not fall, all exported totals are monotone and all rates
bounded by the kernel's increase exactly if every read that fails does so while the totals are zero. -/
theorem failed_reads_keep_metrics_iff {ticks : List StatsTick}
    (hgrows : Along statsStep KernelGrows {} ticks) :
    Along statsStep MetricsSound {} ticks ↔ Along statsStep FailsAtZero {} ticks :=
  Along.congr (fun _ _ _ h _ hzero hstep => exportsLastRead_step h hzero hstep)
    (fun _ _ h hgrows => metricsSound_iff h hgrows) exportsLastRead_start hgrows

/-- The first read fails, and the next two do not. -/
theorem failed_reads_keep_metrics_iff_first :
    let ticks : List StatsTick :=
      [.failed [{ totalPackets := 5, totalPassed := 5 }],
        .read [{ totalPackets := 1000, totalPassed := 990, totalDropped := 10 }],
        .read [{ totalPackets := 1010, totalPassed := 1000, totalDropped := 10 }]]
    Along statsStep FailsAtZero {} ticks ∧ Along statsStep MetricsSound {} ticks ∧
      (exec statsStep {} ticks).map (fun w => w.sync.stats.currentPps) = some 10 := by
  intro ticks
  have hgrows : Along statsStep KernelGrows {} ticks := by
    refine .cons rfl (fun c => ?_) (.cons rfl (fun c => ?_) (.cons rfl (fun c => ?_) trivial))
    all_goals cases c <;> decide
  have hzero : Along statsStep FailsAtZero {} ticks :=
    .cons rfl exported_default (.cons rfl trivial (.cons rfl trivial trivial))
  exact ⟨hzero, (failed_reads_keep_metrics_iff hgrows).2 hzero, rfl⟩

/-- A thousand packets read, one failed read, and ten packets more. -/
def failedReadRun : List StatsTick :=
  [.read [{ totalPackets := 1000, totalPassed := 1000 }],
    .failed [{ totalPackets := 1005, totalPassed := 1005 }],
    .read [{ totalPackets := 1010, totalPassed := 1010 }]]

theorem kernelGrows_failedReadRun : Along statsStep KernelGrows {} failedReadRun := by
  refine .cons rfl (fun c => ?_) (.cons rfl (fun c => ?_) (.cons rfl (fun c => ?_) trivial))
  all_goals cases c <;> decide

/-- The failed read takes the exported total back to zero, and at the next one the rate is the whole
total, though the kernel has counted ten packets since the last successful read. -/
theorem failed_read_corrupts_metrics :
    Along statsStep KernelGrows {} failedReadRun ∧
      ¬ Along statsStep MetricsSound {} failedReadRun ∧
      (exec statsStep {} (failedReadRun.take 2)).map (fun w => w.sync.stats.totalPackets) = some 0 ∧
      (exec statsStep {} failedReadRun).map (fun w => w.sync.stats.currentPps) = some 1010 := by
  refine ⟨kernelGrows_failedReadRun, ?_, rfl, rfl⟩
  rintro ⟨-, hrest⟩
  obtain ⟨hsound, -⟩ := hrest _ rfl
  exact absurd ((hsound _ rfl).1 .totalPackets) (by decide)

end EShield.Node
