import EShield.Node.Danger

/-!
# The CPU load and the pair that is carried

The counters are kept as total and idle but taken up as idle and total, so a call measures the total
against the idle counter of the call before and the other way round. The result is the load between the
two calls only for special counters.
-/

namespace EShield.Node

open Exec

variable {w w' : CpuRun} {content : List Char} {t0 i0 t1 i1 : Nat}

/-! ## The two formulas -/

/-- The load between two samples, in thousandths. -/
def loadBetween (t0 i0 t1 i1 : Nat) : ℚ :=
  if t1 = t0 then 0 else (1 - (i1 - i0 : Nat) / (t1 - t0 : Nat)) * 1000

/-- What a call makes of the counters and those of the call before. -/
def carriedLoad (t0 i0 t1 i1 : Nat) : ℚ :=
  if i0 = 0 then 0
  else if t1 - i0 = 0 then 0
  else (1 - (i1 - t0 : Nat) / (t1 - i0 : Nat)) * 1000

/-- The samples for which it makes no difference that the pair is swapped: the idle counter was zero and
either nothing was counted or only idle time; or the machine had only been idle; or it was not idle
since. -/
def SwapHarmless (t0 i0 t1 i1 : Nat) : Prop :=
  i0 = 0 ∧ (t1 = t0 ∨ i1 = t1 - t0) ∨ i0 ≠ 0 ∧ (i0 = t0 ∨ i1 = i0 ∧ t1 ≠ t0)

theorem load_eq_iff {a b c d : Nat} (hb : b ≠ 0) (hd : d ≠ 0) :
    ((1 - (a : ℚ) / b) * 1000 = (1 - (c : ℚ) / d) * 1000) ↔ a * d = c * b := by
  have hbq : (b : ℚ) ≠ 0 := Nat.cast_ne_zero.2 hb
  have hdq : (d : ℚ) ≠ 0 := Nat.cast_ne_zero.2 hd
  have hthousand : (1000 : ℚ) ≠ 0 := by norm_num
  rw [mul_left_inj' hthousand, sub_right_inj, div_eq_div_iff hbq hdq]
  exact_mod_cast Iff.rfl

theorem load_eq_zero_iff {a b : Nat} (hb : b ≠ 0) : (1 - (a : ℚ) / b) * 1000 = 0 ↔ a = b := by
  have hbq : (b : ℚ) ≠ 0 := Nat.cast_ne_zero.2 hb
  rw [mul_eq_zero, or_iff_left (by norm_num), sub_eq_zero, eq_comm, div_eq_one_iff_eq hbq]
  exact_mod_cast Iff.rfl

/-- The two formulas agree exactly when the swap is harmless. -/
theorem carriedLoad_eq_iff (h0 : i0 ≤ t0) (h1 : i1 ≤ t1) (ht : t0 ≤ t1) (hi : i0 ≤ i1) :
    carriedLoad t0 i0 t1 i1 = loadBetween t0 i0 t1 i1 ↔ SwapHarmless t0 i0 t1 i1 := by
  unfold carriedLoad loadBetween SwapHarmless
  by_cases hzero : i0 = 0
  · rw [if_pos hzero]
    by_cases hsame : t1 = t0
    · rw [if_pos hsame]
      exact iff_of_true rfl (.inl ⟨hzero, .inl hsame⟩)
    · rw [if_neg hsame, eq_comm, load_eq_zero_iff (by omega)]
      omega
  · rw [if_neg hzero]
    by_cases hsame : t1 = t0
    · rw [if_pos hsame]
      by_cases hidle : t1 - i0 = 0
      · rw [if_pos hidle]
        exact iff_of_true rfl (.inr ⟨hzero, .inl (by omega)⟩)
      · rw [if_neg hidle, load_eq_zero_iff hidle]
        omega
    · have hidle : t1 - i0 ≠ 0 := by omega
      rw [if_neg hsame, if_neg hidle, load_eq_iff hidle (by omega)]
      constructor
      · intro hcross
        refine .inr ⟨hzero, ?_⟩
        -- The left side has the smaller factors, so both sides vanish or the factors agree.
        by_contra hnot
        rw [not_or, not_and, not_ne_iff] at hnot
        have hgrew : 0 < i1 - i0 := by
          by_contra hstay
          exact hsame (hnot.2 (by omega))
        have hless : (i1 - t0) * (t1 - t0) < (i1 - i0) * (t1 - i0) := by
          have hfirst : i1 - t0 < i1 - i0 := by omega
          have hsecond : t1 - t0 ≤ t1 - i0 := by omega
          exact Nat.mul_lt_mul_of_lt_of_le hfirst hsecond (by omega)
        omega
      · rintro (⟨hzero', -⟩ | ⟨-, hidle' | ⟨hstay, -⟩⟩)
        · exact absurd hzero' hzero
        · rw [hidle']
        · rw [hstay, Nat.sub_self, Nat.sub_eq_zero_of_le h0, Nat.zero_mul, Nat.zero_mul]

/-- A load in which the idle time is part of the whole is in the range. -/
theorem load_mem {a b : Nat} (hle : a ≤ b) (hb : b ≠ 0) :
    0 ≤ (1 - (a : ℚ) / b) * 1000 ∧ (1 - (a : ℚ) / b) * 1000 ≤ 1000 := by
  have hbq : (0 : ℚ) < b := Nat.cast_pos.2 (Nat.pos_of_ne_zero hb)
  have hone : (a : ℚ) / b ≤ 1 := (div_le_one hbq).2 (Nat.cast_le.2 hle)
  have hnonneg : 0 ≤ (a : ℚ) / b := by positivity
  constructor
  · linarith
  · linarith

theorem carriedLoad_mem (h1 : i1 ≤ t1) (h0 : i0 ≤ t0) :
    0 ≤ carriedLoad t0 i0 t1 i1 ∧ carriedLoad t0 i0 t1 i1 ≤ 1000 := by
  unfold carriedLoad
  split
  · norm_num
  · split
    · norm_num
    · rename_i hidle
      exact load_mem (by omega) hidle

/-! ## Runs -/

/-- The content has counters, and neither has fallen since the last call. -/
def CountersGrow (w : CpuRun) (content : List Char) : Prop :=
  ∃ total idle, HasCounters content total idle ∧
    ∀ p ∈ w.last, p.1 ≤ total ∧ p.2 ≤ idle

/-- From the second call on, the value is the load since the call before, and in the range. -/
def LoadExact (w : CpuRun) (content : List Char) : Prop :=
  ∀ p ∈ w.last, ∀ total idle, HasCounters content total idle →
    let value := (readCpuUsage w.prevCpu (some content)).1
    value = loadBetween p.1 p.2 total idle ∧ 0 ≤ value ∧ value ≤ 1000

/-- The counters and those of the call before are such that the swap is harmless. -/
def CallHarmless (w : CpuRun) (content : List Char) : Prop :=
  ∀ p ∈ w.last, ∀ total idle, HasCounters content total idle →
    SwapHarmless p.1 p.2 total idle

/-- What is carried is the sample of the last call, as total and idle. -/
structure CarriesLast (w : CpuRun) : Prop where
  carried : ∀ p ∈ w.last, w.prevCpu.1.toNat = p.1 ∧ w.prevCpu.2.toNat = p.2
  idle_le : ∀ p ∈ w.last, p.2 ≤ p.1

theorem carriesLast_start : CarriesLast {} := ⟨nofun, nofun⟩

theorem HasCounters.idle_le (h : HasCounters content t1 i1) : i1 ≤ t1 := by
  obtain ⟨fields, -, hidle, rfl, -⟩ := h
  exact List.le_sum_of_mem (List.mem_of_getElem? hidle)

theorem HasCounters.unique {t i : Nat} (h : HasCounters content t1 i1)
    (h' : HasCounters content t i) : t = t1 ∧ i = i1 := by
  obtain ⟨fields, hfields, hidle, rfl, -⟩ := h
  obtain ⟨fields', hfields', hidle', rfl, -⟩ := h'
  rw [hfields] at hfields'
  cases hfields'
  exact ⟨rfl, Option.some.inj (hidle'.symm.trans hidle)⟩

/-- The counters as the code has them. -/
theorem cpuCounters_of (h : HasCounters content t1 i1) :
    ∃ total idle, cpuCounters content = some (total, idle) ∧ total.toNat = t1 ∧ idle.toNat = i1 := by
  have hle := h.idle_le
  obtain ⟨fields, hfields, hidle, rfl, hfits⟩ := h
  refine ⟨.ofNat fields.sum, .ofNat i1, ?_, ?_, ?_⟩
  · rw [cpuCounters, hfields, Option.bind_some, hidle]
    rfl
  · rw [UInt64.toNat_ofNat', Nat.mod_eq_of_lt hfits]
  · rw [UInt64.toNat_ofNat', Nat.mod_eq_of_lt (by omega)]

theorem readCpuUsage_of (h : HasCounters content t1 i1) {prev : UInt64 × UInt64} :
    (readCpuUsage prev (some content)).1 = carriedLoad prev.1.toNat prev.2.toNat t1 i1 ∧
      (readCpuUsage prev (some content)).2.1.toNat = t1 ∧
      (readCpuUsage prev (some content)).2.2.toNat = i1 := by
  obtain ⟨total, idle, hcounters, rfl, rfl⟩ := cpuCounters_of h
  unfold readCpuUsage carriedLoad
  rw [Option.bind_some, hcounters]
  dsimp only
  refine ⟨?_, rfl, rfl⟩
  simp only [UInt64.toNat_saturatingSub, UInt64.eq_zero_iff_toNat]

theorem last_of_step (h : HasCounters content t1 i1) (hstep : cpuStep w content = some w') :
    w'.last = some (t1, i1) ∧ w'.prevCpu = (readCpuUsage w.prevCpu (some content)).2 := by
  obtain ⟨fields, hfields, hidle, rfl, -⟩ := h
  cases hstep
  refine ⟨?_, rfl⟩
  dsimp only
  rw [hfields]
  dsimp only
  rw [hidle]
  rfl

theorem carriesLast_step (hgrow : CountersGrow w content) (hstep : cpuStep w content = some w') :
    CarriesLast w' := by
  obtain ⟨total, idle, hcounters, -⟩ := hgrow
  obtain ⟨hlast, hprev⟩ := last_of_step hcounters hstep
  obtain ⟨-, htotal, hidle⟩ := @readCpuUsage_of content total idle hcounters w.prevCpu
  constructor
  · rintro p hp
    rw [hlast] at hp
    cases hp
    rw [hprev]
    exact ⟨htotal, hidle⟩
  · rintro p hp
    rw [hlast] at hp
    cases hp
    exact hcounters.idle_le

theorem loadExact_iff (h : CarriesLast w) (hgrow : CountersGrow w content) :
    LoadExact w content ↔ CallHarmless w content := by
  obtain ⟨t, i, hcounters, hgrown⟩ := hgrow
  have hboth : ∀ p ∈ w.last, ((readCpuUsage w.prevCpu (some content)).1 =
        loadBetween p.1 p.2 t i ↔ SwapHarmless p.1 p.2 t i) ∧
      0 ≤ (readCpuUsage w.prevCpu (some content)).1 ∧
      (readCpuUsage w.prevCpu (some content)).1 ≤ 1000 := by
    intro p hp
    obtain ⟨htotal, hidle⟩ := h.carried p hp
    obtain ⟨ht, hi⟩ := hgrown p hp
    rw [(@readCpuUsage_of content t i hcounters w.prevCpu).1, htotal, hidle]
    exact ⟨carriedLoad_eq_iff (h.idle_le p hp) hcounters.idle_le ht hi,
      carriedLoad_mem hcounters.idle_le (h.idle_le p hp)⟩
  constructor
  · intro hexact p hp total idle hcounters'
    obtain ⟨rfl, rfl⟩ := hcounters.unique hcounters'
    exact (hboth p hp).1.1 (hexact p hp _ _ hcounters).1
  · intro hharmless p hp total idle hcounters'
    obtain ⟨rfl, rfl⟩ := hcounters.unique hcounters'
    exact ⟨(hboth p hp).1.2 (hharmless p hp _ _ hcounters), (hboth p hp).2⟩

/-- In every run over counters that do not fall, each call from the second on returns the load since the
call before exactly if the swapped pair is harmless at each of them. -/
theorem cpu_usage_between_samples_iff {contents : List (List Char)}
    (hgrow : Along cpuStep CountersGrow {} contents) :
    Along cpuStep LoadExact {} contents ↔ Along cpuStep CallHarmless {} contents :=
  Along.congr (fun _ _ _ _ hgrow _ hstep => carriesLast_step hgrow hstep)
    (fun _ _ h hgrow => loadExact_iff h hgrow) carriesLast_start hgrow

/-- A machine that has been idle, and then is not. -/
theorem cpu_usage_between_samples_iff_busy :
    let contents := ["cpu  500 0 0 500\n".toList, "cpu  600 0 0 500\n".toList]
    Along cpuStep CallHarmless {} contents ∧ Along cpuStep LoadExact {} contents ∧
      (cpuStep {} "cpu  500 0 0 500\n".toList).map
        (fun w => (readCpuUsage w.prevCpu (some "cpu  600 0 0 500\n".toList)).1) = some 1000 := by
  intro contents
  have hgrow : Along cpuStep CountersGrow {} contents := by
    refine .cons rfl ⟨1000, 500, by decide +kernel, nofun⟩
      (.cons rfl ⟨1100, 500, by decide +kernel, ?_⟩ trivial)
    decide +kernel
  have hharmless : Along cpuStep CallHarmless {} contents := by
    refine .cons rfl nofun (.cons rfl (fun p hp total idle hcounters => ?_) trivial)
    have hbusy : HasCounters "cpu  600 0 0 500\n".toList 1100 500 := by decide +kernel
    obtain ⟨rfl, rfl⟩ := hbusy.unique hcounters
    cases hp
    exact .inr ⟨by decide, .inr ⟨rfl, by decide⟩⟩
  exact ⟨hharmless, (cpu_usage_between_samples_iff hgrow).2 hharmless, by decide +kernel⟩

/-- A machine that is busy half of the time. -/
def halfBusy : List (List Char) :=
  ["cpu  500 0 0 500\n".toList, "cpu  550 0 0 550\n".toList]

theorem countersGrow_halfBusy : Along cpuStep CountersGrow {} halfBusy := by
  refine .cons rfl ⟨1000, 500, by decide +kernel, nofun⟩
    (.cons rfl ⟨1100, 550, by decide +kernel, ?_⟩ trivial)
  decide +kernel

/-- Its load is reported as full. -/
theorem half_busy_reported_full :
    Along cpuStep CountersGrow {} halfBusy ∧ ¬ Along cpuStep LoadExact {} halfBusy ∧
      (cpuStep {} "cpu  500 0 0 500\n".toList).map
          (fun w => (readCpuUsage w.prevCpu (some "cpu  550 0 0 550\n".toList)).1) = some 1000 ∧
      loadBetween 1000 500 1100 550 = 500 := by
  refine ⟨countersGrow_halfBusy, ?_, by decide +kernel, by decide +kernel⟩
  rintro ⟨-, hrest⟩
  obtain ⟨hexact, -⟩ := hrest _ rfl
  have hvalue := (hexact (1000, 500) (by decide +kernel) 1100 550 (by decide +kernel)).1
  exact absurd hvalue (by decide +kernel)

end EShield.Node
