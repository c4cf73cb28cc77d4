import EShield.Ebpf.Proofs.PortRateProofs

/-!
# The windows of the port limit

What a sequence of calls of `check_port_rate` accepts and refuses, key by key.
-/

namespace EShield.Ebpf

/-- A call for a key at a time. -/
abbrev PortCall := PortRateKey × UInt64

/-- The maps after the calls. -/
def portCalls (m : Maps) (calls : List PortCall) : Maps :=
  calls.foldl (fun m c => (checkPortRate m c.1 c.2).2) m

/-- Each call with its verdict. -/
def judged (m : Maps) : List PortCall → List (PortCall × Bool)
  | [] => []
  | c :: calls => (c, (checkPortRate m c.1 c.2).1) :: judged (checkPortRate m c.1 c.2).2 calls

/-- The calls for the key that are accepted from `lo` on, before `lo + width`. -/
def acceptedIn (key : PortRateKey) (lo width : Nat) (log : List (PortCall × Bool)) : Nat :=
  log.countP fun r => r.1.1 = key ∧ r.2 = false ∧ lo ≤ r.1.2.toNat ∧ r.1.2.toNat < lo + width

/-- The calls for the key less than `width` before `t`, and none after it. -/
def callsWithin (key : PortRateKey) (width t : UInt64) (calls : List PortCall) : Nat :=
  calls.countP fun c => c.1 = key ∧ t.toNat < c.2.toNat + width.toNat ∧ c.2 ≤ t

variable {m m' : Maps} {calls : List PortCall} {key : PortRateKey} {c : PortCall}

theorem portCalls_snoc : portCalls m (calls ++ [c]) =
    (checkPortRate (portCalls m calls) c.1 c.2).2 := by
  rw [portCalls, List.foldl_append]
  rfl

theorem judged_snoc : judged m (calls ++ [c]) =
    judged m calls ++ [(c, (checkPortRate (portCalls m calls) c.1 c.2).1)] := by
  induction calls generalizing m with
  | nil => rfl
  | cons c' calls ih =>
    rw [List.cons_append, judged, ih]
    rfl

/-! ## One call -/

theorem portRateLimitCfg_checkPortRate (m : Maps) (key : PortRateKey) (nowNs : UInt64) :
    (checkPortRate m key nowNs).2.portRateLimitCfg = m.portRateLimitCfg := by
  simp only [checkPortRate]
  split <;> rfl

theorem portRateLimitCfg_portCalls (m : Maps) (calls : List PortCall) :
    (portCalls m calls).portRateLimitCfg = m.portRateLimitCfg := by
  induction calls using List.reverseRecOn with
  | nil => rfl
  | append_singleton calls c ih => rw [portCalls_snoc, portRateLimitCfg_checkPortRate, ih]

/-- A call counts in the window of its key, and in no other. -/
theorem portRateMap_checkPortRate (htick : m.portRateLimitCfg.tickMs ≠ 0) (c : PortCall)
    (key : PortRateKey) :
    (checkPortRate m c.1 c.2).2.portRateMap key =
      if c.1 = key then
        some (portCounter (msToNs m.portRateLimitCfg.tickMs) c.2 (m.portRateMap key))
      else m.portRateMap key := by
  rw [checkPortRate_eq c.1 c.2 htick]
  dsimp only
  split
  · rename_i hkey
    rw [hkey, LruHashMap.insert_self]
  · rename_i hkey
    exact LruHashMap.insert_of_ne _ _ (Ne.symm hkey)

/-- The verdict is read off the counter of the key after the call. -/
theorem checkPortRate_verdict (htick : m.portRateLimitCfg.tickMs ≠ 0) (c : PortCall) :
    (checkPortRate m c.1 c.2).1 =
      decide ((portCounter (msToNs m.portRateLimitCfg.tickMs) c.2 (m.portRateMap c.1)).counter >
        m.portRateLimitCfg.threshold) := by
  rw [checkPortRate_eq c.1 c.2 htick]

/-! ## The verdicts of one key -/

/-- The parameters and the entry of the key decide what happens to it. -/
theorem judged_filter (htick : m.portRateLimitCfg.tickMs ≠ 0)
    (hcfg : m'.portRateLimitCfg = m.portRateLimitCfg)
    (hkey : m'.portRateMap key = m.portRateMap key) (calls : List PortCall) :
    (judged m calls).filter (·.1.1 = key) = judged m' (calls.filter (·.1 = key)) := by
  induction calls generalizing m m' with
  | nil => rfl
  | cons c calls ih =>
    have htick' : m'.portRateLimitCfg.tickMs ≠ 0 := by rw [hcfg]; exact htick
    have hnext : (checkPortRate m c.1 c.2).2.portRateLimitCfg.tickMs ≠ 0 := by
      rw [portRateLimitCfg_checkPortRate]
      exact htick
    by_cases hc : c.1 = key
    · have hcfg' : (checkPortRate m' c.1 c.2).2.portRateLimitCfg =
          (checkPortRate m c.1 c.2).2.portRateLimitCfg := by
        rw [portRateLimitCfg_checkPortRate, portRateLimitCfg_checkPortRate, hcfg]
      have hkey' : (checkPortRate m' c.1 c.2).2.portRateMap key =
          (checkPortRate m c.1 c.2).2.portRateMap key := by
        rw [portRateMap_checkPortRate htick, portRateMap_checkPortRate htick', hcfg, hkey]
      rw [judged, List.filter_cons, if_pos (decide_eq_true hc), List.filter_cons,
        if_pos (decide_eq_true hc), judged, ih hnext hcfg' hkey',
        checkPortRate_verdict htick, checkPortRate_verdict htick', hcfg, hc, hkey]
    · have hkey' : m'.portRateMap key = (checkPortRate m c.1 c.2).2.portRateMap key := by
        rw [portRateMap_checkPortRate htick, if_neg hc, hkey]
      rw [judged, List.filter_cons, if_neg (mt of_decide_eq_true hc), List.filter_cons,
        if_neg (mt of_decide_eq_true hc)]
      exact ih hnext (by rw [hcfg, portRateLimitCfg_checkPortRate]) hkey'

/-! ## What is accepted -/

/-- The time of the last call. -/
def clockOf (calls : List PortCall) : Nat := (calls.getLast?.map fun c => c.2.toNat).getD 0

theorem clockOf_snoc : clockOf (calls ++ [c]) = c.2.toNat := by
  rw [clockOf, List.getLast?_concat]
  rfl

theorem clockOf_le (hord : (calls ++ [c]).Pairwise (·.2 ≤ ·.2)) : clockOf calls ≤ c.2.toNat := by
  cases calls using List.reverseRecOn with
  | nil => exact Nat.zero_le _
  | append_singleton calls c' =>
    rw [clockOf_snoc]
    refine UInt64.le_iff_toNat_le.1 ?_
    exact (List.pairwise_append.1 hord).2.2 c' (by simp) c (List.mem_singleton_self c)

/-- The accepted calls of an interval are within the bounds of the key's window. -/
theorem within_judged (htick : m.portRateLimitCfg.tickMs ≠ 0)
    (hcap : m.portRateLimitCfg.threshold.toNat < 2 ^ 64 - 1) (key : PortRateKey) (lo : Nat)
    (hord : calls.Pairwise (·.2 ≤ ·.2)) :
    FixedWindow.Within m.portRateLimitCfg.threshold.toNat
      (msToNs m.portRateLimitCfg.tickMs).toNat lo
      (((portCalls m calls).portRateMap key).map toCounter) (clockOf calls)
      (acceptedIn key lo (msToNs m.portRateLimitCfg.tickMs).toNat (judged m calls)) := by
  induction calls using List.reverseRecOn with
  | nil => exact .init _ _ _ _ _
  | append_singleton calls c ih =>
    have hwithin := ih (List.pairwise_append.1 hord).1
    have hle := clockOf_le hord
    have hcfg := portRateLimitCfg_portCalls m calls
    have htick' : (portCalls m calls).portRateLimitCfg.tickMs ≠ 0 := by rw [hcfg]; exact htick
    rw [portCalls_snoc, portRateMap_checkPortRate htick', judged_snoc, clockOf_snoc, acceptedIn,
      List.countP_append, List.countP_singleton, hcfg, ← acceptedIn]
    by_cases hkey : c.1 = key
    · rw [if_pos hkey, Option.map_some, toCounter_portCounter]
      refine hwithin.tick hle hcap ?_
      split
      · rename_i haccepted
        obtain ⟨-, hverdict, hlo, hhi⟩ := of_decide_eq_true haccepted
        refine .inr ⟨rfl, hlo, hhi, ?_⟩
        rw [checkPortRate_verdict htick', decide_eq_false_iff_not, hcfg, hkey] at hverdict
        rw [← toCounter_portCounter]
        exact UInt64.le_iff_toNat_le.1 (UInt64.not_lt.1 hverdict)
      · exact .inl rfl
    · rw [if_neg hkey, if_neg fun haccepted => hkey (of_decide_eq_true haccepted).1]
      exact hwithin.later hle

/-! ## What is refused -/

/-- The calls for the key from `start` on. -/
def callsFrom (key : PortRateKey) (start : UInt64) (calls : List PortCall) : Nat :=
  calls.countP fun c => c.1 = key ∧ start ≤ c.2

theorem callsFrom_snoc (start : UInt64) : callsFrom key start (calls ++ [c]) =
    callsFrom key start calls + if c.1 = key ∧ start ≤ c.2 then 1 else 0 := by
  rw [callsFrom, List.countP_append, List.countP_singleton]
  simp only [decide_eq_true_eq]
  rfl

/-- The window of a counter after a packet at `nowNs` is open at that time. -/
theorem portCounter_open {windowNs nowNs : UInt64} (hwindow : windowNs ≠ 0)
    (prev : Option RateCounter) :
    nowNs.toNat < (portCounter windowNs nowNs prev).lastDecayNs.toNat + windowNs.toNat := by
  have hpos : 0 < windowNs.toNat := UInt64.lt_iff_toNat_lt.1 (UInt64.pos_iff_ne_zero.2 hwindow)
  unfold portCounter
  split
  · split
    · rename_i hopen
      rw [UInt64.lt_iff_toNat_lt, UInt64.toNat_saturatingSub] at hopen
      dsimp only
      omega
    · dsimp only
      omega
  · dsimp only
    omega

/-- A counter has counted no more than the calls since its window began. -/
theorem counter_le_callsFrom (htick : m.portRateLimitCfg.tickMs ≠ 0)
    (hnew : m.portRateMap key = none) (hord : calls.Pairwise (·.2 ≤ ·.2)) :
    ∀ e, (portCalls m calls).portRateMap key = some e →
      e.lastDecayNs.toNat ≤ clockOf calls ∧
        e.counter.toNat ≤ callsFrom key e.lastDecayNs calls := by
  induction calls using List.reverseRecOn with
  | nil =>
    intro e he
    cases hnew.symm.trans he
  | append_singleton calls c ih =>
    intro e he
    have hbefore := ih (List.pairwise_append.1 hord).1
    have hle := clockOf_le hord
    have hcfg := portRateLimitCfg_portCalls m calls
    rw [portCalls_snoc, portRateMap_checkPortRate (by rw [hcfg]; exact htick), hcfg] at he
    rw [clockOf_snoc, callsFrom_snoc]
    by_cases hkey : c.1 = key
    · rw [if_pos hkey] at he
      have hfresh : ({ counter := 1, lastDecayNs := c.2 } : RateCounter) = e →
          e.lastDecayNs.toNat ≤ c.2.toNat ∧ e.counter.toNat ≤ callsFrom key e.lastDecayNs calls +
            if c.1 = key ∧ e.lastDecayNs ≤ c.2 then 1 else 0 := by
        rintro rfl
        rw [if_pos ⟨hkey, UInt64.le_refl _⟩]
        exact ⟨Nat.le_refl _, Nat.le_add_left 1 _⟩
      unfold portCounter at he
      split at he
      · rename_i e' he'
        obtain ⟨hstart, hcount⟩ := hbefore e' he'
        split at he
        · cases he
          have hstart' : e'.lastDecayNs ≤ c.2 := UInt64.le_iff_toNat_le.2 (hstart.trans hle)
          rw [if_pos ⟨hkey, hstart'⟩]
          refine ⟨hstart.trans hle, ?_⟩
          rw [UInt64.toNat_saturatingAdd]
          exact (min_le_left _ _).trans (Nat.add_le_add_right hcount 1)
        · exact hfresh (Option.some.inj he)
      · exact hfresh (Option.some.inj he)
    · rw [if_neg hkey] at he
      obtain ⟨hstart, hcount⟩ := hbefore e he
      exact ⟨hstart.trans hle, hcount.trans (Nat.le_add_right _ _)⟩

/-- The calls of the window of a counter are less than a window before the last one. -/
theorem callsFrom_le_callsWithin {start width : UInt64}
    (hopen : c.2.toNat < start.toNat + width.toNat)
    (hord : (calls ++ [c]).Pairwise (·.2 ≤ ·.2)) :
    callsFrom key start (calls ++ [c]) ≤ callsWithin key width c.2 (calls ++ [c]) := by
  refine List.countP_mono_left fun c' hc' hfrom => ?_
  obtain ⟨hkey, hstart⟩ := of_decide_eq_true hfrom
  have hstart' := UInt64.le_iff_toNat_le.1 hstart
  refine decide_eq_true ⟨hkey, by omega, ?_⟩
  rcases List.mem_append.1 hc' with hc' | hc'
  · exact (List.pairwise_append.1 hord).2.2 c' hc' c (List.mem_singleton_self c)
  · rw [List.mem_singleton.1 hc']

/-- A refused call is one of more than the threshold in the last window. -/
theorem refused_callsWithin (htick : m.portRateLimitCfg.tickMs ≠ 0)
    (hnew : m.portRateMap c.1 = none) (hord : (calls ++ [c]).Pairwise (·.2 ≤ ·.2))
    (hrefused : (checkPortRate (portCalls m calls) c.1 c.2).1 = true) :
    m.portRateLimitCfg.threshold.toNat <
      callsWithin c.1 (msToNs m.portRateLimitCfg.tickMs) c.2 (calls ++ [c]) := by
  have hcfg := portRateLimitCfg_portCalls m calls
  have htick' : (portCalls m calls).portRateLimitCfg.tickMs ≠ 0 := by rw [hcfg]; exact htick
  rw [checkPortRate_verdict htick', decide_eq_true_eq, hcfg] at hrefused
  have hentry : (portCalls m (calls ++ [c])).portRateMap c.1 =
      some (portCounter (msToNs m.portRateLimitCfg.tickMs) c.2
        ((portCalls m calls).portRateMap c.1)) := by
    rw [portCalls_snoc, portRateMap_checkPortRate htick', if_pos rfl, hcfg]
  obtain ⟨-, hcount⟩ := counter_le_callsFrom htick hnew hord _ hentry
  have hwindow : msToNs m.portRateLimitCfg.tickMs ≠ 0 := mt msToNs_eq_zero_iff.1 htick
  have hopen := @portCounter_open _ c.2 hwindow ((portCalls m calls).portRateMap c.1)
  calc m.portRateLimitCfg.threshold.toNat < _ := UInt64.lt_iff_toNat_lt.1 hrefused
    _ ≤ _ := hcount
    _ ≤ _ := callsFrom_le_callsWithin hopen hord

/-- From an empty map, with times that do not decrease: an interval as long as the window has at most
twice the threshold of accepted calls of a key, unless the threshold is the largest number; a refused
call is one of more than the threshold in the last window; and the verdicts of a key are those of its
calls alone. -/
theorem port_window_bounds (hempty : m.portRateMap = .empty)
    (htick : 0 < m.portRateLimitCfg.tickMs) (hord : calls.Pairwise (·.2 ≤ ·.2)) :
    (m.portRateLimitCfg.threshold < 0xffffffffffffffff → ∀ key lo,
        acceptedIn key lo (msToNs m.portRateLimitCfg.tickMs).toNat (judged m calls) ≤
          2 * m.portRateLimitCfg.threshold.toNat) ∧
      (∀ pre c post, calls = pre ++ c :: post →
        (checkPortRate (portCalls m pre) c.1 c.2).1 = true →
          m.portRateLimitCfg.threshold.toNat <
            callsWithin c.1 (msToNs m.portRateLimitCfg.tickMs) c.2 (pre ++ [c])) ∧
      ∀ key, (judged m calls).filter (·.1.1 = key) = judged m (calls.filter (·.1 = key)) := by
  have htick' := UInt64.pos_iff_ne_zero.1 htick
  refine ⟨fun hcap key lo => ?_, ?_, fun key => judged_filter htick' rfl rfl calls⟩
  · exact (within_judged htick' (UInt64.lt_iff_toNat_lt.1 hcap) key lo hord).total
  · rintro pre c post rfl hrefused
    rw [← List.singleton_append, ← List.append_assoc] at hord
    exact refused_callsWithin htick' (by rw [hempty]; rfl) (List.pairwise_append.1 hord).1 hrefused

/-- One packet a second. -/
def onePerSecond : Maps := { portRateLimitCfg := { threshold := 1, tickMs := 1000 } }

def threeCalls : List PortCall :=
  [({ protocol := IPPROTO_UDP, dport := 53 }, 5), ({ protocol := IPPROTO_TCP, dport := 53 }, 6),
    ({ protocol := IPPROTO_UDP, dport := 53 }, 7)]

/-- The second of two calls for a key is refused, a call for another key in between is not. -/
theorem port_window_bounds_three :
    (judged onePerSecond threeCalls).map Prod.snd = [false, false, true] ∧
      acceptedIn { protocol := IPPROTO_UDP, dport := 53 } 0
          (msToNs onePerSecond.portRateLimitCfg.tickMs).toNat (judged onePerSecond threeCalls) ≤
        2 * onePerSecond.portRateLimitCfg.threshold.toNat := by
  have hbounds := @port_window_bounds onePerSecond threeCalls rfl (by decide) (by decide +kernel)
  exact ⟨by decide +kernel, hbounds.1 (by decide) _ 0⟩

/-- Under the largest threshold, which no capped count exceeds. -/
def unreachable : Maps :=
  { portRateLimitCfg := { threshold := 0xffffffffffffffff, tickMs := 1 } }

theorem accepted_of_unreachable
    (hthreshold : m.portRateLimitCfg.threshold = 0xffffffffffffffff)
    (htick : m.portRateLimitCfg.tickMs ≠ 0) (c : PortCall) :
    (checkPortRate m c.1 c.2).1 = false := by
  have hlargest : (0xffffffffffffffff : UInt64).toNat = 2 ^ 64 - 1 := by decide
  rw [checkPortRate_verdict htick, hthreshold, decide_eq_false_iff_not, UInt64.not_lt,
    UInt64.le_iff_toNat_le, hlargest]
  exact Nat.le_sub_one_of_lt (UInt64.toNat_lt _)

theorem acceptedIn_replicate (hthreshold : m.portRateLimitCfg.threshold = 0xffffffffffffffff)
    (htick : m.portRateLimitCfg.tickMs ≠ 0) {lo width : Nat} (hlo : lo ≤ c.2.toNat)
    (hhi : c.2.toNat < lo + width) (n : Nat) :
    acceptedIn c.1 lo width (judged m (List.replicate n c)) = n := by
  induction n generalizing m with
  | zero => rfl
  | succ n ih =>
    have hcfg := portRateLimitCfg_checkPortRate m c.1 c.2
    rw [List.replicate_succ, judged, acceptedIn, List.countP_cons,
      if_pos (decide_eq_true ⟨rfl, accepted_of_unreachable hthreshold htick c, hlo, hhi⟩),
      ← acceptedIn, ih (by rw [hcfg]; exact hthreshold) (by rw [hcfg]; exact htick)]

/-- 2^65 calls at one time are all accepted, twice the largest threshold is less. -/
theorem unreachable_accepts_all :
    ∃ (m : Maps) (calls : List PortCall) (key : PortRateKey), m.portRateMap = .empty ∧
      0 < m.portRateLimitCfg.tickMs ∧ calls.Pairwise (·.2 ≤ ·.2) ∧
      ¬ acceptedIn key 0 (msToNs m.portRateLimitCfg.tickMs).toNat (judged m calls) ≤
        2 * m.portRateLimitCfg.threshold.toNat := by
  let c : PortCall := ({ protocol := IPPROTO_UDP, dport := 53 }, 0)
  refine ⟨unreachable, List.replicate (2 ^ 65) c, c.1, rfl, by decide,
    List.pairwise_replicate.2 (.inr (UInt64.le_refl _)), ?_⟩
  rw [acceptedIn_replicate rfl (by decide) (Nat.zero_le _) (by decide)]
  decide

end EShield.Ebpf
