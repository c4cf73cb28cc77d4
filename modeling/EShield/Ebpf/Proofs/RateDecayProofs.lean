import EShield.Common.Proofs.DecayProofs
import EShield.Ebpf.Proofs.ParserProofs
import EShield.Ebpf.RateCounter
import EShield.Lib.LazyTicks

/-!
# The decaying rate counters over time

A counter of RATE_MAP decays when its source sends again, for the full ticks since `last_decay_ns`, and
the rest of a tick is kept there. The ticks are those that lie at whole multiples after the first
packet.
-/

namespace EShield.Ebpf

open LazyTicks

/-- The full ticks between the first packet and `t`. -/
def ticksSince (tickNs t0 t : UInt64) : Nat := (t.toNat - t0.toNat) / tickNs.toNat

/-- The counter of one source, packet after packet. -/
def countTimes (cfg : RateLimitConfig) (tickNs : UInt64) (prev : Option RateCounter)
    (times : List UInt64) : Option RateCounter :=
  times.foldl (fun prev t => some (countPacket cfg tickNs t prev)) prev

/-- How often a packet at `nowNs` makes the counter decay. -/
def ticksOf (tickNs nowNs : UInt64) : Option RateCounter → Nat
  | some entry => min (nowNs.saturatingSub entry.lastDecayNs / tickNs).toNat 64
  | none => 0

/-- How often a sequence of packets does. -/
def ticksApplied (cfg : RateLimitConfig) (tickNs : UInt64) : Option RateCounter → List UInt64 → Nat
  | _, [] => 0
  | prev, t :: times =>
    ticksOf tickNs t prev + ticksApplied cfg tickNs (some (countPacket cfg tickNs t prev)) times

variable {cfg : RateLimitConfig} {tickNs t0 t now : UInt64} {entry : RateCounter}

theorem countTimes_snoc (prev : Option RateCounter) (times : List UInt64) :
    countTimes cfg tickNs prev (times ++ [t]) =
      some (countPacket cfg tickNs t (countTimes cfg tickNs prev times)) := by
  rw [countTimes, List.foldl_append]
  rfl

theorem ticksApplied_snoc (prev : Option RateCounter) (times : List UInt64) :
    ticksApplied cfg tickNs prev (times ++ [t]) =
      ticksApplied cfg tickNs prev times +
        ticksOf tickNs t (countTimes cfg tickNs prev times) := by
  induction times generalizing prev with
  | nil => exact Nat.add_comm _ _
  | cons u times ih =>
    rw [List.cons_append, ticksApplied, ih, ticksApplied, Nat.add_assoc]
    rfl

theorem ticksSince_self (tickNs t0 : UInt64) : ticksSince tickNs t0 t0 = 0 := by
  rw [ticksSince, Nat.sub_self, Nat.zero_div]

theorem ticksSince_mono (hle : t ≤ now) : ticksSince tickNs t0 t ≤ ticksSince tickNs t0 now :=
  Nat.div_le_div_right (Nat.sub_le_sub_right (UInt64.le_iff_toNat_le.1 hle) _)

/-! ## One packet -/

/-- `last_decay_ns` of an entry whose last packet came at `t`: the last tick not after it. -/
def DecayedAt (tickNs t0 t : UInt64) (entry : RateCounter) : Prop :=
  entry.lastDecayNs.toNat = t0.toNat + tickNs.toNat * ticksSince tickNs t0 t

theorem DecayedAt.le (h : DecayedAt tickNs t0 t entry) (h0 : t0 ≤ t) : entry.lastDecayNs ≤ t := by
  have hdiv := Nat.mul_div_le (t.toNat - t0.toNat) tickNs.toNat
  have h0' := UInt64.le_iff_toNat_le.1 h0
  rw [UInt64.le_iff_toNat_le, h, ticksSince]
  omega

theorem DecayedAt.lt_tick (h : DecayedAt tickNs t0 t entry) (htick : tickNs ≠ 0) :
    t.toNat - entry.lastDecayNs.toNat < tickNs.toNat := by
  have hpos : 0 < tickNs.toNat := UInt64.lt_iff_toNat_lt.1 (UInt64.pos_iff_ne_zero.2 htick)
  have hmod := Nat.mod_lt (t.toNat - t0.toNat) hpos
  have hdiv := Nat.div_add_mod (t.toNat - t0.toNat) tickNs.toNat
  rw [h, ticksSince]
  omega

/-- The ticks that a later packet makes up for are those in between. -/
theorem DecayedAt.ticks (h : DecayedAt tickNs t0 t entry) (htick : tickNs ≠ 0) :
    (now.saturatingSub entry.lastDecayNs / tickNs).toNat =
      ticksSince tickNs t0 now - ticksSince tickNs t0 t := by
  have hpos : 0 < tickNs.toNat := UInt64.lt_iff_toNat_lt.1 (UInt64.pos_iff_ne_zero.2 htick)
  rw [UInt64.toNat_div, UInt64.toNat_saturatingSub, h, Nat.sub_add_eq]
  exact Nat.sub_mul_div _ _ _

/-- A packet makes up for the ticks in between, 64 at most, and is counted. -/
theorem countPacket_of_decayedAt (h : DecayedAt tickNs t0 t entry) (htick : tickNs ≠ 0)
    (hden : cfg.decayDen ≠ 0) (h0 : t0 ≤ t) (hle : t ≤ now) :
    (countPacket cfg tickNs now (some entry)).counter =
        ((decayStep cfg.decayNum cfg.decayDen)^[min
          (ticksSince tickNs t0 now - ticksSince tickNs t0 t) 64] entry.counter).saturatingAdd 1 ∧
      DecayedAt tickNs t0 now (countPacket cfg tickNs now (some entry)) := by
  constructor
  · rw [countPacket, decayCounter_eq_iterate htick hden, h.ticks htick]
  · have hmono := @ticksSince_mono tickNs t0 _ _ hle
    have h0' := UInt64.le_iff_toNat_le.1 (UInt64.le_trans h0 hle)
    have hbound : tickNs.toNat * ticksSince tickNs t0 now ≤ now.toNat - t0.toNat :=
      Nat.mul_div_le _ _
    have hlt := now.toNat_lt
    have hsplit : tickNs.toNat * ticksSince tickNs t0 t +
        (ticksSince tickNs t0 now - ticksSince tickNs t0 t) * tickNs.toNat =
          tickNs.toNat * ticksSince tickNs t0 now := by
      rw [Nat.mul_comm _ tickNs.toNat, ← Nat.mul_add, Nat.add_sub_cancel' hmono]
    have hsum : (entry.lastDecayNs + now.saturatingSub entry.lastDecayNs / tickNs * tickNs).toNat =
        t0.toNat + tickNs.toNat * ticksSince tickNs t0 now := by
      rw [UInt64.toNat_add, UInt64.toNat_mul, h.ticks htick, h, Nat.add_mod_mod,
        Nat.add_assoc, hsplit]
      exact Nat.mod_eq_of_lt (by omega)
    have hnow : entry.lastDecayNs + now.saturatingSub entry.lastDecayNs / tickNs * tickNs ≤ now := by
      rw [UInt64.le_iff_toNat_le, hsum]
      omega
    rw [DecayedAt, countPacket, min_eq_left hnow]
    exact hsum

/-! ## A sequence of packets -/

/-- The time of the last packet. -/
def lastTime (t0 : UInt64) (rest : List UInt64) : UInt64 := rest.getLast?.getD t0

@[simp] theorem lastTime_nil (t0 : UInt64) : lastTime t0 [] = t0 := rfl

@[simp] theorem lastTime_snoc (t0 : UInt64) (rest : List UInt64) (t : UInt64) :
    lastTime t0 (rest ++ [t]) = t := by
  rw [lastTime, List.getLast?_concat]
  rfl

/-- The times from the first packet on do not decrease. -/
def Ordered (t0 : UInt64) (rest : List UInt64) : Prop := (t0 :: rest).Pairwise (· ≤ ·)

theorem ordered_snoc {rest : List UInt64} :
    Ordered t0 (rest ++ [t]) ↔ Ordered t0 rest ∧ ∀ u ∈ t0 :: rest, u ≤ t := by
  rw [Ordered, ← List.cons_append, List.pairwise_append]
  simp only [List.pairwise_singleton, List.mem_singleton, forall_eq, true_and]
  rfl

theorem Ordered.init {rest : List UInt64} (h : Ordered t0 (rest ++ [t])) : Ordered t0 rest :=
  (ordered_snoc.1 h).1

theorem Ordered.first_le {rest : List UInt64} (h : Ordered t0 rest) : ∀ u ∈ t0 :: rest, t0 ≤ u := by
  intro u hu
  rcases List.mem_cons.1 hu with rfl | hu
  · exact UInt64.le_refl u
  · exact (List.pairwise_cons.1 h).1 u hu

theorem Ordered.le_lastTime {rest : List UInt64} (h : Ordered t0 rest) :
    ∀ u ∈ t0 :: rest, u ≤ lastTime t0 rest := by
  induction rest using List.reverseRecOn with
  | nil =>
    intro u hu
    rw [List.mem_singleton.1 hu]
    exact UInt64.le_refl t0
  | append_singleton rest t _ =>
    intro u hu
    rw [lastTime_snoc]
    rw [← List.cons_append, List.mem_append, List.mem_singleton] at hu
    rcases hu with hu | rfl
    · exact (ordered_snoc.1 h).2 u hu
    · exact UInt64.le_refl u

theorem Ordered.lastTime_le {rest : List UInt64} (h : Ordered t0 (rest ++ [t])) :
    lastTime t0 rest ≤ t := by
  have hmem : lastTime t0 rest ∈ t0 :: rest := by
    cases rest using List.reverseRecOn with
    | nil => exact List.mem_cons_self
    | append_singleton rest u => simp
  exact (ordered_snoc.1 h).2 _ hmem

/-- After every packet the entry has decayed up to the last tick, whatever the gaps. -/
theorem countTimes_decayedAt {rest : List UInt64} (htick : tickNs ≠ 0) (hden : cfg.decayDen ≠ 0)
    (hord : Ordered t0 rest) :
    ∃ entry, countTimes cfg tickNs none (t0 :: rest) = some entry ∧
      DecayedAt tickNs t0 (lastTime t0 rest) entry := by
  induction rest using List.reverseRecOn with
  | nil =>
    refine ⟨_, rfl, ?_⟩
    rw [lastTime_nil, DecayedAt, ticksSince_self, Nat.mul_zero]
    rfl
  | append_singleton rest t ih =>
    obtain ⟨entry, hentry, hdecayed⟩ := ih hord.init
    rw [← List.cons_append, countTimes_snoc, hentry, lastTime_snoc]
    refine ⟨_, rfl, ?_⟩
    exact (countPacket_of_decayedAt hdecayed htick hden
      (hord.init.le_lastTime t0 List.mem_cons_self) hord.lastTime_le).2

/-! ## Against a counter that decays at every tick -/

/-- The counter that decays at `t0 + tick`, `t0 + 2 * tick` and so on, and takes in each packet when it
comes, `sinceNs` nanoseconds after the first packet. -/
def eagerCounter (cfg : RateLimitConfig) (tickNs t0 : UInt64) (times : List UInt64)
    (sinceNs : Nat) : UInt64 :=
  eager (decayStep cfg.decayNum cfg.decayDen) (fun c => c.saturatingAdd 1) tickNs.toNat
    (fun i => (times.map fun t => t.toNat - t0.toNat).count i) 0 sinceNs

/-- Consecutive packets are at most 64 ticks apart. -/
def Paced (tickNs : UInt64) (times : List UInt64) : Prop :=
  times.IsChain fun t t' => t'.toNat - t.toNat ≤ 64 * tickNs.toNat

theorem paced_snoc {rest : List UInt64} :
    Paced tickNs (t0 :: (rest ++ [t])) ↔
      Paced tickNs (t0 :: rest) ∧ t.toNat - (lastTime t0 rest).toNat ≤ 64 * tickNs.toNat := by
  have hlast : (t0 :: rest).getLast? = some (lastTime t0 rest) := by
    cases rest using List.reverseRecOn with
    | nil => rfl
    | append_singleton rest u => rw [lastTime_snoc, ← List.cons_append, List.getLast?_concat]
  rw [Paced, ← List.cons_append, List.isChain_append, hlast]
  simp [Paced]

/-- What the entry of a source has in common with the reference after its last packet. -/
structure KeepsStep (cfg : RateLimitConfig) (tickNs t0 : UInt64) (rest : List UInt64)
    (entry : RateCounter) : Prop where
  counter : entry.counter =
    eagerCounter cfg tickNs t0 (t0 :: rest) ((lastTime t0 rest).toNat - t0.toNat)
  lastDecay_le : entry.lastDecayNs ≤ lastTime t0 rest
  lt_tick : (lastTime t0 rest).toNat - entry.lastDecayNs.toNat < tickNs.toNat
  ticks : ticksApplied cfg tickNs none (t0 :: rest) = ticksSince tickNs t0 (lastTime t0 rest)

theorem eagerCounter_first : eagerCounter cfg tickNs t0 [t0] (t0.toNat - t0.toNat) = 1 := by
  rw [eagerCounter, List.map_singleton, Nat.sub_self]
  rfl

theorem eagerCounter_snoc {rest : List UInt64} (hord : Ordered t0 (rest ++ [t])) :
    eagerCounter cfg tickNs t0 (t0 :: rest ++ [t]) (t.toNat - t0.toNat) =
      ((decayStep cfg.decayNum cfg.decayDen)^[ticksSince tickNs t0 t -
        ticksSince tickNs t0 (lastTime t0 rest)]
          (eagerCounter cfg tickNs t0 (t0 :: rest)
            ((lastTime t0 rest).toNat - t0.toNat))).saturatingAdd 1 := by
  rw [eagerCounter, List.map_append, List.map_singleton]
  refine eager_snoc (fun i hi => ?_) ?_
  · obtain ⟨u, hu, rfl⟩ := List.mem_map.1 hi
    exact Nat.sub_le_sub_right (UInt64.le_iff_toNat_le.1 (hord.init.le_lastTime u hu)) _
  · exact Nat.sub_le_sub_right (UInt64.le_iff_toNat_le.1 hord.lastTime_le) _

/-- A gap of 64 ticks has at most 64 of them in it, wherever it begins. -/
theorem ticksSince_le_of_gap {u : UInt64} (htick : tickNs ≠ 0) (h0 : t0 ≤ u)
    (hgap : t.toNat - u.toNat ≤ 64 * tickNs.toNat) :
    ticksSince tickNs t0 t - ticksSince tickNs t0 u ≤ 64 := by
  have hpos : 0 < tickNs.toNat := UInt64.lt_iff_toNat_lt.1 (UInt64.pos_iff_ne_zero.2 htick)
  have h0' := UInt64.le_iff_toNat_le.1 h0
  have hle : ticksSince tickNs t0 t ≤ ticksSince tickNs t0 u + 64 := by
    rw [ticksSince, ticksSince, ← Nat.add_mul_div_right _ _ hpos]
    exact Nat.div_le_div_right (by omega)
  omega

/-- The remainder that `last_decay_ns` keeps makes the lazy decays those of the reference. -/
theorem countTimes_keepsStep {rest : List UInt64} (htick : tickNs ≠ 0) (hden : cfg.decayDen ≠ 0)
    (hord : Ordered t0 rest) (hpaced : Paced tickNs (t0 :: rest)) :
    ∃ entry, countTimes cfg tickNs none (t0 :: rest) = some entry ∧
      KeepsStep cfg tickNs t0 rest entry := by
  obtain ⟨entry, hentry, hdecayed⟩ := countTimes_decayedAt htick hden hord
  have h0 := hord.le_lastTime t0 List.mem_cons_self
  suffices hstep : entry.counter =
        eagerCounter cfg tickNs t0 (t0 :: rest) ((lastTime t0 rest).toNat - t0.toNat) ∧
      ticksApplied cfg tickNs none (t0 :: rest) = ticksSince tickNs t0 (lastTime t0 rest) from
    ⟨entry, hentry, hstep.1, hdecayed.le h0, hdecayed.lt_tick htick, hstep.2⟩
  clear hdecayed h0
  induction rest using List.reverseRecOn generalizing entry with
  | nil =>
    obtain rfl := Option.some.inj hentry
    rw [lastTime_nil, eagerCounter_first, ticksSince_self]
    exact ⟨rfl, rfl⟩
  | append_singleton rest t ih =>
    obtain ⟨hpaced, hgap⟩ := paced_snoc.1 hpaced
    obtain ⟨before, hbefore, hdecayed⟩ := countTimes_decayedAt htick hden hord.init
    obtain ⟨hcounter, hticks⟩ := ih hord.init hpaced before hbefore
    have h0 := hord.init.le_lastTime t0 List.mem_cons_self
    have hfew := ticksSince_le_of_gap htick h0 hgap
    rw [← List.cons_append, countTimes_snoc, hbefore] at hentry
    obtain rfl := Option.some.inj hentry
    rw [← List.cons_append, lastTime_snoc]
    constructor
    · rw [eagerCounter_snoc hord, ← hcounter,
        (countPacket_of_decayedAt hdecayed htick hden h0 hord.lastTime_le).1, min_eq_left hfew]
    · have hmono := @ticksSince_mono tickNs t0 _ _ hord.lastTime_le
      rw [ticksApplied_snoc, hticks, hbefore, ticksOf, hdecayed.ticks htick, min_eq_left hfew]
      omega

/-! ## The entry of a source in the maps -/

/-- On maps of a kind, which it does not leave, a call counts in the entry of its own key and touches
no other. -/
def CountsCall {K C : Type} [DecidableEq K] (kind : Maps → Prop)
    (counters : Maps → LruHashMap K RateCounter) (key : C → K) (time : C → UInt64)
    (step : Maps → C → Maps) : Prop :=
  ∀ m c, kind m → kind (step m c) ∧ (step m c).rateLimitCfg = m.rateLimitCfg ∧
    counters (step m c) = (counters m).insert (key c)
      (countPacket m.rateLimitCfg (msToNs m.rateLimitCfg.tickMs) (time c) (counters m (key c)))

/-- The entry of a key depends on the calls for that key only. -/
theorem CountsCall.foldl {K C : Type} [DecidableEq K] {kind : Maps → Prop}
    {counters : Maps → LruHashMap K RateCounter} {key : C → K} {time : C → UInt64}
    {step : Maps → C → Maps} (hstep : CountsCall kind counters key time step) (calls : List C)
    {m : Maps} (k : K) (hkind : kind m) :
    counters (calls.foldl step m) k =
      countTimes m.rateLimitCfg (msToNs m.rateLimitCfg.tickMs) (counters m k)
        ((calls.filter (key · = k)).map time) := by
  induction calls generalizing m with
  | nil => rfl
  | cons c calls ih =>
    obtain ⟨hkind', hcfg, hcounters⟩ := hstep m c hkind
    rw [List.foldl_cons, ih hkind', hcfg, hcounters]
    by_cases hkey : key c = k
    · rw [List.filter_cons, if_pos (decide_eq_true hkey), List.map_cons, hkey,
        LruHashMap.insert_self]
      rfl
    · rw [List.filter_cons, if_neg (mt of_decide_eq_true hkey),
        LruHashMap.insert_of_ne _ _ (Ne.symm hkey)]

theorem CountsCall.kind_foldl {K C : Type} [DecidableEq K] {kind : Maps → Prop}
    {counters : Maps → LruHashMap K RateCounter} {key : C → K} {time : C → UInt64}
    {step : Maps → C → Maps} (hstep : CountsCall kind counters key time step) (calls : List C)
    {m : Maps} (hkind : kind m) :
    kind (calls.foldl step m) ∧ (calls.foldl step m).rateLimitCfg = m.rateLimitCfg := by
  induction calls generalizing m with
  | nil => exact ⟨hkind, rfl⟩
  | cons c calls ih =>
    obtain ⟨hkind', hcfg, -⟩ := hstep m c hkind
    rw [List.foldl_cons, ← hcfg]
    exact ih hkind'

/-- The ticks have a length. -/
def Ticking (m : Maps) : Prop := msToNs m.rateLimitCfg.tickMs ≠ 0

theorem countsCall_rateMap :
    CountsCall Ticking Maps.rateMap Prod.fst Prod.snd fun m (c : IpKey × UInt64) =>
      (updateRateCounter m c.1 c.2).2 := by
  intro m c htick
  unfold Ticking at htick ⊢
  simp only [updateRateCounter, if_neg htick]
  exact ⟨htick, trivial, trivial⟩

theorem countsCall_rateMapPort :
    CountsCall Ticking Maps.rateMapPort (fun c => { ip := c.1, dport := bswap16 c.2.1 })
      (fun c => c.2.2) fun m (c : IpKey × UInt16 × UInt64) =>
        (updateRateCounterPort m c.1 c.2.1 c.2.2).2 := by
  intro m c htick
  unfold Ticking at htick ⊢
  simp only [updateRateCounterPort, if_neg htick]
  exact ⟨htick, trivial, trivial⟩

/-- A call of `update_rate_counter` or of `update_rate_counter_port`. -/
def countCalls (m : Maps) (calls : List (IpKey × UInt64)) : Maps :=
  calls.foldl (fun m c => (updateRateCounter m c.1 c.2).2) m

def countPortCalls (m : Maps) (calls : List (IpKey × UInt16 × UInt64)) : Maps :=
  calls.foldl (fun m c => (updateRateCounterPort m c.1 c.2.1 c.2.2).2) m

/-- The times of the calls for a source, and for a source and port. -/
def timesOf (src : IpKey) (calls : List (IpKey × UInt64)) : List UInt64 :=
  (calls.filter (·.1 = src)).map (·.2)

def timesOfPort (src : IpKey) (dport : UInt16) (calls : List (IpKey × UInt16 × UInt64)) :
    List UInt64 :=
  (calls.filter fun c => c.1 = src ∧ c.2.1 = dport).map (·.2.2)

theorem countCalls_rateMap {m : Maps} (htick : msToNs m.rateLimitCfg.tickMs ≠ 0)
    (calls : List (IpKey × UInt64)) (src : IpKey) :
    (countCalls m calls).rateMap src =
      countTimes m.rateLimitCfg (msToNs m.rateLimitCfg.tickMs) (m.rateMap src)
        (timesOf src calls) :=
  countsCall_rateMap.foldl calls src htick

theorem countPortCalls_rateMapPort {m : Maps} (htick : msToNs m.rateLimitCfg.tickMs ≠ 0)
    (calls : List (IpKey × UInt16 × UInt64)) (src : IpKey) (dport : UInt16) :
    (countPortCalls m calls).rateMapPort { ip := src, dport := bswap16 dport } =
      countTimes m.rateLimitCfg (msToNs m.rateLimitCfg.tickMs)
        (m.rateMapPort { ip := src, dport := bswap16 dport }) (timesOfPort src dport calls) := by
  have hkeys : ∀ c : IpKey × UInt16 × UInt64,
      ({ ip := c.1, dport := bswap16 c.2.1 } : RateLimitPortKey) =
          { ip := src, dport := bswap16 dport } ↔ c.1 = src ∧ c.2.1 = dport := by
    intro c
    rw [RateLimitPortKey.mk.injEq]
    refine and_congr_right fun _ => ⟨fun h => ?_, congrArg bswap16⟩
    rw [← bswap16_bswap16 c.2.1, h, bswap16_bswap16]
  rw [countPortCalls, countsCall_rateMapPort.foldl calls _ htick, timesOfPort]
  simp only [hkeys]

/-- Whatever the other sources send in between, the lazy counters are those of the reference, in
RATE_MAP and in RATE_MAP_PORT. -/
theorem lazy_decay_is_eager {m : Maps} (htick : 0 < m.rateLimitCfg.tickMs)
    (hden : 0 < m.rateLimitCfg.decayDen) :
    (∀ src calls t0 rest, m.rateMap src = none → timesOf src calls = t0 :: rest →
      Ordered t0 rest → Paced (msToNs m.rateLimitCfg.tickMs) (t0 :: rest) →
        ∃ entry, (countCalls m calls).rateMap src = some entry ∧
          KeepsStep m.rateLimitCfg (msToNs m.rateLimitCfg.tickMs) t0 rest entry) ∧
      ∀ src dport calls t0 rest, m.rateMapPort { ip := src, dport := bswap16 dport } = none →
        timesOfPort src dport calls = t0 :: rest →
        Ordered t0 rest → Paced (msToNs m.rateLimitCfg.tickMs) (t0 :: rest) →
          ∃ entry, (countPortCalls m calls).rateMapPort { ip := src, dport := bswap16 dport } =
              some entry ∧
            KeepsStep m.rateLimitCfg (msToNs m.rateLimitCfg.tickMs) t0 rest entry := by
  have htick' : msToNs m.rateLimitCfg.tickMs ≠ 0 :=
    mt msToNs_eq_zero_iff.1 (UInt64.pos_iff_ne_zero.1 htick)
  have hden' := UInt64.pos_iff_ne_zero.1 hden
  constructor
  · intro src calls t0 rest hnew hown hord hpaced
    rw [countCalls_rateMap htick', hnew, hown]
    exact countTimes_keepsStep htick' hden' hord hpaced
  · intro src dport calls t0 rest hnew hown hord hpaced
    rw [countPortCalls_rateMapPort htick', hnew, hown]
    exact countTimes_keepsStep htick' hden' hord hpaced

/-- Three packets of one source, the last a tick and a half after the first. -/
theorem lazy_decay_is_eager_three :
    ∃ entry, (countCalls {} [(.fromIpv4 1, 5), (.fromIpv4 1, 6), (.fromIpv4 1, 150000005)]).rateMap
        (.fromIpv4 1) = some entry ∧
      KeepsStep {} (msToNs 100) 5 [6, 150000005] entry :=
  (lazy_decay_is_eager (by decide) (by decide)).1 (.fromIpv4 1)
    [(.fromIpv4 1, 5), (.fromIpv4 1, 6), (.fromIpv4 1, 150000005)] 5 [6, 150000005] rfl
    (by decide +kernel) (by unfold Ordered; decide +kernel) (by unfold Paced; decide +kernel)

end EShield.Ebpf
