import EShield.Ebpf.Proofs.RateDecayProofs
import EShield.Ebpf.Proofs.StageProofs

/-!
# What rate the limit allows

In the long run a counter loses `den - num` parts of `den` in each tick. A source that sends no more
than this share of the threshold stays within it, one that sends more by one packet passes over it.
-/

namespace EShield.Ebpf

/-! ## Losing a share -/

/-- What is left of the threshold after a tick and the packets of the next make no more than it. -/
theorem settles {T k num den : Nat} (hlt : num < den) (hk : k * den ≤ T * (den - num)) :
    T * num / den + k ≤ T := by
  have hden : 0 < den := by omega
  rw [← Nat.add_mul_div_right _ _ hden]
  refine Nat.div_le_of_le_mul ?_
  calc T * num + k * den ≤ T * num + T * (den - num) := Nat.add_le_add_left hk _
    _ = T * (num + (den - num)) := (Nat.mul_add _ _ _).symm
    _ = den * T := by rw [Nat.add_sub_cancel' hlt.le, Nat.mul_comm]

/-- With one packet more, a counter within the threshold ends the next tick above where it was. -/
theorem grows {T k num den x : Nat} (hlt : num < den) (hk : T * (den - num) + den ≤ k * den)
    (hx : x ≤ T) : x + 1 ≤ x * num / den + k := by
  have hden : 0 < den := by omega
  rw [← Nat.add_mul_div_right _ _ hden, Nat.le_div_iff_mul_le hden]
  calc (x + 1) * den = x * (num + (den - num)) + den := by
        rw [Nat.add_sub_cancel' hlt.le, Nat.add_mul, Nat.one_mul]
    _ = x * num + (x * (den - num) + den) := by rw [Nat.mul_add, Nat.add_assoc]
    _ ≤ x * num + (T * (den - num) + den) :=
        Nat.add_le_add_left (Nat.add_le_add_right (Nat.mul_le_mul_right _ hx) _) _
    _ ≤ x * num + k * den := Nat.add_le_add_left hk _

section

variable {decayNum decayDen counter : UInt64}

/-- A tick, when the product fits. -/
theorem decayStep_of_fits (hno : counter.toNat * decayNum.toNat < 2 ^ 64) :
    (decayStep decayNum decayDen counter).toNat =
      counter.toNat * decayNum.toNat / decayDen.toNat := by
  rw [toNat_decayStep, WrappedScale.scale, Nat.mod_eq_of_lt hno]

/-- More ticks leave no more than one does. -/
theorem iterate_decayStep_le (hlt : decayNum < decayDen) {n : Nat} (hn : 0 < n)
    (hno : counter.toNat * decayNum.toNat < 2 ^ 64) :
    ((decayStep decayNum decayDen)^[n] counter).toNat ≤
      counter.toNat * decayNum.toNat / decayDen.toNat := by
  have hlt' := UInt64.lt_iff_toNat_lt.1 hlt
  induction n, hn using Nat.le_induction generalizing counter with
  | base => exact (decayStep_of_fits hno).le
  | succ n _ ih =>
    have hstep := @decayStep_of_fits decayNum decayDen counter hno
    have hle : (decayStep decayNum decayDen counter).toNat ≤ counter.toNat := by
      rw [hstep]
      refine Nat.div_le_of_le_mul ?_
      rw [Nat.mul_comm decayDen.toNat]
      exact Nat.mul_le_mul_left _ hlt'.le
    rw [Function.iterate_succ_apply, ← hstep]
    refine (ih (lt_of_le_of_lt (Nat.mul_le_mul_right _ hle) hno)).trans ?_
    refine Nat.div_le_of_le_mul ?_
    rw [Nat.mul_comm decayDen.toNat]
    exact Nat.mul_le_mul_left _ hlt'.le

end

theorem saturatingAdd_one_le (c : UInt64) : (c.saturatingAdd 1).toNat ≤ c.toNat + 1 := by
  rw [UInt64.toNat_saturatingAdd]
  exact min_le_left _ _

/-- A count below the largest number has not been capped. -/
theorem saturatingAdd_one_of_le {c : UInt64} {T : Nat} (hT : T < 2 ^ 64 - 1)
    (h : (c.saturatingAdd 1).toNat ≤ T) : (c.saturatingAdd 1).toNat = c.toNat + 1 := by
  rw [UInt64.toNat_saturatingAdd] at h ⊢
  rcases min_choice (c.toNat + (1 : UInt64).toNat) (2 ^ 64 - 1) with heq | hcapped
  · exact heq
  · rw [hcapped] at h
    exact absurd h (Nat.not_le.2 hT)

/-! ## Packets in a tick -/

/-- `t` lies in the tick number `i` from `t0` on. -/
def InTick (tickNs t0 : UInt64) (i : Nat) (t : UInt64) : Prop :=
  t0.toNat + i * tickNs.toNat ≤ t.toNat ∧ t.toNat < t0.toNat + (i + 1) * tickNs.toNat

instance (tickNs t0 : UInt64) (i : Nat) (t : UInt64) : Decidable (InTick tickNs t0 i t) :=
  inferInstanceAs (Decidable (_ ∧ _))

/-- How many packets come in that tick. -/
def packetsIn (tickNs t0 : UInt64) (i : Nat) (times : List UInt64) : Nat :=
  times.countP (InTick tickNs t0 i ·)

variable {cfg : RateLimitConfig} {tickNs t0 t : UInt64} {i k : Nat} {rest : List UInt64}

theorem inTick_iff (htick : tickNs ≠ 0) (h0 : t0 ≤ t) :
    InTick tickNs t0 i t ↔ ticksSince tickNs t0 t = i := by
  have hpos : 0 < tickNs.toNat := UInt64.lt_iff_toNat_lt.1 (UInt64.pos_iff_ne_zero.2 htick)
  have h0' := UInt64.le_iff_toNat_le.1 h0
  have hge : i ≤ ticksSince tickNs t0 t ↔ i * tickNs.toNat ≤ t.toNat - t0.toNat :=
    Nat.le_div_iff_mul_le hpos
  have hlt : ticksSince tickNs t0 t < i + 1 ↔ t.toNat - t0.toNat < (i + 1) * tickNs.toNat :=
    Nat.div_lt_iff_lt_mul hpos
  unfold InTick
  omega

theorem packetsIn_append (times times' : List UInt64) :
    packetsIn tickNs t0 i (times ++ times') =
      packetsIn tickNs t0 i times + packetsIn tickNs t0 i times' :=
  List.countP_append

theorem packetsIn_snoc (htick : tickNs ≠ 0) (h0 : t0 ≤ t) (times : List UInt64) :
    packetsIn tickNs t0 i (times ++ [t]) =
      packetsIn tickNs t0 i times + if ticksSince tickNs t0 t = i then 1 else 0 := by
  rw [packetsIn_append, packetsIn, packetsIn, List.countP_singleton]
  simp only [decide_eq_true_eq, inTick_iff htick h0]

theorem packetsIn_eq_zero (h : ∀ u ∈ rest, ¬ InTick tickNs t0 i u) :
    packetsIn tickNs t0 i rest = 0 := by
  refine List.countP_eq_zero.2 fun u hu => ?_
  rw [decide_eq_true_eq]
  exact h u hu

/-- None of the products in a run of one source overflows. -/
def Fits (cfg : RateLimitConfig) (tickNs : UInt64) (times : List UInt64) : Prop :=
  ∀ pre, pre <+: times → ∀ entry, countTimes cfg tickNs none pre = some entry →
    entry.counter.toNat * cfg.decayNum.toNat < 2 ^ 64

theorem Fits.init {times times' : List UInt64} (h : Fits cfg tickNs (times ++ times')) :
    Fits cfg tickNs times :=
  fun pre hpre => h pre (hpre.trans (List.prefix_append _ _))

/-! ## Staying within the threshold -/

/-- After each packet the counter is at most what a tick leaves of the threshold, and the packets of
the present tick. -/
theorem countTimes_le {T : Nat} (htick : tickNs ≠ 0) (hlt : cfg.decayNum < cfg.decayDen)
    (hk : k * cfg.decayDen.toNat ≤ T * (cfg.decayDen.toNat - cfg.decayNum.toNat))
    (hord : Ordered t0 rest) (hfits : Fits cfg tickNs (t0 :: rest))
    (hrate : ∀ i, packetsIn tickNs t0 i (t0 :: rest) ≤ k) :
    ∃ entry, countTimes cfg tickNs none (t0 :: rest) = some entry ∧
      entry.counter.toNat ≤ T * cfg.decayNum.toNat / cfg.decayDen.toNat +
        packetsIn tickNs t0 (ticksSince tickNs t0 (lastTime t0 rest)) (t0 :: rest) := by
  have hden : cfg.decayDen ≠ 0 := UInt64.pos_iff_ne_zero.1 (UInt64.lt_of_le_of_lt UInt64.zero_le hlt)
  have hlt' := UInt64.lt_iff_toNat_lt.1 hlt
  induction rest using List.reverseRecOn with
  | nil =>
    have hone := packetsIn_snoc (i := 0) htick (UInt64.le_refl t0) []
    rw [ticksSince_self, if_pos rfl, List.nil_append] at hone
    refine ⟨_, rfl, ?_⟩
    rw [lastTime_nil, ticksSince_self, hone]
    exact Nat.le_trans (Nat.le_add_left 1 _) (Nat.le_add_left _ _)
  | append_singleton rest t ih =>
    have h0 := hord.init.le_lastTime t0 List.mem_cons_self
    have hle := hord.lastTime_le
    have h0t := UInt64.le_trans h0 hle
    rw [← List.cons_append] at hfits hrate ⊢
    obtain ⟨entry, hentry, hdecayed⟩ := countTimes_decayedAt htick hden hord.init
    obtain ⟨entry', hentry', hbound⟩ := ih hord.init hfits.init fun i => by
      have hi := hrate i
      rw [packetsIn_append] at hi
      omega
    obtain rfl := Option.some.inj (hentry'.symm.trans hentry)
    have hno := hfits (t0 :: rest) (List.prefix_append _ _) entry' hentry
    have hcounter := (countPacket_of_decayedAt hdecayed htick hden h0 hle).1
    refine ⟨_, by rw [countTimes_snoc, hentry], ?_⟩
    rw [hcounter, lastTime_snoc, packetsIn_snoc htick h0t, if_pos rfl, ← Nat.add_assoc]
    refine (saturatingAdd_one_le _).trans (Nat.add_le_add_right ?_ 1)
    rcases Nat.eq_or_lt_of_le (@ticksSince_mono tickNs t0 _ _ hle) with heq | hlater
    · -- the same tick: nothing decays
      rw [heq, Nat.sub_self, Nat.zero_min, Function.iterate_zero_apply, ← heq]
      exact hbound
    · -- a later tick: one decay at least, from a value within the threshold
      have hcur := hrate (ticksSince tickNs t0 (lastTime t0 rest))
      rw [packetsIn_snoc htick h0t, if_neg (by omega), Nat.add_zero] at hcur
      have hT : entry'.counter.toNat ≤ T :=
        hbound.trans ((Nat.add_le_add_left hcur _).trans (settles hlt' hk))
      refine ((iterate_decayStep_le hlt (by omega) hno).trans ?_).trans (Nat.le_add_right _ _)
      exact Nat.div_le_div_right (Nat.mul_le_mul_right _ hT)

/-! ## Passing over the threshold -/

theorem one_le_of_share {T num den : Nat} (hden : 0 < den)
    (hk : T * (den - num) + den ≤ k * den) : 1 ≤ k := by
  refine Nat.pos_of_ne_zero ?_
  rintro rfl
  rw [Nat.zero_mul] at hk
  omega

/-- As long as no tick is without packets, the packet that begins a tick is in the one next to that of
the packet before, which is complete. -/
theorem next_tick {T : Nat} (htick : tickNs ≠ 0) (hkpos : 1 ≤ k) {r post : List UInt64}
    (hord : Ordered t0 (r ++ t :: post))
    (hrate : ∀ i ≤ T, k ≤ packetsIn tickNs t0 i (t0 :: (r ++ t :: post)))
    (hlast : ticksSince tickNs t0 t ≤ T)
    (hlater : ticksSince tickNs t0 (lastTime t0 r) < ticksSince tickNs t0 t) :
    ticksSince tickNs t0 t = ticksSince tickNs t0 (lastTime t0 r) + 1 ∧
      k ≤ packetsIn tickNs t0 (ticksSince tickNs t0 (lastTime t0 r)) (t0 :: r) ∧
      packetsIn tickNs t0 (ticksSince tickNs t0 t) (t0 :: r) = 0 := by
  have hpair : (t0 :: r ++ t :: post).Pairwise (· ≤ ·) := hord
  have hinit : Ordered t0 r := (List.pairwise_append.1 hpair).1
  have hbefore : ∀ i, ticksSince tickNs t0 (lastTime t0 r) < i →
      packetsIn tickNs t0 i (t0 :: r) = 0 := by
    intro i hi
    refine packetsIn_eq_zero fun u hu hin => ?_
    rw [inTick_iff htick (hinit.first_le u hu)] at hin
    have hu' := @ticksSince_mono tickNs t0 _ _ (hinit.le_lastTime u hu)
    omega
  have hafter : ∀ i < ticksSince tickNs t0 t, packetsIn tickNs t0 i (t :: post) = 0 := by
    intro i hi
    refine packetsIn_eq_zero fun u hu hin => ?_
    rw [inTick_iff htick (hord.first_le u (List.mem_append_right (t0 :: r) hu))] at hin
    have htu : t ≤ u := by
      rcases List.mem_cons.1 hu with rfl | hu
      · exact UInt64.le_refl u
      · exact (List.pairwise_cons.1 (List.pairwise_append.1 hpair).2.1).1 u hu
    have hu' := @ticksSince_mono tickNs t0 _ _ htu
    omega
  have hall : ∀ i, packetsIn tickNs t0 i (t0 :: (r ++ t :: post)) =
      packetsIn tickNs t0 i (t0 :: r) + packetsIn tickNs t0 i (t :: post) := by
    intro i
    rw [← List.cons_append, packetsIn_append]
  refine ⟨?_, ?_, hbefore _ hlater⟩
  · by_contra hskip
    have hsome := hrate (ticksSince tickNs t0 (lastTime t0 r) + 1) (by omega)
    rw [hall, hbefore _ (by omega), hafter _ (by omega)] at hsome
    omega
  · have hfull := hrate (ticksSince tickNs t0 (lastTime t0 r)) (by omega)
    rw [hall, hafter _ hlater] at hfull
    exact hfull

/-- While the counter stays within the threshold, it gains at least one from tick to tick. -/
theorem countTimes_climbs {T : Nat} (hT : T < 2 ^ 64 - 1) (htick : tickNs ≠ 0)
    (hlt : cfg.decayNum < cfg.decayDen)
    (hk : T * (cfg.decayDen.toNat - cfg.decayNum.toNat) + cfg.decayDen.toNat ≤
      k * cfg.decayDen.toNat)
    (hord : Ordered t0 rest) (hfits : Fits cfg tickNs (t0 :: rest))
    (hrate : ∀ i ≤ T, k ≤ packetsIn tickNs t0 i (t0 :: rest))
    (hbelow : ∀ pre t post, t0 :: rest = pre ++ t :: post → ticksSince tickNs t0 t ≤ T →
      (countPacket cfg tickNs t (countTimes cfg tickNs none pre)).counter.toNat ≤ T)
    {r post : List UInt64} (hsplit : rest = r ++ post)
    (hlast : ticksSince tickNs t0 (lastTime t0 r) ≤ T) :
    ∃ entry, countTimes cfg tickNs none (t0 :: r) = some entry ∧ entry.counter.toNat ≤ T ∧
      ticksSince tickNs t0 (lastTime t0 r) + 1 +
          packetsIn tickNs t0 (ticksSince tickNs t0 (lastTime t0 r)) (t0 :: r) ≤
        entry.counter.toNat + k := by
  have hlt' := UInt64.lt_iff_toNat_lt.1 hlt
  have hden : cfg.decayDen ≠ 0 :=
    UInt64.pos_iff_ne_zero.1 (UInt64.lt_of_le_of_lt UInt64.zero_le hlt)
  have hkpos : 1 ≤ k := one_le_of_share (by omega) hk
  induction r using List.reverseRecOn generalizing post with
  | nil =>
    have hone := packetsIn_snoc (i := 0) htick (UInt64.le_refl t0) []
    rw [ticksSince_self, if_pos rfl, List.nil_append] at hone
    have hfirst := hbelow [] t0 rest rfl (by rw [ticksSince_self]; exact Nat.zero_le T)
    refine ⟨_, rfl, hfirst, ?_⟩
    rw [lastTime_nil, ticksSince_self, hone]
    show 0 + 1 + (0 + 1) ≤ 1 + k
    omega
  | append_singleton r t ih =>
    subst hsplit
    have hordt : Ordered t0 (r ++ [t]) := by
      have hpair : (t0 :: (r ++ [t]) ++ post).Pairwise (· ≤ ·) := hord
      exact (List.pairwise_append.1 hpair).1
    have h0 := hordt.init.le_lastTime t0 List.mem_cons_self
    have hle := hordt.lastTime_le
    have h0t := UInt64.le_trans h0 hle
    have hmono := @ticksSince_mono tickNs t0 _ _ hle
    rw [lastTime_snoc] at hlast ⊢
    have hsplit' : r ++ [t] ++ post = r ++ t :: post := by
      rw [List.append_assoc, List.singleton_append]
    obtain ⟨entry, hentry, hwithin, hbound⟩ := ih hsplit' (by omega)
    obtain ⟨entry', hentry', hdecayed⟩ := countTimes_decayedAt htick hden hordt.init
    obtain rfl := Option.some.inj (hentry'.symm.trans hentry)
    have hno := hfits (t0 :: r) ⟨t :: post, by rw [hsplit']; rfl⟩ entry' hentry
    have hcounter := (countPacket_of_decayedAt hdecayed htick hden h0 hle).1
    have hkept := hbelow (t0 :: r) t post (by rw [hsplit']; rfl) hlast
    rw [hentry] at hkept
    have hadd := hkept
    rw [hcounter] at hadd
    have hone := saturatingAdd_one_of_le hT hadd
    rw [← List.cons_append]
    refine ⟨_, by rw [countTimes_snoc, hentry], hkept, ?_⟩
    rw [packetsIn_snoc htick h0t, if_pos rfl, hcounter, hone]
    rcases Nat.eq_or_lt_of_le hmono with heq | hlater
    · -- the same tick: nothing decays
      rw [heq] at hbound
      rw [heq, Nat.sub_self, Nat.zero_min, Function.iterate_zero_apply]
      omega
    · -- the next tick, since every tick has packets; the last one is complete
      obtain ⟨hnext, hfull, hnone⟩ :=
        next_tick htick hkpos (hsplit' ▸ hord) (hsplit' ▸ hrate) hlast hlater
      have hgrows := grows hlt' hk hwithin
      rw [hnone, hnext, Nat.add_sub_cancel_left, show min 1 64 = 1 from rfl, Function.iterate_one,
        decayStep_of_fits hno]
      omega

/-- The packets up to the tick `T` come first. -/
theorem exists_early_part (hpair : rest.Pairwise (· ≤ ·)) (T : Nat) :
    ∃ r post, rest = r ++ post ∧ (∀ u ∈ r, ticksSince tickNs t0 u ≤ T) ∧
      ∀ u ∈ post, T < ticksSince tickNs t0 u := by
  induction rest with
  | nil => exact ⟨[], [], rfl, by simp, by simp⟩
  | cons u rest ih =>
    obtain ⟨hle, hpair⟩ := List.pairwise_cons.1 hpair
    rcases Nat.lt_or_ge T (ticksSince tickNs t0 u) with hlate | hearly
    · refine ⟨[], u :: rest, rfl, by simp, fun v hv => ?_⟩
      rcases List.mem_cons.1 hv with rfl | hv
      · exact hlate
      · exact Nat.lt_of_lt_of_le hlate (ticksSince_mono (hle v hv))
    · obtain ⟨r, post, rfl, hr, hpost⟩ := ih hpair
      refine ⟨u :: r, post, rfl, fun v hv => ?_, hpost⟩
      rcases List.mem_cons.1 hv with rfl | hv
      · exact hearly
      · exact hr v hv

/-- Too many packets in every tick: by the tick whose number is the threshold the counter has passed
it. -/
theorem countTimes_exceeds {T : Nat} (hT : T < 2 ^ 64 - 1) (htick : tickNs ≠ 0)
    (hlt : cfg.decayNum < cfg.decayDen)
    (hk : T * (cfg.decayDen.toNat - cfg.decayNum.toNat) + cfg.decayDen.toNat ≤
      k * cfg.decayDen.toNat)
    (hord : Ordered t0 rest) (hfits : Fits cfg tickNs (t0 :: rest))
    (hrate : ∀ i ≤ T, k ≤ packetsIn tickNs t0 i (t0 :: rest)) :
    ∃ pre t post, t0 :: rest = pre ++ t :: post ∧ ticksSince tickNs t0 t ≤ T ∧
      T < (countPacket cfg tickNs t (countTimes cfg tickNs none pre)).counter.toNat := by
  by_contra hnone
  have hlt' := UInt64.lt_iff_toNat_lt.1 hlt
  have hkpos : 1 ≤ k := one_le_of_share (by omega) hk
  have hbelow : ∀ pre t post, t0 :: rest = pre ++ t :: post → ticksSince tickNs t0 t ≤ T →
      (countPacket cfg tickNs t (countTimes cfg tickNs none pre)).counter.toNat ≤ T := by
    intro pre t post hsplit ht
    exact not_lt.1 fun hgt => hnone ⟨pre, t, post, hsplit, ht, hgt⟩
  obtain ⟨r, post, hsplit, hearly, hlate⟩ :=
    @exists_early_part tickNs t0 rest (List.pairwise_cons.1 hord).2 T
  have hlast : ticksSince tickNs t0 (lastTime t0 r) ≤ T := by
    cases r using List.reverseRecOn with
    | nil =>
      rw [lastTime_nil, ticksSince_self]
      exact Nat.zero_le T
    | append_singleton r t =>
      rw [lastTime_snoc]
      exact hearly t (by simp)
  obtain ⟨entry, -, hwithin, hbound⟩ :=
    countTimes_climbs hT htick hlt hk hord hfits hrate hbelow hsplit hlast
  have hinit : Ordered t0 r := by
    have hpair : (t0 :: r ++ post).Pairwise (· ≤ ·) := by
      rw [List.cons_append, ← hsplit]
      exact hord
    exact (List.pairwise_append.1 hpair).1
  have hfull : k ≤ packetsIn tickNs t0 T (t0 :: r) := by
    have hzero : packetsIn tickNs t0 T post = 0 := by
      refine packetsIn_eq_zero fun u hu hin => ?_
      have hu0 := hord.first_le u (by rw [hsplit]; exact List.mem_append_right (t0 :: r) hu)
      rw [inTick_iff htick hu0] at hin
      exact absurd (hlate u hu) (by omega)
    have hrateT := hrate T (Nat.le_refl T)
    rw [hsplit, ← List.cons_append, packetsIn_append, hzero] at hrateT
    exact hrateT
  -- the last of them lies in the tick `T`, since some do
  obtain ⟨u, hu, hin⟩ := List.countP_pos_iff.1 (Nat.lt_of_lt_of_le hkpos hfull)
  rw [decide_eq_true_eq, inTick_iff htick (hinit.first_le u hu)] at hin
  have hreached := @ticksSince_mono tickNs t0 _ _ (hinit.le_lastTime u hu)
  rw [show ticksSince tickNs t0 (lastTime t0 r) = T by omega] at hbound
  omega

/-! ## The global rate limit -/

/-- The limit is on, counts by source, and its threshold is not modulated; the fraction loses
something in every tick. -/
structure PlainLimit (m : Maps) : Prop where
  enabled : m.config.rateLimitEnabled ≠ 0
  perSource : m.config.rateLimitDportGrouping = 0
  untrusted : m.config.trustEnabled = 0
  threshold : 0 < m.rateLimitCfg.threshold
  tick : 0 < m.rateLimitCfg.tickMs
  decay : m.rateLimitCfg.decayNum < m.rateLimitCfg.decayDen

theorem PlainLimit.ticking {m : Maps} (h : PlainLimit m) : msToNs m.rateLimitCfg.tickMs ≠ 0 :=
  mt msToNs_eq_zero_iff.1 (UInt64.pos_iff_ne_zero.1 h.tick)

/-- The verdict compares the counter with the configured threshold. -/
theorem checkRateLimit_of_plain {m : Maps} (h : PlainLimit m) (src : IpKey) (dport : UInt16)
    (nowNs : UInt64) :
    let updated := countPacket m.rateLimitCfg (msToNs m.rateLimitCfg.tickMs) nowNs (m.rateMap src)
    (checkRateLimit m src dport nowNs).1 = decide (updated.counter > m.rateLimitCfg.threshold) ∧
      ∃ blacklist, (checkRateLimit m src dport nowNs).2.core =
        { m.core with rateMap := m.rateMap.insert src updated, blacklist := blacklist } := by
  dsimp only
  generalize hupdated :
    countPacket m.rateLimitCfg (msToNs m.rateLimitCfg.tickMs) nowNs (m.rateMap src) = updated
  have hcount : updateRateCounter m src nowNs =
      (some (rateUpdate { m with rateMap := m.rateMap.insert src updated } src updated),
        { m with rateMap := m.rateMap.insert src updated }) := by
    simp only [updateRateCounter, if_neg h.ticking, hupdated]
  have hthreshold : (rateUpdate { m with rateMap := m.rateMap.insert src updated } src
      updated).threshold = m.rateLimitCfg.threshold := by
    simp only [rateUpdate, effectiveThreshold, h.untrusted]
    rfl
  rw [checkRateLimit, if_neg h.enabled, if_neg (not_not.2 h.perSource)]
  dsimp only
  obtain ⟨blacklist, hcore⟩ := core_enforceRate (updateRateCounter m src nowNs) src nowNs
    rules.RATE_LIMIT (m.config.rateLimitSoft != 0)
  refine ⟨?_, blacklist, ?_⟩
  · rw [hcount, enforceRate, hthreshold]
    show (if updated.counter > _ then _ else _ : Bool × Maps).1 = _
    split
    · rename_i hover
      exact (decide_eq_true hover).symm
    · rename_i hwithin
      exact (decide_eq_false hwithin).symm
  · rw [hcore, hcount]
    rfl

theorem countsCall_checkRateLimit :
    CountsCall PlainLimit Maps.rateMap (fun c => c.1) (fun c => c.2.2)
      fun m (c : IpKey × UInt16 × UInt64) => (checkRateLimit m c.1 c.2.1 c.2.2).2 := by
  intro m c h
  obtain ⟨-, blacklist, hcore⟩ := checkRateLimit_of_plain h c.1 c.2.1 c.2.2
  have hconfig : (checkRateLimit m c.1 c.2.1 c.2.2).2.config = m.config :=
    (congrArg Maps.config hcore :)
  have hcfg : (checkRateLimit m c.1 c.2.1 c.2.2).2.rateLimitCfg = m.rateLimitCfg :=
    (congrArg Maps.rateLimitCfg hcore :)
  refine ⟨⟨?_, ?_, ?_, ?_, ?_, ?_⟩, hcfg, (congrArg Maps.rateMap hcore :)⟩
  · exact hconfig ▸ h.enabled
  · exact hconfig ▸ h.perSource
  · exact hconfig ▸ h.untrusted
  · exact hcfg ▸ h.threshold
  · exact hcfg ▸ h.tick
  · exact hcfg ▸ h.decay

/-- Calls of `check_rate_limit`, and the times of those for a source. -/
def limitCalls (m : Maps) (calls : List (IpKey × UInt16 × UInt64)) : Maps :=
  calls.foldl (fun m c => (checkRateLimit m c.1 c.2.1 c.2.2).2) m

def limitTimes (src : IpKey) (calls : List (IpKey × UInt16 × UInt64)) : List UInt64 :=
  (calls.filter (·.1 = src)).map (·.2.2)

variable {m : Maps} {src : IpKey} {calls : List (IpKey × UInt16 × UInt64)}

theorem limitCalls_rateMap (h : PlainLimit m) (calls : List (IpKey × UInt16 × UInt64))
    (src : IpKey) :
    (limitCalls m calls).rateMap src =
      countTimes m.rateLimitCfg (msToNs m.rateLimitCfg.tickMs) (m.rateMap src)
        (limitTimes src calls) :=
  countsCall_checkRateLimit.foldl calls src h

theorem limitTimes_append (pre post : List (IpKey × UInt16 × UInt64)) :
    limitTimes src (pre ++ post) = limitTimes src pre ++ limitTimes src post := by
  rw [limitTimes, List.filter_append, List.map_append]
  rfl

theorem limitTimes_cons {c : IpKey × UInt16 × UInt64} (hc : c.1 = src)
    (post : List (IpKey × UInt16 × UInt64)) :
    limitTimes src (c :: post) = c.2.2 :: limitTimes src post := by
  rw [limitTimes, List.filter_cons, if_pos (decide_eq_true hc)]
  rfl

/-- A packet of the source splits the calls where it splits the times. -/
theorem exists_call {pre post : List UInt64} (h : limitTimes src calls = pre ++ t :: post) :
    ∃ before c after, calls = before ++ c :: after ∧ c.1 = src ∧ c.2.2 = t ∧
      limitTimes src before = pre := by
  rw [limitTimes, List.map_eq_append_iff] at h
  obtain ⟨l₁, l₂, hfilter, hpre, hpost⟩ := h
  obtain ⟨before, tail, rfl, hbefore, htail⟩ := List.filter_eq_append_iff.1 hfilter
  rw [List.map_eq_cons_iff] at hpost
  obtain ⟨c, l₃, rfl, rfl, -⟩ := hpost
  obtain ⟨others, after, rfl, hothers, hc, -⟩ := List.filter_eq_cons_iff.1 htail
  refine ⟨before ++ others, c, after, by rw [List.append_assoc], of_decide_eq_true hc, rfl, ?_⟩
  have hnone : others.filter (·.1 = src) = [] := List.filter_eq_nil_iff.2 hothers
  rw [limitTimes, List.filter_append, hnone, List.append_nil, hbefore, hpre]

/-- What the products of the run of calls are is what they are for the source alone. -/
theorem fits_of_calls (h : PlainLimit m) (hnew : m.rateMap src = none)
    (hfits : ∀ pre, pre <+: calls → ∀ entry, (limitCalls m pre).rateMap src = some entry →
      entry.counter.toNat * m.rateLimitCfg.decayNum.toNat < 2 ^ 64) :
    Fits m.rateLimitCfg (msToNs m.rateLimitCfg.tickMs) (limitTimes src calls) := by
  intro pre hpre entry hentry
  obtain ⟨own, hown, rfl⟩ := List.prefix_map_iff.1 hpre
  obtain ⟨before, hbefore, rfl⟩ := List.prefix_filter_iff.1 hown
  refine hfits before hbefore entry ?_
  rw [limitCalls_rateMap h, hnew]
  exact hentry

theorem le_msToNs {ms : UInt64} (hpos : 0 < ms) : 1000000 ≤ (msToNs ms).toNat := by
  unfold msToNs
  split
  · decide
  · rename_i hsmall
    have hle : ms.toNat ≤ 18446744073709 := UInt64.le_iff_toNat_le.1 (not_lt.1 hsmall)
    have hone : 1 ≤ ms.toNat := UInt64.lt_iff_toNat_lt.1 hpos
    have hmul : (ms * 1000000).toNat = ms.toNat * 1000000 := by
      rw [UInt64.toNat_mul]
      exact Nat.mod_eq_of_lt (by simp; omega)
    rw [hmul]
    omega

/-- The clock does not reach a tick whose number is close to the largest number. -/
theorem lt_of_inTick {T : Nat} (htick : 2 ≤ tickNs.toNat) (h : InTick tickNs t0 T t) :
    T < 2 ^ 64 - 1 := by
  have hlt := t.toNat_lt
  have hle : T * 2 ≤ T * tickNs.toNat := Nat.mul_le_mul_left T htick
  have hstart : T * tickNs.toNat ≤ t.toNat := (Nat.le_add_left _ _).trans h.1
  omega

/-- The verdict on a packet of a source without an entry. -/
theorem limitCalls_verdict (hlimit : PlainLimit m) (hnew : m.rateMap src = none)
    (pre : List (IpKey × UInt16 × UInt64)) {c : IpKey × UInt16 × UInt64} (hc : c.1 = src) :
    (checkRateLimit (limitCalls m pre) c.1 c.2.1 c.2.2).1 =
      decide ((countPacket m.rateLimitCfg (msToNs m.rateLimitCfg.tickMs) c.2.2
        (countTimes m.rateLimitCfg (msToNs m.rateLimitCfg.tickMs) none
          (limitTimes src pre))).counter > m.rateLimitCfg.threshold) := by
  obtain ⟨hkind, hcfg⟩ := countsCall_checkRateLimit.kind_foldl pre hlimit
  have hcheck := (checkRateLimit_of_plain hkind c.1 c.2.1 c.2.2).1
  rw [← limitCalls] at hcheck hcfg
  rw [hcheck, hc, hcfg, limitCalls_rateMap hlimit, hnew]

/-- The packets of the source up to one of them begin with the first. -/
theorem limitTimes_upTo {pre post : List (IpKey × UInt16 × UInt64)}
    {c : IpKey × UInt16 × UInt64} (hc : c.1 = src)
    (hown : limitTimes src (pre ++ c :: post) = t0 :: rest) :
    ∃ r, limitTimes src (pre ++ [c]) = t0 :: r ∧ rest = r ++ limitTimes src post := by
  have hall : limitTimes src (pre ++ [c]) ++ limitTimes src post = t0 :: rest := by
    rw [← hown, ← limitTimes_append, List.append_assoc]
    rfl
  cases hpre : limitTimes src (pre ++ [c]) with
  | nil =>
    rw [limitTimes_append, limitTimes_cons hc] at hpre
    cases (List.append_eq_nil_iff.1 hpre).2
  | cons u r =>
    rw [hpre] at hall
    obtain ⟨rfl, hrest⟩ := List.cons.inj hall
    exact ⟨r, rfl, hrest.symm⟩

/-- A rate within the share of the threshold that a tick loses is never refused. -/
theorem admits_of_rate (hlimit : PlainLimit m) (hnew : m.rateMap src = none)
    (hown : limitTimes src calls = t0 :: rest) (hord : Ordered t0 rest)
    (hfits : Fits m.rateLimitCfg (msToNs m.rateLimitCfg.tickMs) (t0 :: rest))
    (hk : k * m.rateLimitCfg.decayDen.toNat ≤
      m.rateLimitCfg.threshold.toNat *
        (m.rateLimitCfg.decayDen.toNat - m.rateLimitCfg.decayNum.toNat))
    (hrate : ∀ i, packetsIn (msToNs m.rateLimitCfg.tickMs) t0 i (t0 :: rest) ≤ k)
    {pre post : List (IpKey × UInt16 × UInt64)} {c : IpKey × UInt16 × UInt64}
    (hsplit : calls = pre ++ c :: post) (hc : c.1 = src) :
    (checkRateLimit (limitCalls m pre) c.1 c.2.1 c.2.2).1 = false ∧
      ∃ entry, (limitCalls m (pre ++ [c])).rateMap src = some entry ∧
        entry.counter ≤ m.rateLimitCfg.threshold := by
  rw [hsplit] at hown
  obtain ⟨r, hr, rfl⟩ := limitTimes_upTo hc hown
  have hinit : Ordered t0 r := (List.pairwise_append.1 (show
    (t0 :: r ++ limitTimes src post).Pairwise (· ≤ ·) from hord)).1
  have hrate' : ∀ i, packetsIn (msToNs m.rateLimitCfg.tickMs) t0 i (t0 :: r) ≤ k := by
    intro i
    have hi := hrate i
    rw [← List.cons_append, packetsIn_append] at hi
    omega
  have hfits' : Fits m.rateLimitCfg (msToNs m.rateLimitCfg.tickMs) (t0 :: r) := by
    rw [← List.cons_append] at hfits
    exact hfits.init
  obtain ⟨entry, hentry, hbound⟩ :=
    countTimes_le hlimit.ticking hlimit.decay hk hinit hfits' hrate'
  have hwithin : entry.counter ≤ m.rateLimitCfg.threshold := by
    rw [UInt64.le_iff_toNat_le]
    refine hbound.trans ((Nat.add_le_add_left (hrate' _) _).trans ?_)
    exact settles (UInt64.lt_iff_toNat_lt.1 hlimit.decay) hk
  refine ⟨?_, entry, ?_, hwithin⟩
  · rw [← hr, limitTimes_append, limitTimes_cons hc] at hentry
    rw [limitCalls_verdict hlimit hnew pre hc]
    have hcounted := Option.some.inj ((countTimes_snoc ..).symm.trans hentry)
    rw [hcounted]
    exact decide_eq_false (UInt64.not_lt.2 hwithin)
  · rw [limitCalls_rateMap hlimit, hnew, hr]
    exact hentry

/-- One packet more in each of as many ticks as the threshold counts is refused. -/
theorem refuses_of_rate (hlimit : PlainLimit m) (hnew : m.rateMap src = none)
    (hown : limitTimes src calls = t0 :: rest) (hord : Ordered t0 rest)
    (hfits : Fits m.rateLimitCfg (msToNs m.rateLimitCfg.tickMs) (t0 :: rest))
    (hk : m.rateLimitCfg.threshold.toNat *
        (m.rateLimitCfg.decayDen.toNat - m.rateLimitCfg.decayNum.toNat) +
      m.rateLimitCfg.decayDen.toNat ≤ k * m.rateLimitCfg.decayDen.toNat)
    (hrate : ∀ i ≤ m.rateLimitCfg.threshold.toNat,
      k ≤ packetsIn (msToNs m.rateLimitCfg.tickMs) t0 i (t0 :: rest)) :
    ∃ pre c post, calls = pre ++ c :: post ∧ c.1 = src ∧
      c.2.2.toNat < t0.toNat +
        (m.rateLimitCfg.threshold.toNat + 1) * (msToNs m.rateLimitCfg.tickMs).toNat ∧
      (checkRateLimit (limitCalls m pre) c.1 c.2.1 c.2.2).1 = true := by
  have hlt := UInt64.lt_iff_toNat_lt.1 hlimit.decay
  have hkpos : 1 ≤ k := one_le_of_share (by omega) hk
  have hlong : 1000000 ≤ (msToNs m.rateLimitCfg.tickMs).toNat := le_msToNs hlimit.tick
  obtain ⟨u, hu, hin⟩ :=
    List.countP_pos_iff.1 (Nat.lt_of_lt_of_le hkpos (hrate _ (Nat.le_refl _)))
  have hT : m.rateLimitCfg.threshold.toNat < 2 ^ 64 - 1 :=
    lt_of_inTick (by omega) (of_decide_eq_true hin)
  obtain ⟨pre, t, post, hsplit, hearly, hover⟩ :=
    countTimes_exceeds hT hlimit.ticking hlimit.decay hk hord hfits hrate
  obtain ⟨before, c, after, hcalls, hc, rfl, rfl⟩ := exists_call (hown.trans hsplit)
  refine ⟨before, c, after, hcalls, hc, ?_, ?_⟩
  · have h0 : t0 ≤ c.2.2 := hord.first_le _ (by rw [hsplit]; simp)
    have hpos : 0 < (msToNs m.rateLimitCfg.tickMs).toNat := by omega
    have hdiv := (Nat.div_lt_iff_lt_mul hpos).1 (Nat.lt_succ_of_le hearly)
    have h0' := UInt64.le_iff_toNat_le.1 h0
    rw [Nat.succ_eq_add_one] at hdiv
    omega
  · rw [limitCalls_verdict hlimit hnew before hc]
    exact decide_eq_true (UInt64.lt_iff_toNat_lt.2 hover)

/-- The decay rate separates the rates that are never refused from those that are. -/
theorem rate_limit_exact {t0 : UInt64} {rest : List UInt64} (hlimit : PlainLimit m)
    (hnew : m.rateMap src = none) (hown : limitTimes src calls = t0 :: rest)
    (hord : Ordered t0 rest)
    (hfits : ∀ pre, pre <+: calls → ∀ entry, (limitCalls m pre).rateMap src = some entry →
      entry.counter.toNat * m.rateLimitCfg.decayNum.toNat < 2 ^ 64) :
    let tickNs := msToNs m.rateLimitCfg.tickMs
    let T := m.rateLimitCfg.threshold
    let num := m.rateLimitCfg.decayNum.toNat
    let den := m.rateLimitCfg.decayDen.toNat
    (∀ k, 1 ≤ k → k * den ≤ T.toNat * (den - num) →
      (∀ i, packetsIn tickNs t0 i (t0 :: rest) ≤ k) →
        ∀ pre c post, calls = pre ++ c :: post → c.1 = src →
          (checkRateLimit (limitCalls m pre) c.1 c.2.1 c.2.2).1 = false ∧
            ∃ entry, (limitCalls m (pre ++ [c])).rateMap src = some entry ∧ entry.counter ≤ T) ∧
      ∀ k, T.toNat * (den - num) + den ≤ k * den →
        (∀ i ≤ T.toNat, k ≤ packetsIn tickNs t0 i (t0 :: rest)) →
          ∃ pre c post, calls = pre ++ c :: post ∧ c.1 = src ∧
            c.2.2.toNat < t0.toNat + (T.toNat + 1) * tickNs.toNat ∧
              (checkRateLimit (limitCalls m pre) c.1 c.2.1 c.2.2).1 = true := by
  intro tickNs T num den
  have hfits' := fits_of_calls hlimit hnew hfits
  rw [hown] at hfits'
  constructor
  · intro k _ hk hrate pre c post hsplit hc
    exact admits_of_rate hlimit hnew hown hord hfits' hk hrate hsplit hc
  · intro k hk hrate
    exact refuses_of_rate hlimit hnew hown hord hfits' hk hrate

/-- A limit of one packet that halves every millisecond. -/
def halvingLimit : Maps :=
  { config := { rateLimitEnabled := 1 }
    rateLimitCfg := { threshold := 1, tickMs := 1, decayNum := 1, decayDen := 2 } }

/-- Two packets in each of two ticks. -/
def twoPerTick : List (IpKey × UInt16 × UInt64) :=
  [(.fromIpv4 1, 80, 5), (.fromIpv4 1, 80, 6), (.fromIpv4 1, 80, 1000005),
    (.fromIpv4 1, 80, 1000006)]

theorem rate_limit_exact_halving :
    ∃ pre c post, twoPerTick = pre ++ c :: post ∧ c.1 = .fromIpv4 1 ∧
      c.2.2.toNat < 2000005 ∧
        (checkRateLimit (limitCalls halvingLimit pre) c.1 c.2.1 c.2.2).1 = true := by
  have hplain : PlainLimit halvingLimit := by constructor <;> decide
  have hall : ∀ pre ∈ twoPerTick.inits,
      ∀ entry ∈ (limitCalls halvingLimit pre).rateMap (.fromIpv4 1),
        entry.counter.toNat * 1 < 2 ^ 64 := by decide +kernel
  have hexact := @rate_limit_exact halvingLimit (.fromIpv4 1) twoPerTick 5 [6, 1000005, 1000006]
    hplain rfl (by decide +kernel) (by unfold Ordered; decide +kernel)
    fun pre hpre => hall pre ((List.mem_inits _ _).2 hpre)
  exact hexact.2 2 (by decide) (by decide +kernel)

end EShield.Ebpf
