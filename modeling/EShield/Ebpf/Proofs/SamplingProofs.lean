import EShield.Ebpf.Sampling
import EShield.Lib.SampledCount

/-!
# Sampled counters

On every CPU the samples that `is_blacklisted` adds to the hit counts stand for its effective hits, and
those that `drop_packet` adds to the top attackers for its calls, up to less than one sample of sixteen.
-/

namespace EShield.Ebpf

open Exec SampledCount

/-! ## What is counted -/

/-- The hit count of each source. -/
def hitCounts (blacklist : LruHashMap IpKey BlockEntry) (k : IpKey) : Nat :=
  ((blacklist k).map fun e => e.hitCount.toNat).getD 0

/-- The drops of each source. -/
def attackerCounts (topAttackers : LruHashMap IpKey UInt64) (k : IpKey) : Nat :=
  ((topAttackers k).getD 0).toNat

/-- What has been added to the counts of all keys together. -/
noncomputable def addedTo (before after : IpKey → Nat) : Nat := finsum fun k => after k - before k

/-- The calls on a CPU that are to be counted. -/
def countedOn {Cpu : Type*} [DecidableEq Cpu] (cpu : Cpu) (calls : List (SampledCall Cpu)) : Nat :=
  calls.countP fun c => c.cpu = cpu ∧ c.counted

/-- What the calls on a CPU have added. -/
noncomputable def addedOn {Cpu : Type*} [DecidableEq Cpu] (count : Maps → IpKey → Nat) (cpu : Cpu)
    (calls : List (SampledCall Cpu)) : Nat :=
  ((calls.filter fun c => c.cpu = cpu).map fun c => addedTo (count c.before) (count c.after)).sum

/-- The next event that is counted takes a sample. -/
def SampleDue (sample : UInt32) : Prop := (sample + 1) &&& 0xf = 0

instance (sample : UInt32) : Decidable (SampleDue sample) := inferInstanceAs (Decidable (_ = _))

/-- A sample that is due does not take its counter over the end. -/
def NotSaturated {Cpu : Type*} (w : SampledPlane Cpu) : SampledLabel Cpu → Prop
  | .lookup cpu src _ => SampleDue (w.stats cpu).blacklistHitSample →
      ∀ e, w.maps.blacklist src = some e → e.hitCount.toNat + 16 < 2 ^ 32
  | .drop cpu _ pc _ => SampleDue (w.stats cpu).topAttackerSample →
      ((w.maps.topAttackers pc.src).getD 0).toNat + 16 < 2 ^ 64
  | .other _ _ => True

/-- What one call does to its sample counter and the counts. -/
def SampledStep (counted : Bool) (sample sample' : UInt32) (added : Nat) : Prop :=
  if counted then sample' = sample + 1 ∧ added = if SampleDue sample then 16 else 0
  else sample' = sample ∧ added = 0

variable {m : Maps} {src : IpKey} {nowNs : UInt64} {before after : IpKey → Nat}

theorem addedTo_self (count : IpKey → Nat) : addedTo count count = 0 := by
  rw [addedTo, finsum_eq_zero_of_forall_eq_zero fun k => Nat.sub_self _]

/-- One key at most has changed. -/
theorem addedTo_of_ne (h : ∀ k, k ≠ src → after k = before k) :
    addedTo before after = after src - before src := by
  rw [addedTo]
  refine finsum_eq_single _ src fun k hk => ?_
  rw [h k hk, Nat.sub_self]

theorem due_iff (sample : UInt32) : SampleDue sample ↔ 16 ∣ (sample.toNat + 1) % 2 ^ 32 := by
  have hmask : (0xf : UInt32).toNat = 2 ^ 4 - 1 := rfl
  have hone : (1 : UInt32).toNat = 1 := rfl
  rw [SampleDue, ← UInt32.toNat_inj, UInt32.toNat_and, hmask, Nat.and_two_pow_sub_one_eq_mod,
    UInt32.toNat_add, hone, UInt32.toNat_zero]
  exact (Nat.dvd_iff_mod_eq_zero).symm

/-! ## One call -/

theorem addedTo_remove (blacklist : LruHashMap IpKey BlockEntry) (src : IpKey) :
    addedTo (hitCounts blacklist) (hitCounts (blacklist.remove src)) = 0 := by
  have hother : ∀ k, k ≠ src → hitCounts (blacklist.remove src) k = hitCounts blacklist k := by
    intro k hk
    rw [hitCounts, hitCounts, LruHashMap.remove_of_ne _ hk]
  rw [addedTo_of_ne hother, hitCounts, LruHashMap.remove_self]
  exact Nat.zero_sub _

theorem addedTo_hit {blacklist : LruHashMap IpKey BlockEntry} {e : BlockEntry}
    (he : blacklist src = some e) (hfits : e.hitCount.toNat + 16 < 2 ^ 32) :
    addedTo (hitCounts blacklist)
      (hitCounts (blacklist.insert src { e with hitCount := e.hitCount.saturatingAdd 16 })) = 16 := by
  have hother : ∀ k, k ≠ src →
      hitCounts (blacklist.insert src { e with hitCount := e.hitCount.saturatingAdd 16 }) k =
        hitCounts blacklist k := by
    intro k hk
    rw [hitCounts, hitCounts, LruHashMap.insert_of_ne _ _ hk]
  have hsum : (e.hitCount.saturatingAdd 16).toNat = e.hitCount.toNat + 16 := by
    rw [UInt32.toNat_saturatingAdd]
    exact Nat.min_eq_left (by show _ + 16 ≤ _; omega)
  rw [addedTo_of_ne hother, hitCounts, hitCounts, LruHashMap.insert_self, he]
  show (e.hitCount.saturatingAdd 16).toNat - e.hitCount.toNat = 16
  omega

theorem addedTo_drop {topAttackers : LruHashMap IpKey UInt64}
    (hfits : ((topAttackers src).getD 0).toNat + 16 < 2 ^ 64) :
    addedTo (attackerCounts topAttackers)
      (attackerCounts (topAttackers.insert src (((topAttackers src).getD 0).saturatingAdd 16))) =
        16 := by
  have hother : ∀ k, k ≠ src →
      attackerCounts (topAttackers.insert src (((topAttackers src).getD 0).saturatingAdd 16)) k =
        attackerCounts topAttackers k := by
    intro k hk
    rw [attackerCounts, attackerCounts, LruHashMap.insert_of_ne _ _ hk]
  have hsum : (((topAttackers src).getD 0).saturatingAdd 16).toNat =
      ((topAttackers src).getD 0).toNat + 16 := by
    rw [UInt64.toNat_saturatingAdd]
    exact Nat.min_eq_left (by show _ + 16 ≤ _; omega)
  rw [addedTo_of_ne hother, attackerCounts, attackerCounts, LruHashMap.insert_self]
  show (((topAttackers src).getD 0).saturatingAdd 16).toNat - ((topAttackers src).getD 0).toNat = 16
  omega

/-- A lookup is a miss that at most removes an entry, or a hit, which takes a sample if it is due. -/
theorem isBlacklisted_cases (m : Maps) (src : IpKey) (nowNs : UInt64) :
    let r := isBlacklisted m src nowNs
    (r.1 = false ∧ r.2.globalStats = m.globalStats ∧
      (r.2.blacklist = m.blacklist ∨ r.2.blacklist = m.blacklist.remove src)) ∨
    (r.1 = true ∧ r.2.globalStats.blacklistHitSample = m.globalStats.blacklistHitSample + 1 ∧
      r.2.globalStats.topAttackerSample = m.globalStats.topAttackerSample ∧
      ∃ e, m.blacklist src = some e ∧
        r.2.blacklist = if SampleDue m.globalStats.blacklistHitSample then
            m.blacklist.insert src { e with hitCount := e.hitCount.saturatingAdd 16 }
          else m.blacklist) := by
  intro r
  have hr : r = isBlacklisted m src nowNs := rfl
  rw [isBlacklisted] at hr
  cases he : m.blacklist src with
  | none =>
    rw [he] at hr
    exact .inl ⟨congrArg Prod.fst hr, congrArg (·.2.globalStats) hr,
      .inl (congrArg (·.2.blacklist) hr)⟩
  | some e =>
    rw [he] at hr
    dsimp only at hr
    by_cases heff : EffectiveAt e.blockedUntilNs nowNs
    · rw [if_pos heff] at hr
      right
      by_cases hdue : (m.globalStats.blacklistHitSample + 1) &&& 0xf = 0
      · have hr' := hr.trans (if_pos hdue)
        rw [hr']
        exact ⟨rfl, rfl, rfl, e, rfl, (if_pos (show SampleDue _ from hdue)).symm⟩
      · have hr' := hr.trans (if_neg hdue)
        rw [hr']
        exact ⟨rfl, rfl, rfl, e, rfl, (if_neg (show ¬ SampleDue _ from hdue)).symm⟩
    · rw [if_neg heff] at hr
      rw [hr]
      exact .inl ⟨rfl, rfl, .inr rfl⟩

/-- A hit is sampled, a miss adds nothing. -/
theorem sampled_isBlacklisted (nowNs : UInt64) (hfits : SampleDue m.globalStats.blacklistHitSample →
      ∀ e, m.blacklist src = some e → e.hitCount.toNat + 16 < 2 ^ 32) :
    SampledStep (isBlacklisted m src nowNs).1 m.globalStats.blacklistHitSample
        (isBlacklisted m src nowNs).2.globalStats.blacklistHitSample
        (addedTo (hitCounts m.blacklist) (hitCounts (isBlacklisted m src nowNs).2.blacklist)) ∧
      (isBlacklisted m src nowNs).2.globalStats.topAttackerSample =
        m.globalStats.topAttackerSample := by
  rcases isBlacklisted_cases m src nowNs with
    ⟨hmiss, hstats, hmap⟩ | ⟨hhit, hsample, htop, e, he, hmap⟩
  · rw [hmiss, hstats]
    refine ⟨⟨rfl, ?_⟩, rfl⟩
    rcases hmap with hmap | hmap
    · rw [hmap, addedTo_self]
    · rw [hmap, addedTo_remove]
  · rw [hhit, hsample, hmap]
    refine ⟨⟨rfl, ?_⟩, htop⟩
    by_cases hdue : SampleDue m.globalStats.blacklistHitSample
    · rw [if_pos hdue, if_pos hdue, addedTo_hit he (hfits hdue e he)]
    · rw [if_neg hdue, if_neg hdue, addedTo_self]

/-- The part of the maps that a drop samples. -/
def sampling (m : Maps) : UInt32 × UInt32 × LruHashMap IpKey UInt64 :=
  (m.globalStats.blacklistHitSample, m.globalStats.topAttackerSample, m.topAttackers)

theorem sampling_trustDrop (m : Maps) (src : IpKey) (nowNs : UInt64) (subDivisor : UInt32) :
    sampling (trustDrop m src nowNs subDivisor) = sampling m := by
  simp only [trustDrop]
  repeat' split
  all_goals rfl

theorem sampling_emitDropEvent (h : Helpers) (pc : PacketCtx) (m : Maps) :
    sampling (emitDropEvent h pc m) = sampling m := by
  rw [emitDropEvent]
  split <;> rfl

theorem sampling_replyTcpRst (h : Helpers) (ctx : XdpContext) (m : Maps) (ipHdrLen : Nat) :
    sampling (replyTcpRst h ctx m ipHdrLen).2.2 = sampling m := by
  rw [replyTcpRst]
  split
  · cases buildRst h ctx with
    | mk built ctx => cases built <;> rfl
  · rfl

/-- Counting a source where a sample is due. -/
theorem sampling_insert (m : Maps) (src : IpKey) (due : Prop) [Decidable due] :
    sampling (if due then
        { m with
          topAttackers := m.topAttackers.insert src
            (((m.topAttackers src).getD 0).saturatingAdd 16) }
      else m) =
      ((sampling m).1, (sampling m).2.1,
        if due then
          (sampling m).2.2.insert src ((((sampling m).2.2 src).getD 0).saturatingAdd 16)
        else (sampling m).2.2) := by
  split <;> rfl

/-- The bookkeeping of a drop: its sample counter, and its source if a sample is due. -/
theorem sampling_dropPacket (h : Helpers) (s : PacketState) :
    sampling (dropPacket h s).2.maps =
      (s.maps.globalStats.blacklistHitSample, s.maps.globalStats.topAttackerSample + 1,
        if SampleDue s.maps.globalStats.topAttackerSample then
          s.maps.topAttackers.insert s.pc.src
            (((s.maps.topAttackers s.pc.src).getD 0).saturatingAdd 16)
        else s.maps.topAttackers) := by
  have hemit : ∀ m : Maps,
      sampling (if s.pc.ruleId ≠ rules.BLACKLIST then emitDropEvent h s.pc m else m) =
        sampling m := by
    intro m
    split
    · exact sampling_emitDropEvent h s.pc m
    · rfl
  simp only [dropPacket]
  split <;> simp only [sampling_replyTcpRst, hemit, sampling_insert, sampling_trustDrop] <;> rfl

/-- Every drop is sampled. -/
theorem sampled_dropPacket (h : Helpers) (s : PacketState)
    (hfits : SampleDue s.maps.globalStats.topAttackerSample →
      ((s.maps.topAttackers s.pc.src).getD 0).toNat + 16 < 2 ^ 64) :
    SampledStep true s.maps.globalStats.topAttackerSample
        (dropPacket h s).2.maps.globalStats.topAttackerSample
        (addedTo (attackerCounts s.maps.topAttackers)
          (attackerCounts (dropPacket h s).2.maps.topAttackers)) ∧
      (dropPacket h s).2.maps.globalStats.blacklistHitSample =
        s.maps.globalStats.blacklistHitSample := by
  have hsampling := sampling_dropPacket h s
  have hkept := congrArg Prod.fst hsampling
  have hsample := congrArg (·.2.1) hsampling
  have hmap := congrArg (·.2.2) hsampling
  simp only [sampling] at hkept hsample hmap
  rw [hsample, hmap]
  refine ⟨⟨rfl, ?_⟩, hkept⟩
  by_cases hdue : SampleDue s.maps.globalStats.topAttackerSample
  · rw [if_pos hdue, if_pos hdue, addedTo_drop (hfits hdue)]
  · rw [if_neg hdue, if_neg hdue, addedTo_self]

/-! ## Runs -/

section Runs

variable {Cpu : Type*} [DecidableEq Cpu] {w w' : SampledPlane Cpu} {a : SampledLabel Cpu}
  {calls : List (SampledCall Cpu)} {cpu : Cpu}

/-- On every CPU both sample counters stand where its calls have taken them, and the samples have been
added. -/
structure SamplesConserved (start : Cpu → GlobalStats) (w : SampledPlane Cpu) : Prop where
  hits : ∀ cpu, StandsFor (2 ^ 32) 16 (start cpu).blacklistHitSample.toNat (countedOn cpu w.lookups)
    (w.stats cpu).blacklistHitSample.toNat (addedOn (fun m => hitCounts m.blacklist) cpu w.lookups)
  drops : ∀ cpu, StandsFor (2 ^ 32) 16 (start cpu).topAttackerSample.toNat (countedOn cpu w.drops)
    (w.stats cpu).topAttackerSample.toNat (addedOn (fun m => attackerCounts m.topAttackers) cpu w.drops)

/-- A call on the CPU. -/
theorem counted_append {start : Nat} {sample sample' : UInt32} {count : Maps → IpKey → Nat}
    (hcounted : StandsFor (2 ^ 32) 16 start (countedOn cpu calls) sample.toNat
      (addedOn count cpu calls))
    {c : SampledCall Cpu} (hcpu : c.cpu = cpu)
    (hcall : SampledStep c.counted sample sample' (addedTo (count c.before) (count c.after))) :
    StandsFor (2 ^ 32) 16 start (countedOn cpu (calls ++ [c])) sample'.toNat
      (addedOn count cpu (calls ++ [c])) := by
  have htotal : addedOn count cpu (calls ++ [c]) =
      addedOn count cpu calls + addedTo (count c.before) (count c.after) := by
    simp [addedOn, hcpu]
  have hnumber : countedOn cpu (calls ++ [c]) = countedOn cpu calls + if c.counted then 1 else 0 := by
    simp [countedOn, List.countP_append, List.countP_singleton, hcpu]
  rw [htotal, hnumber]
  rw [SampledStep] at hcall
  cases hc : c.counted with
  | false =>
    rw [hc] at hcall
    obtain ⟨hsample, hadded⟩ := hcall
    rw [hsample, hadded]
    exact hcounted
  | true =>
    rw [hc] at hcall
    obtain ⟨hsample, hadded⟩ := hcall
    have hnext : (sample + 1).toNat = (sample.toNat + 1) % 2 ^ 32 := UInt32.toNat_add _ _
    rw [hsample, hadded, hnext, if_congr (due_iff sample) rfl rfl]
    exact hcounted.succ (by decide)

/-- A call on another CPU. -/
theorem counted_append_of_ne {start sample : Nat} {count : Maps → IpKey → Nat}
    (hcounted : StandsFor (2 ^ 32) 16 start (countedOn cpu calls) sample (addedOn count cpu calls))
    {c : SampledCall Cpu} (hcpu : c.cpu ≠ cpu) :
    StandsFor (2 ^ 32) 16 start (countedOn cpu (calls ++ [c])) sample
      (addedOn count cpu (calls ++ [c])) := by
  have htotal : addedOn count cpu (calls ++ [c]) = addedOn count cpu calls := by
    simp [addedOn, hcpu]
  have hnumber : countedOn cpu (calls ++ [c]) = countedOn cpu calls := by
    simp [countedOn, List.countP_append, hcpu]
  rw [htotal, hnumber]
  exact hcounted

variable {start : Cpu → Nat} {stats : Cpu → GlobalStats} {stats' : GlobalStats}
  {count : Maps → IpKey → Nat} (sample : GlobalStats → UInt32)

/-- A call, seen from all CPUs. -/
theorem counted_call (count : Maps → IpKey → Nat)
    (hcounted : ∀ cpu, StandsFor (2 ^ 32) 16 (start cpu) (countedOn cpu calls)
      (sample (stats cpu)).toNat (addedOn count cpu calls))
    {c : SampledCall Cpu}
    (hcall : SampledStep c.counted (sample (stats c.cpu)) (sample stats')
      (addedTo (count c.before) (count c.after))) (cpu : Cpu) :
    StandsFor (2 ^ 32) 16 (start cpu) (countedOn cpu (calls ++ [c]))
      (sample (Function.update stats c.cpu stats' cpu)).toNat (addedOn count cpu (calls ++ [c])) := by
  by_cases hcpu : c.cpu = cpu
  · subst hcpu
    rw [Function.update_self]
    exact counted_append (hcounted c.cpu) rfl hcall
  · rw [Function.update_of_ne (Ne.symm hcpu)]
    exact counted_append_of_ne (hcounted cpu) hcpu

/-- A step that leaves the sample counter of its CPU alone. -/
theorem counted_kept
    (hcounted : ∀ cpu, StandsFor (2 ^ 32) 16 (start cpu) (countedOn cpu calls)
      (sample (stats cpu)).toNat (addedOn count cpu calls))
    {c : Cpu} (hkept : sample stats' = sample (stats c)) (cpu : Cpu) :
    StandsFor (2 ^ 32) 16 (start cpu) (countedOn cpu calls)
      (sample (Function.update stats c stats' cpu)).toNat (addedOn count cpu calls) := by
  by_cases hcpu : c = cpu
  · subst hcpu
    rw [Function.update_self, hkept]
    exact hcounted c
  · rw [Function.update_of_ne (Ne.symm hcpu)]
    exact hcounted cpu

theorem SamplesConserved.step {start : Cpu → GlobalStats} (h : SamplesConserved start w)
    (hsat : NotSaturated w a) (hstep : sampledStep w a = some w') : SamplesConserved start w' := by
  cases a with
  | lookup c src nowNs =>
    obtain rfl := Option.some.inj hstep
    obtain ⟨hcall, hkept⟩ := sampled_isBlacklisted (m := w.mapsOn c) nowNs hsat
    exact {
      hits := counted_call (·.blacklistHitSample) (fun m => hitCounts m.blacklist) h.hits hcall
      drops := counted_kept (·.topAttackerSample) h.drops hkept }
  | drop c helpers pc ctx =>
    obtain rfl := Option.some.inj hstep
    obtain ⟨hcall, hkept⟩ :=
      sampled_dropPacket helpers { pc := pc, maps := w.mapsOn c, ctx := ctx } hsat
    exact {
      hits := counted_kept (·.blacklistHitSample) h.hits hkept
      drops := counted_call (·.topAttackerSample) (fun m => attackerCounts m.topAttackers) h.drops
        hcall }
  | other maps stats =>
    obtain rfl := Option.some.inj hstep
    exact ⟨h.hits, h.drops⟩

end Runs

end EShield.Ebpf
