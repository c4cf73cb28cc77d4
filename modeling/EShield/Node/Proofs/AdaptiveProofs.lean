import EShield.Common.Proofs.PureProofs
import EShield.Lib.SlidingWindow
import EShield.Node.Adaptive

/-!
# Adaptive blocking is complete but for what the engine forgets

The window of a source weighs what its events do that the engine has neither ignored nor evicted. So a
source that is due is blocked exactly if those events reach the threshold on their own and the engine
does not hold the source for blocked, which an unblock does not change.
-/

namespace EShield.Node

open Ebpf (LruHashMap Blacklisted mergeInto)
open Exec SlidingWindow

variable {engine : AdaptiveEngine} {blacklist : LruHashMap IpKey BlockEntry} {srcIp key : IpKey}
  {count nowS untilReadNs nowNs : UInt64} {w w' : AdaptiveRun}

/-! ## The window of a source -/

/-- The window as seconds and counts. -/
def weighed (window : List (UInt64 × UInt64)) : List (Nat × Nat) :=
  window.map fun e => (e.1.toNat, e.2.toNat)

theorem alive_iff {windowS : UInt64} {e : UInt64 × UInt64} :
    nowS.saturatingSub e.1 ≤ windowS ↔ nowS.toNat - e.1.toNat ≤ windowS.toNat := by
  rw [UInt64.le_iff_toNat_le, UInt64.toNat_saturatingSub]

theorem weighed_filter (window : List (UInt64 × UInt64)) (windowS nowS : UInt64) :
    weighed (window.filter fun e => nowS.saturatingSub e.1 ≤ windowS) =
      (weighed window).filter fun e => nowS.toNat - e.1 ≤ windowS.toNat := by
  rw [weighed, weighed, List.filter_map]
  congr 1
  refine List.filter_congr fun e _ => ?_
  simp only [Function.comp_apply, alive_iff]

/-- No count in the window is more than the weight of the window. -/
theorem le_weight_of_mem {width now : Nat} {events : List (Nat × Nat)} {e : Nat × Nat}
    (he : e ∈ events.filter fun e => now - e.1 ≤ width) : e.2 ≤ weight width now events :=
  List.le_sum_of_mem (List.mem_map_of_mem he)

theorem weighed_pushEvents {window : List (UInt64 × UInt64)} {windowS : UInt64}
    (hfits : weight windowS.toNat nowS.toNat (weighed window) + count.toNat < 2 ^ 64) :
    weighed (pushEvents window windowS nowS count) =
      push windowS.toNat nowS.toNat count.toNat (weighed window) := by
  have hle : ∀ e ∈ weighed (window.filter fun e => nowS.saturatingSub e.1 ≤ windowS),
      e.2 + count.toNat < 2 ^ 64 := by
    intro e he
    rw [weighed_filter] at he
    exact lt_of_le_of_lt (Nat.add_le_add_right (le_weight_of_mem he) _) hfits
  simp only [pushEvents, push]
  rw [← weighed_filter]
  generalize (window.filter fun e => nowS.saturatingSub e.1 ≤ windowS) = kept at hle
  have hlast : (weighed kept).getLast? = kept.getLast?.map fun e => (e.1.toNat, e.2.toNat) :=
    List.getLast?_map
  rw [hlast]
  cases hkept : kept.getLast? with
  | none => rfl
  | some last =>
    dsimp only [Option.map_some]
    have hmem : (last.1.toNat, last.2.toNat) ∈ weighed kept :=
      List.mem_map_of_mem (List.mem_of_getLast? hkept)
    by_cases hsame : last.1 = nowS
    · rw [if_pos hsame, if_pos (congrArg UInt64.toNat hsame)]
      have hsum : (last.2.saturatingAdd count).toNat = last.2.toNat + count.toNat := by
        rw [UInt64.toNat_saturatingAdd]
        have := hle _ hmem
        omega
      simp only [weighed, List.map_append, List.map_dropLast, List.map_cons, List.map_nil, hsum]
    · rw [if_neg hsame, if_neg fun h => hsame (UInt64.toNat_inj.1 h)]
      simp only [weighed, List.map_append, List.map_cons, List.map_nil]

theorem toNat_sum (counts : List UInt64) :
    counts.sum.toNat = (counts.map UInt64.toNat).sum % 2 ^ 64 := by
  induction counts with
  | nil => rfl
  | cons c counts ih =>
    rw [List.sum_cons, List.map_cons, List.sum_cons, UInt64.toNat_add, ih, Nat.add_mod_mod]

/-- The total that is compared with the threshold. -/
theorem toNat_total {window : List (UInt64 × UInt64)} {windowS : UInt64}
    (hfits : weight windowS.toNat nowS.toNat (weighed window) + count.toNat < 2 ^ 64) :
    ((pushEvents window windowS nowS count).map Prod.snd).sum.toNat =
      weight windowS.toNat nowS.toNat (weighed window) + count.toNat := by
  have hmap : ((pushEvents window windowS nowS count).map Prod.snd).map UInt64.toNat =
      (weighed (pushEvents window windowS nowS count)).map Prod.snd := by
    simp only [weighed, List.map_map]
    rfl
  have hweight : weight windowS.toNat nowS.toNat
      (push windowS.toNat nowS.toNat count.toNat (weighed window)) =
        weight windowS.toNat nowS.toNat (weighed window) + count.toNat := by
    rw [weight_push (Nat.le_refl _), weight_append, weight_singleton, if_pos (by omega)]
  rw [toNat_sum, hmap, weighed_pushEvents hfits, sum_push, hweight, Nat.mod_eq_of_lt hfits]

/-! ## One call -/

theorem onEvents_of_ignored (hnot : count = 0 ∨ Ignores engine srcIp nowS) :
    onEvents engine blacklist srcIp count nowS untilReadNs nowNs = (engine, blacklist) := by
  unfold onEvents
  dsimp only
  split
  · rfl
  · rename_i hcounted
    exact if_pos (hnot.resolve_left fun hzero => hcounted (.inl hzero))

/-- A batch that is counted goes into the window, and at the threshold the source is blocked. -/
theorem onEvents_of_counted (hon : engine.config.enabled = true) (hcount : count ≠ 0)
    (hnot : ¬ Ignores engine srcIp nowS) :
    let window := pushEvents (engine.windows srcIp) engine.config.windowS nowS count
    let r := onEvents engine blacklist srcIp count nowS untilReadNs nowNs
    r.1.config = engine.config ∧
      r.1.windows = Function.update engine.windows srcIp window ∧
      r.2 =
        if (window.map Prod.snd).sum ≥ engine.config.threshold then
          adaptiveBlock blacklist srcIp engine.config.blockDurationS untilReadNs nowNs
        else blacklist := by
  have hcounted : ¬ (count = 0 ∨ (!engine.config.enabled) = true) := by
    rw [hon]
    exact fun h => h.elim hcount nofun
  have hnone : ¬ ∃ until_ ∈ engine.blocked srcIp, until_ > nowS := hnot
  simp only [onEvents, if_neg hcounted, if_neg hnone]
  split
  · exact ⟨rfl, rfl, rfl⟩
  · exact ⟨rfl, rfl, rfl⟩

theorem config_onEvents :
    (onEvents engine blacklist srcIp count nowS untilReadNs nowNs).1.config = engine.config := by
  unfold onEvents
  dsimp only
  split
  · rfl
  · split
    · rfl
    · split
      · rfl
      · rfl

/-- From the time of the block on, it is in force if the old entry or the new block is. -/
theorem blacklisted_adaptiveBlock {durationS t : UInt64} (hle : nowNs ≤ t) :
    Blacklisted (adaptiveBlock blacklist srcIp durationS untilReadNs nowNs) srcIp t ↔
      Blacklisted blacklist srcIp t ∨ EffectiveAt (blockUntil untilReadNs durationS) t := by
  unfold Blacklisted adaptiveBlock mergeInto
  rw [← effectiveAt_mergeBlockEntry hle]
  constructor
  · rintro ⟨e, he, heff⟩
    rw [LruHashMap.insert_self] at he
    cases he
    exact heff
  · exact fun heff => ⟨_, LruHashMap.insert_self _ _ _, heff⟩

/-! ## Pruning -/

theorem foldl_evict (engine : AdaptiveEngine) (evicted : List IpKey) :
    (evicted.foldl evict engine).config = engine.config ∧
      ∀ key, (evicted.foldl evict engine).windows key =
        if key ∈ evicted then [] else engine.windows key := by
  induction evicted generalizing engine with
  | nil => exact ⟨rfl, fun key => by rw [if_neg List.not_mem_nil]; rfl⟩
  | cons k evicted ih =>
    obtain ⟨hconfig, hwindows⟩ := ih (evict engine k)
    refine ⟨hconfig, fun key => ?_⟩
    rw [List.foldl_cons, hwindows key, evict]
    by_cases hrest : key ∈ evicted
    · rw [if_pos hrest, if_pos (List.mem_cons_of_mem k hrest)]
    · rw [if_neg hrest]
      by_cases hk : key = k
      · rw [hk, if_pos List.mem_cons_self]
        exact Function.update_self _ _ _
      · rw [if_neg fun hmem => (List.mem_cons.1 hmem).elim hk hrest]
        exact Function.update_of_ne hk _ _

theorem config_prune (engine : AdaptiveEngine) (nowS : UInt64) (evicted : List IpKey) :
    (prune engine nowS evicted).config = engine.config :=
  (foldl_evict _ evicted).1

/-- Pruning takes out of the windows nothing that counts later on. -/
theorem weight_prune (engine : AdaptiveEngine) (evicted : List IpKey) (key : IpKey) {t : Nat}
    (hle : nowS.toNat ≤ t) :
    weight engine.config.windowS.toNat t (weighed ((prune engine nowS evicted).windows key)) =
      if key ∈ evicted then 0
      else weight engine.config.windowS.toNat t (weighed (engine.windows key)) := by
  unfold prune
  rw [(foldl_evict _ evicted).2 key]
  split
  · rfl
  · dsimp only
    split
    · rfl
    · rename_i hstale
      refine (weight_eq_zero hle ?_).symm
      rintro _ hmem hin
      obtain ⟨e, he, rfl⟩ := List.mem_map.1 hmem
      refine hstale (List.any_eq_true.2 ⟨e, he, decide_eq_true ?_⟩)
      exact alive_iff.2 hin

/-! ## Runs -/

/-- The windows weigh what the events do that the engine has kept. -/
structure KeepsWeight (config : AdaptiveConfig) (w : AdaptiveRun) : Prop where
  config_eq : w.engine.config = config
  windows : ∀ key t, w.clockS.toNat ≤ t →
    weight config.windowS.toNat t (weighed (w.engine.windows key)) =
      weight config.windowS.toNat t (w.kept key)

/-- The events of a batch and those kept of its window are less than `2 ^ 64`. -/
def CountFits (w : AdaptiveRun) : AdaptiveLabel → Prop
  | .events srcIp count nowS _ _ =>
    weight w.engine.config.windowS.toNat nowS.toNat (w.kept srcIp) + count.toNat < 2 ^ 64
  | _ => True

theorem keepsWeight_new (config : AdaptiveConfig) (blacklist : LruHashMap IpKey BlockEntry) :
    KeepsWeight config { engine := .new config, blacklist := blacklist } :=
  ⟨rfl, fun _ _ _ => rfl⟩

variable {config : AdaptiveConfig}

/-- The clock after a prune is behind neither. -/
theorem le_of_max_le {a b t : UInt64} (h : max a b ≤ t) : a ≤ t ∧ b ≤ t := by
  rw [show max a b = if a ≤ b then b else a from rfl] at h
  split at h
  · rename_i hle
    exact ⟨UInt64.le_trans hle h, h⟩
  · rename_i hgt
    exact ⟨h, UInt64.le_trans (UInt64.le_of_lt (UInt64.not_le.1 hgt)) h⟩

theorem toNat_le_of_max_le {a b : UInt64} {t : Nat} (h : (max a b).toNat ≤ t) :
    a.toNat ≤ t ∧ b.toNat ≤ t := by
  obtain ⟨ha, hb⟩ := le_of_max_le (UInt64.le_refl (max a b))
  exact ⟨(UInt64.le_iff_toNat_le.1 ha).trans h, (UInt64.le_iff_toNat_le.1 hb).trans h⟩

/-- A batch: its source keeps it if it is counted, every other source keeps what it had. -/
theorem keepsWeight_events {srcIp : IpKey} {count nowS untilReadNs nowNs : UInt64}
    (hon : config.enabled = true) (hkeeps : KeepsWeight config w)
    (hfits : CountFits w (.events srcIp count nowS untilReadNs nowNs))
    (hstep : adaptiveStep w (.events srcIp count nowS untilReadNs nowNs) = some w') :
    KeepsWeight config w' := by
  rw [adaptiveStep] at hstep
  split at hstep
  · cases hstep
  rename_i hclock
  cases hstep
  refine ⟨config_onEvents.trans hkeeps.config_eq, fun key t ht => ?_⟩
  dsimp only at ht ⊢
  have hlater : w.clockS.toNat ≤ t :=
    (UInt64.le_iff_toNat_le.1 (UInt64.not_lt.1 hclock)).trans ht
  have hbefore := hkeeps.windows key t hlater
  by_cases hignored : Ignores w.engine srcIp nowS
  · rw [onEvents_of_ignored (.inr hignored), if_pos hignored]
    exact hbefore
  rw [if_neg hignored]
  by_cases hkey : key = srcIp
  · subst hkey
    rw [Function.update_self, weight_append, ← hbefore]
    by_cases hzero : count = 0
    · rw [onEvents_of_ignored (.inl hzero), hzero, UInt64.toNat_zero, weight_singleton, ite_self]
      rfl
    · obtain ⟨-, hwindows, -⟩ := @onEvents_of_counted w.engine w.blacklist key count nowS
        untilReadNs nowNs (hkeeps.config_eq ▸ hon) hzero hignored
      have hweight := hkeeps.windows key nowS.toNat
        (UInt64.le_iff_toNat_le.1 (UInt64.not_lt.1 hclock))
      rw [CountFits, hkeeps.config_eq, ← hweight] at hfits
      rw [hwindows, Function.update_self, hkeeps.config_eq, weighed_pushEvents hfits,
        weight_push ht, weight_append]
  · rw [Function.update_of_ne hkey]
    by_cases hzero : count = 0
    · rw [onEvents_of_ignored (.inl hzero)]
      exact hbefore
    · obtain ⟨-, hwindows, -⟩ := @onEvents_of_counted w.engine w.blacklist srcIp count nowS
        untilReadNs nowNs (hkeeps.config_eq ▸ hon) hzero hignored
      rw [hwindows, Function.update_of_ne hkey]
      exact hbefore

theorem keepsWeight_step (hon : config.enabled = true) {l : AdaptiveLabel}
    (hkeeps : KeepsWeight config w)
    (hfits : CountFits w l) (hstep : adaptiveStep w l = some w') : KeepsWeight config w' := by
  cases l with
  | events srcIp count nowS untilReadNs nowNs => exact keepsWeight_events hon hkeeps hfits hstep
  | prune nowS evicted =>
    cases hstep
    refine ⟨(config_prune _ _ _).trans hkeeps.config_eq, fun key t ht => ?_⟩
    dsimp only at ht ⊢
    obtain ⟨hclock, hnow⟩ := toNat_le_of_max_le ht
    have hprune := weight_prune w.engine evicted key hnow
    rw [hkeeps.config_eq] at hprune
    rw [hprune]
    split
    · rfl
    · exact hkeeps.windows key t hclock
  | unblock key =>
    cases hstep
    exact ⟨hkeeps.config_eq, hkeeps.windows⟩
  | rewrite blacklist =>
    cases hstep
    exact ⟨hkeeps.config_eq, hkeeps.windows⟩

/-! ## Completeness -/

/-- The call finds no entry of the source in force and, with its own batch, the threshold reached in the
window; the block it would make is not over at once. -/
structure Due (w : AdaptiveRun) (srcIp : IpKey) (count nowS untilReadNs nowNs : UInt64) : Prop where
  counted : count ≠ 0
  clock : w.clockS ≤ nowS
  free : ¬ Blacklisted w.blacklist srcIp nowNs
  reached : w.engine.config.threshold.toNat ≤
    weight w.engine.config.windowS.toNat nowS.toNat
      (w.seen srcIp ++ [(nowS.toNat, count.toNat)])
  lasts : EffectiveAt (blockUntil untilReadNs w.engine.config.blockDurationS) nowNs

/-- A source that is due is blocked for the configured time. -/
def BlocksDue (w : AdaptiveRun) : AdaptiveLabel → Prop
  | .events srcIp count nowS untilReadNs nowNs =>
    Due w srcIp count nowS untilReadNs nowNs →
      ∀ t, nowNs ≤ t → EffectiveAt (blockUntil untilReadNs w.engine.config.blockDurationS) t →
        Blacklisted (onEvents w.engine w.blacklist srcIp count nowS untilReadNs nowNs).2 srcIp t
  | _ => True

/-- The engine does not hold a source that is due for blocked, and has kept enough of its events. -/
def RemembersDue (w : AdaptiveRun) : AdaptiveLabel → Prop
  | .events srcIp count nowS untilReadNs nowNs =>
    Due w srcIp count nowS untilReadNs nowNs →
      ¬ Ignores w.engine srcIp nowS ∧
        w.engine.config.threshold.toNat ≤
          weight w.engine.config.windowS.toNat nowS.toNat
            (w.kept srcIp ++ [(nowS.toNat, count.toNat)])
  | _ => True

theorem blocksDue_iff (hon : config.enabled = true) {l : AdaptiveLabel}
    (hkeeps : KeepsWeight config w) (hfits : CountFits w l) : BlocksDue w l ↔ RemembersDue w l := by
  cases l with
  | prune | unblock | rewrite => exact Iff.rfl
  | events srcIp count nowS untilReadNs nowNs =>
    refine forall_congr' fun hdue => ?_
    by_cases hignored : Ignores w.engine srcIp nowS
    · -- the map stays as it is, without an entry
      rw [onEvents_of_ignored (.inr hignored)]
      refine iff_of_false (fun hblocks => ?_) fun hremembers => hremembers.1 hignored
      exact hdue.free (hblocks nowNs (UInt64.le_refl _) hdue.lasts)
    obtain ⟨-, -, hmap⟩ := @onEvents_of_counted w.engine w.blacklist srcIp count nowS untilReadNs nowNs
      (hkeeps.config_eq ▸ hon) hdue.counted hignored
    have hweight := hkeeps.windows srcIp nowS.toNat (UInt64.le_iff_toNat_le.1 hdue.clock)
    rw [← hkeeps.config_eq] at hweight
    rw [CountFits, ← hweight] at hfits
    have htotal := toNat_total hfits
    have hkept : weight w.engine.config.windowS.toNat nowS.toNat
        (w.kept srcIp ++ [(nowS.toNat, count.toNat)]) =
          ((pushEvents (w.engine.windows srcIp) w.engine.config.windowS nowS count).map
            Prod.snd).sum.toNat := by
      rw [htotal, hweight, weight_append, weight_singleton, if_pos (by omega)]
    rw [hmap, hkept, ← UInt64.le_iff_toNat_le]
    by_cases hreached : (((pushEvents (w.engine.windows srcIp) w.engine.config.windowS nowS count).map
        Prod.snd).sum ≥ w.engine.config.threshold)
    · rw [if_pos hreached]
      refine iff_of_true (fun t ht heff => ?_) ⟨hignored, hreached⟩
      exact (blacklisted_adaptiveBlock ht).2 (.inr heff)
    · rw [if_neg hreached]
      refine iff_of_false (fun hblocks => ?_) fun hremembers => hreached hremembers.2
      exact hdue.free (hblocks nowNs (UInt64.le_refl _) hdue.lasts)

/-- In a run whose weighted counts fit, every source that is due is blocked exactly if the engine never
holds one for blocked, nor has ignored or evicted events without which it is not due. -/
theorem adaptive_complete_iff (hon : config.enabled = true)
    (blacklist : LruHashMap IpKey BlockEntry) {labels : List AdaptiveLabel}
    (hfits : Along adaptiveStep CountFits { engine := .new config, blacklist := blacklist } labels) :
    Along adaptiveStep BlocksDue { engine := .new config, blacklist := blacklist } labels ↔
      Along adaptiveStep RemembersDue { engine := .new config, blacklist := blacklist } labels :=
  Along.congr (fun _ _ _ hkeeps hfits _ => keepsWeight_step hon hkeeps hfits)
    (fun _ _ hkeeps => blocksDue_iff hon hkeeps) (keepsWeight_new config blacklist) hfits

/-- Ten events in five seconds block for five minutes. -/
def tenInFive : AdaptiveConfig :=
  { enabled := true, threshold := 10, windowS := 5, blockDurationS := 300 }

/-- Ten events, an unblock by the operator, and ten events again when the engine no longer remembers its
block: the source is due both times, and blocked. -/
theorem adaptive_complete_iff_unblocked :
    let labels : List AdaptiveLabel :=
      [.events (.fromIpv4 1) 10 100 100000000000 100000000000, .unblock (.fromIpv4 1),
        .events (.fromIpv4 1) 10 401 401000000000 401000000000]
    Along adaptiveStep RemembersDue { engine := .new tenInFive } labels ∧
      Along adaptiveStep BlocksDue { engine := .new tenInFive } labels ∧
      (exec adaptiveStep { engine := .new tenInFive } labels).map
        (fun w => decide (Blacklisted w.blacklist (.fromIpv4 1) 401000000000)) = some true := by
  intro labels
  have hfits : Along adaptiveStep CountFits { engine := .new tenInFive } labels :=
    .cons rfl (show _ + _ < 2 ^ 64 by decide +kernel)
      (.cons rfl trivial (.cons rfl (show _ + _ < 2 ^ 64 by decide +kernel) trivial))
  have hremembers : Along adaptiveStep RemembersDue { engine := .new tenInFive } labels :=
    .cons rfl (fun _ => ⟨by decide +kernel, by decide +kernel⟩)
      (.cons rfl trivial (.cons rfl (fun _ => ⟨by decide +kernel, by decide +kernel⟩) trivial))
  refine ⟨hremembers, (adaptive_complete_iff rfl .empty hfits).2 hremembers, ?_⟩
  decide +kernel

/-- Ten events, an unblock by the operator, and ten events again a hundred seconds later. -/
def unblockedRun : List AdaptiveLabel :=
  [.events (.fromIpv4 1) 10 100 100000000000 100000000000, .unblock (.fromIpv4 1),
    .events (.fromIpv4 1) 10 200 200000000000 200000000000]

/-- An unblocked source is not blocked again while the engine remembers the block. -/
theorem unblocked_source_is_ignored :
    ¬ Along adaptiveStep BlocksDue { engine := .new tenInFive } unblockedRun := by
  rintro ⟨-, hrest⟩
  obtain ⟨-, hrest⟩ := hrest _ rfl
  obtain ⟨hblocks, -⟩ := hrest _ rfl
  have hblocked := hblocks
    ⟨by decide, by decide +kernel, by decide +kernel, by decide +kernel, by decide +kernel⟩
    200000000000 (by decide) (by decide +kernel)
  exact absurd hblocked (by decide +kernel)

end EShield.Node
