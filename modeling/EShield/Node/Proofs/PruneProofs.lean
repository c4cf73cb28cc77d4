import EShield.Lib.Silent
import EShield.Node.Proofs.AdaptiveProofs

/-!
# Pruning is not seen by the decisions

What `prune` removes no later call counts: the window of a call forgets an event by the comparison by
which pruning does, and a block that is over does not stop a call. So a run decides as it does without
its prunes, as long as no map is over the hard limit. No run blocks below the threshold.
-/

namespace EShield.Node

open Ebpf (LruHashMap)
open Exec SlidingWindow

variable {engine : AdaptiveEngine} {blacklist : LruHashMap IpKey BlockEntry} {srcIp key : IpKey}
  {count nowS untilReadNs nowNs windowS : UInt64} {w w' u : AdaptiveRun}

/-! ## What a call decides -/

/-- The call takes its events into the window. -/
def Counted (engine : AdaptiveEngine) (srcIp : IpKey) (count nowS : UInt64) : Prop :=
  count ≠ 0 ∧ engine.config.enabled = true ∧ ¬ Ignores engine srcIp nowS

instance (engine : AdaptiveEngine) (srcIp : IpKey) (count nowS : UInt64) :
    Decidable (Counted engine srcIp count nowS) :=
  inferInstanceAs (Decidable (_ ∧ _ ∧ _))

/-- The weight that a call compares with the threshold. -/
def total (engine : AdaptiveEngine) (srcIp : IpKey) (count nowS : UInt64) : UInt64 :=
  ((pushEvents (engine.windows srcIp) engine.config.windowS nowS count).map Prod.snd).sum

/-- The second until which the engine remembers a block. -/
def blockEndS (config : AdaptiveConfig) (nowS : UInt64) : UInt64 :=
  if config.blockDurationS = 0 then 0xffffffffffffffff
  else nowS.saturatingAdd config.blockDurationS

/-- The block that a call makes, if any: its expiry in the map and in the engine. -/
def decision (engine : AdaptiveEngine) (srcIp : IpKey) (count nowS untilReadNs : UInt64) :
    Option (UInt64 × UInt64) :=
  if Counted engine srcIp count nowS ∧ total engine srcIp count nowS ≥ engine.config.threshold then
    some (blockUntil untilReadNs engine.config.blockDurationS, blockEndS engine.config nowS)
  else none

/-- A call does what it decides. -/
theorem onEvents_eq :
    onEvents engine blacklist srcIp count nowS untilReadNs nowNs =
      if Counted engine srcIp count nowS then
        ({ engine with
            windows := Function.update engine.windows srcIp
              (pushEvents (engine.windows srcIp) engine.config.windowS nowS count)
            blocked := (decision engine srcIp count nowS untilReadNs).elim engine.blocked
              fun d => Function.update engine.blocked srcIp (some d.2) },
          (decision engine srcIp count nowS untilReadNs).elim blacklist fun _ =>
            adaptiveBlock blacklist srcIp engine.config.blockDurationS untilReadNs nowNs)
      else (engine, blacklist) := by
  by_cases hcounted : Counted engine srcIp count nowS
  · obtain ⟨hcount, hon, hnot⟩ := id hcounted
    have hskip : ¬ (count = 0 ∨ (!engine.config.enabled) = true) := by
      rw [hon]
      exact fun h => h.elim hcount nofun
    have hfree : ¬ ∃ until_ ∈ engine.blocked srcIp, until_ > nowS := hnot
    rw [if_pos hcounted]
    simp only [onEvents, if_neg hskip, if_neg hfree]
    by_cases htotal : total engine srcIp count nowS ≥ engine.config.threshold
    · have hblocks : decision engine srcIp count nowS untilReadNs =
          some (blockUntil untilReadNs engine.config.blockDurationS,
            blockEndS engine.config nowS) := if_pos ⟨hcounted, htotal⟩
      rw [hblocks]
      exact if_pos htotal
    · have hnone : decision engine srcIp count nowS untilReadNs = none :=
        if_neg fun h => htotal h.2
      rw [hnone]
      exact if_neg htotal
  · rw [if_neg hcounted]
    by_cases hon : engine.config.enabled = true
    · refine onEvents_of_ignored ?_
      by_contra hnot
      rw [not_or] at hnot
      exact hcounted ⟨hnot.1, hon, hnot.2⟩
    · unfold onEvents
      dsimp only
      rw [if_pos (.inr (by simpa using hon))]

/-! ## The hard limit -/

def AdaptiveEngine.MAX_ENTRIES : Nat := 100000

/-- One of the maps is over the hard limit. -/
def OverLimit (engine : AdaptiveEngine) : Prop :=
  AdaptiveEngine.MAX_ENTRIES < {key | engine.windows key ≠ []}.encard ∨
    AdaptiveEngine.MAX_ENTRIES < {key | engine.blocked key ≠ none}.encard

/-- The loop of `prune`: while a map is over the limit, a key of the larger one is evicted. -/
def EvictsToLimit (engine : AdaptiveEngine) : List IpKey → Prop
  | [] => ¬ OverLimit engine
  | key :: evicted =>
    OverLimit engine ∧
      (if {key | engine.blocked key ≠ none}.encard ≤ {key | engine.windows key ≠ []}.encard then
        engine.windows key ≠ []
      else engine.blocked key ≠ none) ∧
      EvictsToLimit (evict engine key) evicted

/-- A call of `prune` evicts as its loop does. -/
def PrunesToLimit (w : AdaptiveRun) : AdaptiveLabel → Prop
  | .prune nowS evicted => EvictsToLimit (prune w.engine nowS []) evicted
  | _ => True

def WithinLimit (w : AdaptiveRun) (_ : AdaptiveLabel) : Prop := ¬ OverLimit w.engine

/-- A prune brings no map over the limit. -/
theorem within_prune (hwithin : ¬ OverLimit engine) : ¬ OverLimit (prune engine nowS []) := by
  intro hover
  refine hwithin ?_
  rcases hover with hover | hover
  · refine .inl (hover.trans_le (Set.encard_le_encard fun key hkey => ?_))
    intro hnone
    refine hkey ?_
    simp only [prune, List.foldl_nil, hnone, ite_self]
  · refine .inr (hover.trans_le (Set.encard_le_encard fun key hkey => ?_))
    intro hnone
    refine hkey ?_
    simp only [prune, List.foldl_nil, hnone, Option.filter_none]

/-- What is within the limit before a prune evicts nothing in it. -/
theorem evicts_nothing {evicted : List IpKey} (hwithin : ¬ OverLimit engine)
    (hevicts : EvictsToLimit (prune engine nowS []) evicted) : evicted = [] := by
  cases evicted with
  | nil => rfl
  | cons key evicted => exact absurd hevicts.1 (within_prune hwithin)

/-- A single source is within the limit. -/
theorem within_of_single (key : IpKey)
    (h : ∀ k, k ≠ key → engine.windows k = [] ∧ engine.blocked k = none) :
    ¬ OverLimit engine := by
  have hsmall : ∀ s : Set IpKey, s ⊆ {key} → ¬ (AdaptiveEngine.MAX_ENTRIES : ℕ∞) < s.encard := by
    intro s hs hlt
    have hone := hlt.trans_le ((Set.encard_le_encard hs).trans (Set.encard_singleton key).le)
    exact absurd hone (by decide)
  rintro (hover | hover)
  · refine hsmall _ (fun k hk => ?_) hover
    by_contra hne
    exact hk (h k hne).1
  · refine hsmall _ (fun k hk => ?_) hover
    by_contra hne
    exact hk (h k hne).2

/-! ## Two runs -/

/-- The events of a window that count at `nowS`. -/
def liveEvents (windowS nowS : UInt64) (window : List (UInt64 × UInt64)) :
    List (UInt64 × UInt64) :=
  window.filter fun e => nowS.saturatingSub e.1 ≤ windowS

/-- What has left the window stays out of it. -/
theorem liveEvents_liveEvents {t : UInt64} (hle : nowS ≤ t) (window : List (UInt64 × UInt64)) :
    liveEvents windowS t (liveEvents windowS nowS window) = liveEvents windowS t window := by
  rw [liveEvents, liveEvents, List.filter_filter, liveEvents]
  refine List.filter_congr fun e _ => ?_
  have hlater : t.saturatingSub e.1 ≤ windowS → nowS.saturatingSub e.1 ≤ windowS := by
    rw [alive_iff, alive_iff]
    have := UInt64.le_iff_toNat_le.1 hle
    omega
  rw [← Bool.decide_and, decide_eq_decide]
  exact and_iff_left_of_imp hlater

theorem pushEvents_congr {a b : List (UInt64 × UInt64)}
    (h : liveEvents windowS nowS a = liveEvents windowS nowS b) :
    pushEvents a windowS nowS count = pushEvents b windowS nowS count := by
  unfold liveEvents at h
  unfold pushEvents
  rw [h]

/-- The run `u` without prunes decides from now on as the run `w` with them. -/
structure SameDecisions (w u : AdaptiveRun) : Prop where
  config_eq : u.engine.config = w.engine.config
  blacklist_eq : u.blacklist = w.blacklist
  clock : u.clockS ≤ w.clockS
  windows : ∀ key t, w.clockS ≤ t →
    liveEvents w.engine.config.windowS t (u.engine.windows key) =
      liveEvents w.engine.config.windowS t (w.engine.windows key)
  ignores : ∀ key t, w.clockS ≤ t → (Ignores u.engine key t ↔ Ignores w.engine key t)

theorem sameDecisions_refl (w : AdaptiveRun) : SameDecisions w w :=
  ⟨rfl, rfl, UInt64.le_refl _, fun _ _ _ => rfl, fun _ _ _ => Iff.rfl⟩

/-- The source that a call blocks, with the expiries. -/
def decided (w : AdaptiveRun) : AdaptiveLabel → Option (IpKey × Option (UInt64 × UInt64))
  | .events srcIp count nowS untilReadNs _ =>
    some (srcIp, decision w.engine srcIp count nowS untilReadNs)
  | _ => none

def AdaptiveLabel.isPrune : AdaptiveLabel → Bool
  | .prune _ _ => true
  | _ => false

theorem decision_congr (h : SameDecisions w u) (hclock : w.clockS ≤ nowS) :
    decision u.engine srcIp count nowS untilReadNs =
      decision w.engine srcIp count nowS untilReadNs := by
  have hcounted : Counted u.engine srcIp count nowS ↔ Counted w.engine srcIp count nowS := by
    unfold Counted
    rw [h.config_eq, h.ignores srcIp nowS hclock]
  have htotal : total u.engine srcIp count nowS = total w.engine srcIp count nowS := by
    unfold total
    rw [h.config_eq, pushEvents_congr (h.windows srcIp nowS hclock)]
  unfold decision
  rw [htotal, h.config_eq]
  simp only [hcounted]

theorem clock_of_events
    (hstep : adaptiveStep w (.events srcIp count nowS untilReadNs nowNs) = some w') :
    w.clockS ≤ nowS ∧
      w'.engine = (onEvents w.engine w.blacklist srcIp count nowS untilReadNs nowNs).1 ∧
      w'.blacklist = (onEvents w.engine w.blacklist srcIp count nowS untilReadNs nowNs).2 ∧
      w'.clockS = nowS := by
  rw [adaptiveStep] at hstep
  split at hstep
  · cases hstep
  · rename_i hclock
    cases hstep
    exact ⟨UInt64.not_lt.1 hclock, rfl, rfl, rfl⟩

/-- A prune that evicts nothing is not seen. -/
theorem sameDecisions_prune {evicted : List IpKey} (h : SameDecisions w u)
    (hwithin : WithinLimit w (.prune nowS evicted))
    (hprunes : PrunesToLimit w (.prune nowS evicted))
    (hstep : adaptiveStep w (.prune nowS evicted) = some w') : SameDecisions w' u := by
  obtain rfl := evicts_nothing hwithin hprunes
  cases hstep
  have hclock' := (le_of_max_le (UInt64.le_refl (max w.clockS nowS))).1
  refine ⟨h.config_eq, h.blacklist_eq, UInt64.le_trans h.clock hclock', ?_, ?_⟩
  · intro key t ht
    obtain ⟨hclock, hnow⟩ := le_of_max_le ht
    have hsame := h.windows key t hclock
    dsimp only [prune, List.foldl_nil]
    split
    · exact hsame
    · -- Nothing in the window is alive, now or later.
      rename_i hstale
      have hdead : liveEvents w.engine.config.windowS nowS (w.engine.windows key) = [] := by
        refine List.filter_eq_nil_iff.2 fun e he halive => hstale ?_
        exact List.any_eq_true.2 ⟨e, he, halive⟩
      rw [hsame, ← liveEvents_liveEvents hnow, hdead]
  · intro key t ht
    obtain ⟨hclock, hnow⟩ := le_of_max_le ht
    rw [h.ignores key t hclock]
    unfold Ignores
    dsimp only [prune, List.foldl_nil]
    constructor
    · rintro ⟨until_, hmem, hlater⟩
      refine ⟨until_, ?_, hlater⟩
      refine Option.mem_filter_iff.2 ⟨hmem, decide_eq_true ?_⟩
      exact UInt64.not_le.2 (UInt64.lt_of_le_of_lt hnow hlater)
    · rintro ⟨until_, hmem, hlater⟩
      exact ⟨until_, (Option.mem_filter_iff.1 hmem).1, hlater⟩

/-- The windows and blocks after a call, of runs that decide alike. -/
theorem sameDecisions_events (h : SameDecisions w u)
    (hstep : adaptiveStep w (.events srcIp count nowS untilReadNs nowNs) = some w') :
    ∃ u', adaptiveStep u (.events srcIp count nowS untilReadNs nowNs) = some u' ∧
      SameDecisions w' u' := by
  obtain ⟨hclock, hengine, hmap, hclock'⟩ := clock_of_events hstep
  have hgoes : ¬ nowS < u.clockS := UInt64.not_lt.2 (UInt64.le_trans h.clock hclock)
  have hu : ∃ u', adaptiveStep u (.events srcIp count nowS untilReadNs nowNs) = some u' := by
    rw [adaptiveStep, if_neg hgoes]
    exact ⟨_, rfl⟩
  obtain ⟨u', hu'⟩ := hu
  obtain ⟨-, hengine', hmap', hclock''⟩ := clock_of_events hu'
  have hdecision : decision u.engine srcIp count nowS untilReadNs =
      decision w.engine srcIp count nowS untilReadNs := decision_congr h hclock
  have hcounted : Counted u.engine srcIp count nowS ↔ Counted w.engine srcIp count nowS := by
    unfold Counted
    rw [h.config_eq, h.ignores srcIp nowS hclock]
  refine ⟨u', hu', ?_⟩
  rw [onEvents_eq] at hengine hmap hengine' hmap'
  by_cases hboth : Counted w.engine srcIp count nowS
  · rw [if_pos hboth] at hengine hmap
    rw [if_pos (hcounted.2 hboth), hdecision, h.config_eq] at hengine' hmap'
    have hpush : pushEvents (u.engine.windows srcIp) w.engine.config.windowS nowS count =
        pushEvents (w.engine.windows srcIp) w.engine.config.windowS nowS count :=
      pushEvents_congr (h.windows srcIp nowS hclock)
    refine ⟨by rw [hengine, hengine'], ?_, by rw [hclock', hclock''], ?_, ?_⟩
    · rw [hmap, hmap', h.blacklist_eq]
    · intro key t ht
      rw [hclock'] at ht
      rw [hengine, hengine']
      dsimp only
      by_cases hkey : key = srcIp
      · rw [hkey, Function.update_self, Function.update_self, hpush]
      · rw [Function.update_of_ne hkey, Function.update_of_ne hkey]
        exact h.windows key t (UInt64.le_trans hclock ht)
    · intro key t ht
      rw [hclock'] at ht
      have hbefore := h.ignores key t (UInt64.le_trans hclock ht)
      rw [hengine, hengine']
      unfold Ignores at hbefore ⊢
      dsimp only
      cases decision w.engine srcIp count nowS untilReadNs with
      | none => exact hbefore
      | some d =>
        dsimp only [Option.elim_some]
        by_cases hkey : key = srcIp
        · rw [hkey, Function.update_self, Function.update_self]
        · rw [Function.update_of_ne hkey, Function.update_of_ne hkey]
          exact hbefore
  · rw [if_neg hboth] at hengine hmap
    rw [if_neg fun hu => hboth (hcounted.1 hu)] at hengine' hmap'
    refine ⟨?_, ?_, by rw [hclock', hclock''], ?_, ?_⟩
    · rw [hengine, hengine', h.config_eq]
    · rw [hmap, hmap', h.blacklist_eq]
    · intro key t ht
      rw [hclock'] at ht
      rw [hengine, hengine']
      exact h.windows key t (UInt64.le_trans hclock ht)
    · intro key t ht
      rw [hclock'] at ht
      rw [hengine, hengine']
      exact h.ignores key t (UInt64.le_trans hclock ht)

theorem sameDecisions_step {l : AdaptiveLabel} (h : SameDecisions w u)
    (hl : l.isPrune = false) (hstep : adaptiveStep w l = some w') :
    decided w l = decided u l ∧ ∃ u', adaptiveStep u l = some u' ∧ SameDecisions w' u' := by
  cases l with
  | events srcIp count nowS untilReadNs nowNs =>
    have hclock := (clock_of_events hstep).1
    exact ⟨congrArg (fun d => some (srcIp, d)) (decision_congr h hclock).symm,
      sameDecisions_events h hstep⟩
  | prune => cases hl
  | unblock key =>
    cases hstep
    refine ⟨rfl, _, rfl, h.config_eq, ?_, h.clock, h.windows, h.ignores⟩
    exact congrArg (fun m : LruHashMap IpKey BlockEntry => m.remove key) h.blacklist_eq
  | rewrite blacklist =>
    cases hstep
    exact ⟨rfl, _, rfl, h.config_eq, rfl, h.clock, h.windows, h.ignores⟩

/-! ## No block below the threshold -/

/-- The windows weigh no more than the events that the engine has kept. -/
def WeighsKept (w : AdaptiveRun) : Prop :=
  ∀ key t, w.clockS.toNat ≤ t →
    weight w.engine.config.windowS.toNat t (weighed (w.engine.windows key)) ≤
      weight w.engine.config.windowS.toNat t (w.kept key)

/-- A source is blocked only if its events in the window reach the threshold with this call. -/
def BlocksAtThreshold (w : AdaptiveRun) : AdaptiveLabel → Prop
  | .events srcIp count nowS untilReadNs _ =>
    w.clockS ≤ nowS → (decision w.engine srcIp count nowS untilReadNs).isSome →
      w.engine.config.threshold.toNat ≤
        weight w.engine.config.windowS.toNat nowS.toNat
          (w.kept srcIp ++ [(nowS.toNat, count.toNat)])
  | _ => True

/-- Saturating counts weigh no more than the events. -/
theorem weight_pushEvents_le (window : List (UInt64 × UInt64)) {t : Nat} (hle : nowS.toNat ≤ t) :
    weight windowS.toNat t (weighed (pushEvents window windowS nowS count)) ≤
      weight windowS.toNat t (weighed window ++ [(nowS.toNat, count.toNat)]) := by
  have hlive : weight windowS.toNat t (weighed window) =
      weight windowS.toNat t
        (weighed (window.filter fun e => nowS.saturatingSub e.1 ≤ windowS)) := by
    rw [weighed_filter, weight_filter hle]
  rw [weight_append, hlive]
  unfold pushEvents
  dsimp only
  generalize (window.filter fun e => nowS.saturatingSub e.1 ≤ windowS) = live
  cases hlast : live.getLast? with
  | none =>
    rw [List.getLast?_eq_none_iff.1 hlast]
    exact le_of_eq (Nat.zero_add _).symm
  | some last =>
    dsimp only
    by_cases hsame : last.1 = nowS
    · have hsplit := List.dropLast_append_getLast? last hlast
      have hsum : (last.2.saturatingAdd count).toNat ≤ last.2.toNat + count.toNat := by
        rw [UInt64.toNat_saturatingAdd]
        omega
      rw [if_pos hsame]
      conv_rhs => rw [← hsplit]
      simp only [weighed, List.map_append, List.map_cons, List.map_nil, weight_append,
        weight_singleton, hsame]
      split
      · omega
      · omega
    · rw [if_neg hsame]
      simp only [weighed, List.map_append, List.map_cons, List.map_nil, weight_append]
      exact le_refl _

/-- The sum of the counts wraps, so it is no more than the weight of the window with the call. -/
theorem total_le (engine : AdaptiveEngine) (srcIp : IpKey) (count nowS : UInt64) :
    (total engine srcIp count nowS).toNat ≤
      weight engine.config.windowS.toNat nowS.toNat
        (weighed (engine.windows srcIp) ++ [(nowS.toNat, count.toNat)]) := by
  have hall : ∀ e ∈ weighed (pushEvents (engine.windows srcIp) engine.config.windowS nowS count),
      nowS.toNat - e.1 ≤ engine.config.windowS.toNat := by
    intro pair hpair
    obtain ⟨e, he, rfl⟩ := List.mem_map.1 hpair
    unfold pushEvents at he
    dsimp only at he
    split at he
    · split at he
      · rcases List.mem_append.1 he with he | he
        · exact alive_iff.1 (of_decide_eq_true (List.mem_filter.1 (List.mem_of_mem_dropLast he)).2)
        · rw [List.mem_singleton.1 he]
          dsimp only
          omega
      · rcases List.mem_append.1 he with he | he
        · exact alive_iff.1 (of_decide_eq_true (List.mem_filter.1 he).2)
        · rw [List.mem_singleton.1 he]
          dsimp only
          omega
    · rw [List.mem_singleton.1 he]
      dsimp only
      omega
  have hsum : (total engine srcIp count nowS).toNat ≤
      ((weighed (pushEvents (engine.windows srcIp) engine.config.windowS nowS count)).map
        Prod.snd).sum := by
    rw [total, toNat_sum]
    refine (Nat.mod_le _ _).trans (le_of_eq ?_)
    simp only [weighed, List.map_map]
    rfl
  refine hsum.trans ((le_of_eq ?_).trans (weight_pushEvents_le _ le_rfl))
  rw [weight, List.filter_eq_self.2 fun e he => decide_eq_true (hall e he)]

theorem weighsKept_new (config : AdaptiveConfig) (blacklist : LruHashMap IpKey BlockEntry) :
    WeighsKept { engine := .new config, blacklist := blacklist } :=
  fun _ _ _ => le_rfl

theorem weighsKept_step {l : AdaptiveLabel} (h : WeighsKept w) (hstep : adaptiveStep w l = some w') :
    WeighsKept w' := by
  cases l with
  | events srcIp count nowS untilReadNs nowNs =>
    have hclock := (clock_of_events hstep).1
    rw [adaptiveStep, if_neg (UInt64.not_lt.2 hclock)] at hstep
    cases hstep
    intro key t ht
    have hlater : w.clockS.toNat ≤ t := (UInt64.le_iff_toNat_le.1 hclock).trans ht
    have hbefore := h key t hlater
    -- What the run keeps of the batch weighs no less than before.
    have hkept : weight w.engine.config.windowS.toNat t (w.kept key) ≤
        weight w.engine.config.windowS.toNat t
          ((if Ignores w.engine srcIp nowS then w.kept
            else Function.update w.kept srcIp (w.kept srcIp ++ [(nowS.toNat, count.toNat)])) key) := by
      split
      · exact le_rfl
      · by_cases hkey : key = srcIp
        · rw [hkey, Function.update_self, weight_append]
          exact Nat.le_add_right _ _
        · rw [Function.update_of_ne hkey]
    dsimp only
    rw [config_onEvents]
    rw [onEvents_eq]
    by_cases hcounted : Counted w.engine srcIp count nowS
    · rw [if_pos hcounted, if_neg hcounted.2.2]
      dsimp only
      by_cases hkey : key = srcIp
      · rw [hkey, Function.update_self, Function.update_self]
        rw [hkey] at hbefore
        refine (weight_pushEvents_le _ ht).trans ?_
        rw [weight_append, weight_append]
        exact Nat.add_le_add_right hbefore _
      · rw [Function.update_of_ne hkey, Function.update_of_ne hkey]
        exact hbefore
    · rw [if_neg hcounted]
      exact hbefore.trans hkept
  | prune nowS evicted =>
    cases hstep
    intro key t ht
    dsimp only at ht ⊢
    obtain ⟨hclock, hnow⟩ := toNat_le_of_max_le ht
    rw [config_prune, weight_prune w.engine evicted key hnow]
    split
    · exact Nat.zero_le _
    · exact h key t hclock
  | unblock key =>
    cases hstep
    exact h
  | rewrite blacklist =>
    cases hstep
    exact h

theorem blocksAtThreshold (h : WeighsKept w) (l : AdaptiveLabel) : BlocksAtThreshold w l := by
  cases l with
  | prune | unblock | rewrite => trivial
  | events srcIp count nowS untilReadNs nowNs =>
    intro hclock hblocks
    have hreached : total w.engine srcIp count nowS ≥ w.engine.config.threshold := by
      by_contra hbelow
      rw [decision, if_neg fun hboth => hbelow hboth.2] at hblocks
      cases hblocks
    refine (UInt64.le_iff_toNat_le.1 hreached).trans ((total_le _ _ _ _).trans ?_)
    rw [weight_append, weight_append]
    exact Nat.add_le_add_right (h srcIp _ (UInt64.le_iff_toNat_le.1 hclock)) _

/-- In every run each call blocks only sources whose kept events of the last `window_s` seconds, its
own among them, reach the threshold. And if no map is ever over the hard limit, the run without its
prunes can be taken as well, blocks the same sources at the same calls with the same expiries, and
leaves the same map. -/
theorem pruning_keeps_decisions {config : AdaptiveConfig}
    {blacklist : LruHashMap IpKey BlockEntry} {labels : List AdaptiveLabel}
    (hrun : exec adaptiveStep { engine := .new config, blacklist := blacklist } labels = some w) :
    Along adaptiveStep BlocksAtThreshold
        { engine := .new config, blacklist := blacklist } labels ∧
      (Along adaptiveStep PrunesToLimit { engine := .new config, blacklist := blacklist } labels →
        Along adaptiveStep WithinLimit { engine := .new config, blacklist := blacklist } labels →
        ∃ u, exec adaptiveStep { engine := .new config, blacklist := blacklist }
              (labels.filter fun l => !l.isPrune) = some u ∧
          u.blacklist = w.blacklist ∧
          outputs adaptiveStep decided { engine := .new config, blacklist := blacklist }
              (labels.filter fun l => !l.isPrune) =
            outputs adaptiveStep decided { engine := .new config, blacklist := blacklist }
              labels) := by
  constructor
  · refine (Along.congr (c := fun _ _ => True) (e := fun _ _ => True)
      (fun w l w' h _ _ hstep => weighsKept_step h hstep)
      (fun w l h _ => iff_of_true (blocksAtThreshold h l) trivial)
      (weighsKept_new config blacklist) (along_of_forall (fun _ _ => trivial) _ _)).2 ?_
    exact along_of_forall (fun _ _ => trivial) _ _
  · intro hprunes hwithin
    obtain ⟨u, hu, hsame, houts⟩ := @exec_filter_silent _ _ _ adaptiveStep decided
      SameDecisions _ AdaptiveLabel.isPrune
      (fun w u l w' hsame hc hprune hstep => by
        cases l with
        | prune nowS evicted => exact ⟨sameDecisions_prune hsame hc.2 hc.1 hstep, rfl⟩
        | events | unblock | rewrite => cases hprune)
      (fun w u l w' hsame _ hl hstep => sameDecisions_step hsame hl hstep)
      _ _ _ _ (sameDecisions_refl _) (hprunes.and hwithin) hrun
    exact ⟨u, hu, hsame.blacklist_eq, houts⟩

/-- A source is blocked at second 100, and a prune follows three seconds later. -/
def prunedRun : List AdaptiveLabel :=
  [.events (.fromIpv4 1) 10 100 100000000000 100000000000, .prune 103 []]

theorem pruning_keeps_decisions_once :
    (exec adaptiveStep { engine := .new tenInFive } prunedRun).isSome ∧
      outputs adaptiveStep decided { engine := .new tenInFive }
        (prunedRun.filter fun l => !l.isPrune) =
          [(.fromIpv4 1, some (400000000000, 400))] := by
  have hfirst : ¬ OverLimit (AdaptiveEngine.new tenInFive) :=
    within_of_single (.fromIpv4 1) fun _ _ => ⟨rfl, rfl⟩
  have hsecond : ¬ OverLimit (onEvents (.new tenInFive) .empty (.fromIpv4 1) 10 100 100000000000
      100000000000).1 := by
    refine within_of_single (.fromIpv4 1) fun k hk => ?_
    rw [onEvents_eq, if_pos (by decide +kernel), show decision (.new tenInFive) (.fromIpv4 1) 10 100
      100000000000 = some (400000000000, 400) by decide +kernel]
    exact ⟨Function.update_of_ne hk _ _, Function.update_of_ne hk _ _⟩
  obtain ⟨-, hkeeps⟩ := @pruning_keeps_decisions _ tenInFive .empty prunedRun rfl
  obtain ⟨u, -, -, houts⟩ := hkeeps
    (.cons rfl trivial (.cons rfl (within_prune hsecond) trivial))
    (.cons rfl hfirst (.cons rfl hsecond trivial))
  exact ⟨rfl, houts.trans (by decide +kernel)⟩

end EShield.Node
