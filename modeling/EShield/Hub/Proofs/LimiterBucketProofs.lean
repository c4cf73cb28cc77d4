import EShield.Hub.Limiter

/-!
# The hub's limiter against the ideal bucket

A refill adds whole tokens and restarts the clock of the bucket, so the fraction of a token since the
last refill is lost. The limiter grants what the ideal bucket grants in the runs in which no refill
loses one: what it adds is whole, or fills the bucket. What it grants in an interval is bounded in every
run.
-/

namespace EShield.Hub

open Exec TokenBucket

variable {l : RateLimiter} {bucket : UInt64 × UInt64} {now : UInt64} {w w' : LimiterRun}

/-! ## One refill -/

/-- What a bucket has gained since its last refill, in parts of a token. -/
def gained (ratePerS : UInt64) (bucket : UInt64 × UInt64) (now : UInt64) : Nat :=
  (now.toNat - bucket.2.toNat) * ratePerS.toNat

/-- The refill loses no fraction of a token: there is no whole token to add, or the bucket gets full,
or the gain is a whole number of tokens that fits in a word. -/
def RefillsExactly (l : RateLimiter) (bucket : UInt64 × UInt64) (now : UInt64) : Prop :=
  gained l.ratePerS bucket now < NS_PER_S ∨
    l.burst.toNat ≤ bucket.1.toNat + gained l.ratePerS bucket now / NS_PER_S % 2 ^ 64 ∨
    NS_PER_S ∣ gained l.ratePerS bucket now ∧ gained l.ratePerS bucket now / NS_PER_S < 2 ^ 64

theorem refill_of_none {ratePerS burst : UInt64}
    (h : gained ratePerS bucket now / NS_PER_S % 2 ^ 64 = 0) :
    RateLimiter.refill ratePerS burst bucket now = bucket := by
  have hnone : ¬ (0 : UInt64) < .ofNat (gained ratePerS bucket now / NS_PER_S) := by
    rw [UInt64.lt_iff_toNat_lt, UInt64.toNat_ofNat', h]
    exact Nat.lt_irrefl 0
  unfold gained at hnone
  unfold RateLimiter.refill
  dsimp only
  rw [UInt64.toNat_saturatingSub, if_neg hnone, ite_self]

theorem refill_of_some {ratePerS burst : UInt64}
    (h : gained ratePerS bucket now / NS_PER_S % 2 ^ 64 ≠ 0) :
    (RateLimiter.refill ratePerS burst bucket now).1.toNat =
        min (bucket.1.toNat + gained ratePerS bucket now / NS_PER_S % 2 ^ 64) burst.toNat ∧
      (RateLimiter.refill ratePerS burst bucket now).2 = now := by
  have hsome : (0 : UInt64) < .ofNat (gained ratePerS bucket now / NS_PER_S) := by
    rw [UInt64.lt_iff_toNat_lt, UInt64.toNat_ofNat']
    exact Nat.pos_of_ne_zero h
  have helapsed : (0 : UInt64) < now.saturatingSub bucket.2 := by
    rw [UInt64.lt_iff_toNat_lt, UInt64.toNat_saturatingSub, UInt64.toNat_zero]
    refine Nat.pos_of_ne_zero fun hzero => h ?_
    rw [gained, hzero, Nat.zero_mul, Nat.zero_div, Nat.zero_mod]
  unfold gained at hsome h ⊢
  unfold RateLimiter.refill
  dsimp only
  rw [UInt64.toNat_saturatingSub, if_pos helapsed, if_pos hsome]
  refine ⟨?_, rfl⟩
  have hburst := burst.toNat_lt
  have hmin : ∀ a b : UInt64, (min a b).toNat = min a.toNat b.toNat := by
    intro a b
    rw [show min a b = if a ≤ b then a else b from rfl]
    split
    · rename_i hle
      exact (min_eq_left (UInt64.le_iff_toNat_le.1 hle)).symm
    · rename_i hgt
      exact (min_eq_right (UInt64.le_iff_toNat_le.1 (UInt64.le_of_lt (UInt64.not_le.1 hgt)))).symm
  rw [hmin, UInt64.toNat_saturatingAdd, UInt64.toNat_ofNat']
  omega

/-! ## Bucket and ideal bucket -/

theorem ratePerNs_mul (l : RateLimiter) (d : Nat) :
    l.ratePerNs * d = ((d * l.ratePerS.toNat : Nat) : ℚ) / NS_PER_S := by
  rw [RateLimiter.ratePerNs]
  push_cast
  ring

theorem ratePerNs_nonneg (l : RateLimiter) : 0 ≤ l.ratePerNs := by
  unfold RateLimiter.ratePerNs
  positivity

/-- The level is the tokens and the gain since their last refill, which is less than a token. -/
structure Holds (l : RateLimiter) (bucket : UInt64 × UInt64) (level : ℚ) (time : Nat) : Prop where
  last_le : bucket.2.toNat ≤ time
  gain_lt : (time - bucket.2.toNat) * l.ratePerS.toNat < NS_PER_S
  level_eq : level = bucket.1.toNat + l.ratePerNs * (time - bucket.2.toNat : Nat)

/-- The bucket follows the ideal one; after a call it is not full. -/
inductive Follows (l : RateLimiter) : Option (UInt64 × UInt64) → Option Bucket → Prop where
  | unknown : Follows l none none
  | void {bucket : UInt64 × UInt64} {k : Bucket} (hburst : l.burst = 0) (htokens : bucket.1 = 0)
      (hlevel : k.level = 0) : Follows l (some bucket) (some k)
  | known {bucket : UInt64 × UInt64} {k : Bucket} (hroom : bucket.1.toNat < l.burst.toNat)
      (hholds : Holds l bucket k.level k.time) : Follows l (some bucket) (some k)

theorem Holds.gain_lt_one {level : ℚ} {time : Nat} (h : Holds l bucket level time) :
    l.ratePerNs * (time - bucket.2.toNat : Nat) < 1 := by
  rw [ratePerNs_mul, div_lt_one (by unfold NS_PER_S; norm_num)]
  exact_mod_cast h.gain_lt

/-- The level at a call, from the tokens and their last refill. -/
theorem levelAt_of_holds {k : Bucket} (h : Holds l bucket k.level k.time)
    (hlater : k.time ≤ now.toNat) :
    levelAt l.burst.toNat l.ratePerNs now.toNat (some k) =
      min (l.burst.toNat : ℚ)
        (bucket.1.toNat + (gained l.ratePerS bucket now : ℚ) / NS_PER_S) := by
  have hsplit : ((now.toNat - bucket.2.toNat : Nat) : ℚ) =
      (k.time - bucket.2.toNat : Nat) + (now.toNat - k.time : Nat) := by
    have hlast := h.last_le
    rw [← Nat.cast_add]
    congr 1
    omega
  have hgained : (gained l.ratePerS bucket now : ℚ) / NS_PER_S =
      l.ratePerNs * (now.toNat - bucket.2.toNat : Nat) := (ratePerNs_mul l _).symm
  rw [levelAt, h.level_eq, hgained, hsplit, mul_add, add_assoc]

/-- A refill that loses nothing brings the tokens to the level of the ideal bucket. -/
theorem holds_refill {k : Bucket} (hroom : bucket.1.toNat < l.burst.toNat)
    (h : Holds l bucket k.level k.time) (hlater : k.time ≤ now.toNat)
    (hexact : RefillsExactly l bucket now) :
    Holds l (RateLimiter.refill l.ratePerS l.burst bucket now)
        (levelAt l.burst.toNat l.ratePerNs now.toNat (some k)) now.toNat := by
  have hpos : (0 : ℚ) < NS_PER_S := by
    unfold NS_PER_S
    norm_num
  rw [levelAt_of_holds h hlater]
  by_cases hsmall : gained l.ratePerS bucket now < NS_PER_S
  · -- Less than a token: the bucket stays as it is, and is not full.
    have hnone : gained l.ratePerS bucket now / NS_PER_S % 2 ^ 64 = 0 := by
      rw [Nat.div_eq_of_lt hsmall, Nat.zero_mod]
    rw [refill_of_none hnone]
    refine ⟨h.last_le.trans hlater, hsmall, ?_⟩
    have hfraction : (gained l.ratePerS bucket now : ℚ) / NS_PER_S < 1 := by
      rw [div_lt_one hpos]
      exact_mod_cast hsmall
    have hnext : (bucket.1.toNat : ℚ) + 1 ≤ l.burst.toNat := by
      exact_mod_cast hroom
    rw [min_eq_right (by linarith), ratePerNs_mul]
    rfl
  · have hdiv : (gained l.ratePerS bucket now / NS_PER_S : Nat) ≤
        (gained l.ratePerS bucket now : ℚ) / NS_PER_S := Nat.cast_div_le
    -- What is added is `added`, and it is the whole gain or fills the bucket.
    obtain ⟨added, hadded⟩ :
        ∃ added, gained l.ratePerS bucket now / NS_PER_S % 2 ^ 64 = added := ⟨_, rfl⟩
    have hmod : added ≤ gained l.ratePerS bucket now / NS_PER_S := by
      rw [← hadded]
      exact Nat.mod_le _ _
    have hmodQ : (added : ℚ) ≤ (gained l.ratePerS bucket now / NS_PER_S : Nat) := by
      exact_mod_cast hmod
    have hlevel : added ≠ 0 ∧
        min (l.burst.toNat : ℚ)
          (bucket.1.toNat + (gained l.ratePerS bucket now : ℚ) / NS_PER_S) =
            (min (bucket.1.toNat + added) l.burst.toNat : Nat) := by
      rcases hexact with hless | hfull | ⟨hwhole, hfits⟩
      · exact absurd hless hsmall
      · rw [hadded] at hfull
        have hfullQ : (l.burst.toNat : ℚ) ≤ bucket.1.toNat + added := by
          exact_mod_cast hfull
        rw [min_eq_right hfull]
        exact ⟨by omega, min_eq_left (by linarith)⟩
      · rw [Nat.mod_eq_of_lt hfits] at hadded
        have hone : 1 ≤ added := by
          rw [← hadded]
          exact (Nat.one_le_div_iff (by unfold NS_PER_S; norm_num)).2 (not_lt.1 hsmall)
        have heq : (gained l.ratePerS bucket now : ℚ) / NS_PER_S = added := by
          rw [← hadded, Nat.cast_div hwhole hpos.ne']
        rw [heq, min_comm]
        push_cast
        exact ⟨by omega, rfl⟩
    obtain ⟨hne, hmin⟩ := hlevel
    rw [← hadded] at hne
    obtain ⟨htokens, hlast⟩ := @refill_of_some bucket now l.ratePerS l.burst hne
    rw [hadded] at htokens
    refine ⟨?_, ?_, ?_⟩
    · rw [hlast]
    · rw [hlast, Nat.sub_self, Nat.zero_mul]
      unfold NS_PER_S
      norm_num
    · rw [hmin, htokens, hlast, Nat.sub_self, Nat.cast_zero, mul_zero, add_zero]

/-! ## One call -/

/-- The bucket after a call, from the bucket after its refill. -/
def taken (bucket : UInt64 × UInt64) : UInt64 × UInt64 :=
  if bucket.1 > 0 then (bucket.1 - 1, bucket.2) else bucket

theorem check_eq (l : RateLimiter) (nodeName : String) (now : UInt64) :
    l.check nodeName now =
      let bucket := RateLimiter.refill l.ratePerS l.burst
        ((l.buckets nodeName).getD (l.burst, now)) now
      (decide (bucket.1 > 0),
        { l with buckets := Function.update l.buckets nodeName (some (taken bucket)) }) := by
  unfold RateLimiter.check taken
  dsimp only
  split
  · rename_i hsome
    rw [decide_eq_true hsome]
  · rename_i hnone
    rw [decide_eq_false hnone]

theorem refill_le (hroom : bucket.1.toNat ≤ l.burst.toNat) :
    (RateLimiter.refill l.ratePerS l.burst bucket now).1.toNat ≤ l.burst.toNat := by
  by_cases hzero : gained l.ratePerS bucket now / NS_PER_S % 2 ^ 64 = 0
  · rw [refill_of_none hzero]
    exact hroom
  · rw [(@refill_of_some bucket now l.ratePerS l.burst hzero).1]
    exact min_le_right _ _

/-- A token is there exactly if the level is one at least, and taking it keeps the two together. -/
theorem follows_take {level : ℚ} (hburst : 0 < l.burst.toNat)
    (hroom : bucket.1.toNat ≤ l.burst.toNat) (h : Holds l bucket level now.toNat) :
    decide (bucket.1 > 0) = (TokenBucket.take level now.toNat).1 ∧
      Follows l (some (taken bucket)) (some (TokenBucket.take level now.toNat).2) := by
  have hgain := h.gain_lt_one
  have hnonneg : 0 ≤ l.ratePerNs * ((now.toNat - bucket.2.toNat : Nat) : ℚ) :=
    mul_nonneg (ratePerNs_nonneg l) (Nat.cast_nonneg _)
  unfold taken
  by_cases htoken : bucket.1 > 0
  · have hone : 1 ≤ bucket.1.toNat := UInt64.lt_iff_toNat_lt.1 htoken
    have hpred : (bucket.1 - 1).toNat = bucket.1.toNat - 1 :=
      UInt64.toNat_sub_of_le _ _ (UInt64.le_iff_toNat_le.2 hone)
    have hlevel : 1 ≤ level := by
      rw [h.level_eq]
      have : (1 : ℚ) ≤ bucket.1.toNat := by exact_mod_cast hone
      linarith
    rw [take_of_le hlevel, if_pos htoken, decide_eq_true htoken]
    refine ⟨rfl, .known ?_ ⟨h.last_le, h.gain_lt, ?_⟩⟩
    · dsimp only
      omega
    · dsimp only
      rw [h.level_eq, hpred, Nat.cast_sub hone, Nat.cast_one]
      ring
  · have hzero : bucket.1.toNat = 0 := by
      have := UInt64.le_iff_toNat_le.1 (UInt64.not_lt.1 htoken)
      exact Nat.le_zero.1 this
    have hlevel : level < 1 := by
      rw [h.level_eq, hzero, Nat.cast_zero, zero_add]
      exact hgain
    rw [take_of_lt hlevel, if_neg htoken, decide_eq_false htoken]
    exact ⟨rfl, .known (by omega) h⟩

/-- Without a burst nothing is ever granted. -/
theorem follows_void {k : Bucket} (hburst : l.burst = 0) (htokens : bucket.1 = 0)
    (hlevel : k.level = 0) :
    decide ((RateLimiter.refill l.ratePerS l.burst bucket now).1 > 0) =
        (event l.burst.toNat l.ratePerNs now.toNat (some k)).1 ∧
      Follows l (some (taken (RateLimiter.refill l.ratePerS l.burst bucket now)))
        (some (event l.burst.toNat l.ratePerNs now.toNat (some k)).2) := by
  have hnone : (RateLimiter.refill l.ratePerS l.burst bucket now).1 = 0 := by
    refine UInt64.toNat_inj.1 (Nat.le_zero.1 ?_)
    have hle := @refill_le l bucket now (by rw [htokens, hburst])
    rw [hburst] at hle ⊢
    exact hle
  have hempty : levelAt l.burst.toNat l.ratePerNs now.toNat (some k) = 0 := by
    have hgain : 0 ≤ l.ratePerNs * ((now.toNat - k.time : Nat) : ℚ) :=
      mul_nonneg (ratePerNs_nonneg l) (Nat.cast_nonneg _)
    rw [levelAt, hlevel, hburst, zero_add]
    exact min_eq_left (by simpa using hgain)
  have hnot : ¬ (RateLimiter.refill l.ratePerS l.burst bucket now).1 > 0 := by
    rw [hnone]
    decide
  rw [event, hempty, take_of_lt zero_lt_one, taken, if_neg hnot, decide_eq_false hnot]
  exact ⟨rfl, .void hburst hnone rfl⟩

/-- A call whose refill loses nothing is answered as by the ideal bucket. -/
theorem follows_check {b : Option (UInt64 × UInt64)} {k : Option Bucket} (h : Follows l b k)
    (hlater : ∀ k' ∈ k, k'.time ≤ now.toNat) (hexact : ∀ bucket ∈ b, RefillsExactly l bucket now) :
    decide ((RateLimiter.refill l.ratePerS l.burst (b.getD (l.burst, now)) now).1 > 0) =
        (event l.burst.toNat l.ratePerNs now.toNat k).1 ∧
      Follows l (some (taken (RateLimiter.refill l.ratePerS l.burst (b.getD (l.burst, now)) now)))
        (some (event l.burst.toNat l.ratePerNs now.toNat k).2) := by
  cases h with
  | void hburst htokens hlevel => exact follows_void hburst htokens hlevel
  | known hroom hholds =>
    exact follows_take (Nat.zero_lt_of_lt hroom) (refill_le (Nat.le_of_lt hroom))
      (holds_refill hroom hholds (hlater _ rfl) (hexact _ rfl))
  | unknown =>
    have hfresh : RateLimiter.refill l.ratePerS l.burst (l.burst, now) now = (l.burst, now) := by
      refine refill_of_none ?_
      rw [gained, Nat.sub_self, Nat.zero_mul, Nat.zero_div, Nat.zero_mod]
    rw [Option.getD_none, hfresh]
    by_cases hburst : l.burst.toNat = 0
    · have hzero : l.burst = 0 := UInt64.toNat_inj.1 hburst
      have hlevel : levelAt l.burst.toNat l.ratePerNs now.toNat none = 0 := by
        rw [levelAt, hburst, Nat.cast_zero]
      have hnot : ¬ (l.burst, now).1 > 0 := by
        rw [hzero]
        exact (by decide : ¬ (0 : UInt64) > 0)
      rw [event, hlevel, take_of_lt zero_lt_one, taken, if_neg hnot, decide_eq_false hnot]
      exact ⟨rfl, .void hzero hzero rfl⟩
    · refine follows_take (Nat.pos_of_ne_zero hburst) le_rfl ⟨le_rfl, ?_, ?_⟩
      · rw [Nat.sub_self, Nat.zero_mul]
        unfold NS_PER_S
        norm_num
      · rw [levelAt, Nat.sub_self, Nat.cast_zero, mul_zero, add_zero]

/-! ## Runs -/

/-- No refill of the run loses a fraction of a token. -/
def LosesNothing (w : LimiterRun) (call : String × UInt64) : Prop :=
  ∀ bucket ∈ w.limiter.buckets call.1, RefillsExactly w.limiter bucket call.2

/-- The call is granted exactly if the ideal bucket grants it. -/
def GrantsAsIdeal (w : LimiterRun) (call : String × UInt64) : Prop :=
  (w.limiter.check call.1 call.2).1 = (idealCheck w call.1 call.2).1

/-- Each node's bucket follows its ideal one. -/
def FollowsIdeal (w : LimiterRun) : Prop :=
  ∀ node, Follows w.limiter (w.limiter.buckets node) (w.ideal node)

theorem followsIdeal_new (ratePerS burst : UInt64) :
    FollowsIdeal { limiter := .new ratePerS burst } := fun _ => .unknown

theorem not_back {call : String × UInt64} (hstep : limiterStep w call = some w') :
    ∀ k ∈ w.ideal call.1, k.time ≤ call.2.toNat := by
  intro k hk
  unfold limiterStep at hstep
  split at hstep
  · cases hstep
  · rename_i hback
    exact not_lt.1 fun hlt => hback ⟨k, hk, hlt⟩

theorem grantsAsIdeal {call : String × UInt64} (h : FollowsIdeal w) (hexact : LosesNothing w call)
    (hstep : limiterStep w call = some w') : GrantsAsIdeal w call := by
  rw [GrantsAsIdeal, check_eq]
  exact (follows_check (h call.1) (not_back hstep) hexact).1

/-- What a call does to the limiter, the ideal bucket of its node and the granted calls. -/
theorem limiterStep_spec {node : String} (hstep : limiterStep w (node, now) = some w') :
    w'.limiter = (w.limiter.check node now).2 ∧
      w'.ideal = Function.update w.ideal node (some (idealCheck w node now).2) ∧
      w'.granted =
        if (w.limiter.check node now).1 then
          Function.update w.granted node (w.granted node ++ [now.toNat])
        else w.granted := by
  unfold limiterStep at hstep
  split at hstep
  · cases hstep
  · cases hstep
    exact ⟨rfl, rfl, rfl⟩

/-- The limiter after a call, from the bucket of the node. -/
theorem limiter_of_step {node : String} (hstep : limiterStep w (node, now) = some w') :
    w'.limiter =
      { w.limiter with
        buckets := Function.update w.limiter.buckets node
          (some (taken (RateLimiter.refill w.limiter.ratePerS w.limiter.burst
            ((w.limiter.buckets node).getD (w.limiter.burst, now)) now))) } := by
  rw [(limiterStep_spec hstep).1, check_eq]

theorem Follows.congr {l' : RateLimiter} {b : Option (UInt64 × UInt64)} {k : Option Bucket}
    (h : Follows l b k) (hrate : l'.ratePerS = l.ratePerS) (hburst : l'.burst = l.burst) :
    Follows l' b k := by
  have hns : l'.ratePerNs = l.ratePerNs := by
    unfold RateLimiter.ratePerNs
    rw [hrate]
  cases h with
  | unknown => exact .unknown
  | void hzero htokens hlevel => exact .void (hburst.trans hzero) htokens hlevel
  | known hroom hholds =>
    refine .known (by rw [hburst]; exact hroom) ⟨hholds.last_le, ?_, ?_⟩
    · rw [hrate]
      exact hholds.gain_lt
    · rw [hns]
      exact hholds.level_eq

theorem followsIdeal_step {call : String × UInt64} (h : FollowsIdeal w)
    (hexact : LosesNothing w call) (hstep : limiterStep w call = some w') : FollowsIdeal w' := by
  obtain ⟨node, now⟩ := call
  obtain ⟨-, hfollows⟩ := follows_check (h node) (not_back hstep) hexact
  obtain ⟨-, hideal, -⟩ := limiterStep_spec hstep
  intro other
  rw [hideal, limiter_of_step hstep]
  refine Follows.congr (l := w.limiter) ?_ rfl rfl
  dsimp only
  by_cases hnode : other = node
  · subst hnode
    rw [Function.update_self, Function.update_self]
    exact hfollows
  · rw [Function.update_of_ne hnode, Function.update_of_ne hnode]
    exact h other

/-! ## Any interval

Whatever its refills lose, a bucket never has more than one that holds a token more than the burst.
-/

/-- What a bucket has gained and its next refill adds, in parts of a token. The word of the whole tokens
wraps around. -/
def pending (ratePerS : UInt64) (bucket : UInt64 × UInt64) (time : Nat) : Nat :=
  (time - bucket.2.toNat) * ratePerS.toNat % (2 ^ 64 * NS_PER_S)

/-- The tokens, with what is pending. -/
def tokensAt (ratePerS : UInt64) (bucket : UInt64 × UInt64) (time : Nat) : ℚ :=
  bucket.1.toNat + (pending ratePerS bucket time : ℚ) / NS_PER_S

theorem tokensAt_nonneg (ratePerS : UInt64) (bucket : UInt64 × UInt64) (time : Nat) :
    0 ≤ tokensAt ratePerS bucket time := by
  unfold tokensAt
  positivity

theorem pending_le_add {ratePerS : UInt64} {time later : Nat} (hlast : bucket.2.toNat ≤ time)
    (hlater : time ≤ later) :
    pending ratePerS bucket later ≤
      pending ratePerS bucket time + (later - time) * ratePerS.toNat := by
  have hsplit : (later - bucket.2.toNat) * ratePerS.toNat =
      (time - bucket.2.toNat) * ratePerS.toNat + (later - time) * ratePerS.toNat := by
    rw [← Nat.add_mul]
    congr 1
    omega
  rw [pending, hsplit, ← Nat.mod_add_mod]
  exact Nat.mod_le _ _

/-- The word that a refill adds is the whole tokens of what is pending. -/
theorem pending_div (ratePerS : UInt64) (bucket : UInt64 × UInt64) (now : UInt64) :
    gained ratePerS bucket now / NS_PER_S % 2 ^ 64 = pending ratePerS bucket now.toNat / NS_PER_S :=
  (Nat.mod_mul_left_div_self _ _ _).symm

/-- The bucket as a call leaves it: no more than the burst, and less than a token pending. -/
structure Rested (ratePerS burst : UInt64) (bucket : UInt64 × UInt64) (time : Nat) : Prop where
  room : bucket.1.toNat ≤ burst.toNat
  last_le : bucket.2.toNat ≤ time
  pending_lt : pending ratePerS bucket time < NS_PER_S

theorem Rested.tokensAt_le {ratePerS burst : UInt64} {time : Nat}
    (h : Rested ratePerS burst bucket time) : tokensAt ratePerS bucket time ≤ burst.toNat + 1 := by
  have hroom : (bucket.1.toNat : ℚ) ≤ burst.toNat := by exact_mod_cast h.room
  have hpending : (pending ratePerS bucket time : ℚ) / NS_PER_S < 1 := by
    rw [div_lt_one (by unfold NS_PER_S; norm_num)]
    exact_mod_cast h.pending_lt
  unfold tokensAt
  linarith

/-- A refill adds no more than what is pending. -/
theorem rested_refill {ratePerS burst : UInt64} (hroom : bucket.1.toNat ≤ burst.toNat)
    (hlast : bucket.2.toNat ≤ now.toNat) :
    Rested ratePerS burst (RateLimiter.refill ratePerS burst bucket now) now.toNat ∧
      tokensAt ratePerS (RateLimiter.refill ratePerS burst bucket now) now.toNat ≤
        tokensAt ratePerS bucket now.toNat := by
  have hpos : (0 : ℚ) < NS_PER_S := by
    unfold NS_PER_S
    norm_num
  by_cases hzero : gained ratePerS bucket now / NS_PER_S % 2 ^ 64 = 0
  · rw [refill_of_none hzero]
    rw [pending_div, Nat.div_eq_zero_iff_lt (by unfold NS_PER_S; norm_num)] at hzero
    exact ⟨⟨hroom, hlast, hzero⟩, le_rfl⟩
  · obtain ⟨htokens, htime⟩ := @refill_of_some bucket now ratePerS burst hzero
    have hnone : pending ratePerS (RateLimiter.refill ratePerS burst bucket now) now.toNat = 0 := by
      rw [pending, htime, Nat.sub_self, Nat.zero_mul, Nat.zero_mod]
    refine ⟨⟨?_, ?_, ?_⟩, ?_⟩
    · rw [htokens]
      exact min_le_right _ _
    · rw [htime]
    · rw [hnone]
      unfold NS_PER_S
      norm_num
    · have hadded : ((pending ratePerS bucket now.toNat / NS_PER_S : Nat) : ℚ) ≤
          (pending ratePerS bucket now.toNat : ℚ) / NS_PER_S := Nat.cast_div_le
      have hle : ((RateLimiter.refill ratePerS burst bucket now).1.toNat : ℚ) ≤
          bucket.1.toNat + (pending ratePerS bucket now.toNat / NS_PER_S : Nat) := by
        rw [htokens, pending_div]
        exact_mod_cast min_le_left _ _
      rw [tokensAt, hnone, Nat.cast_zero, zero_div, add_zero, tokensAt]
      linarith

/-- What a call takes and leaves is what the refill has made of the bucket. -/
theorem tokensAt_taken (ratePerS : UInt64) (time : Nat) :
    tokensAt ratePerS (taken bucket) time + (if bucket.1 > 0 then 1 else 0) =
      tokensAt ratePerS bucket time := by
  unfold taken
  split
  · rename_i htoken
    have hone : 1 ≤ bucket.1.toNat := UInt64.lt_iff_toNat_lt.1 htoken
    have hpred : (bucket.1 - 1).toNat = bucket.1.toNat - 1 :=
      UInt64.toNat_sub_of_le _ _ (UInt64.le_iff_toNat_le.2 hone)
    unfold tokensAt pending
    rw [hpred, Nat.cast_sub hone]
    ring
  · exact add_zero _

theorem Rested.taken {ratePerS burst : UInt64} {time : Nat} (h : Rested ratePerS burst bucket time) :
    Rested ratePerS burst (taken bucket) time := by
  unfold Hub.taken
  split
  · rename_i htoken
    have hpred : (bucket.1 - 1).toNat = bucket.1.toNat - 1 :=
      UInt64.toNat_sub_of_le _ _ (UInt64.le_iff_toNat_le.2 (UInt64.lt_iff_toNat_lt.1 htoken))
    refine ⟨?_, h.last_le, h.pending_lt⟩
    rw [hpred]
    exact (Nat.sub_le _ _).trans h.room
  · exact h

/-- A node's bucket, and the one with a token more; the ideal bucket has the time of the last call. -/
inductive Spends (ratePerS burst : UInt64) :
    Option (UInt64 × UInt64) → Option Bucket → Option Bucket → Prop where
  | unknown : Spends ratePerS burst none none none
  | known {bucket : UInt64 × UInt64} {k : Bucket} (h : Rested ratePerS burst bucket k.time) :
    Spends ratePerS burst (some bucket) (some k) (some ⟨tokensAt ratePerS bucket k.time, k.time⟩)

theorem Spends.not_back {ratePerS burst : UInt64} {b : Option (UInt64 × UInt64)}
    {k a : Option Bucket} {time : Nat} (h : Spends ratePerS burst b k a)
    (hlater : ∀ k' ∈ k, k'.time ≤ time) : ∀ k' ∈ a, k'.time ≤ time := by
  cases h with
  | unknown => nofun
  | @known bucket k h =>
    rintro k' ⟨⟩
    exact hlater k rfl

/-- Once refilled, a bucket has no more than the larger one. -/
theorem spends_check {ratePerS burst : UInt64} {b : Option (UInt64 × UInt64)} {k a : Option Bucket}
    (h : Spends ratePerS burst b k a) (hlater : ∀ k' ∈ k, k'.time ≤ now.toNat) :
    Rested ratePerS burst (RateLimiter.refill ratePerS burst (b.getD (burst, now)) now) now.toNat ∧
      tokensAt ratePerS (RateLimiter.refill ratePerS burst (b.getD (burst, now)) now) now.toNat ≤
        levelAt (burst.toNat + 1) (ratePerS.toNat / NS_PER_S) now.toNat a := by
  cases h with
  | unknown =>
    obtain ⟨hrested, -⟩ := @rested_refill (burst, now) now ratePerS burst le_rfl le_rfl
    exact ⟨hrested, hrested.tokensAt_le⟩
  | @known bucket k h =>
    obtain ⟨hrested, hle⟩ := @rested_refill bucket now ratePerS burst h.room
      (h.last_le.trans (hlater k rfl))
    refine ⟨hrested, le_min hrested.tokensAt_le (hle.trans ?_)⟩
    have hpending : (pending ratePerS bucket now.toNat : ℚ) ≤
        pending ratePerS bucket k.time + (now.toNat - k.time : Nat) * ratePerS.toNat := by
      exact_mod_cast pending_le_add h.last_le (hlater k rfl)
    have hdiv := div_le_div_of_nonneg_right hpending (Nat.cast_nonneg (α := ℚ) NS_PER_S)
    rw [add_div] at hdiv
    rw [tokensAt, tokensAt, div_mul_eq_mul_div, mul_comm (ratePerS.toNat : ℚ)]
    linarith

/-- Of the granted calls of each node those in an interval are within what a bucket with a token more
than the burst allows. -/
structure WithinBurst (ratePerS burst : UInt64) (w : LimiterRun) : Prop where
  rate_eq : w.limiter.ratePerS = ratePerS
  burst_eq : w.limiter.burst = burst
  spends : ∀ node, ∃ a, Spends ratePerS burst (w.limiter.buckets node) (w.ideal node) a ∧
    ∀ lo width, Within (burst.toNat + 1) (ratePerS.toNat / NS_PER_S) lo width a
      ((w.granted node).countP fun t => lo ≤ t ∧ t ≤ lo + width)

theorem rate_nonneg (ratePerS : UInt64) : (0 : ℚ) ≤ ratePerS.toNat / NS_PER_S := by positivity

theorem withinBurst_new (ratePerS burst : UInt64) :
    WithinBurst ratePerS burst { limiter := .new ratePerS burst } :=
  ⟨rfl, rfl, fun _ => ⟨none, .unknown, fun lo width =>
    Within.start (by positivity) (rate_nonneg ratePerS) lo width⟩⟩

/-- The granted calls of a node in an interval, after one more call. -/
theorem countP_granted (times : List Nat) (yes : Bool) (t lo width : Nat) :
    (if yes then times ++ [t] else times).countP (fun t => lo ≤ t ∧ t ≤ lo + width) =
      times.countP (fun t => lo ≤ t ∧ t ≤ lo + width) +
        if yes = true ∧ lo ≤ t ∧ t ≤ lo + width then 1 else 0 := by
  cases yes with
  | false => rfl
  | true =>
    rw [if_pos rfl, List.countP_append, List.countP_singleton]
    simp only [true_and, decide_eq_true_eq]

theorem withinBurst_step {ratePerS burst : UInt64} {call : String × UInt64}
    (h : WithinBurst ratePerS burst w) (hstep : limiterStep w call = some w') :
    WithinBurst ratePerS burst w' := by
  obtain ⟨node, now⟩ := call
  obtain ⟨-, hideal, hgranted⟩ := limiterStep_spec hstep
  have hlimiter := limiter_of_step hstep
  rw [check_eq] at hgranted
  dsimp only at hgranted
  rw [h.rate_eq, h.burst_eq] at hgranted
  refine ⟨by rw [hlimiter]; exact h.rate_eq, by rw [hlimiter]; exact h.burst_eq, fun other => ?_⟩
  obtain ⟨a, hspends, hwithin⟩ := h.spends other
  rw [hlimiter, hideal, hgranted]
  dsimp only
  rw [h.rate_eq, h.burst_eq]
  by_cases hnode : other = node
  · subst hnode
    have hlater := not_back hstep
    obtain ⟨hrested, hle⟩ := spends_check hspends hlater
    rw [← tokensAt_taken] at hle
    have htime : (idealCheck w other now).2.time = now.toNat := event_time
    have hlaterA : ∀ k ∈ a, k.time ≤ now.toNat := hspends.not_back hlater
    rw [Function.update_self, Function.update_self, ite_apply, Function.update_self]
    refine ⟨_, .known (by rw [htime]; exact hrested.taken), fun lo width => ?_⟩
    rw [countP_granted, htime]
    refine (hwithin lo width).event (rate_nonneg ratePerS) hlaterA (tokensAt_nonneg _ _ _) ?_
    simpa only [decide_eq_true_eq] using hle
  · rw [Function.update_of_ne hnode, Function.update_of_ne hnode, ite_apply,
      Function.update_of_ne hnode, ite_self]
    exact ⟨a, hspends, hwithin⟩

/-- In every run in which no refill loses a fraction of a token, each call is granted exactly if the
ideal bucket of its node grants it. In every run at all, of the calls of a node in an interval of
`width` ns no more than `burst + rate * width / 10^9 + 1` are granted. -/
theorem limiter_grants_as_ideal {ratePerS burst : UInt64} {calls : List (String × UInt64)}
    (hrun : exec limiterStep { limiter := .new ratePerS burst } calls = some w) :
    (Along limiterStep LosesNothing { limiter := .new ratePerS burst } calls →
        Along limiterStep (fun w call => (limiterStep w call).isSome → GrantsAsIdeal w call)
          { limiter := .new ratePerS burst } calls) ∧
      ∀ (node : String) (lo width : Nat),
        (((w.granted node).countP fun t => lo ≤ t ∧ t ≤ lo + width : Nat) : ℚ) ≤
          burst.toNat + ratePerS.toNat * width / NS_PER_S + 1 := by
  constructor
  · intro hexact
    refine (Along.congr (d := fun w call => (limiterStep w call).isSome → GrantsAsIdeal w call)
      (e := fun _ _ => True)
      (fun w call w' h hexact _ hstep => followsIdeal_step h hexact hstep)
      (fun w call h hexact => iff_of_true (fun hgoes => ?_) trivial)
      (followsIdeal_new ratePerS burst) hexact).2 (along_of_forall (fun _ _ => trivial) _ _)
    obtain ⟨w', hstep⟩ := Option.isSome_iff_exists.1 hgoes
    exact grantsAsIdeal h hexact hstep
  · intro node lo width
    have hend : WithinBurst ratePerS burst w :=
      exec_invariant (fun w call w' h _ hstep => withinBurst_step h hstep)
        (withinBurst_new ratePerS burst) (along_of_forall (fun _ _ => trivial) _ _) hrun
    obtain ⟨a, -, hwithin⟩ := hend.spends node
    have htotal := (hwithin lo width).total
    rw [div_mul_eq_mul_div] at htotal
    linarith

/-- One token a second, two at most: two calls at once, one after a second and a half, one half a second
later. -/
def spacedCalls : List (String × UInt64) :=
  [("n", 0), ("n", 0), ("n", 1500000000), ("n", 2000000000)]

/-- The last call finds a token in the ideal bucket, half of it left over from the call before, but is
refused. -/
theorem fraction_of_refill_is_lost :
    (exec limiterStep { limiter := .new 1 2 } (spacedCalls.take 3)).map
        (fun w => ((limiterStep w ("n", 2000000000)).isSome,
          (idealCheck w "n" 2000000000).1, (w.limiter.check "n" 2000000000).1)) =
      some (true, true, false) := by
  decide +kernel

/-- Two calls at once and one two seconds later, which fills the bucket. -/
def filledCalls : List (String × UInt64) := [("n", 0), ("n", 0), ("n", 2000000000)]

theorem limiter_grants_as_ideal_filled :
    ∃ w, exec limiterStep { limiter := .new 1 2 } filledCalls = some w ∧
      Along limiterStep (fun w call => (limiterStep w call).isSome → GrantsAsIdeal w call)
        { limiter := .new 1 2 } filledCalls ∧
      (((w.granted "n").countP fun t => 0 ≤ t ∧ t ≤ 0 + 2000000000 : Nat) : ℚ) ≤
        (2 : UInt64).toNat + (1 : UInt64).toNat * (2000000000 : Nat) / NS_PER_S + 1 := by
  have hgoes : (exec limiterStep { limiter := .new 1 2 } filledCalls).isSome := by decide +kernel
  obtain ⟨w, hrun⟩ := Option.isSome_iff_exists.1 hgoes
  have hexact : Along limiterStep LosesNothing { limiter := .new 1 2 } filledCalls := by
    refine ⟨nofun, fun w1 h1 => ⟨?_, fun w2 h2 => ⟨?_, fun _ _ => trivial⟩⟩⟩
    · obtain ⟨hlimiter, -, -⟩ := limiterStep_spec h1
      rw [LosesNothing, hlimiter]
      rintro bucket ⟨⟩
      exact .inl (by decide +kernel)
    · obtain ⟨hlimiter, -, -⟩ := limiterStep_spec h2
      rw [LosesNothing, hlimiter, (limiterStep_spec h1).1]
      rintro bucket ⟨⟩
      exact .inr (.inl (by decide +kernel))
  exact ⟨w, hrun, (limiter_grants_as_ideal hrun).1 hexact,
    (limiter_grants_as_ideal hrun).2 "n" 0 2000000000⟩

end EShield.Hub
