import Mathlib

/-!
# Fixed-window counters

A counter that begins a new window with the first event that finds the old one run out, and counts up
to a cap. An event is accepted while the count is within the limit. Whatever the phase of the windows,
an interval as long as a window sees parts of at most two of them, so at most twice the limit is
accepted in it.
-/

namespace FixedWindow

structure Counter where
  count : Nat
  start : Nat

/-- The counter after an event at `now`. -/
def tick (width cap now : Nat) : Option Counter → Counter
  | some c =>
    if now - c.start < width then { count := min (c.count + 1) cap, start := c.start }
    else { count := 1, start := now }
  | none => { count := 1, start := now }

variable {limit width cap lo now t n n' : Nat} {c : Option Counter}

/-- The clock is at `now` and `n` events of `[lo, lo + width)` have been accepted so far. A window
that began before the interval has accepted no more than it counted; one that began in it follows on
at most one other. -/
structure Within (limit width lo : Nat) (c : Option Counter) (now n : Nat) : Prop where
  total : n ≤ 2 * limit
  early : now < lo → n = 0
  fresh : now < lo + width → c = none → n = 0
  before : ∀ k ∈ c, now < lo + width → k.start < lo → n ≤ k.count ∧ n ≤ limit
  during : ∀ k ∈ c, now < lo + width → n ≤ limit + k.count

theorem Within.init (limit width lo : Nat) (c : Option Counter) (now : Nat) :
    Within limit width lo c now 0 where
  total := by omega
  early := by omega
  fresh := by omega
  before := by omega
  during := by omega

theorem Within.later (h : Within limit width lo c now n) (hle : now ≤ t) :
    Within limit width lo c t n where
  total := h.total
  early hlo := h.early (by omega)
  fresh hhi := h.fresh (by omega)
  before k hk hhi := h.before k hk (by omega)
  during k hk hhi := h.during k hk (by omega)

/-- An event, which may be accepted if it lies in the interval and the count is within the limit. -/
theorem Within.tick (h : Within limit width lo c now n) (hle : now ≤ t) (hcap : limit < cap)
    (hn : n' = n ∨
      (n' = n + 1 ∧ lo ≤ t ∧ t < lo + width ∧ (tick width cap t c).count ≤ limit)) :
    Within limit width lo (some (tick width cap t c)) t n' := by
  have htotal := h.total
  have hearly := h.early
  rcases c with _ | ⟨count, start⟩
  · have hfresh := fun hhi => h.fresh hhi rfl
    have hcount : (FixedWindow.tick width cap t none).count = 1 := rfl
    have hstart : (FixedWindow.tick width cap t none).start = t := rfl
    rw [hcount] at hn
    refine ⟨by omega, by omega, by simp, ?_, ?_⟩
    · rintro _ ⟨⟩
      rw [hcount, hstart]
      omega
    · rintro _ ⟨⟩
      rw [hcount]
      omega
  · have hbefore := h.before _ rfl
    have hduring := h.during _ rfl
    dsimp only at hbefore hduring
    by_cases hopen : t - start < width
    · -- the window goes on
      have htick : FixedWindow.tick width cap t (some ⟨count, start⟩) =
          ⟨min (count + 1) cap, start⟩ := if_pos hopen
      rw [htick] at hn ⊢
      dsimp only at hn
      refine ⟨by omega, by omega, by simp, ?_, ?_⟩
      · rintro _ ⟨⟩
        dsimp only
        omega
      · rintro _ ⟨⟩
        dsimp only
        omega
    · -- a new window; the old one began before the interval if the event lies in it
      have htick : FixedWindow.tick width cap t (some ⟨count, start⟩) = ⟨1, t⟩ := if_neg hopen
      rw [htick] at hn ⊢
      dsimp only at hn
      refine ⟨by omega, by omega, by simp, ?_, ?_⟩
      · rintro _ ⟨⟩
        dsimp only
        omega
      · rintro _ ⟨⟩
        dsimp only
        omega

end FixedWindow
