import EShield.Ebpf.RateCounter
import EShield.Lib.IdleWalk

/-!
# Half-open connections over time

The count of a source in CONN_TRACK is a walk: a SYN takes it up, an ACK or RST takes it down, and it
starts again after a pause longer than the window. That an entry at zero is removed makes no
difference.
-/

namespace EShield.Ebpf

open IdleWalk

/-- A TCP packet, as the module sees it. -/
structure ConnPacket where
  src : IpKey
  tcpFlags : UInt8
  nowNs : UInt64

/-- The module looks at SYN, ACK and RST packets only. -/
def ConnPacket.counted (p : ConnPacket) : Bool :=
  isSynFlags p.tcpFlags || isAckOrRstFlags p.tcpFlags

/-- `check_conn_track` for a packet, and for one after the other. -/
def trackPacket (threshold : UInt32) (windowMs : UInt64) (m : Maps) (p : ConnPacket) : Bool × Maps :=
  checkConnTrack m p.src p.tcpFlags p.nowNs threshold windowMs

def trackPackets (threshold : UInt32) (windowMs : UInt64) (m : Maps) (packets : List ConnPacket) :
    Maps :=
  packets.foldl (fun m p => (trackPacket threshold windowMs m p).2) m

/-- The step that a counted packet makes on the entry of its source. -/
def trackStep (threshold : UInt32) (windowMs : UInt64) (entry : ConnTrackEntry) (p : ConnPacket) :
    ConnTrackStep :=
  connTrackStep entry.halfOpen entry.lastSeenNs p.nowNs (isSynFlags p.tcpFlags)
    (isAckOrRstFlags p.tcpFlags) threshold (msToNs windowMs)

/-- A missing entry reads as zero. -/
def entryOf (connTrack : LruHashMap IpKey ConnTrackEntry) (src : IpKey) : ConnTrackEntry :=
  (connTrack src).getD { lastSeenNs := 0, halfOpen := 0 }

variable {threshold : UInt32} {windowMs : UInt64} {m : Maps} {p : ConnPacket} {src : IpKey}

theorem trackPacket_of_not_counted (h : p.counted = false) :
    trackPacket threshold windowMs m p = (false, m) := by
  obtain ⟨hsyn, hack⟩ := Bool.or_eq_false_iff.1 h
  simp only [trackPacket, checkConnTrack, hsyn, hack]
  rfl

theorem trackPacket_of_counted (h : p.counted = true) :
    let step := trackStep threshold windowMs (entryOf m.connTrack p.src) p
    trackPacket threshold windowMs m p =
      (step.drop, { m with
        connTrack :=
          if step.halfOpen = 0 then m.connTrack.remove p.src
          else m.connTrack.insert p.src
            { lastSeenNs := step.lastSeenNs, halfOpen := step.halfOpen } }) := by
  have hnot : (!isSynFlags p.tcpFlags && !isAckOrRstFlags p.tcpFlags) = false := by
    rw [← Bool.not_or, ← ConnPacket.counted, h]
    rfl
  simp only [trackPacket, checkConnTrack, hnot]
  rfl

/-- The entry of the source after its packet. -/
theorem trackPacket_self (h : p.counted = true) :
    let step := trackStep threshold windowMs (entryOf m.connTrack p.src) p
    (trackPacket threshold windowMs m p).2.connTrack p.src =
      if step.halfOpen = 0 then none
      else some { lastSeenNs := step.lastSeenNs, halfOpen := step.halfOpen } := by
  rw [trackPacket_of_counted h]
  dsimp only
  split
  · exact LruHashMap.remove_self _ _
  · exact LruHashMap.insert_self _ _ _

theorem trackPacket_of_ne (h : src ≠ p.src) :
    (trackPacket threshold windowMs m p).2.connTrack src = m.connTrack src := by
  cases hcounted : p.counted with
  | false => rw [trackPacket_of_not_counted hcounted]
  | true =>
    rw [trackPacket_of_counted hcounted]
    dsimp only
    split
    · exact LruHashMap.remove_of_ne _ h
    · exact LruHashMap.insert_of_ne _ _ h

/-! ## Entries that are never removed -/

/-- The reference keeps an entry for every source from the start. -/
def keepPacket (threshold : UInt32) (windowMs : UInt64) (kept : IpKey → ConnTrackEntry)
    (p : ConnPacket) : Bool × (IpKey → ConnTrackEntry) :=
  if p.counted then
    let step := trackStep threshold windowMs (kept p.src) p
    (step.drop,
      Function.update kept p.src { lastSeenNs := step.lastSeenNs, halfOpen := step.halfOpen })
  else (false, kept)

/-- The verdicts on a sequence of packets. -/
def verdicts {S : Type} (step : S → ConnPacket → Bool × S) : S → List ConnPacket → List Bool
  | _, [] => []
  | s, p :: packets => (step s p).1 :: verdicts step (step s p).2 packets

/-- No entry is at zero; the entries that are missing are those at zero in the reference. -/
structure Mirrors (connTrack : LruHashMap IpKey ConnTrackEntry) (kept : IpKey → ConnTrackEntry) :
    Prop where
  present : ∀ src e, connTrack src = some e → e.halfOpen ≠ 0 ∧ kept src = e
  absent : ∀ src, connTrack src = none → (kept src).halfOpen = 0

variable {kept : IpKey → ConnTrackEntry}

/-- From zero a step does not depend on when the source was last seen. -/
theorem Mirrors.step_eq (h : Mirrors m.connTrack kept) :
    trackStep threshold windowMs (entryOf m.connTrack p.src) p =
      trackStep threshold windowMs (kept p.src) p := by
  cases hentry : m.connTrack p.src with
  | none =>
    rw [entryOf, hentry]
    simp only [trackStep, connTrackStep, h.absent p.src hentry, Option.getD_none, ite_self]
  | some e =>
    rw [entryOf, hentry, (h.present p.src e hentry).2]
    rfl

/-- A packet gets the same verdict from both and leaves them alike. -/
theorem Mirrors.packet (h : Mirrors m.connTrack kept) (p : ConnPacket) :
    (trackPacket threshold windowMs m p).1 = (keepPacket threshold windowMs kept p).1 ∧
      Mirrors (trackPacket threshold windowMs m p).2.connTrack
        (keepPacket threshold windowMs kept p).2 := by
  cases hcounted : p.counted with
  | false =>
    rw [trackPacket_of_not_counted hcounted, keepPacket, if_neg (by rw [hcounted]; decide)]
    exact ⟨rfl, h⟩
  | true =>
    have hkeep : trackStep threshold windowMs (entryOf m.connTrack p.src) p =
        trackStep threshold windowMs (kept p.src) p := h.step_eq
    rw [keepPacket, if_pos hcounted]
    dsimp only
    refine ⟨by rw [trackPacket_of_counted hcounted, hkeep], fun src e he => ?_, fun src he => ?_⟩
    · by_cases hsrc : src = p.src
      · subst hsrc
        rw [trackPacket_self hcounted, hkeep] at he
        split at he
        · cases he
        · rename_i hzero
          cases he
          exact ⟨hzero, Function.update_self _ _ _⟩
      · rw [trackPacket_of_ne hsrc] at he
        rw [Function.update_of_ne hsrc]
        exact h.present src e he
    · by_cases hsrc : src = p.src
      · subst hsrc
        rw [trackPacket_self hcounted, hkeep] at he
        rw [Function.update_self]
        split at he
        · assumption
        · cases he
      · rw [trackPacket_of_ne hsrc] at he
        rw [Function.update_of_ne hsrc]
        exact h.absent src he

theorem Mirrors.verdicts_eq (h : Mirrors m.connTrack kept) (packets : List ConnPacket) :
    verdicts (trackPacket threshold windowMs) m packets =
      verdicts (keepPacket threshold windowMs) kept packets := by
  induction packets generalizing m kept with
  | nil => rfl
  | cons p packets ih =>
    obtain ⟨hverdict, hnext⟩ := @Mirrors.packet threshold windowMs m kept h p
    rw [verdicts, verdicts, hverdict, ih hnext]

/-- From an empty map on, no entry is ever at zero. -/
theorem Mirrors.trackPackets (h : Mirrors m.connTrack kept) (packets : List ConnPacket) :
    ∃ kept', Mirrors (trackPackets threshold windowMs m packets).connTrack kept' := by
  induction packets generalizing m kept with
  | nil => exact ⟨kept, h⟩
  | cons p packets ih => exact ih (h.packet p).2

theorem mirrors_empty : Mirrors .empty fun _ => { lastSeenNs := 0, halfOpen := 0 } where
  present _ _ he := by cases he
  absent _ _ := rfl

/-! ## The count as a walk -/

/-- The source has been silent for longer than the window. -/
def SilentFor (windowNs last nowNs : UInt64) : Prop :=
  windowNs ≠ 0 ∧ nowNs.saturatingSub last > windowNs

instance (windowNs : UInt64) : DecidableRel (SilentFor windowNs) :=
  fun _ _ => inferInstanceAs (Decidable (_ ∧ _))

def ConnPacket.event (p : ConnPacket) : Event UInt64 :=
  { time := p.nowNs, up := isSynFlags p.tcpFlags }

/-- The counted packets of a source. -/
def ownEvents (src : IpKey) (packets : List ConnPacket) : List (Event UInt64) :=
  (packets.filter fun p => p.src = src ∧ p.counted).map ConnPacket.event

/-- The entry of the source is at most where the walk is after `n` events, and is there unless it has
been capped. -/
structure Follows (connTrack : LruHashMap IpKey ConnTrackEntry) (src : IpKey) (s : State UInt64)
    (n : Nat) : Prop where
  le : (entryOf connTrack src).halfOpen.toNat ≤ s.height
  eq : n < 2 ^ 32 → (entryOf connTrack src).halfOpen.toNat = s.height
  bound : s.height ≤ n
  last : ∀ e, connTrack src = some e → e.lastSeenNs = s.last

variable {s : State UInt64} {n : Nat}

/-- The count that a packet finds. -/
def restarted (windowNs nowNs : UInt64) (entry : ConnTrackEntry) : UInt32 :=
  if SilentFor windowNs entry.lastSeenNs nowNs then 0 else entry.halfOpen

theorem trackStep_halfOpen (h : p.counted = true) (entry : ConnTrackEntry) :
    (trackStep threshold windowMs entry p).halfOpen =
      if isSynFlags p.tcpFlags then (restarted (msToNs windowMs) p.nowNs entry).saturatingAdd 1
      else (restarted (msToNs windowMs) p.nowNs entry).saturatingSub 1 := by
  rcases Bool.or_eq_true _ _ ▸ h with hsyn | hack
  · simp only [trackStep, connTrackStep, hsyn]
    rfl
  · simp only [trackStep, connTrackStep, hack]
    rfl

/-- The entry and the walk restart together, or are both at zero. -/
theorem Follows.restarted (h : Follows m.connTrack src s n) (windowNs nowNs : UInt64) :
    (restarted windowNs nowNs (entryOf m.connTrack src)).toNat ≤
        (if SilentFor windowNs s.last nowNs then 0 else s.height) ∧
      (n < 2 ^ 32 → (Ebpf.restarted windowNs nowNs (entryOf m.connTrack src)).toNat =
        if SilentFor windowNs s.last nowNs then 0 else s.height) := by
  have heq := h.eq
  have hle := h.le
  rw [Ebpf.restarted]
  cases hentry : m.connTrack src with
  | none =>
    rw [entryOf, hentry] at heq ⊢
    rw [Option.getD_none, ite_self]
    refine ⟨Nat.zero_le _, fun hn => ?_⟩
    rw [← heq hn]
    exact (ite_self _).symm
  | some e =>
    rw [entryOf, hentry] at heq hle ⊢
    rw [Option.getD_some, h.last e hentry]
    split
    · exact ⟨Nat.le_refl _, fun _ => rfl⟩
    · exact ⟨hle, heq⟩

theorem entryOf_trackPacket (hcounted : p.counted = true) :
    (entryOf (trackPacket threshold windowMs m p).2.connTrack p.src).halfOpen =
      (trackStep threshold windowMs (entryOf m.connTrack p.src) p).halfOpen := by
  rw [entryOf, trackPacket_self hcounted]
  split
  · rename_i hzero
    exact hzero.symm
  · rfl

/-- A packet of the source takes the entry along with the walk. -/
theorem Follows.packet (h : Follows m.connTrack p.src s n) (hcounted : p.counted = true) :
    Follows (trackPacket threshold windowMs m p).2.connTrack p.src
      (next (SilentFor (msToNs windowMs)) s p.event) (n + 1) := by
  obtain ⟨hle, heq⟩ := h.restarted (msToNs windowMs) p.nowNs
  have hbase : (if SilentFor (msToNs windowMs) s.last p.nowNs then 0 else s.height) ≤ n := by
    have hbound := h.bound
    split <;> omega
  have hevent : p.event.time = p.nowNs ∧ p.event.up = isSynFlags p.tcpFlags := ⟨rfl, rfl⟩
  generalize hheight : (if SilentFor (msToNs windowMs) s.last p.nowNs then 0 else s.height) = height
    at hle heq hbase
  have hnext : (next (SilentFor (msToNs windowMs)) s p.event).height =
      if isSynFlags p.tcpFlags then height + 1 else height - 1 := by
    rw [next, hevent.1, hevent.2, hheight]
  have hhalf : (entryOf (trackPacket threshold windowMs m p).2.connTrack p.src).halfOpen = _ :=
    (entryOf_trackPacket hcounted).trans (trackStep_halfOpen hcounted _)
  refine ⟨?_, fun hn => ?_, ?_, fun e he => ?_⟩
  · rw [hhalf, hnext]
    split
    · rw [UInt32.toNat_saturatingAdd]
      exact (min_le_left _ _).trans (Nat.add_le_add_right hle 1)
    · rw [UInt32.toNat_saturatingSub]
      exact Nat.sub_le_sub_right hle 1
  · rw [hhalf, hnext]
    have heq := heq (by omega)
    split
    · rw [UInt32.toNat_saturatingAdd, heq]
      refine min_eq_left ?_
      show height + 1 ≤ 2 ^ 32 - 1
      omega
    · rw [UInt32.toNat_saturatingSub, heq]
      rfl
  · rw [hnext]
    split <;> omega
  · rw [trackPacket_self hcounted] at he
    split at he
    · cases he
    · cases he
      rfl

/-- A packet that the module does not look at, or of another source, changes nothing for it. -/
theorem Follows.frame (h : Follows m.connTrack src s n)
    (hother : ¬ (p.src = src ∧ p.counted = true)) :
    Follows (trackPacket threshold windowMs m p).2.connTrack src s n := by
  have hsame : (trackPacket threshold windowMs m p).2.connTrack src = m.connTrack src := by
    by_cases hsrc : src = p.src
    · have hnot : p.counted = false := by
        rw [← Bool.not_eq_true]
        exact fun hcounted => hother ⟨hsrc.symm, hcounted⟩
      rw [trackPacket_of_not_counted hnot]
    · exact trackPacket_of_ne hsrc
  refine ⟨?_, ?_, h.bound, fun e he => h.last e (hsame ▸ he)⟩
  · rw [entryOf, hsame]
    exact h.le
  · rw [entryOf, hsame]
    exact h.eq

theorem ownEvents_snoc (packets : List ConnPacket) (p : ConnPacket) :
    ownEvents src (packets ++ [p]) =
      if p.src = src ∧ p.counted = true then ownEvents src packets ++ [p.event]
      else ownEvents src packets := by
  rw [ownEvents, List.filter_append, List.map_append, List.filter_singleton]
  by_cases h : p.src = src ∧ p.counted = true
  · rw [if_pos h, decide_eq_true h, cond_true]
    rfl
  · rw [if_neg h, decide_eq_false h, cond_false, List.map_nil, List.append_nil]
    rfl

/-- A source not seen so far. -/
def unseen : State UInt64 := { height := 0, last := 0 }

/-- After any packets of any sources. -/
theorem follows_trackPackets (hnew : m.connTrack src = none) (packets : List ConnPacket) :
    Follows (trackPackets threshold windowMs m packets).connTrack src
      (walk (SilentFor (msToNs windowMs)) unseen (ownEvents src packets))
      (ownEvents src packets).length := by
  induction packets using List.reverseRecOn with
  | nil =>
    have hzero : (entryOf m.connTrack src).halfOpen = 0 := by
      rw [entryOf, hnew]
      rfl
    refine ⟨?_, fun _ => ?_, Nat.le_refl _, fun e he => ?_⟩
    · show (entryOf m.connTrack src).halfOpen.toNat ≤ 0
      rw [hzero]
      exact Nat.le_refl 0
    · show (entryOf m.connTrack src).halfOpen.toNat = 0
      rw [hzero]
      rfl
    · cases hnew.symm.trans he
  | append_singleton packets p ih =>
    have hrun : trackPackets threshold windowMs m (packets ++ [p]) =
        (trackPacket threshold windowMs (trackPackets threshold windowMs m packets) p).2 := by
      rw [trackPackets, List.foldl_append]
      rfl
    rw [hrun, ownEvents_snoc]
    by_cases hown : p.src = src ∧ p.counted = true
    · obtain ⟨rfl, hcounted⟩ := hown
      rw [if_pos ⟨rfl, hcounted⟩, walk_snoc, List.length_append]
      exact ih.packet hcounted
    · rw [if_neg hown]
      exact ih.frame hown

theorem ownEvents_append (pre post : List ConnPacket) :
    ownEvents src (pre ++ post) = ownEvents src pre ++ ownEvents src post := by
  rw [ownEvents, List.filter_append, List.map_append]
  rfl

/-- The entry after a counted packet decides about it. -/
theorem trackPacket_drop (hcounted : p.counted = true) :
    (trackPacket threshold windowMs m p).1 =
      decide
        ((entryOf (trackPacket threshold windowMs m p).2.connTrack p.src).halfOpen > threshold) := by
  rw [entryOf_trackPacket hcounted, trackPacket_of_counted hcounted]
  rfl

theorem counted_of_drop (h : (trackPacket threshold windowMs m p).1 = true) : p.counted = true := by
  cases hcounted : p.counted with
  | true => rfl
  | false =>
    rw [trackPacket_of_not_counted hcounted] at h
    cases h

theorem trackPackets_snoc (packets : List ConnPacket) (p : ConnPacket) :
    trackPackets threshold windowMs m (packets ++ [p]) =
      (trackPacket threshold windowMs (trackPackets threshold windowMs m packets) p).2 := by
  rw [trackPackets, List.foldl_append]
  rfl

/-- A dropped packet takes the walk over the threshold. -/
theorem lt_height_of_drop {pre : List ConnPacket} (hnew : m.connTrack p.src = none)
    (hdrop : (trackPacket threshold windowMs (trackPackets threshold windowMs m pre) p).1 = true) :
    threshold.toNat <
      (walk (SilentFor (msToNs windowMs)) unseen (ownEvents p.src (pre ++ [p]))).height := by
  have hfollows := @follows_trackPackets threshold windowMs m p.src hnew (pre ++ [p])
  rw [trackPacket_drop (counted_of_drop hdrop), decide_eq_true_eq, ← trackPackets_snoc] at hdrop
  exact Nat.lt_of_lt_of_le (UInt32.lt_iff_toNat_lt.1 hdrop) hfollows.le

/-! ## What removing entries does not change -/

/-- Removing entries at zero leaves the verdicts as they are, and a source whose unanswered SYNs never
exceed the threshold loses no packet. The map has room for every source here: it never evicts. -/
theorem removal_invisible (hempty : m.connTrack = .empty) (packets : List ConnPacket) :
    verdicts (trackPacket threshold windowMs) m packets =
        verdicts (keepPacket threshold windowMs) (fun _ => { lastSeenNs := 0, halfOpen := 0 })
          packets ∧
      (∀ pre, pre <+: packets → ∀ src e,
        (trackPackets threshold windowMs m pre).connTrack src = some e → e.halfOpen ≠ 0) ∧
      ∀ src answers, Matching (ownEvents src packets) answers →
        (∀ n ≤ (ownEvents src packets).length,
          (unanswered (ownEvents src packets) answers n).card ≤ threshold.toNat) →
        ∀ pre p post, packets = pre ++ p :: post → p.src = src →
          (trackPacket threshold windowMs (trackPackets threshold windowMs m pre) p).1 = false := by
  have hmirrors : Mirrors m.connTrack fun _ => { lastSeenNs := 0, halfOpen := 0 } :=
    hempty ▸ mirrors_empty
  refine ⟨hmirrors.verdicts_eq packets, fun pre _ src e he => ?_, ?_⟩
  · obtain ⟨kept, hkept⟩ := @Mirrors.trackPackets threshold windowMs m _ hmirrors pre
    exact (hkept.present src e he).1
  · rintro src answers hmatch hfew pre p post rfl rfl
    rw [← Bool.not_eq_true]
    intro hdrop
    have hover := lt_height_of_drop (by rw [hempty]; rfl) hdrop
    have hsplit : ownEvents p.src (pre ++ p :: post) =
        ownEvents p.src (pre ++ [p]) ++ ownEvents p.src post := by
      rw [← ownEvents_append, List.append_assoc, List.singleton_append]
    have hlen : (ownEvents p.src (pre ++ [p])).length ≤
        (ownEvents p.src (pre ++ p :: post)).length := by
      rw [hsplit, List.length_append]
      omega
    have hheight : (walk (SilentFor (msToNs windowMs)) unseen _).height ≤ _ :=
      height_le_unanswered rfl hmatch hlen
    have hkept := hfew _ hlen
    rw [hsplit, List.take_left, ← hsplit] at hheight
    omega

/-- A packet with these flags, `ms` milliseconds after the start. -/
def packetAt (tcpFlags : UInt8) (ms : UInt64) : ConnPacket :=
  { src := .fromIpv4 1, tcpFlags := tcpFlags, nowNs := ms * 1000000 }

/-- A SYN, its ACK, and another SYN, with a threshold of one. -/
theorem removal_invisible_answered :
    (trackPacket 1 1000
      (trackPackets 1 1000 {} [packetAt TCP_FLAG_SYN 1000, packetAt TCP_FLAG_ACK 1500])
      (packetAt TCP_FLAG_SYN 1900)).1 = false := by
  let answers : Nat → Option Nat := fun j => if j = 1 then some 0 else none
  have hmatch : Matching (ownEvents (.fromIpv4 1)
      [packetAt TCP_FLAG_SYN 1000, packetAt TCP_FLAG_ACK 1500, packetAt TCP_FLAG_SYN 1900])
      answers := by
    refine ⟨fun i j h => ?_, fun i j h => ?_⟩
    · have hj : j = 1 := by by_contra hne; cases (if_neg hne).symm.trans h
      subst hj
      cases h
      decide
    · have hj : j = 1 := by by_contra hne; cases (if_neg hne).symm.trans h
      subst hj
      exact ⟨_, rfl, by decide +kernel⟩
  exact (removal_invisible rfl _).2.2 (.fromIpv4 1) answers hmatch (by decide +kernel)
    [packetAt TCP_FLAG_SYN 1000, packetAt TCP_FLAG_ACK 1500] (packetAt TCP_FLAG_SYN 1900) [] rfl rfl

/-! ## What the window has to do with it -/

/-- The SYNs of the source between `windowNs` before `t` and `t`. -/
def synsWithin (src : IpKey) (windowNs t : UInt64) (packets : List ConnPacket) : Nat :=
  packets.countP fun p => p.src = src ∧ isSynFlags p.tcpFlags = true ∧
    t.toNat ≤ p.nowNs.toNat + windowNs.toNat ∧ p.nowNs ≤ t

/-- The SYN has left the window at `t`. -/
def Expired (windowNs t : UInt64) (e : Event UInt64) : Prop :=
  e.up = true ∧ e.time.toNat + windowNs.toNat < t.toNat

instance (windowNs t : UInt64) (e : Event UInt64) : Decidable (Expired windowNs t e) :=
  inferInstanceAs (Decidable (_ ∧ _))

def Recent (windowNs t : UInt64) (e : Event UInt64) : Prop :=
  e.up = true ∧ t.toNat ≤ e.time.toNat + windowNs.toNat

instance (windowNs t : UInt64) (e : Event UInt64) : Decidable (Recent windowNs t e) :=
  inferInstanceAs (Decidable (_ ∧ _))

/-- In every stretch of a source's packets without a pause longer than the window, the ACKs and RSTs
answer for the SYNs that have left the window at its end. -/
def SynsAnswered (windowNs : UInt64) (es : List (Event UInt64)) : Prop :=
  ∀ before stretch last after, es = before ++ (stretch ++ [last]) ++ after →
    Unbroken (SilentFor windowNs) (stretch ++ [last]) →
      (stretch ++ [last]).countP (Expired windowNs last.time ·) ≤ downs (stretch ++ [last])

/-- A drop for this threshold is due to the SYNs of the window. -/
def DropsByWindow (threshold : UInt32) (windowMs : UInt64) (m : Maps) (src : IpKey)
    (packets : List ConnPacket) : Prop :=
  ∀ pre p post, packets = pre ++ p :: post → p.src = src →
    (trackPacket threshold windowMs (trackPackets threshold windowMs m pre) p).1 = true →
      threshold.toNat < synsWithin src (msToNs windowMs) p.nowNs (pre ++ [p])

theorem ups_eq_expired_add_recent (windowNs t : UInt64) (es : List (Event UInt64)) :
    ups es = es.countP (Expired windowNs t ·) + es.countP (Recent windowNs t ·) := by
  induction es with
  | nil => rfl
  | cons e es ih =>
    have hcons : ∀ q : Event UInt64 → Bool, (e :: es).countP q = es.countP q + if q e then 1 else 0 :=
      fun q => List.countP_cons
    rw [ups] at ih ⊢
    rw [hcons, hcons, hcons, ih]
    have hsplit : (if e.up then 1 else 0) =
        (if decide (Expired windowNs t e) then 1 else 0) +
          if decide (Recent windowNs t e) then 1 else 0 := by
      by_cases hup : e.up = true
      · by_cases h : e.time.toNat + windowNs.toNat < t.toNat
        · have hnot : ¬ Recent windowNs t e := fun hr => absurd hr.2 (Nat.not_le.2 h)
          rw [if_pos hup, if_pos (decide_eq_true ⟨hup, h⟩), if_neg (mt of_decide_eq_true hnot)]
        · have hnot : ¬ Expired windowNs t e := fun hr => h hr.2
          rw [if_pos hup, if_neg (mt of_decide_eq_true hnot),
            if_pos (decide_eq_true ⟨hup, Nat.not_lt.1 h⟩)]
      · have hexpired : ¬ Expired windowNs t e := fun hr => hup hr.1
        have hrecent : ¬ Recent windowNs t e := fun hr => hup hr.1
        rw [if_neg hup, if_neg (mt of_decide_eq_true hexpired),
          if_neg (mt of_decide_eq_true hrecent)]
    omega

/-- The SYNs of the window, among the source's packets up to `t`. -/
theorem synsWithin_eq {windowNs t : UInt64} {packets : List ConnPacket}
    (hle : ∀ e ∈ ownEvents src packets, e.time ≤ t) :
    synsWithin src windowNs t packets =
      (ownEvents src packets).countP (Recent windowNs t ·) := by
  have hcount : (ownEvents src packets).countP (Recent windowNs t ·) =
      (ownEvents src packets).countP fun e => Recent windowNs t e ∧ e.time ≤ t := by
    refine List.countP_congr fun e he => ?_
    simp only [decide_eq_true_eq]
    exact ⟨fun h => ⟨h, hle e he⟩, fun h => h.1⟩
  rw [hcount, ownEvents, List.countP_map, List.countP_filter, synsWithin]
  refine List.countP_congr fun p _ => ?_
  rw [decide_eq_true_eq, Bool.and_eq_true, Function.comp, decide_eq_true_eq, decide_eq_true_eq]
  constructor
  · rintro ⟨hsrc, hsyn, hge, hle⟩
    exact ⟨⟨⟨hsyn, hge⟩, hle⟩, hsrc, by rw [ConnPacket.counted, hsyn, Bool.true_or]⟩
  · rintro ⟨⟨⟨hsyn, hge⟩, hle⟩, hsrc, -⟩
    exact ⟨hsrc, hsyn, hge, hle⟩

section window

variable {packets : List ConnPacket}

/-- The source's packets come in the order of their times. -/
def InOrder (es : List (Event UInt64)) : Prop := es.Pairwise fun e e' => e.time ≤ e'.time

/-- In order, the packets up to a counted one are not later than it. -/
theorem InOrder.le_last {es : List (Event UInt64)} {last : Event UInt64}
    (h : InOrder (es ++ [last])) : ∀ e ∈ es ++ [last], e.time ≤ last.time := by
  intro e he
  rcases List.mem_append.1 he with he | he
  · exact (List.pairwise_append.1 h).2.2 e he last (List.mem_singleton_self last)
  · rw [List.mem_singleton.1 he]

theorem InOrder.init {es es' : List (Event UInt64)} (h : InOrder (es ++ es')) : InOrder es :=
  (List.pairwise_append.1 h).1

/-- Answered SYNs: what takes the walk over the threshold are SYNs of the window. -/
theorem dropsByWindow_of_answered (hnew : m.connTrack src = none)
    (hord : InOrder (ownEvents src packets))
    (hanswered : SynsAnswered (msToNs windowMs) (ownEvents src packets)) (threshold : UInt32) :
    DropsByWindow threshold windowMs m src packets := by
  rintro pre p post rfl rfl hdrop
  have hown : ownEvents p.src (pre ++ [p]) = ownEvents p.src pre ++ [p.event] := by
    rw [ownEvents_snoc, if_pos ⟨rfl, counted_of_drop hdrop⟩]
  have hsplit : ownEvents p.src (pre ++ p :: post) =
      ownEvents p.src (pre ++ [p]) ++ ownEvents p.src post := by
    rw [← ownEvents_append, List.append_assoc, List.singleton_append]
  rw [hsplit] at hord
  have hle : ∀ e ∈ ownEvents p.src (pre ++ [p]), e.time ≤ p.nowNs := by
    have hord := hord.init
    rw [hown] at hord ⊢
    exact hord.le_last
  have hover := lt_height_of_drop hnew hdrop
  obtain ⟨before, stretch, heq, hunbroken, hheight⟩ :=
    @exists_stretch _ (SilentFor (msToNs windowMs)) _ unseen rfl (ownEvents p.src (pre ++ [p]))
  -- the stretch is not empty, so it ends with this packet
  have hsnoc : ∃ stretch', stretch = stretch' ++ [p.event] := by
    cases stretch using List.reverseRecOn with
    | nil =>
      simp only [ups, downs, List.countP_nil] at hheight
      omega
    | append_singleton stretch' last =>
      rw [hown, ← List.append_assoc] at heq
      exact ⟨stretch', by rw [(List.append_inj' heq rfl).2]⟩
  obtain ⟨stretch', rfl⟩ := hsnoc
  have hfew := hanswered before stretch' p.event (ownEvents p.src post)
    (by rw [hsplit, heq]) hunbroken
  rw [ups_eq_expired_add_recent (msToNs windowMs) p.nowNs] at hheight
  rw [synsWithin_eq hle, heq, List.countP_append]
  have htime : p.event.time = p.nowNs := rfl
  rw [htime] at hfew
  omega

/-- A counted packet of the source splits the packets where its event splits the events. -/
theorem exists_packet {before after : List (Event UInt64)} {e : Event UInt64}
    (h : ownEvents src packets = before ++ e :: after) :
    ∃ pre p post, packets = pre ++ p :: post ∧ p.src = src ∧ p.counted = true ∧ p.event = e ∧
      ownEvents src pre = before := by
  rw [ownEvents, List.map_eq_append_iff] at h
  obtain ⟨l₁, l₂, hfilter, hbefore, hafter⟩ := h
  obtain ⟨pre, tail, rfl, hpre, htail⟩ := List.filter_eq_append_iff.1 hfilter
  rw [List.map_eq_cons_iff] at hafter
  obtain ⟨p, l₃, rfl, rfl, -⟩ := hafter
  obtain ⟨others, post, rfl, hothers, hp, -⟩ := List.filter_eq_cons_iff.1 htail
  obtain ⟨hsrc, hcounted⟩ := of_decide_eq_true hp
  refine ⟨pre ++ others, p, post, by rw [List.append_assoc], hsrc, hcounted, rfl, ?_⟩
  have hnone : others.filter (fun p => p.src = src ∧ p.counted = true) = [] :=
    List.filter_eq_nil_iff.2 hothers
  rw [ownEvents, List.filter_append, hnone, List.append_nil, hpre, hbefore]

/-- Unanswered SYNs that have left the window exceed some threshold without the window. -/
theorem answered_of_dropsByWindow (hnew : m.connTrack src = none)
    (hord : InOrder (ownEvents src packets)) (hfew : (ownEvents src packets).length < 2 ^ 32)
    (hall : ∀ threshold, DropsByWindow threshold windowMs m src packets) :
    SynsAnswered (msToNs windowMs) (ownEvents src packets) := by
  intro before stretch last after heq hunbroken
  by_contra hmany
  rw [Nat.not_le] at hmany
  have heq' : ownEvents src packets = (before ++ stretch) ++ last :: after := by
    rw [heq, ← List.append_assoc, List.append_assoc, List.singleton_append]
  obtain ⟨pre, p, post, rfl, rfl, hcounted, rfl, hpre⟩ := exists_packet heq'
  have hown : ownEvents p.src (pre ++ [p]) = before ++ (stretch ++ [p.event]) := by
    rw [ownEvents_snoc, if_pos ⟨rfl, hcounted⟩, hpre, List.append_assoc]
  rw [heq, ← hown] at hord
  have hle : ∀ e ∈ ownEvents p.src (pre ++ [p]), e.time ≤ p.nowNs := by
    have hord := hord.init
    rw [hown, ← List.append_assoc] at hord ⊢
    exact hord.le_last
  -- what came before the stretch is older than a SYN of it that has left the window
  have hold : before.countP (Recent (msToNs windowMs) p.nowNs ·) = 0 := by
    obtain ⟨e, he, hexpired⟩ := List.countP_pos_iff.1 (Nat.lt_of_le_of_lt (Nat.zero_le _) hmany)
    refine List.countP_eq_zero.2 fun e' he' hrecent => ?_
    rw [decide_eq_true_eq] at hexpired hrecent
    have hord := hord.init
    rw [hown] at hord
    have hearlier := UInt64.le_iff_toNat_le.1 ((List.pairwise_append.1 hord).2.2 e' he' e he)
    have hexpired := hexpired.2
    have hrecent := hrecent.2
    rw [show p.event.time = p.nowNs from rfl] at hexpired
    omega
  have hstretch := @stretch_le _ _ _ unseen before _ hunbroken
  rw [ups_eq_expired_add_recent (msToNs windowMs) p.nowNs, ← hown] at hstretch
  rw [show p.event.time = p.nowNs from rfl] at hmany
  have hlen : (ownEvents p.src (pre ++ [p])).length < 2 ^ 32 := by
    rw [heq, ← hown, List.length_append] at hfew
    omega
  have hwindow : synsWithin p.src (msToNs windowMs) p.nowNs (pre ++ [p]) =
      (stretch ++ [p.event]).countP (Recent (msToNs windowMs) p.nowNs ·) := by
    rw [synsWithin_eq hle, hown, List.countP_append, hold, Nat.zero_add]
  -- the threshold that the window just reaches
  let threshold := UInt32.ofNat (synsWithin p.src (msToNs windowMs) p.nowNs (pre ++ [p]))
  have hthreshold : threshold.toNat = synsWithin p.src (msToNs windowMs) p.nowNs (pre ++ [p]) := by
    refine UInt32.toNat_ofNat_of_lt' (Nat.lt_of_le_of_lt ?_ hlen)
    rw [synsWithin_eq hle]
    exact List.countP_le_length
  have hheight : (entryOf (trackPackets threshold windowMs m (pre ++ [p])).connTrack
      p.src).halfOpen.toNat = _ := (follows_trackPackets hnew (pre ++ [p])).eq hlen
  have hdrop : (trackPacket threshold windowMs (trackPackets threshold windowMs m pre) p).1 = true := by
    rw [trackPacket_drop hcounted, ← trackPackets_snoc, decide_eq_true_eq]
    refine UInt32.lt_iff_toNat_lt.2 ?_
    rw [hheight, hthreshold, hwindow]
    omega
  have hwithin := hall threshold pre p post rfl rfl hdrop
  omega

/-- The module counts the window's SYNs exactly if the ACKs and RSTs answer for all others. -/
theorem conn_track_counts_window (hnew : m.connTrack src = none)
    (hord : InOrder (ownEvents src packets)) :
    (SynsAnswered (msToNs windowMs) (ownEvents src packets) →
        ∀ threshold, DropsByWindow threshold windowMs m src packets) ∧
      ((ownEvents src packets).length < 2 ^ 32 →
        (∀ threshold, DropsByWindow threshold windowMs m src packets) →
          SynsAnswered (msToNs windowMs) (ownEvents src packets)) :=
  ⟨dropsByWindow_of_answered hnew hord, answered_of_dropsByWindow hnew hord⟩

end window

/-- Within one window there is nothing to answer for. -/
theorem synsAnswered_of_recent {windowNs : UInt64} {es : List (Event UInt64)}
    (h : ∀ last ∈ es, ∀ e ∈ es, ¬ Expired windowNs last.time e) : SynsAnswered windowNs es := by
  rintro before stretch last after rfl -
  have hzero : (stretch ++ [last]).countP (Expired windowNs last.time ·) = 0 := by
    refine List.countP_eq_zero.2 fun e he hexpired => ?_
    exact h last (by simp) e (List.mem_append_left _ (List.mem_append_right _ he))
      (of_decide_eq_true hexpired)
  rw [hzero]
  exact Nat.zero_le _

/-- Three packets of one window. -/
theorem conn_track_counts_window_second :
    DropsByWindow 1 1000 {} (.fromIpv4 1)
      [packetAt TCP_FLAG_SYN 1000, packetAt TCP_FLAG_ACK 1500, packetAt TCP_FLAG_SYN 1900] :=
  (conn_track_counts_window rfl (by unfold InOrder; decide +kernel)).1
    (synsAnswered_of_recent (by decide +kernel)) 1

/-- Three SYNs, 900 milliseconds apart: the third is dropped by a threshold of two, with two SYNs in
the window of a second. -/
theorem lingering_syn_drops :
    ¬ DropsByWindow 2 1000 {} (.fromIpv4 1)
      [packetAt TCP_FLAG_SYN 1000, packetAt TCP_FLAG_SYN 1900, packetAt TCP_FLAG_SYN 2800] := by
  intro h
  have hwindow := h [packetAt TCP_FLAG_SYN 1000, packetAt TCP_FLAG_SYN 1900]
    (packetAt TCP_FLAG_SYN 2800) [] rfl rfl (by decide +kernel)
  exact absurd hwindow (by decide +kernel)

end EShield.Ebpf
