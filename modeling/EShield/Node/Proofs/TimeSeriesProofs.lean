import EShield.Node.TimeSeries

/-!
# The metrics series survives restarts

The window holds the newest points of the history, in order of time, and every point of the history that
the window dropped has been written before; so a restart brings back the newest of those that were
written, within the retention period.
-/

namespace EShield.Node

open Exec TimeSeriesWindow

variable {w w' : SeriesRun} {window : TimeSeriesWindow} {r : StatsReading} {nowS since : UInt64}

/-- In order of time, one point for each second. -/
def Ascending (points : List MetricPoint) : Prop :=
  points.Pairwise fun p q => p.timestamp < q.timestamp

instance : Std.Irrefl fun p q : MetricPoint => p.timestamp < q.timestamp :=
  ⟨fun p => lt_irrefl p.timestamp⟩

instance : Std.Antisymm fun p q : MetricPoint => p.timestamp < q.timestamp :=
  ⟨fun _ _ hpq hqp => absurd hpq (lt_asymm hqp)⟩

theorem saturatingSub_mono {a b : UInt64} (h : a ≤ b) (c : UInt64) :
    a.saturatingSub c ≤ b.saturatingSub c := by
  rw [UInt64.le_iff_toNat_le] at *
  rw [UInt64.toNat_saturatingSub, UInt64.toNat_saturatingSub]
  exact Nat.sub_le_sub_right h _

/-! ## The table -/

/-- The rows of the table from `since` on are `points`. -/
def Holds (table : TimeSeriesTable) (since : UInt64) (points : List MetricPoint) : Prop :=
  ∀ timestamp, since ≤ timestamp →
    ∀ p, table[timestamp]? = some p ↔ p ∈ points ∧ p.timestamp = timestamp

theorem loadTimeseries_eq {table : TimeSeriesTable} {points : List MetricPoint}
    (h : Holds table since points) (hascending : Ascending points)
    (hsince : ∀ p ∈ points, since ≤ p.timestamp) : table.loadTimeseries since = points := by
  have hrow : ∀ e, e ∈ table.toList.filter (fun e => decide (e.1 ≥ since)) ↔
      e.2 ∈ points ∧ e.2.timestamp = e.1 := by
    intro e
    rw [List.mem_filter, Std.ExtTreeMap.mem_toList_iff_getElem?_eq_some, decide_eq_true_iff]
    constructor
    · rintro ⟨hget, hge⟩
      exact (h e.1 hge e.2).1 hget
    · rintro ⟨hmem, hts⟩
      have hge : since ≤ e.1 := hts ▸ hsince e.2 hmem
      exact ⟨(h e.1 hge e.2).2 ⟨hmem, hts⟩, hge⟩
  have hsorted : Ascending ((table.toList.filter fun e => decide (e.1 ≥ since)).map Prod.snd) := by
    rw [Ascending, List.pairwise_map]
    refine (Std.ExtTreeMap.ordered_keys_toList.sublist List.filter_sublist).imp_of_mem ?_
    intro a b ha hb hab
    rw [((hrow a).1 ha).2, ((hrow b).1 hb).2]
    exact Std.compare_eq_lt.1 hab
  have heq : (table.toList.filter fun e => decide (e.1 ≥ since)).map Prod.snd = points := by
    refine hsorted.eq_of_mem_iff hascending fun p => ?_
    rw [List.mem_map]
    constructor
    · rintro ⟨e, he, rfl⟩
      exact ((hrow e).1 he).1
    · intro hp
      exact ⟨(p.timestamp, p), (hrow _).2 ⟨hp, rfl⟩, rfl⟩
  rw [TimeSeriesTable.loadTimeseries, heq]
  refine List.mergeSort_of_pairwise (hascending.imp fun hlt => ?_)
  exact decide_eq_true (le_of_lt hlt)

theorem getElem?_saveTimeseries {points : List MetricPoint} (hascending : Ascending points)
    (table : TimeSeriesTable) (timestamp : UInt64) (p : MetricPoint) :
    (table.saveTimeseries points)[timestamp]? = some p ↔
      (p ∈ points ∧ p.timestamp = timestamp) ∨
        ((∀ q ∈ points, q.timestamp ≠ timestamp) ∧ table[timestamp]? = some p) := by
  induction points generalizing table with
  | nil => simp [TimeSeriesTable.saveTimeseries]
  | cons q points ih =>
    obtain ⟨hlater, hrest⟩ := List.pairwise_cons.1 hascending
    rw [TimeSeriesTable.saveTimeseries, List.foldl_cons, ← TimeSeriesTable.saveTimeseries, ih hrest,
      Std.ExtTreeMap.getElem?_insert]
    simp only [Std.LawfulEqOrd.compare_eq_iff_eq]
    by_cases hq : q.timestamp = timestamp
    · subst hq
      have hne : ∀ q' ∈ points, q'.timestamp ≠ q.timestamp := fun q' hq' => (hlater q' hq').ne'
      rw [if_pos rfl, Option.some.injEq, List.mem_cons]
      constructor
      · rintro (⟨hp, hts⟩ | ⟨-, rfl⟩)
        · exact absurd hts (hne p hp)
        · exact .inl ⟨.inl rfl, rfl⟩
      · rintro (⟨rfl | hp, hts⟩ | ⟨hall, -⟩)
        · exact .inr ⟨hne, rfl⟩
        · exact absurd hts (hne p hp)
        · exact absurd rfl (hall q List.mem_cons_self)
    · rw [if_neg hq, List.mem_cons, List.forall_mem_cons]
      constructor
      · rintro (⟨hp, hts⟩ | ⟨hall, hget⟩)
        · exact .inl ⟨.inr hp, hts⟩
        · exact .inr ⟨⟨hq, hall⟩, hget⟩
      · rintro (⟨rfl | hp, hts⟩ | ⟨⟨-, hall⟩, hget⟩)
        · exact absurd hts hq
        · exact .inl ⟨hp, hts⟩
        · exact .inr ⟨hall, hget⟩

theorem getElem?_pruneTimeseries {before timestamp : UInt64} (h : before ≤ timestamp)
    (table : TimeSeriesTable) : (table.pruneTimeseries before)[timestamp]? = table[timestamp]? := by
  rw [TimeSeriesTable.pruneTimeseries, Std.ExtTreeMap.getElem?_filter']
  cases table[timestamp]? with
  | none => rfl
  | some p => simp [Option.filter, h]

/-! ## The history -/

/-- What is known of a run of the series. -/
structure Kept (w : SeriesRun) : Prop where
  capacity : w.window.capacity = 8640
  clock : 0 < w.clockS
  ascending : Ascending w.history
  bound : ∀ p ∈ w.history, 0 < p.timestamp ∧ p.timestamp ≤ w.clockS
  /-- What the window has dropped has been written. -/
  older : ∃ older, w.history = older ++ w.window.slots ∧
    (∀ p ∈ older, p.timestamp ≤ w.lastPersistedTs) ∧
    (older ≠ [] → w.window.slots.length = 8640)
  length : w.window.slots.length ≤ 8640
  head : w.window.headTimestamp = w.window.lastTimestamp
  persisted : w.lastPersistedTs ≤ w.window.lastTimestamp
  table : Holds w.table (w.clockS.saturatingSub w.retentionS)
    (w.history.filter fun p => p.timestamp ≤ w.lastPersistedTs)

/-- The window holds the newest points of the history. -/
theorem Kept.slots_eq (hw : Kept w) : w.window.slots = w.history.rtake 8640 := by
  obtain ⟨older, hhistory, -, hfull⟩ := hw.older
  rw [hhistory, List.rtake, List.length_append]
  by_cases hempty : older = []
  · have hle := hw.length
    rw [hempty, List.nil_append, List.length_nil,
      show 0 + w.window.slots.length - 8640 = 0 by omega, List.drop_zero]
  · rw [hfull hempty, Nat.add_sub_cancel, List.drop_left]

theorem le_getLast {points : List MetricPoint} (hascending : Ascending points) {last p : MetricPoint}
    (hlast : points.getLast? = some last) (hp : p ∈ points) : p.timestamp ≤ last.timestamp := by
  obtain ⟨init, rfl⟩ := List.getLast?_eq_some_iff.1 hlast
  rcases List.mem_append.1 hp with hinit | hlast'
  · exact ((List.pairwise_append.1 hascending).2.2 p hinit last List.mem_cons_self).le
  · rw [List.mem_singleton.1 hlast']

/-- The time of the newest slot is that of one of them, the last one. -/
theorem lastTimestamp_cases (window : TimeSeriesWindow) :
    (window.slots = [] ∧ window.lastTimestamp = 0) ∨
      ∃ last, window.slots.getLast? = some last ∧ window.lastTimestamp = last.timestamp := by
  rw [lastTimestamp]
  cases hlast : window.slots.getLast? with
  | none => exact .inl ⟨List.getLast?_eq_none_iff.1 hlast, rfl⟩
  | some last => exact .inr ⟨last, rfl, rfl⟩

theorem le_lastTimestamp_of_mem (hascending : Ascending window.slots) {p : MetricPoint}
    (hp : p ∈ window.slots) : p.timestamp ≤ window.lastTimestamp := by
  rcases lastTimestamp_cases window with ⟨hempty, -⟩ | ⟨last, hlast, hts⟩
  · rw [hempty] at hp
    exact absurd hp List.not_mem_nil
  · exact hts ▸ le_getLast hascending hlast hp

theorem Kept.ascending_slots (hw : Kept w) : Ascending w.window.slots := by
  obtain ⟨older, hhistory, -⟩ := hw.older
  have := hw.ascending
  rw [hhistory] at this
  exact (List.pairwise_append.1 this).2.1

/-- Nothing in the history is newer than the newest slot. -/
theorem Kept.le_lastTimestamp (hw : Kept w) {p : MetricPoint} (hp : p ∈ w.history) :
    p.timestamp ≤ w.window.lastTimestamp := by
  obtain ⟨older, hhistory, holder, -⟩ := hw.older
  rw [hhistory] at hp
  rcases List.mem_append.1 hp with hp | hp
  · exact (holder p hp).trans hw.persisted
  · exact le_lastTimestamp_of_mem hw.ascending_slots hp

theorem kept_start (retentionS : UInt64) : Kept (.start retentionS) where
  capacity := rfl
  clock := show (0 : UInt64) < 1 by decide
  ascending := List.Pairwise.nil
  bound p hp := by cases hp
  older := ⟨[], rfl, fun _ hp => absurd hp List.not_mem_nil, fun h => absurd rfl h⟩
  length := Nat.zero_le _
  head := rfl
  persisted := le_refl _
  table timestamp _ p := by simp [SeriesRun.start]

/-! ## A new point -/

theorem point_timestamp (window : TimeSeriesWindow) (r : StatsReading) (nowS : UInt64) :
    (window.point r nowS).timestamp = nowS := rfl

/-- The history after the window has made room: what it drops is lost or has been written. -/
theorem Kept.make_room (hw : Kept w) :
    ∃ older,
      (w.history.filter fun p => ∀ lost ∈ lostSlot w, p.timestamp ≠ lost.timestamp) =
          older ++ (if w.window.slots.length = w.window.capacity then w.window.slots.tail
            else w.window.slots) ∧
        (∀ p ∈ older, p.timestamp ≤ w.lastPersistedTs) ∧
        (older ≠ [] → w.window.slots.length = 8640) := by
  obtain ⟨older, hhistory, holder, hfull⟩ := hw.older
  rw [hw.capacity, lostSlot, hw.capacity]
  by_cases hlength : w.window.slots.length = 8640
  · rw [if_pos hlength, if_pos hlength]
    obtain ⟨head, rest, hslots⟩ : ∃ head rest, w.window.slots = head :: rest :=
      List.exists_cons_of_length_pos (by omega)
    have hasc := hw.ascending
    rw [hhistory, hslots] at hasc
    obtain ⟨-, hrest, hbefore⟩ := List.pairwise_append.1 hasc
    rw [hhistory, hslots, List.head?_cons, List.tail_cons]
    by_cases hlost : head.timestamp > w.lastPersistedTs
    · refine ⟨older, ?_, holder, fun _ => hslots ▸ hlength⟩
      have hkeep : ∀ p ∈ older ++ rest, p.timestamp ≠ head.timestamp := by
        intro p hp
        rcases List.mem_append.1 hp with hp | hp
        · exact (hbefore p hp head List.mem_cons_self).ne
        · exact ((List.pairwise_cons.1 hrest).1 p hp).ne'
      simp only [Option.filter, hlost, decide_true, if_true, Option.mem_def, Option.some.injEq,
        forall_eq']
      rw [List.filter_append, List.filter_cons_of_neg (by simp), ← List.filter_append,
        List.filter_eq_self.2 fun p hp => decide_eq_true (hkeep p hp)]
    · refine ⟨older ++ [head], ?_, ?_, fun _ => hslots ▸ hlength⟩
      · simp [Option.filter, hlost]
      · intro p hp
        rcases List.mem_append.1 hp with hp | hp
        · exact holder p hp
        · rw [List.mem_singleton.1 hp]
          exact not_lt.1 hlost
  · rw [if_neg hlength, if_neg hlength]
    exact ⟨older, by simp [hhistory], holder, hfull⟩

/-- A lost point has not been written. -/
theorem filter_lost (w : SeriesRun) :
    (w.history.filter fun p => ∀ lost ∈ lostSlot w, p.timestamp ≠ lost.timestamp).filter
        (fun p => p.timestamp ≤ w.lastPersistedTs) =
      w.history.filter fun p => p.timestamp ≤ w.lastPersistedTs := by
  rw [List.filter_filter]
  refine List.filter_congr fun p _ => ?_
  have hlost : ∀ lost ∈ lostSlot w, lost.timestamp > w.lastPersistedTs := by
    intro lost h
    rw [lostSlot] at h
    split at h
    · simpa using (Option.mem_filter_iff.1 h).2
    · cases h
  by_cases hp : p.timestamp ≤ w.lastPersistedTs
  · have hne : ∀ lost ∈ lostSlot w, p.timestamp ≠ lost.timestamp :=
      fun lost h => (lt_of_le_of_lt hp (hlost lost h)).ne
    rw [decide_eq_true hp, decide_eq_true hne]
    rfl
  · simp [hp]

theorem Kept.lastTimestamp_le (hw : Kept w) : w.window.lastTimestamp ≤ w.clockS := by
  obtain ⟨older, hhistory, -⟩ := hw.older
  rcases lastTimestamp_cases w.window with ⟨-, hzero⟩ | ⟨last, hlast, hts⟩
  · rw [hzero]
    exact hw.clock.le
  · rw [hts]
    refine (hw.bound last ?_).2
    rw [hhistory]
    exact List.mem_append_right _ (List.mem_of_getLast? hlast)

/-- The clock alone moves on. -/
theorem Kept.later (hw : Kept w) (hnow : w.clockS ≤ nowS) : Kept { w with clockS := nowS } :=
  { hw with
    clock := hw.clock.trans_le hnow
    bound := fun p hp => ⟨(hw.bound p hp).1, (hw.bound p hp).2.trans hnow⟩
    table := fun timestamp hge =>
      hw.table timestamp ((saturatingSub_mono hnow w.retentionS).trans hge) }

theorem Kept.record (hw : Kept w) (hnow : w.clockS ≤ nowS) (r : StatsReading) :
    Kept (recordPoint w r nowS) := by
  by_cases hskip : w.window.Skips nowS
  · have heq : recordPoint w r nowS = { w with clockS := nowS } := by
      simp [recordPoint, TimeSeriesWindow.record, hskip]
    rw [heq]
    exact hw.later hnow
  have hnew : w.window.lastTimestamp < nowS := by
    refine lt_of_le_of_ne (hw.lastTimestamp_le.trans hnow) fun heq => ?_
    by_cases hempty : w.window.slots = []
    · have hzero : w.window.lastTimestamp = 0 := by rw [lastTimestamp, hempty]; rfl
      exact absurd (hw.clock.trans_le hnow) (by rw [← heq, hzero]; exact lt_irrefl 0)
    · exact hskip ⟨heq.symm.trans hw.head.symm, hempty⟩
  obtain ⟨older, hroom, holder, hfull⟩ := hw.make_room
  have hwindow : (recordPoint w r nowS).window.slots =
      (if w.window.slots.length = w.window.capacity then w.window.slots.tail else w.window.slots) ++
        [w.window.point r nowS] := by
    simp [recordPoint, TimeSeriesWindow.record, hskip]
  have hhistory : (recordPoint w r nowS).history =
      (w.history.filter fun p => ∀ lost ∈ lostSlot w, p.timestamp ≠ lost.timestamp) ++
        [w.window.point r nowS] := by
    simp [recordPoint, hskip]
  have hlast : (recordPoint w r nowS).window.lastTimestamp = nowS := by
    rw [lastTimestamp, hwindow, List.getLast?_concat]
    rfl
  have hbefore : ∀ p ∈ w.history.filter fun p =>
      ∀ lost ∈ lostSlot w, p.timestamp ≠ lost.timestamp, p.timestamp < nowS := fun p hp =>
    (hw.le_lastTimestamp (List.mem_of_mem_filter hp)).trans_lt hnew
  constructor
  · simp [recordPoint, TimeSeriesWindow.record, hskip, hw.capacity]
  · exact hw.clock.trans_le hnow
  · rw [hhistory, Ascending, List.pairwise_append]
    refine ⟨hw.ascending.sublist List.filter_sublist, List.pairwise_singleton .., ?_⟩
    intro p hp q hq
    rw [List.mem_singleton.1 hq]
    exact hbefore p hp
  · intro p hp
    rw [hhistory] at hp
    rcases List.mem_append.1 hp with hp | hp
    · have := hw.bound p (List.mem_of_mem_filter hp)
      exact ⟨this.1, this.2.trans hnow⟩
    · rw [List.mem_singleton.1 hp]
      exact ⟨hw.clock.trans_le hnow, le_refl _⟩
  · refine ⟨older, ?_, holder, fun hne => ?_⟩
    · rw [hhistory, hroom, hwindow, List.append_assoc]
    · rw [hwindow, hw.capacity, if_pos (hfull hne), List.length_append, List.length_tail, hfull hne]
      rfl
  · rw [hwindow, hw.capacity, List.length_append, List.length_singleton]
    have := hw.length
    split
    · rw [List.length_tail]
      omega
    · omega
  · rw [hlast]
    simp [recordPoint, TimeSeriesWindow.record, hskip]
  · rw [hlast]
    exact (hw.persisted.trans_lt hnew).le
  · have hsame : (recordPoint w r nowS).history.filter
        (fun p => p.timestamp ≤ w.lastPersistedTs) =
          w.history.filter fun p => p.timestamp ≤ w.lastPersistedTs := by
      have hnot : ¬ nowS ≤ w.lastPersistedTs := not_le.2 (hw.persisted.trans_lt hnew)
      have hnone : [w.window.point r nowS].filter (fun p => p.timestamp ≤ w.lastPersistedTs) = [] := by
        rw [List.filter_eq_nil_iff]
        intro p hp hle
        rw [List.mem_singleton.1 hp] at hle
        exact hnot (of_decide_eq_true hle)
      rw [hhistory, List.filter_append, filter_lost, hnone, List.append_nil]
    exact hsame ▸ (hw.later hnow).table

/-! ## Writing -/

theorem Kept.mem_snapshotAfter (hw : Kept w) {p : MetricPoint} :
    p ∈ w.window.snapshotAfter w.lastPersistedTs ↔
      p ∈ w.history ∧ w.lastPersistedTs < p.timestamp := by
  obtain ⟨older, hhistory, holder, -⟩ := hw.older
  rw [snapshotAfter, List.mem_filter, decide_eq_true_iff, hhistory, List.mem_append]
  constructor
  · rintro ⟨hp, hlt⟩
    exact ⟨.inr hp, hlt⟩
  · rintro ⟨hp | hp, hlt⟩
    · exact absurd (holder p hp) (not_le.2 hlt)
    · exact ⟨hp, hlt⟩

/-- The table without the rows that are out of the retention period. -/
theorem Kept.prune (hw : Kept w) (pruned : Bool) :
    Kept { w with
      table := if pruned then w.table.pruneTimeseries (w.clockS.saturatingSub w.retentionS)
        else w.table } := by
  refine { hw with table := fun timestamp hge p => ?_ }
  cases pruned with
  | false => exact hw.table timestamp hge p
  | true =>
    simp only [if_true, getElem?_pruneTimeseries hge]
    exact hw.table timestamp hge p

/-- All new points are written. -/
theorem Kept.save (hw : Kept w) {last : MetricPoint}
    (hlast : (w.window.snapshotAfter w.lastPersistedTs).getLast? = some last) :
    Kept { w with
      table := w.table.saveTimeseries (w.window.snapshotAfter w.lastPersistedTs)
      lastPersistedTs := last.timestamp } := by
  have hmem := List.mem_of_getLast? hlast
  have hasc : Ascending (w.window.snapshotAfter w.lastPersistedTs) :=
    hw.ascending_slots.sublist List.filter_sublist
  have hnewest : last.timestamp = w.window.lastTimestamp := by
    have hslot := List.mem_of_mem_filter hmem
    refine le_antisymm (le_lastTimestamp_of_mem hw.ascending_slots hslot) ?_
    rcases lastTimestamp_cases w.window with ⟨hempty, -⟩ | ⟨newest, hnew, hts⟩
    · rw [hempty] at hslot
      exact absurd hslot List.not_mem_nil
    · rw [hts]
      refine le_getLast hasc hlast (List.mem_filter.2 ⟨List.mem_of_getLast? hnew, ?_⟩)
      exact decide_eq_true ((hw.mem_snapshotAfter.1 hmem).2.trans_le
        (le_getLast hw.ascending_slots hnew hslot))
  have hle : w.lastPersistedTs ≤ last.timestamp := (hw.mem_snapshotAfter.1 hmem).2.le
  obtain ⟨older, hhistory, holder, hfull⟩ := hw.older
  refine { hw with
    older := ⟨older, hhistory, fun p hp => (holder p hp).trans hle, hfull⟩
    persisted := hnewest.le
    table := fun timestamp hge p => ?_ }
  rw [getElem?_saveTimeseries hasc, hw.table timestamp hge, hw.mem_snapshotAfter, List.mem_filter,
    List.mem_filter]
  simp only [decide_eq_true_iff]
  constructor
  · rintro (⟨⟨hp, -⟩, hts⟩ | ⟨-, ⟨hp, -⟩, hts⟩)
    · exact ⟨⟨hp, hnewest ▸ hw.le_lastTimestamp hp⟩, hts⟩
    · exact ⟨⟨hp, hnewest ▸ hw.le_lastTimestamp hp⟩, hts⟩
  · rintro ⟨⟨hp, -⟩, rfl⟩
    by_cases hnew : w.lastPersistedTs < p.timestamp
    · exact .inl ⟨⟨hp, hnew⟩, rfl⟩
    · refine .inr ⟨fun q hq hts => hnew ?_, ⟨hp, not_lt.1 hnew⟩, rfl⟩
      exact hts ▸ (hw.mem_snapshotAfter.1 hq).2

theorem Kept.persist (hw : Kept w) (hnow : w.clockS ≤ nowS) (saved pruned : Bool) :
    Kept (persist w saved pruned nowS) := by
  unfold EShield.Node.persist
  have hlater := hw.later hnow
  cases hlast : (w.window.snapshotAfter w.lastPersistedTs).getLast? with
  | none => simpa only [hlast] using hlater.prune pruned
  | some last =>
    cases saved with
    | false => simpa only [hlast, Bool.false_eq_true, if_false] using hlater.prune pruned
    | true => simpa only [hlast, if_true] using (hlater.save hlast).prune pruned

/-! ## A restart -/

theorem load_newWindow (points : List MetricPoint) :
    (newWindow.load points).slots = points.rtake 8640 ∧
      (newWindow.load points).capacity = 8640 ∧
      (newWindow.load points).headTimestamp = (newWindow.load points).lastTimestamp ∧
      (newWindow.load points).lastTimestamp = (points.getLast?.map MetricPoint.timestamp).getD 0 := by
  rcases List.eq_nil_or_concat points with rfl | ⟨init, last, rfl⟩
  · exact ⟨(List.rtake_nil _).symm, rfl, rfl, rfl⟩
  rw [List.concat_eq_append]
  have hslots : (init ++ [last]).drop ((init ++ [last]).length - newWindow.capacity) =
      init.rtake 8639 ++ [last] := List.rtake_concat_succ init 8639 last
  have hload : newWindow.load (init ++ [last]) =
      { newWindow with
        slots := init.rtake 8639 ++ [last]
        headTimestamp := last.timestamp } := by
    rw [load, if_neg (List.append_ne_nil_of_right_ne_nil _ (List.cons_ne_nil _ _))]
    dsimp only
    rw [hslots, List.getLast?_concat]
    rfl
  have hlast : (newWindow.load (init ++ [last])).lastTimestamp = last.timestamp := by
    rw [hload, lastTimestamp, List.getLast?_concat]
    rfl
  rw [hlast, List.getLast?_concat, List.rtake_concat_succ, hload]
  exact ⟨rfl, rfl, rfl, rfl⟩

theorem Kept.loadTimeseries (hw : Kept w) (hnow : w.clockS ≤ nowS) :
    let since := nowS.saturatingSub w.retentionS
    (w.table.loadTimeseries since).filter (fun p => p.timestamp ≤ nowS) =
      w.history.filter fun p => since ≤ p.timestamp ∧ p.timestamp ≤ w.lastPersistedTs := by
  intro since
  have hrows : Holds w.table since
      (w.history.filter fun p => since ≤ p.timestamp ∧ p.timestamp ≤ w.lastPersistedTs) := by
    intro timestamp hge p
    rw [hw.table timestamp ((saturatingSub_mono hnow w.retentionS).trans hge), List.mem_filter,
      List.mem_filter]
    simp only [decide_eq_true_iff]
    constructor
    · rintro ⟨⟨hp, hle⟩, rfl⟩
      exact ⟨⟨hp, hge, hle⟩, rfl⟩
    · rintro ⟨⟨hp, -, hle⟩, rfl⟩
      exact ⟨⟨hp, hle⟩, rfl⟩
  rw [loadTimeseries_eq hrows (hw.ascending.sublist List.filter_sublist) fun p hp =>
    (of_decide_eq_true (List.mem_filter.1 hp).2).1]
  exact List.filter_eq_self.2 fun p hp =>
    decide_eq_true ((hw.bound p (List.mem_of_mem_filter hp)).2.trans hnow)

theorem Kept.restart (hw : Kept w) (hnow : w.clockS ≤ nowS) : Kept (restartSeries w nowS) := by
  have hload := hw.loadTimeseries hnow
  dsimp only at hload
  have hasc : Ascending (w.history.filter fun p =>
      nowS.saturatingSub w.retentionS ≤ p.timestamp ∧ p.timestamp ≤ w.lastPersistedTs) :=
    hw.ascending.sublist List.filter_sublist
  have hrows := hw.table
  unfold restartSeries
  dsimp only
  rw [hload]
  generalize hpoints : (w.history.filter fun p =>
    nowS.saturatingSub w.retentionS ≤ p.timestamp ∧ p.timestamp ≤ w.lastPersistedTs) = points at *
  have hmem : ∀ p, p ∈ points ↔ p ∈ w.history ∧
      nowS.saturatingSub w.retentionS ≤ p.timestamp ∧ p.timestamp ≤ w.lastPersistedTs := by
    intro p
    rw [← hpoints, List.mem_filter, decide_eq_true_iff]
  obtain ⟨hslots, hcapacity, hhead, hlast⟩ := load_newWindow points
  have hnewest : ∀ p ∈ points, p.timestamp ≤ (newWindow.load points).lastTimestamp := by
    intro p hp
    rw [hlast]
    cases hlast' : points.getLast? with
    | none => exact absurd hp (List.getLast?_eq_none_iff.1 hlast' ▸ List.not_mem_nil)
    | some last => exact le_getLast hasc hlast' hp
  refine ⟨hcapacity, hw.clock.trans_le hnow, hasc, ?_, ?_, ?_, hhead, le_refl _, ?_⟩
  · intro p hp
    have := hw.bound p ((hmem p).1 hp).1
    exact ⟨this.1, this.2.trans hnow⟩
  · refine ⟨points.take (points.length - 8640), ?_, fun p hp => hnewest p (List.mem_of_mem_take hp),
      fun hne => ?_⟩
    · rw [hslots, List.rtake, List.take_append_drop]
    · rw [hslots, List.rtake, List.length_drop]
      have := List.length_pos_of_ne_nil hne
      rw [List.length_take] at this
      omega
  · rw [hslots, List.rtake, List.length_drop]
    omega
  · intro timestamp hge p
    rw [hrows timestamp ((saturatingSub_mono hnow w.retentionS).trans hge), List.mem_filter,
      List.mem_filter, hmem]
    simp only [decide_eq_true_iff]
    constructor
    · rintro ⟨⟨hp, hle⟩, rfl⟩
      exact ⟨⟨⟨hp, hge, hle⟩, hnewest p ((hmem p).2 ⟨hp, hge, hle⟩)⟩, rfl⟩
    · rintro ⟨⟨⟨hp, -, hle⟩, -⟩, rfl⟩
      exact ⟨⟨hp, hle⟩, rfl⟩

/-! ## Runs -/

theorem Kept.step {label : SeriesLabel} (hw : Kept w) (h : seriesStep w label = some w') :
    Kept w' := by
  cases label with
  | record r nowS =>
    obtain ⟨hnow, h⟩ := Option.ite_none_left_eq_some.1 h
    cases h
    exact hw.record (not_lt.1 hnow) r
  | persist saved pruned nowS =>
    obtain ⟨hnow, h⟩ := Option.ite_none_left_eq_some.1 h
    cases h
    exact hw.persist (not_lt.1 hnow) saved pruned
  | restart nowS =>
    obtain ⟨hnow, h⟩ := Option.ite_none_left_eq_some.1 h
    cases h
    exact hw.restart (not_lt.1 hnow)

theorem kept_run {retentionS : UInt64} {labels : List SeriesLabel}
    (h : exec seriesStep (.start retentionS) labels = some w) : Kept w :=
  exec_invariant (c := fun _ _ => True) (fun _ _ _ hw _ hstep => hw.step hstep)
    (kept_start retentionS) (along_of_forall (fun _ _ => trivial) _ _) h

/-- A query finds the points of the time it asks for. -/
theorem snapshot_eq (hascending : Ascending window.slots) {durationS : UInt64}
    (hduration : durationS ≠ 0) :
    window.snapshot durationS nowS =
      window.slots.filter fun p => nowS.saturatingSub durationS ≤ p.timestamp := by
  rw [snapshot, if_neg hduration]
  generalize window.slots = slots at hascending
  induction slots with
  | nil => rfl
  | cons p slots ih =>
    obtain ⟨hlater, hrest⟩ := List.pairwise_cons.1 hascending
    by_cases hp : p.timestamp < nowS.saturatingSub durationS
    · rw [List.dropWhile_cons, if_pos (by simpa using hp), ih hrest, List.filter_cons,
        if_neg (by simpa using hp)]
    · rw [List.dropWhile_cons, if_neg (by simpa using hp), List.filter_eq_self.2]
      intro q hq
      rcases List.mem_cons.1 hq with rfl | hq
      · exact decide_eq_true (not_lt.1 hp)
      · exact decide_eq_true ((not_lt.1 hp).trans (hlater q hq).le)

theorem Kept.restart_slots (hw : Kept w) (hnow : w.clockS ≤ nowS) :
    (restartSeries w nowS).window.slots =
      (w.history.filter fun p => nowS.saturatingSub w.retentionS ≤ p.timestamp ∧
        p.timestamp ≤ w.lastPersistedTs).rtake 8640 := by
  have hload := hw.loadTimeseries hnow
  dsimp only at hload
  unfold restartSeries
  dsimp only
  rw [hload]
  exact (load_newWindow _).1

/-- A successful write leaves nothing of the history unwritten. -/
theorem Kept.persist_all (hw : Kept w) (nowS : UInt64) (pruned : Bool) {p : MetricPoint}
    (hp : p ∈ w.history) :
    p.timestamp ≤ (EShield.Node.persist w true pruned nowS).lastPersistedTs := by
  have hlast : (EShield.Node.persist w true pruned nowS).lastPersistedTs =
      ((w.window.snapshotAfter w.lastPersistedTs).getLast?.map MetricPoint.timestamp).getD
        w.lastPersistedTs := by
    simp only [EShield.Node.persist, if_true]
    cases (w.window.snapshotAfter w.lastPersistedTs).getLast? <;> rfl
  rw [hlast]
  by_cases hnew : w.lastPersistedTs < p.timestamp
  · have hmem := hw.mem_snapshotAfter.2 ⟨hp, hnew⟩
    cases hnewest : (w.window.snapshotAfter w.lastPersistedTs).getLast? with
    | none => exact absurd hmem (List.getLast?_eq_none_iff.1 hnewest ▸ List.not_mem_nil)
    | some last => exact le_getLast (hw.ascending_slots.sublist List.filter_sublist) hnewest hmem
  · refine (not_lt.1 hnew).trans ?_
    cases hnewest : (w.window.snapshotAfter w.lastPersistedTs).getLast? with
    | none => exact le_refl _
    | some last => exact (hw.mem_snapshotAfter.1 (List.mem_of_getLast? hnewest)).2.le

/-- In every run of the service with restarts, while the system is up, from an empty table and with a
table that can be read at each restart: the history is in order of time and the window holds the newest
8640 points of it, of which a query returns those of the time it asks for; a restart brings back the
newest 8640 of what has been written and is not older than the retention period; and if the write of the
minute succeeded just before, that is all of the history. -/
theorem series_survives_restarts {retentionS : UInt64} {labels : List SeriesLabel}
    (h : exec seriesStep (.start retentionS) labels = some w) :
    Ascending w.history ∧ w.window.slots = w.history.rtake 8640 ∧
      (∀ durationS nowS, durationS ≠ 0 →
        w.window.snapshot durationS nowS = (w.history.rtake 8640).filter fun p =>
          nowS.saturatingSub durationS ≤ p.timestamp) ∧
      (∀ nowS w', exec seriesStep w [.restart nowS] = some w' →
        w'.window.slots = (w.history.filter fun p =>
          nowS.saturatingSub w.retentionS ≤ p.timestamp ∧
            p.timestamp ≤ w.lastPersistedTs).rtake 8640) ∧
      ∀ pruned nowS w', exec seriesStep w [.persist true pruned nowS, .restart nowS] = some w' →
        w'.window.slots = (w.history.filter fun p =>
          nowS.saturatingSub w.retentionS ≤ p.timestamp).rtake 8640 := by
  have hw := kept_run h
  refine ⟨hw.ascending, hw.slots_eq, ?_, ?_, ?_⟩
  · intro durationS nowS hduration
    rw [snapshot_eq hw.ascending_slots hduration, hw.slots_eq]
  · intro nowS w' hexec
    obtain ⟨w₁, hstep, hexec⟩ := Option.bind_eq_some_iff.1 hexec
    obtain ⟨hnow, hstep⟩ := Option.ite_none_left_eq_some.1 hstep
    cases hstep
    cases hexec
    exact hw.restart_slots (not_lt.1 hnow)
  · intro pruned nowS w' hexec
    obtain ⟨w₁, hstep, hexec⟩ := Option.bind_eq_some_iff.1 hexec
    obtain ⟨hnow, hstep⟩ := Option.ite_none_left_eq_some.1 hstep
    have hnow := not_lt.1 hnow
    cases hstep
    obtain ⟨w₂, hstep, hexec⟩ := Option.bind_eq_some_iff.1 hexec
    obtain ⟨-, hstep⟩ := Option.ite_none_left_eq_some.1 hstep
    cases hstep
    cases hexec
    rw [(hw.persist hnow true pruned).restart_slots (le_refl nowS)]
    congr 1
    refine List.filter_congr fun p hp => ?_
    rw [decide_eq_decide]
    exact and_iff_left (hw.persist_all nowS pruned hp)

/-- Two points, the first of them written, and a restart. -/
def crashedSeries : List SeriesLabel :=
  [.record {} 5, .persist true true 60, .record {} 65, .restart 66]

theorem series_survives_restarts_crash :
    ∃ w, exec seriesStep (.start 2592000) crashedSeries = some w ∧
      w.window.slots = w.history.rtake 8640 ∧ w.history.map MetricPoint.timestamp = [5] := by
  obtain ⟨w, hw⟩ : ∃ w, exec seriesStep (.start 2592000) crashedSeries = some w := ⟨_, rfl⟩
  refine ⟨w, hw, (series_survives_restarts hw).2.1, ?_⟩
  cases hw
  decide +kernel

end EShield.Node
