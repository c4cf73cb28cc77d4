import EShield.Node.Proofs.EventConsumerProofs
import EShield.Node.Proofs.PacketLogProofs
import EShield.Node.Views

/-!
# What the views show adds up

The series of an address puts each of its samples into the minute in which it was taken, the counts of
its details are those of the samples that are shown, and the ports in the table of the statistics are
those with the most drop events.
-/

namespace EShield.Node

open Ebpf (LruHashMap)
open Checks Exec Tally TopRows

variable {log : PacketLog} {ip : String} {durationS nowNs tsNs : UInt64} {wallNowNs minute : Nat}

/-! ## Minutes -/

/-- The minute of Unix time in which the monotonic clock read `tsNs`, if it reads `nowNs` at
`wallNowNs`. -/
def wallMinute (nowNs : UInt64) (wallNowNs : Nat) (tsNs : UInt64) : Nat :=
  monotonicToWallNs tsNs (wallNowNs - nowNs.toNat) / minuteNs

/-- Readings that lie back by less than the time of day. -/
theorem monotonicToWallNs_of_le (hts : tsNs ≤ nowNs) (hwall : wallNowNs < 2 ^ 64) :
    monotonicToWallNs tsNs (wallNowNs - nowNs.toNat) =
      wallNowNs - (nowNs.toNat - tsNs.toNat) := by
  rw [UInt64.le_iff_toNat_le] at hts
  have hmax : (max ((tsNs.toNat : Int) + (wallNowNs - nowNs.toNat)) 0).toNat =
      wallNowNs - (nowNs.toNat - tsNs.toNat) := by
    omega
  rw [monotonicToWallNs, hmax, Nat.mod_eq_of_lt (by omega)]

theorem wallMinute_mono {tsNs' : UInt64} (h : tsNs ≤ tsNs') (hts : tsNs' ≤ nowNs)
    (hwall : wallNowNs < 2 ^ 64) :
    wallMinute nowNs wallNowNs tsNs ≤ wallMinute nowNs wallNowNs tsNs' := by
  rw [wallMinute, wallMinute, monotonicToWallNs_of_le hts hwall,
    monotonicToWallNs_of_le (UInt64.le_trans h hts) hwall]
  rw [UInt64.le_iff_toNat_le] at h
  exact Nat.div_le_div_right (by omega)

theorem wallMinute_le (hts : tsNs ≤ nowNs) (hwall : wallNowNs < 2 ^ 64) :
    wallMinute nowNs wallNowNs tsNs ≤ wallNowNs / minuteNs := by
  rw [wallMinute, monotonicToWallNs_of_le hts hwall]
  exact Nat.div_le_div_right (by omega)

/-- No more than a day is shown. -/
theorem seriesFromNs_spec (durationS nowNs : UInt64) :
    seriesFromNs durationS nowNs ≤ nowNs ∧
      nowNs.toNat ≤ (seriesFromNs durationS nowNs).toNat + 1440 * minuteNs := by
  have hclamp : (max 60 (min durationS 86400)).toNat ≤ 86400 := by
    have : max 60 (min durationS 86400) ≤ 86400 := max_le (by decide) (min_le_right _ _)
    exact UInt64.le_iff_toNat_le.1 this
  have hmul : (max 60 (min durationS 86400) * 1000000000).toNat =
      (max 60 (min durationS 86400)).toNat * 1000000000 := by
    rw [UInt64.toNat_mul]
    exact Nat.mod_eq_of_lt (by simp; omega)
  rw [UInt64.le_iff_toNat_le, seriesFromNs, UInt64.toNat_saturatingSub, hmul, minuteNs]
  omega

/-! ## Buckets -/

theorem fillBuckets_apply (offsetNs : Int) (samples : List PacketSampleEntry) (minute : Nat) :
    fillBuckets offsetNs samples minute =
      let inMinute := samples.filter fun s =>
        monotonicToWallNs s.timestampNs offsetNs / minuteNs = minute
      if inMinute = [] then none
      else some (inMinute.countP (·.action = 0), inMinute.countP (·.action ≠ 0)) := by
  induction samples using List.reverseRecOn with
  | nil => rfl
  | append_singleton samples s ih =>
    dsimp only at ih ⊢
    rw [fillBuckets, List.foldl_append, ← fillBuckets, List.foldl_cons, List.foldl_nil,
      List.filter_append]
    by_cases hs : monotonicToWallNs s.timestampNs offsetNs / minuteNs = minute
    · rw [hs, Function.update_self, ih]
      have hone : [s].filter (fun s =>
          decide (monotonicToWallNs s.timestampNs offsetNs / minuteNs = minute)) = [s] := by
        simp [hs]
      rw [hone, if_neg (List.append_ne_nil_of_right_ne_nil _ (List.cons_ne_nil s []))]
      by_cases haction : s.action = 0 <;>
        by_cases hempty : samples.filter (fun s =>
          decide (monotonicToWallNs s.timestampNs offsetNs / minuteNs = minute)) = [] <;>
        simp [haction, hempty]
    · have hnone : [s].filter (fun s =>
          decide (monotonicToWallNs s.timestampNs offsetNs / minuteNs = minute)) = [] := by
        simp [hs]
      rw [Function.update_of_ne (Ne.symm hs), ih, hnone, List.append_nil]

/-- Samples counted class by class. -/
theorem sum_countP_eq_length {α : Type} (f : α → Nat) {classes : List Nat} (hnodup : classes.Nodup)
    {l : List α} (h : ∀ a ∈ l, f a ∈ classes) :
    (classes.map fun c => l.countP fun a => f a = c).sum = l.length := by
  induction l with
  | nil => simp
  | cons a l ih =>
    have hone : (classes.map fun c => if f a = c then 1 else 0).sum = 1 := by
      rw [List.sum_map_eq_nsmul_single (f a) _ fun c hc _ => if_neg (Ne.symm hc), if_pos rfl,
        List.count_eq_one_of_mem hnodup (h a List.mem_cons_self), one_smul]
    have hsplit : ∀ c, (a :: l).countP (fun a => decide (f a = c)) =
        l.countP (fun a => decide (f a = c)) + if f a = c then 1 else 0 := by
      intro c
      rw [List.countP_cons]
      simp
    simp only [hsplit]
    rw [List.sum_map_add, ih fun b hb => h b (List.mem_cons_of_mem a hb), hone, List.length_cons]

/-- Samples of one class are dropped or passed. -/
theorem countP_split {α : Type} (p q : α → Prop) [DecidablePred p] [DecidablePred q] (l : List α) :
    l.countP (fun a => p a ∧ q a) + l.countP (fun a => p a ∧ ¬ q a) = l.countP (fun a => p a) := by
  rw [List.countP_eq_countP_filter_add l (fun a => decide (p a)) fun a => decide (q a),
    List.countP_filter, List.countP_filter]
  congr 1
  · exact List.countP_congr fun a _ => by simp
  · exact List.countP_congr fun a _ => by simp

/-- What a point shows of the samples of its minute. -/
theorem seriesPoint_spec (offsetNs : Int) (samples : List PacketSampleEntry) (minute : Nat) :
    let p := seriesPoint (fillBuckets offsetNs samples) minute
    let minuteOf (s : PacketSampleEntry) := monotonicToWallNs s.timestampNs offsetNs / minuteNs
    p.timestamp = minute * 60 ∧
      p.dropCount.getD 0 = samples.countP (fun s => minuteOf s = minute ∧ s.action = 0) ∧
      p.passCount.getD 0 = samples.countP (fun s => minuteOf s = minute ∧ s.action ≠ 0) ∧
      (p.dropCount.isNone ↔ ∀ s ∈ samples, minuteOf s ≠ minute) ∧
      p.passCount.isNone = p.dropCount.isNone := by
  dsimp only
  have hfill := fillBuckets_apply offsetNs samples minute
  dsimp only at hfill
  have hcount : ∀ q : PacketSampleEntry → Bool,
      (samples.filter fun s =>
        decide (monotonicToWallNs s.timestampNs offsetNs / minuteNs = minute)).countP q =
      samples.countP fun s =>
        decide (monotonicToWallNs s.timestampNs offsetNs / minuteNs = minute) && q s := by
    intro q
    rw [List.countP_filter]
    exact List.countP_congr fun s _ => by simp [and_comm]
  have hempty : samples.filter (fun s =>
        decide (monotonicToWallNs s.timestampNs offsetNs / minuteNs = minute)) = [] ↔
      ∀ s ∈ samples, monotonicToWallNs s.timestampNs offsetNs / minuteNs ≠ minute := by
    simp [List.filter_eq_nil_iff]
  unfold seriesPoint
  rw [hfill]
  by_cases h : samples.filter (fun s =>
      decide (monotonicToWallNs s.timestampNs offsetNs / minuteNs = minute)) = []
  · rw [if_pos h]
    have hnone := hempty.1 h
    refine ⟨rfl, ?_, ?_, by simpa using hnone, rfl⟩
    · exact (List.countP_eq_zero.2 fun s hs => by simp [hnone s hs]).symm
    · exact (List.countP_eq_zero.2 fun s hs => by simp [hnone s hs]).symm
  · rw [if_neg h]
    refine ⟨rfl, ?_, ?_, ?_, rfl⟩
    · rw [Option.getD_some, hcount]
      exact List.countP_congr fun s _ => by simp
    · rw [Option.getD_some, hcount]
      exact List.countP_congr fun s _ => by simp
    · simpa using fun hnone => h (hempty.2 hnone)

theorem ipSeries_eq_ok {points : List IpSeriesPoint} (hwall : wallNowNs < 2 ^ 64)
    (h : ipSeries log ip durationS nowNs wallNowNs = .ok points) :
    points =
      (List.range' (wallMinute nowNs wallNowNs (seriesFromNs durationS nowNs))
        (wallNowNs / minuteNs + 1 - wallMinute nowNs wallNowNs (seriesFromNs durationS nowNs))).map
          (seriesPoint (fillBuckets (wallNowNs - nowNs.toNat)
            ((log.hits (seriesQuery ip (seriesFromNs durationS nowNs))).map sampleEntry))) := by
  obtain ⟨_, -, h⟩ := bind_eq_ok.1 h
  rw [Nat.mod_eq_of_lt hwall] at h
  cases h
  rfl

/-- The series of an address: its points are the minutes from the first one asked for to the present
one; each counts the samples of its minute that a query for the address finds, dropped and passed, and
shows nothing if there are none; so all points together count each sample found once. -/
theorem ip_series_partitions {points : List IpSeriesPoint}
    (hnow : ∀ s ∈ log.entries, s.timestampNs ≤ nowNs) (hwall : wallNowNs < 2 ^ 64)
    (h : ipSeries log ip durationS nowNs wallNowNs = .ok points) :
    let samples := log.hits (seriesQuery ip (seriesFromNs durationS nowNs))
    let minuteOf (s : PacketSample) := wallMinute nowNs wallNowNs s.timestampNs
    (∃ first, points.map IpSeriesPoint.timestamp =
        (List.range points.length).map (fun i => (first + i) * 60) ∧
      first + points.length = wallNowNs / minuteNs + 1 ∧ 0 < points.length ∧ points.length ≤ 1441) ∧
    (∀ p ∈ points,
      p.dropCount.getD 0 = samples.countP (fun s => minuteOf s * 60 = p.timestamp ∧ s.action = 0) ∧
      p.passCount.getD 0 = samples.countP (fun s => minuteOf s * 60 = p.timestamp ∧ s.action ≠ 0) ∧
      (p.dropCount.isNone ↔ ∀ s ∈ samples, minuteOf s * 60 ≠ p.timestamp) ∧
      p.passCount.isNone = p.dropCount.isNone) ∧
    (points.map fun p => p.dropCount.getD 0 + p.passCount.getD 0).sum = samples.length := by
  dsimp only
  have hpoints := ipSeries_eq_ok hwall h
  obtain ⟨hfrom, hday⟩ := seriesFromNs_spec durationS nowNs
  -- the samples found lie between the first minute and the present one
  have hrange : ∀ s ∈ log.hits (seriesQuery ip (seriesFromNs durationS nowNs)),
      wallMinute nowNs wallNowNs (seriesFromNs durationS nowNs) ≤
          wallMinute nowNs wallNowNs s.timestampNs ∧
        wallMinute nowNs wallNowNs s.timestampNs ≤ wallNowNs / minuteNs := by
    intro s hs
    obtain ⟨hmem, hpasses⟩ := List.mem_filter.1 (List.mem_of_mem_take hs)
    have hts := hnow s (List.mem_reverse.1 hmem)
    have hafter := (passes_iff.1 hpasses).fromNs _ rfl
    exact ⟨wallMinute_mono hafter hts hwall, wallMinute_le hts hwall⟩
  have hstart := wallMinute_le hfrom hwall
  have hwidth : wallNowNs / minuteNs ≤
      wallMinute nowNs wallNowNs (seriesFromNs durationS nowNs) + 1440 := by
    rw [wallMinute, monotonicToWallNs_of_le hfrom hwall, ← Nat.add_mul_div_right _ _ (by decide)]
    exact Nat.div_le_div_right (by omega)
  clear hday h
  generalize wallMinute nowNs wallNowNs (seriesFromNs durationS nowNs) = first at *
  generalize log.hits (seriesQuery ip (seriesFromNs durationS nowNs)) = samples at *
  subst hpoints
  have hspec := seriesPoint_spec (wallNowNs - nowNs.toNat) (samples.map sampleEntry)
  refine ⟨⟨first, ?_, ?_, ?_, ?_⟩, ?_, ?_⟩
  · rw [List.map_map, List.length_map, List.length_range', List.range'_eq_map_range, List.map_map]
    exact List.map_congr_left fun i _ => (hspec (first + i)).1
  · rw [List.length_map, List.length_range']
    omega
  · rw [List.length_map, List.length_range']
    omega
  · rw [List.length_map, List.length_range']
    omega
  · intro p hp
    obtain ⟨minute, -, rfl⟩ := List.mem_map.1 hp
    obtain ⟨hts, hdrop, hpass, hnone, hsame⟩ := hspec minute
    rw [List.countP_map] at hdrop hpass
    refine ⟨hdrop.trans ?_, hpass.trans ?_, hnone.trans ?_, hsame⟩
    · refine List.countP_congr fun s _ => ?_
      rw [Function.comp_apply, decide_eq_true_iff, decide_eq_true_iff, hts]
      simp [wallMinute, sampleEntry]
    · refine List.countP_congr fun s _ => ?_
      rw [Function.comp_apply, decide_eq_true_iff, decide_eq_true_iff, hts]
      simp [wallMinute, sampleEntry]
    · simp [hts, wallMinute, sampleEntry]
  · rw [List.map_map, ← sum_countP_eq_length
      (fun s => wallMinute nowNs wallNowNs s.timestampNs) (List.nodup_range' 1) ?_]
    · congr 1
      refine List.map_congr_left fun minute _ => ?_
      obtain ⟨-, hdrop, hpass, -, -⟩ := hspec minute
      rw [Function.comp_apply, hdrop, hpass, List.countP_map, List.countP_map]
      exact countP_split _ _ samples
    · intro s hs
      rw [List.mem_range'_1]
      have := hrange s hs
      omega

/-- One packet dropped and one passed an hour later, a minute before the present one. -/
def twoHours : PacketLog :=
  { maxEntries := 10
    entries :=
      [⟨1000, 0x0a000001, 0x0a000002, 4, 6, 4242, 80, 0, 2, 60, 0, []⟩,
        ⟨3600000001000, 0x0a000001, 0x0a000002, 4, 6, 4242, 443, 1, 0, 60, 0, []⟩] }

theorem ip_series_partitions_hours :
    ∃ points, ipSeries twoHours "10.0.0.1" 7200 3660000000000 1700003660000000000 = .ok points ∧
      (points.map fun p => p.dropCount.getD 0 + p.passCount.getD 0).sum = 2 := by
  obtain ⟨points, h⟩ : ∃ points,
      ipSeries twoHours "10.0.0.1" 7200 3660000000000 1700003660000000000 = .ok points :=
    ⟨_, rfl⟩
  refine ⟨points, h, ?_⟩
  rw [(ip_series_partitions (by decide) (by decide) h).2.2]
  decide +kernel

/-! ## The details of an address -/

theorem countSamples_eq (samples : List PacketSampleEntry) :
    countSamples samples =
      (samples.countP (·.action = 0), samples.countP (·.action ≠ 0),
        tally (samples.map PacketSampleEntry.dstPort)) := by
  induction samples using List.reverseRecOn with
  | nil => rfl
  | append_singleton samples s ih =>
    rw [countSamples, List.foldl_append, ← countSamples, ih, List.foldl_cons, List.foldl_nil,
      List.map_append, List.map_singleton, tally_concat]
    by_cases haction : s.action = 0 <;> simp [haction, List.countP_append]

/-- The details of an address, whatever the order in which the counts by port are iterated: of the
samples that are shown each is counted as dropped or as passed; each port is shown with the number of
them that went to it, and one that is not shown had no more of them than any of the ten that are. -/
theorem ip_detail_adds_up {blacklist : LruHashMap IpKey BlockEntry}
    {trustMap : LruHashMap IpKey TrustEntry} {offsetNs : Int} {byPort : List (UInt16 × Nat)}
    {resp : IpDetailResponse} (h : ipDetail blacklist trustMap log ip offsetNs byPort = .ok resp)
    (horder : byPort.Perm (countSamples resp.recentSamples).2.2) :
    let toPort (port : UInt16) := resp.recentSamples.countP fun s => s.dstPort = port
    resp.dropCount = resp.recentSamples.countP (·.action = 0) ∧
      resp.dropCount + resp.passCount = resp.recentSamples.length ∧
      (∀ e ∈ resp.topPorts, e.2 = toPort e.1) ∧
      ∀ port, 0 < toPort port → port ∉ resp.topPorts.map Prod.fst →
        resp.topPorts.length = 10 ∧ ∀ e ∈ resp.topPorts, toPort port ≤ e.2 := by
  intro toPort
  have htop : resp.topPorts = topRows 10 byPort ∧
      (resp.dropCount, resp.passCount) =
        ((countSamples resp.recentSamples).1, (countSamples resp.recentSamples).2.1) := by
    obtain ⟨key, -, h⟩ := bind_eq_ok.1 h
    cases h
    exact ⟨rfl, rfl⟩
  rw [countSamples_eq, Prod.mk.injEq] at htop
  rw [countSamples_eq] at horder
  obtain ⟨htop, hdrop, hpass⟩ := htop
  have htally := (isTally_tally _).perm horder
  have hport : ∀ port, toPort port =
      (resp.recentSamples.map PacketSampleEntry.dstPort).count port := by
    intro port
    rw [List.count, List.countP_map]
    exact List.countP_congr fun s _ => by simp
  refine ⟨hdrop, ?_, ?_, ?_⟩
  · rw [hdrop, hpass, List.length_eq_countP_add_countP fun s => decide (s.action = 0)]
    congr 1
    exact List.countP_congr fun s _ => by simp
  · intro e he
    rw [hport]
    rw [htop] at he
    exact ((htally.mem_iff e).1 (mem_of_mem_topRows he)).2
  · intro port hpos hnot
    rw [hport] at hpos
    rw [htop] at hnot ⊢
    have hrow := (htally.mem_iff (port, toPort port)).2 ⟨List.count_pos_iff.1 hpos, hport port⟩
    exact le_of_not_mem_topRows hrow fun hshown => hnot (List.mem_map_of_mem hshown)

theorem ip_detail_adds_up_hours :
    ∃ resp, ipDetail .empty .empty twoHours "10.0.0.1" 1700000000000000000 [(443, 1), (80, 1)] =
        .ok resp ∧ resp.dropCount + resp.passCount = 2 := by
  obtain ⟨resp, h⟩ : ∃ resp, ipDetail .empty .empty twoHours "10.0.0.1" 1700000000000000000
      [(443, 1), (80, 1)] = .ok resp := ⟨_, rfl⟩
  have horder : [(443, 1), (80, 1)].Perm (countSamples resp.recentSamples).2.2 := by
    cases h
    decide +kernel
  refine ⟨resp, h, ?_⟩
  rw [(ip_detail_adds_up h horder).2.1]
  cases h
  decide +kernel

/-! ## The ports under attack -/

/-- The drop events for a port that the statistics count. -/
def dropsTo (startNs : UInt64) (events : List DropEvent) (port : UInt16) : Nat :=
  (freshEvents startNs events).countP fun event =>
    (eventSource event).isSome ∧ event.dstPort = port

/-- The table of ports after any run of the event consumer, in whatever order the totals are iterated: no
more than ten ports, the most attacked first, each with the number of its drop events; a port other than
0 that has events and is not shown has no more of them than any of the ten that are. -/
theorem top_ports_most_attacked {startNs : UInt64} {config : AdaptiveConfig}
    {labels : List EventLabel} {w : EventRun} {rows : List (UInt16 × UInt64)}
    (h : exec eventStep (.start startNs config) labels = some w)
    (hrows : Iterates rows w.stats.portDropped) :
    let drops (port : UInt16) := UInt64.ofNat (dropsTo startNs w.taken port)
    (topPorts rows).length ≤ 10 ∧
      (topPorts rows).Pairwise (fun a b => b.2 ≤ a.2) ∧
      (∀ e ∈ topPorts rows, e.1 ≠ 0 ∧ e.2 = drops e.1) ∧
      ∀ port, port ≠ 0 → 0 < dropsTo startNs w.taken port → port ∉ (topPorts rows).map Prod.fst →
        (topPorts rows).length = 10 ∧ ∀ e ∈ topPorts rows, drops port ≤ e.2 := by
  have htotals : ∀ port, w.stats.portDropped port =
      if port ≠ 0 ∧ 0 < dropsTo startNs w.taken port then
        some (UInt64.ofNat (dropsTo startNs w.taken port)) else none :=
    portDropped_of_accounted (accounted_run h)
  refine ⟨?_, pairwise_topRows 10 rows, ?_, ?_⟩
  · rw [topPorts, length_topRows]
    exact min_le_left _ _
  · intro e he
    have hrow := (hrows.mem_iff e.1 e.2).1 (mem_of_mem_topRows he)
    rw [htotals, Option.ite_none_right_eq_some] at hrow
    exact ⟨hrow.1.1, (Option.some.inj hrow.2).symm⟩
  · intro port hport hpos hnot
    have hrow := (hrows.mem_iff port _).2 ((htotals port).trans (if_pos ⟨hport, hpos⟩))
    exact le_of_not_mem_topRows hrow fun hshown => hnot (List.mem_map_of_mem hshown)

theorem top_ports_most_attacked_batch :
    ∃ w, exec eventStep (.start 3000000000 ⟨true, 10, 100, 60⟩) floodBatch = some w ∧
      ∃ e ∈ topPorts [(80, 2)], e.2 = UInt64.ofNat (dropsTo 3000000000 w.taken 80) := by
  obtain ⟨w, hw⟩ : ∃ w, exec eventStep (.start 3000000000 ⟨true, 10, 100, 60⟩) floodBatch = some w :=
    ⟨_, rfl⟩
  have hports : w.stats.portDropped = Function.update (fun _ => none) 80 (some 2) := by
    cases hw
    rfl
  have hrows : Iterates [(80, 2)] w.stats.portDropped := by
    refine ⟨by decide, fun port count => ?_⟩
    rw [hports, List.mem_singleton, Prod.mk.injEq, Function.update_apply]
    split
    · rename_i hport
      simp [hport, eq_comm]
    · rename_i hport
      simp [hport]
  have hshown : (80, 2) ∈ topPorts [(80, 2)] := by simp [topPorts, topRows]
  exact ⟨w, hw, _, hshown, ((top_ports_most_attacked hw hrows).2.2.1 _ hshown).2⟩

end EShield.Node
