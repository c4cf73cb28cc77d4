import EShield.Node.PacketLog

/-!
# The packet log holds the newest samples

However the samples fall into batches, the log holds the newest of those that were taken out of the ring
buffer, in their order, and a query returns the newest of these that it asks for.
-/

namespace EShield.Node

open BoundedLog Exec Text

variable {w w' : PacketRun} {maxEntries : Nat}

/-! ## Queries -/

/-- The sample is one that the query asks for: an address contains the text, a port is the port, and
each other field that is given agrees. -/
structure Matches (opts : PacketLogQuery) (s : PacketSample) : Prop where
  ip : ∀ ip ∈ opts.ip, ∃ addr ∈ [s.srcIp, s.dstIp],
    lowercase ip <:+: lowercase (formatIpForFilter addr s.family)
  port : ∀ port ∈ opts.port, port ∈ [s.srcPort, s.dstPort]
  protocol : ∀ protocol ∈ opts.protocol, s.protocol = protocol
  action : ∀ action ∈ opts.action, s.action = action
  rule : ∀ rule ∈ opts.rule, s.ruleId = rule
  fromNs : ∀ fromNs ∈ opts.fromNs, fromNs ≤ s.timestampNs
  toNs : ∀ toNs ∈ opts.toNs, s.timestampNs ≤ toNs

/-- The checks of the filter one by one. -/
theorem passes_iff {opts : PacketLogQuery} {s : PacketSample} :
    opts.passes s = true ↔ Matches opts s := by
  have hsplit : ∀ (c : Bool) (r : Bool), (if c then false else r) = true ↔ c = false ∧ r = true := by
    intro c r
    cases c <;> simp
  have hany : ∀ {α : Type} (o : Option α) (p : α → Bool), o.any p = false ↔ ∀ a ∈ o, p a = false := by
    intro α o p
    cases o <;> simp
  unfold PacketLogQuery.passes
  simp only [hsplit, hany]
  constructor
  · rintro ⟨hip, hport, hprotocol, haction, hrule, hfrom, hto, -⟩
    constructor
    · intro ip hmem
      have := hip (lowercase ip) (Option.mem_map_of_mem lowercase hmem)
      simp only [decide_eq_false_iff_not, not_and, not_not] at this
      by_cases hsrc : lowercase ip <:+: lowercase (formatIpForFilter s.srcIp s.family)
      · exact ⟨s.srcIp, by simp, hsrc⟩
      · exact ⟨s.dstIp, by simp, this hsrc⟩
    · intro port hmem
      have := hport port hmem
      simp only [decide_eq_false_iff_not, not_and, not_not, ne_eq] at this
      by_cases hsrc : s.srcPort = port
      · simp [hsrc]
      · simp [this hsrc]
    · simpa using hprotocol
    · simpa using haction
    · simpa using hrule
    · simpa using hfrom
    · simpa using hto
  · rintro ⟨hip, hport, hprotocol, haction, hrule, hfrom, hto⟩
    refine ⟨?_, ?_, by simpa using hprotocol, by simpa using haction, by simpa using hrule,
      by simpa using hfrom, by simpa using hto, trivial⟩
    · intro text hmem
      obtain ⟨ip, hip', rfl⟩ := Option.mem_map.1 hmem
      obtain ⟨addr, haddr, hpart⟩ := hip ip hip'
      rcases List.mem_pair.1 haddr with rfl | rfl <;> simp [hpart]
    · intro port hmem
      rcases List.mem_pair.1 (hport port hmem) with rfl | rfl <;> simp

instance (opts : PacketLogQuery) (s : PacketSample) : Decidable (Matches opts s) :=
  decidable_of_iff _ passes_iff

/-! ## Runs -/

/-- What is known of a run of the log. -/
structure HoldsNewest (maxEntries : Nat) (w : PacketRun) : Prop where
  queue : w.arrived.reduceOption = w.taken ++ w.ringBuf.reduceOption
  capacity : w.log.maxEntries = maxEntries
  entries : w.log.entries = w.taken.rtake (kept maxEntries)

theorem holdsNewest_start : HoldsNewest maxEntries (.start maxEntries) where
  queue := rfl
  capacity := rfl
  entries := by simp [PacketRun.start, List.rtake]

theorem holdsNewest_consume (hw : HoldsNewest maxEntries w) :
    HoldsNewest maxEntries (consumeSamples w) where
  queue := by
    rw [consumeSamples, hw.queue, ← drain_append packetBatch 0 w.ringBuf, List.append_assoc]
  capacity := hw.capacity
  entries := by
    rw [consumeSamples, ← pushMany_rtake, ← hw.entries, ← hw.capacity]
    rfl

theorem holdsNewest_step {label : PacketLabel} (hw : HoldsNewest maxEntries w)
    (h : packetStep w label = some w') : HoldsNewest maxEntries w' := by
  cases label with
  | emit item =>
    cases h
    refine { hw with queue := ?_ }
    change (w.arrived ++ [item]).reduceOption = w.taken ++ (w.ringBuf ++ [item]).reduceOption
    rw [List.reduceOption_append, List.reduceOption_append, hw.queue, List.append_assoc]
  | consume => cases h; exact holdsNewest_consume hw

theorem holdsNewest_run {labels : List PacketLabel}
    (h : exec packetStep (.start maxEntries) labels = some w) : HoldsNewest maxEntries w :=
  exec_invariant (c := fun _ _ => True) (fun _ _ _ hw _ hstep => holdsNewest_step hw hstep)
    holdsNewest_start (along_of_forall (fun _ _ => trivial) _ _) h

/-- The consumer gets to the end of the buffer if nothing arrives. -/
theorem drained {n : Nat} (h : w.ringBuf.length ≤ n) : (consumeSamples^[n] w).ringBuf = [] := by
  induction n generalizing w with
  | zero => exact List.eq_nil_of_length_eq_zero (Nat.le_zero.1 h)
  | succ n ih =>
    refine ih ?_
    by_cases hempty : w.ringBuf = []
    · simp [consumeSamples, hempty, drain]
    · have := length_drain_lt packetBatch 0 hempty
      rw [consumeSamples]
      dsimp only
      omega

/-- In every run: the samples taken out and those still in the buffer are those that arrived, in their
order; a query returns those that match it among the newest `maxEntries` taken out, the newest first and
no more than its limit; and calls of the consumer, as many as there are items in the buffer, put every
sample that has arrived into the log before anything else arrives. With `maxEntries` 0 the log keeps one
sample, since it makes room before it adds one. -/
theorem packet_log_holds_newest {labels : List PacketLabel}
    (h : exec packetStep (.start maxEntries) labels = some w) :
    w.arrived.reduceOption = w.taken ++ w.ringBuf.reduceOption ∧
      (∀ opts, w.log.query opts =
        (((w.taken.reverse.take (max maxEntries 1)).filter fun s => Matches opts s).take
          opts.limit).map sampleEntry) ∧
      ∀ n ≥ w.ringBuf.length,
        (consumeSamples^[n] w).log.entries =
          w.arrived.reduceOption.rtake (max maxEntries 1) := by
  have hw := holdsNewest_run h
  refine ⟨hw.queue, ?_, ?_⟩
  · intro opts
    have hfilter : opts.passes = fun s => decide (Matches opts s) :=
      funext fun s => Bool.eq_iff_iff.2 (passes_iff.trans decide_eq_true_iff.symm)
    rw [PacketLog.query, PacketLog.hits, hw.entries, List.rtake_eq_reverse_take_reverse,
      List.reverse_reverse, hfilter]
    rfl
  · intro n hn
    have hnewest : ∀ n, HoldsNewest maxEntries (consumeSamples^[n] w) := by
      intro n
      induction n with
      | zero => exact hw
      | succ n ih => exact Function.iterate_succ_apply' .. ▸ holdsNewest_consume ih
    have harrived : ∀ n, (consumeSamples^[n] w).arrived = w.arrived := by
      intro n
      induction n with
      | zero => rfl
      | succ n ih => rw [Function.iterate_succ_apply']; exact ih
    have hqueue := (hnewest n).queue
    rw [drained hn, List.reduceOption_nil, List.append_nil, harrived] at hqueue
    rw [(hnewest n).entries, ← hqueue]
    rfl

/-- Two samples in a log for one. -/
def twoSamples : List PacketLabel :=
  [.emit (some ⟨7, 0x0a000001, 0x0a000002, 4, 6, 4242, 80, 1, 0, 60, 2, [0x1f, 0xa0]⟩),
    .emit (some ⟨9, 0x0a000002, 0x0a000001, 4, 17, 53, 4242, 0, 8, 60, 0, []⟩), .consume]

theorem packet_log_holds_newest_two :
    ∃ w, exec packetStep (.start 1) twoSamples = some w ∧
      (w.log.query { ip := some "10.0.0.1" }).map PacketSampleEntry.srcPort = [53] := by
  obtain ⟨w, hw⟩ : ∃ w, exec packetStep (.start 1) twoSamples = some w := ⟨_, rfl⟩
  refine ⟨w, hw, ?_⟩
  rw [(packet_log_holds_newest hw).2.1]
  cases hw
  decide +kernel

end EShield.Node
