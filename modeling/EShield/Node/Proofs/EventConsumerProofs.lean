import EShield.Node.EventConsumer

/-!
# Every drop event is accounted for once

However the events fall into batches and whatever the order in which the counts of a batch are handled:
the count of a port is the number of events for it, the list of recent attacks holds the newest events,
and the engine is told of each source as often as an event of it was taken out.
-/

namespace EShield.Node

open BoundedLog Exec Tally

variable {w w' : EventRun} {startNs : UInt64} {enabled : Bool}

/-! ## What a batch is counted as -/

/-- The events that were not left from before the start of the program. -/
def freshEvents (startNs : UInt64) (events : List DropEvent) : List DropEvent :=
  events.filter fun event => ¬ Stale startNs event

/-- The destination ports of the events with an address of a known family. -/
def eventPorts (events : List DropEvent) : List UInt16 :=
  (events.filter fun event => (eventSource event).isSome).map DropEvent.dstPort

/-- The sources of the events that are for the engine. -/
def engineSources (events : List DropEvent) : List IpKey :=
  (events.filter fun event => ForEngine event).filterMap eventSource

theorem freshEvents_append (events events' : List DropEvent) :
    freshEvents startNs (events ++ events') =
      freshEvents startNs events ++ freshEvents startNs events' :=
  List.filter_append ..

theorem eventPorts_append (events events' : List DropEvent) :
    eventPorts (events ++ events') = eventPorts events ++ eventPorts events' := by
  rw [eventPorts, List.filter_append, List.map_append]
  rfl

theorem count_eventPorts (events : List DropEvent) (port : UInt16) :
    (eventPorts events).count port = events.countP fun event =>
      decide ((eventSource event).isSome ∧ event.dstPort = port) := by
  rw [eventPorts, List.count, List.countP_map, List.countP_filter]
  refine List.countP_congr fun event _ => ?_
  simp [and_comm]

theorem count_engineSources (events : List DropEvent) (key : IpKey) :
    (engineSources events).count key = events.countP fun event =>
      decide (ForEngine event ∧ eventSource event = some key) := by
  rw [engineSources, List.count_filterMap, List.countP_filter]
  refine List.countP_congr fun event _ => ?_
  simp [and_comm]

theorem engineSources_append (events events' : List DropEvent) :
    engineSources (events ++ events') = engineSources events ++ engineSources events' := by
  rw [engineSources, List.filter_append, List.filterMap_append]
  rfl

theorem countEvents_eq (events : List DropEvent) :
    countEvents enabled events =
      (tally (eventPorts events), tally (if enabled then engineSources events else [])) := by
  induction events using List.reverseRecOn with
  | nil => cases enabled <;> rfl
  | append_singleton events event ih =>
    rw [countEvents, List.foldl_append, ← countEvents, ih, eventPorts_append, engineSources_append,
      List.foldl_cons, List.foldl_nil]
    cases hsource : eventSource event with
    | none =>
      have hports : eventPorts [event] = [] := by simp [eventPorts, hsource]
      have hsources : engineSources [event] = [] := by
        by_cases hengine : ForEngine event <;> simp [engineSources, hengine, hsource]
      rw [hports, hsources, List.append_nil, List.append_nil]
    | some srcKey =>
      have hports : eventPorts [event] = [event.dstPort] := by simp [eventPorts, hsource]
      rw [hports, tally_concat]
      cases enabled with
      | false => rfl
      | true =>
        by_cases hengine : ForEngine event
        · have hsources : engineSources [event] = [srcKey] := by
            simp [engineSources, hengine, hsource]
          rw [hsources]
          simp only [if_true, tally_concat, hengine, and_self]
        · have hsources : engineSources [event] = [] := by simp [engineSources, hengine]
          rw [hsources]
          simp only [if_true, List.append_nil, hengine, and_false, if_false]

/-! ## What a batch adds -/

theorem fetchAdd_fetchAdd (x : UInt64) (m n : Nat) :
    EventStats.fetchAdd (EventStats.fetchAdd x m) n = EventStats.fetchAdd x (m + n) := by
  simp only [EventStats.fetchAdd, UInt64.ofNat_add, UInt64.add_assoc]

/-- The number of events of a source that the engine has been told of. -/
def seenCount (adaptive : AdaptiveRun) (key : IpKey) : Nat :=
  ((adaptive.seen key).map Prod.snd).sum

/-- A call tells the engine of as many events as it counts. -/
theorem seenCount_event {a a' : AdaptiveRun} {call : EngineCall}
    (h : adaptiveStep a call.label = some a') (hcount : call.count < 2 ^ 64) (key : IpKey) :
    seenCount a' key = seenCount a key + if call.srcKey = key then call.count else 0 := by
  simp only [EngineCall.label, adaptiveStep] at h
  split at h
  · cases h
  · cases h
    simp only [seenCount]
    split
    · rename_i heq
      subst heq
      rw [Function.update_self, List.map_append, List.sum_append, List.map_singleton,
        List.sum_singleton, UInt64.toNat_ofNat_of_lt' hcount]
    · rename_i hne
      rw [Function.update_of_ne (Ne.symm hne), Nat.add_zero]

theorem seenCount_events {calls : List EngineCall} {a a' : AdaptiveRun}
    (h : exec adaptiveStep a (calls.map EngineCall.label) = some a')
    (hcount : ∀ call ∈ calls, call.count < 2 ^ 64) (key : IpKey) :
    seenCount a' key = seenCount a key +
      (calls.map fun call => if call.srcKey = key then call.count else 0).sum := by
  induction calls generalizing a with
  | nil => cases h; simp
  | cons call calls ih =>
    obtain ⟨a₁, hcall, hrest⟩ := Option.bind_eq_some_iff.1 h
    rw [ih hrest fun c hc => hcount c (List.mem_cons_of_mem call hc),
      seenCount_event hcall (hcount call List.mem_cons_self), List.map_cons, List.sum_cons,
      Nat.add_assoc]

/-- The other tasks tell the engine of nothing. -/
theorem seenCount_other {a a' : AdaptiveRun} {label : AdaptiveLabel}
    (hlabel : ∀ srcIp count nowS untilReadNs nowNs,
      label ≠ .events srcIp count nowS untilReadNs nowNs)
    (h : adaptiveStep a label = some a') (key : IpKey) : seenCount a' key = seenCount a key := by
  cases label with
  | events srcIp count nowS untilReadNs nowNs => exact absurd rfl (hlabel srcIp count nowS untilReadNs nowNs)
  | prune nowS evicted => cases h; rfl
  | unblock key => cases h; rfl
  | rewrite blacklist => cases h; rfl

/-- What is known of a run of the consumer. -/
structure Accounted (startNs : UInt64) (w : EventRun) : Prop where
  queue : w.arrived.reduceOption = w.taken ++ w.ringBuf.reduceOption
  start : w.stats.programStartNs = startNs
  ports : w.stats.portDropped =
    totals EventStats.fetchAdd 0 ((eventPorts (freshEvents startNs w.taken)).filter (· ≠ 0))
  recent : w.stats.recentAttacks = (freshEvents startNs w.taken).rtake 1000
  sources : ∀ key, seenCount w.adaptive key =
    (engineSources (freshEvents startNs w.takenEnabled)).count key

theorem accounted_start (config : AdaptiveConfig) :
    Accounted startNs (.start startNs config) where
  queue := rfl
  start := rfl
  ports := funext fun port => by simp [EventRun.start, totals, freshEvents, eventPorts]
  recent := by simp [EventRun.start, freshEvents, List.rtake]
  sources _ := rfl

/-- One batch, whatever the order of its counts. -/
theorem accounted_consume {byPort : List (UInt16 × Nat)} {calls : List EngineCall}
    (hw : Accounted startNs w) (h : consume w byPort calls = some w') : Accounted startNs w' := by
  have happend := drain_append eventBatch 0 w.ringBuf
  have hlength := length_drain_le (show 0 < eventBatch by decide) w.ringBuf
  unfold consume at h
  dsimp only at h
  generalize drain eventBatch 0 w.ringBuf = taken at h happend hlength
  obtain ⟨events, ringBuf⟩ := taken
  dsimp only at h happend hlength
  generalize henabled : w.adaptive.engine.config.enabled = enabled at h
  rw [hw.start, countEvents_eq, Option.ite_none_right_eq_some, Option.map_eq_some_iff] at h
  obtain ⟨⟨hports, hcalls⟩, adaptive, hexec, rfl⟩ := h
  replace hports := (isTally_tally _).perm hports
  replace hcalls := (isTally_tally _).perm hcalls
  have hsources : (if enabled then engineSources (freshEvents startNs events) else []) =
      engineSources (freshEvents startNs (if enabled then events else [])) := by
    cases enabled <;> rfl
  rw [← freshEvents, hsources] at hcalls
  have hfew : (engineSources (freshEvents startNs (if enabled then events else []))).length ≤
      eventBatch := by
    refine (List.length_filterMap_le _ _).trans ((List.length_filter_le _ _).trans
      ((List.length_filter_le _ _).trans ?_))
    cases enabled with
    | false => exact Nat.zero_le _
    | true => simpa using hlength
  have hcount : ∀ call ∈ calls, call.count < 2 ^ 64 := fun call hcall =>
    ((hcalls.le_length (List.mem_map_of_mem hcall)).trans hfew).trans_lt (by decide)
  constructor
  · rw [hw.queue, ← happend, List.append_assoc]
  · exact hw.start
  · change ((byPort.filter fun e => decide (e.1 ≠ 0)).foldl (add EventStats.fetchAdd 0)
      w.stats.portDropped) = _
    rw [hw.ports, (hports.filter fun port => decide (port ≠ 0)).foldl_add fetchAdd_fetchAdd,
      ← List.filter_append, freshEvents_append, eventPorts_append]
    rfl
  · change pushMany 1000 w.stats.recentAttacks (freshEvents startNs events) = _
    rw [hw.recent, freshEvents_append]
    exact pushMany_rtake 1000 _ _
  · intro key
    have hsum := hcalls.sum_key key
    rw [List.map_map] at hsum
    rw [seenCount_events hexec hcount, hw.sources, freshEvents_append, engineSources_append,
      List.count_append, ← hsum]
    rfl

theorem accounted_step {label : EventLabel} (hw : Accounted startNs w)
    (h : eventStep w label = some w') : Accounted startNs w' := by
  cases label with
  | emit item =>
    cases h
    refine { hw with queue := ?_ }
    change (w.arrived ++ [item]).reduceOption = w.taken ++ (w.ringBuf ++ [item]).reduceOption
    rw [List.reduceOption_append, List.reduceOption_append, hw.queue, List.append_assoc]
  | consume byPort calls => exact accounted_consume hw h
  | updateConfig config => cases h; exact { hw with }
  | other label =>
    simp only [eventStep] at h
    split at h
    · cases h
    · rename_i hlabel
      obtain ⟨adaptive, hstep, rfl⟩ := Option.map_eq_some_iff.1 h
      exact { hw with
        sources := fun key => (seenCount_other hlabel hstep key).trans (hw.sources key) }

theorem accounted_run {config : AdaptiveConfig} {labels : List EventLabel}
    (h : exec eventStep (.start startNs config) labels = some w) : Accounted startNs w :=
  exec_invariant (c := fun _ _ => True) (fun _ _ _ hw _ hstep => accounted_step hw hstep)
    (accounted_start config) (along_of_forall (fun _ _ => trivial) _ _) h

theorem portDropped_of_accounted (hw : Accounted startNs w) (port : UInt16) :
    w.stats.portDropped port =
      let count := (freshEvents startNs w.taken).countP fun event =>
        (eventSource event).isSome ∧ event.dstPort = port
      if port ≠ 0 ∧ 0 < count then some (UInt64.ofNat count) else none := by
  dsimp only
  rw [hw.ports, totals, ← count_eventPorts]
  by_cases hport : port = 0
  · simp [hport]
  · have hfilter : ∀ ports : List UInt16, (ports.filter (· ≠ 0)).count port = ports.count port :=
      fun ports => List.count_filter (by simpa using hport)
    simp only [← List.count_pos_iff, hfilter]
    simp [EventStats.fetchAdd, hport]

/-- In every run of the consumer, with the engine's tasks and changes of its configuration between the
batches: the events taken out and the events still in the buffer are those that arrived, in their order.
Of those taken out, the ones from before the start of the program aside, a port has as many dropped
packets as there are events of a known family for it, the display shows the newest events first, at most
a thousand, and the engine has been told of a source as often as an event of it was taken out while it
was enabled. -/
theorem drop_events_accounted {config : AdaptiveConfig} {labels : List EventLabel}
    (h : exec eventStep (.start startNs config) labels = some w) :
    w.arrived.reduceOption = w.taken ++ w.ringBuf.reduceOption ∧
      (∀ port, w.stats.portDropped port =
        let count := (freshEvents startNs w.taken).countP fun event =>
          (eventSource event).isSome ∧ event.dstPort = port
        if port ≠ 0 ∧ 0 < count then some (UInt64.ofNat count) else none) ∧
      (∀ limit, w.stats.attackEvents limit =
        (freshEvents startNs w.taken).reverse.take (min limit 1000)) ∧
      ∀ key, seenCount w.adaptive key =
        (freshEvents startNs w.takenEnabled).countP fun event =>
          ForEngine event ∧ eventSource event = some key := by
  have hw := accounted_run h
  refine ⟨hw.queue, portDropped_of_accounted hw, ?_, ?_⟩
  · intro limit
    rw [EventStats.attackEvents, hw.recent, List.rtake_eq_reverse_take_reverse,
      List.reverse_reverse, List.take_take]
  · intro key
    rw [hw.sources, count_engineSources]

/-- A batch of a stale event, one of a rate limit and one of a SYN flood. -/
def floodBatch : List EventLabel :=
  [.emit (some ⟨5, 1, 4, 6, rules.RATE_LIMIT, 80⟩), .emit none,
    .emit (some ⟨4000000000, 1, 4, 6, rules.RATE_LIMIT, 80⟩),
    .emit (some ⟨4000000001, 7, 4, 6, rules.SYN_FLOOD, 80⟩),
    .consume [(80, 2)] [⟨.fromIpv4 1, 1, 4, 4000000002, 4000000003⟩]]

theorem drop_events_accounted_batch :
    ∃ w, exec eventStep (.start 3000000000 ⟨true, 10, 100, 60⟩) floodBatch = some w ∧
      w.stats.portDropped 80 = some 2 ∧ seenCount w.adaptive (.fromIpv4 1) = 1 := by
  obtain ⟨w, hw⟩ : ∃ w, exec eventStep (.start 3000000000 ⟨true, 10, 100, 60⟩) floodBatch = some w :=
    ⟨_, rfl⟩
  have haccounted := drop_events_accounted hw
  refine ⟨w, hw, ?_, ?_⟩
  · rw [haccounted.2.1]
    cases hw
    decide
  · rw [haccounted.2.2.2]
    cases hw
    decide

end EShield.Node
