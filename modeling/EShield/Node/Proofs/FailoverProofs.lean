import EShield.Node.Failover

/-!
# Requests find a hub that answers

A request tries each hub at most once, beginning with the one that answered its task last, and fails only
if none answers. If the same hubs answer all the time, a task makes no more vain tries than there are
other hubs, however many requests it makes.
-/

namespace EShield.Node

open Exec RoundRobin

variable {ρ : Type} {urls : List String} {w w' : FailoverRun} {label : FailoverLabel ρ}

/-- The hub that answered the last request of a task that was answered, at first the first one. -/
def lastAnswered (requests : List HubRequest) (task : Nat) : Nat :=
  ((requests.filter fun req => req.task = task).filterMap HubRequest.answeredBy).getLast?.getD 0

theorem lastAnswered_concat (requests : List HubRequest) (req : HubRequest) (task : Nat) :
    lastAnswered (requests ++ [req]) task =
      if req.task = task then req.answeredBy.getD (lastAnswered requests task)
      else lastAnswered requests task := by
  unfold lastAnswered
  rw [List.filter_append, List.filterMap_append]
  by_cases htask : req.task = task
  · cases hans : req.answeredBy <;> simp [htask, hans]
  · simp [htask]

/-- What a request does: the tries up to the first that is answered, or all of them. -/
theorem failoverStep_cases (hi : (w.tasks label.task).currentUrlIdx < urls.length)
    (h : failoverStep urls w label = some w') :
    ∃ req, req.task = label.task ∧ req.start = (w.tasks label.task).currentUrlIdx ∧
      w'.requests = w.requests ++ [req] ∧
      (∀ task, (w'.tasks task).currentUrlIdx =
        if label.task = task then req.answeredBy.getD req.start else (w.tasks task).currentUrlIdx) ∧
      ((∃ m, m < urls.length ∧ (∃ r, label.answers m = .ok r) ∧
          (∀ j < m, ∃ e, label.answers j = .error e) ∧
          req.answeredBy = some ((req.start + m) % urls.length) ∧
          req.tried = (order urls.length req.start).take (m + 1) ∧
          w'.status = ⟨true, activeHubUrl urls ((req.start + m) % urls.length) ++ label.path⟩) ∨
        ((∀ j < urls.length, ∃ e, label.answers j = .error e) ∧
          req.answeredBy = none ∧ req.tried = order urls.length req.start ∧
          w'.status = { w.status with hubConnected := false })) := by
  have hupdate : ∀ (t : HubTask) (place : Nat) (task : Nat), t.currentUrlIdx = place →
      (Function.update w.tasks label.task t task).currentUrlIdx =
        if label.task = task then place else (w.tasks task).currentUrlIdx := by
    intro t place task ht
    by_cases htask : label.task = task
    · subst htask
      rw [Function.update_self, if_pos rfl, ht]
    · rw [Function.update_of_ne (Ne.symm htask), if_neg htask]
  unfold failoverStep withFailover at h
  dsimp only at h
  rcases round_cases hi label.answers with ⟨m, r, hm, hok, hbefore, hround⟩ | ⟨hnone, e, hround⟩
  · rw [hround] at h
    cases h
    exact ⟨_, rfl, rfl, rfl, fun task => hupdate _ _ task rfl,
      .inl ⟨m, hm, ⟨r, hok⟩, hbefore, rfl, rfl, rfl⟩⟩
  · rw [hround] at h
    cases h
    exact ⟨_, rfl, rfl, rfl, fun task => hupdate _ _ task rfl, .inr ⟨hnone, rfl, rfl, rfl⟩⟩

/-! ## Any answers -/

/-- A request began where its task's last answer came from, tried the hubs from there on until one
answered, or all of them. -/
structure FailsOver (n : Nat) (before : List HubRequest) (req : HubRequest) : Prop where
  start : req.start = lastAnswered before req.task
  tried : req.tried <+: order n req.start
  answered : ∀ h ∈ req.answeredBy, req.tried.getLast? = some h
  exhausted : req.answeredBy = none → req.tried = order n req.start

/-- What is known of a run. -/
structure FailoverState (urls : List String) (w : FailoverRun) : Prop where
  place : ∀ task, (w.tasks task).currentUrlIdx = lastAnswered w.requests task
  valid : ∀ task, (w.tasks task).currentUrlIdx < urls.length
  status : w.status.hubConnected = (w.requests.getLast?.bind HubRequest.answeredBy).isSome
  requests : ∀ before req after, w.requests = before ++ req :: after → FailsOver urls.length before req

theorem failoverState_start (hurls : urls ≠ []) : FailoverState urls {} where
  place _ := rfl
  valid _ := List.length_pos_of_ne_nil hurls
  status := rfl
  requests before req after h := by cases before <;> cases h

/-- The last request of a list, or one before it. -/
theorem split_concat {α : Type} {l before after : List α} {a b : α}
    (h : l ++ [a] = before ++ b :: after) :
    (before = l ∧ b = a ∧ after = []) ∨ ∃ after', after = after' ++ [a] ∧ l = before ++ b :: after' := by
  rcases List.eq_nil_or_concat after with rfl | ⟨after', c, rfl⟩
  · have hinj := List.append_inj' h rfl
    exact .inl ⟨hinj.1.symm, (List.cons.inj hinj.2).1.symm, rfl⟩
  · rw [List.concat_eq_append] at h ⊢
    rw [← List.cons_append, ← List.append_assoc] at h
    have hinj := List.append_inj' h rfl
    exact .inr ⟨after', by rw [(List.cons.inj hinj.2).1], hinj.1⟩

theorem FailoverState.step (hw : FailoverState urls w) (h : failoverStep urls w label = some w') :
    FailoverState urls w' := by
  obtain ⟨req, htask, hstart, hrequests, hplace, hcases⟩ := failoverStep_cases (hw.valid _) h
  have hlt : req.start < urls.length := hstart ▸ hw.valid _
  have hvalid : ∀ h ∈ req.answeredBy, h < urls.length := by
    intro h hh
    rcases hcases with ⟨m, hm, -, -, hans, -⟩ | ⟨-, hans, -⟩
    · rw [hans] at hh
      cases hh
      exact Nat.mod_lt _ (by omega)
    · rw [hans] at hh
      cases hh
  constructor
  · intro task
    rw [hplace, hrequests, lastAnswered_concat, htask]
    split
    · rename_i heq
      rw [hstart, hw.place, heq]
    · exact hw.place task
  · intro task
    rw [hplace]
    split
    · cases hans : req.answeredBy with
      | none => exact hlt
      | some h => exact hvalid h hans
    · exact hw.valid task
  · rw [hrequests, List.getLast?_concat, Option.bind_some]
    rcases hcases with ⟨m, -, -, -, hans, -, hstatus⟩ | ⟨-, hans, -, hstatus⟩ <;>
      rw [hans, hstatus] <;> rfl
  · intro before req' after hsplit
    rw [hrequests] at hsplit
    rcases split_concat hsplit with ⟨rfl, rfl, rfl⟩ | ⟨after', -, hsplit⟩
    · constructor
      · rw [hstart, hw.place, htask]
      · rcases hcases with ⟨m, -, -, -, -, htried, -⟩ | ⟨-, -, htried, -⟩
        · exact htried ▸ List.take_prefix _ _
        · exact htried ▸ List.prefix_refl _
      · intro h hh
        rcases hcases with ⟨m, hm, -, -, hans, htried, -⟩ | ⟨-, hans, -⟩
        · rw [hans] at hh
          cases hh
          rw [htried, getLast?_take_order hm]
        · rw [hans] at hh
          cases hh
      · intro hnone
        rcases hcases with ⟨m, -, -, -, hans, -⟩ | ⟨-, -, htried, -⟩
        · rw [hans] at hnone
          cases hnone
        · exact htried
    · exact hw.requests before req' after' hsplit

/-- Two requests of the pushing task while the first of two hubs is down. -/
def firstHubDown : List (FailoverLabel Unit) :=
  [⟨0, "/api/v1/policies", fun k => if k = 1 then .ok () else .error "connection refused"⟩,
    ⟨0, "/api/v1/policies", fun k => if k = 0 then .ok () else .error "connection refused"⟩]

/-- Tries are answered by the hubs that are up, and by no others. -/
def Steady (urls : List String) (up : Nat → Prop) (w : FailoverRun) (label : FailoverLabel ρ) : Prop :=
  ∀ k < urls.length, (label.answers k).isOk = true ↔
    up (((w.tasks label.task).currentUrlIdx + k) % urls.length)

/-- The tries of a task that were in vain. -/
def vainTries (requests : List HubRequest) (task : Nat) : Nat :=
  ((requests.filter fun req => req.task = task).map fun req =>
    req.tried.length - req.answeredBy.toList.length).sum

theorem vainTries_concat (requests : List HubRequest) (req : HubRequest) (task : Nat) :
    vainTries (requests ++ [req]) task = vainTries requests task +
      if req.task = task then req.tried.length - req.answeredBy.toList.length else 0 := by
  unfold vainTries
  rw [List.filter_append, List.map_append, List.sum_append]
  by_cases htask : req.task = task <;> simp [htask]

/-- What is known of a run in which the hubs that are up stay up. -/
structure SteadyState (urls : List String) (up : Nat → Prop) (w : FailoverRun) : Prop where
  state : FailoverState urls w
  answered : ∀ req ∈ w.requests, ∃ h, req.answeredBy = some h ∧ up h
  settled : ∀ task, vainTries w.requests task = 0 ∨
    (up (w.tasks task).currentUrlIdx ∧ vainTries w.requests task < urls.length)

theorem SteadyState.step {up : Nat → Prop} (hup : ∃ h < urls.length, up h)
    (hw : SteadyState urls up w) (hsteady : Steady urls up w label)
    (h : failoverStep urls w label = some w') : SteadyState urls up w' := by
  have hstate := hw.state.step h
  obtain ⟨req, htask, hstart, hrequests, hplace, hcases⟩ :=
    failoverStep_cases (hw.state.valid _) h
  rw [Steady, ← hstart] at hsteady
  -- a hub that is up is at some try of the round
  obtain ⟨m, hm, ⟨r, hok⟩, hbefore, hans, htried, -⟩ := hcases.resolve_right fun hnone => by
    obtain ⟨hub, hhub, hhubup⟩ := hup
    have hmem : hub ∈ order urls.length req.start := mem_order.2 hhub
    obtain ⟨k, hk, rfl⟩ := List.mem_map.1 hmem
    obtain ⟨e, he⟩ := hnone.1 k (List.mem_range.1 hk)
    have := (hsteady k (List.mem_range.1 hk)).2 hhubup
    rw [he] at this
    cases this
  have hanswered : up ((req.start + m) % urls.length) := (hsteady m hm).1 (by rw [hok]; rfl)
  have hvain : req.tried.length - req.answeredBy.toList.length = m := by
    rw [htried, hans, List.length_take, length_order]
    simp only [Option.toList_some, List.length_singleton]
    omega
  refine ⟨hstate, ?_, fun task => ?_⟩
  · intro req' hreq'
    rw [hrequests] at hreq'
    rcases List.mem_append.1 hreq' with hreq' | hreq'
    · exact hw.answered req' hreq'
    · rw [List.mem_singleton.1 hreq']
      exact ⟨_, hans, hanswered⟩
  · rw [hrequests, vainTries_concat, htask, hplace, hvain, hans]
    by_cases heq : label.task = task
    · subst heq
      rw [if_pos rfl, if_pos rfl]
      right
      refine ⟨hanswered, ?_⟩
      rcases hw.settled label.task with hzero | ⟨hupidx, hlt⟩
      · omega
      · -- the task is at a hub that is up, so its first try is answered
        have hmzero : m = 0 := by
          by_contra hne
          obtain ⟨e, he⟩ := hbefore 0 (Nat.pos_of_ne_zero hne)
          have hlt := hw.state.valid label.task
          have := (hsteady 0 (by omega)).2 (by
            rw [Nat.add_zero, hstart, Nat.mod_eq_of_lt hlt]
            exact hupidx)
          rw [he] at this
          cases this
        omega
    · rw [if_neg heq, if_neg heq]
      exact hw.settled task

/-- In every run of the tasks in which the same hubs are up all the time, and at least one is: each
request is answered by one of them, and however many requests a task makes, its vain tries are fewer than
there are hubs. -/
theorem hub_outage_costs_once {labels : List (FailoverLabel ρ)} {up : Nat → Prop}
    (hup : ∃ h < urls.length, up h) (hsteady : Along (failoverStep urls) (Steady urls up) {} labels)
    (h : exec (failoverStep urls) {} labels = some w) :
    (∀ req ∈ w.requests, ∃ h, req.answeredBy = some h ∧ up h) ∧
      ∀ task, vainTries w.requests task < urls.length := by
  have hpos : 0 < urls.length := by
    obtain ⟨hub, hhub, -⟩ := hup
    omega
  have hstart : SteadyState urls up {} :=
    ⟨failoverState_start (List.ne_nil_of_length_pos hpos), fun _ hreq => absurd hreq List.not_mem_nil,
      fun _ => .inl rfl⟩
  have hw : SteadyState urls up w :=
    exec_invariant (fun _ _ _ hw hc hstep => hw.step hup hc hstep) hstart hsteady h
  refine ⟨hw.answered, fun task => ?_⟩
  rcases hw.settled task with hzero | ⟨-, hlt⟩
  · omega
  · exact hlt

theorem hub_outage_costs_once_down :
    ∃ w, exec (failoverStep ["http://hub-a/", "http://hub-b"]) {} firstHubDown = some w ∧
      vainTries w.requests 0 < 2 := by
  obtain ⟨w, hw⟩ : ∃ w, exec (failoverStep ["http://hub-a/", "http://hub-b"]) {} firstHubDown =
      some w := ⟨_, rfl⟩
  have hsteady : Along (failoverStep ["http://hub-a/", "http://hub-b"])
      (Steady ["http://hub-a/", "http://hub-b"] (· = 1)) {} firstHubDown := by
    refine Along.cons rfl ?_ (Along.cons rfl ?_ trivial)
    · unfold Steady
      decide
    · unfold Steady
      decide
  have hup : ∃ hub < ["http://hub-a/", "http://hub-b"].length, hub = 1 := ⟨1, by decide, rfl⟩
  exact ⟨w, hw, (hub_outage_costs_once hup hsteady hw).2 0⟩

end EShield.Node
