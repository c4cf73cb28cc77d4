import EShield.Node.LoginLimiter

/-!
# How often a client may guess

Pruning drops only failures that no later check within the window would count, so a client with five
recorded failures passes no check until the window or the lock is over. What a login does after its
check is not seen by the checks of others until its failure is recorded.
-/

namespace EShield.Node

open IpText Exec TaskTable

namespace LoginLimiter

variable {l : LoginLimiter} {ip ip' : IpAddr} {now T u : Nat}

/-! ## One client -/

/-- The kept failures of the client from `T` on. -/
def failuresFrom (l : LoginLimiter) (ip : IpAddr) (T : Nat) : Nat :=
  (l.entry ip).attempts.countP (T ≤ ·)

/-- The client is locked out until `u` at least. -/
def LockedUntil (l : LoginLimiter) (ip : IpAddr) (u : Nat) : Prop :=
  ∃ lockedUntil, (l.entry ip).lockedUntil = some lockedUntil ∧ u ≤ lockedUntil

@[simp] theorem entry_setEntry_self (e : AttemptEntry) : (l.setEntry ip e).entry ip = e := by
  simp [entry, setEntry]

theorem entry_setEntry_of_ne (h : ip ≠ ip') (e : AttemptEntry) :
    (l.setEntry ip' e).entry ip = l.entry ip := by
  simp [entry, setEntry, Function.update_of_ne h]

theorem entry_recordSuccess_of_ne (h : ip ≠ ip') : (l.recordSuccess ip').entry ip = l.entry ip := by
  simp [entry, recordSuccess, Function.update_of_ne h]

/-- What pruning drops within the window of `T` is older than `T`. -/
theorem countP_recent (attempts : List Nat) (hnow : now < T + WINDOW) :
    (recent attempts now).countP (T ≤ ·) = attempts.countP (T ≤ ·) := by
  rw [recent, List.countP_filter]
  apply List.countP_congr
  intro t _
  simp only [Bool.and_eq_true, decide_eq_true_eq, and_iff_left_iff_imp]
  intro ht
  have hpos : 0 < WINDOW := by decide
  omega

theorem check_entry_of_ne (h : ip ≠ ip') : (l.check ip' now).2.entry ip = l.entry ip := by
  unfold check
  dsimp only
  split
  · exact entry_setEntry_of_ne h _
  · split
    · exact entry_setEntry_of_ne h _
    · exact entry_setEntry_of_ne h _

theorem check_attempts :
    ((l.check ip now).2.entry ip).attempts = recent (l.entry ip).attempts now := by
  unfold check
  dsimp only
  split
  · rw [entry_setEntry_self]
  · split
    · rw [entry_setEntry_self]
    · rw [entry_setEntry_self]

theorem recordFailure_entry_of_ne (h : ip ≠ ip') :
    (l.recordFailure ip' now).entry ip = l.entry ip := entry_setEntry_of_ne h _

theorem recordFailure_attempts :
    ((l.recordFailure ip now).entry ip).attempts = recent (l.entry ip).attempts now ++ [now] := by
  rw [recordFailure, entry_setEntry_self]

theorem failuresFrom_check (hnow : now < T + WINDOW) :
    (l.check ip' now).2.failuresFrom ip T = l.failuresFrom ip T := by
  by_cases h : ip = ip'
  · subst h
    rw [failuresFrom, check_attempts, countP_recent _ hnow, failuresFrom]
  · rw [failuresFrom, check_entry_of_ne h, failuresFrom]

theorem failuresFrom_recordFailure (hnow : now < T + WINDOW) :
    (l.recordFailure ip' now).failuresFrom ip T =
      l.failuresFrom ip T + if ip' = ip ∧ T ≤ now then 1 else 0 := by
  by_cases h : ip = ip'
  · subst h
    rw [failuresFrom, recordFailure_attempts, List.countP_append, countP_recent _ hnow,
      failuresFrom]
    simp [List.countP_cons]
  · rw [failuresFrom, recordFailure_entry_of_ne h, if_neg fun hip => h hip.1.symm, failuresFrom,
      Nat.add_zero]

/-- Five failures that still count close the check. -/
theorem check_refused_of_failures (hnow : now < T + WINDOW)
    (h : MAX_ATTEMPTS ≤ l.failuresFrom ip T) : (l.check ip now).1 ≠ .ok () := by
  have hmany : MAX_ATTEMPTS ≤ (recent (l.entry ip).attempts now).length := by
    rw [failuresFrom, ← countP_recent _ hnow] at h
    exact le_trans h List.countP_le_length
  unfold check
  dsimp only
  split
  · intro hok
    cases hok
  · rw [if_pos hmany]
    intro hok
    cases hok

/-- So does a lock, which the check leaves. -/
theorem check_locked (hnow : now < u) (h : l.LockedUntil ip u) :
    (l.check ip now).1 ≠ .ok () ∧ (l.check ip now).2.LockedUntil ip u := by
  obtain ⟨lockedUntil, hlock, hle⟩ := h
  have hfilter : (l.entry ip).lockedUntil.filter (now < ·) = some lockedUntil := by
    rw [hlock, Option.filter_some, if_pos (decide_eq_true (by omega))]
  unfold check
  dsimp only
  rw [hfilter]
  refine ⟨fun hok => (by cases hok), lockedUntil, ?_, hle⟩
  rw [entry_setEntry_self]

theorem lockedUntil_check_of_ne (hne : ip ≠ ip') (h : l.LockedUntil ip u) :
    (l.check ip' now).2.LockedUntil ip u := by
  rw [LockedUntil, check_entry_of_ne hne]
  exact h

/-- A failure can only make a lock longer. -/
theorem lockedUntil_recordFailure (hnow : u ≤ now + LOCKOUT) (h : l.LockedUntil ip u) :
    (l.recordFailure ip' now).LockedUntil ip u := by
  by_cases hip : ip = ip'
  · subst hip
    obtain ⟨lockedUntil, hlock, hle⟩ := h
    rw [LockedUntil, recordFailure, entry_setEntry_self]
    dsimp only
    split
    · exact ⟨_, rfl, hnow⟩
    · exact ⟨_, hlock, hle⟩
  · rw [LockedUntil, recordFailure_entry_of_ne hip]
    exact h

/-- The fifth failure that counts locks the client out. -/
theorem recordFailure_locks
    (h : MAX_ATTEMPTS ≤ (l.recordFailure ip now).failuresFrom ip T) :
    (l.recordFailure ip now).LockedUntil ip (now + LOCKOUT) := by
  have hmany : MAX_ATTEMPTS ≤ (recent (l.entry ip).attempts now ++ [now]).length := by
    rw [failuresFrom, recordFailure_attempts] at h
    exact le_trans h List.countP_le_length
  refine ⟨now + LOCKOUT, ?_, le_refl _⟩
  rw [recordFailure, entry_setEntry_self]
  exact if_pos hmany

end LoginLimiter

/-! ## One step -/

/-- What a step does, by its label. -/
inductive LoginMoves (s : LoginWorld) : LoginLabel → LoginWorld → Prop where
  | checkPassed {id ip t} (hclock : s.clock ≤ t) (hfree : s.tasks id = none)
      (hcheck : (s.limiter.check ip t).1 = .ok ()) :
      LoginMoves s (.check id ip t)
        { limiter := (s.limiter.check ip t).2, clock := t
          tasks := s.tasks.set id (some (.checked ip)) }
  | checkRefused {id ip t} (hclock : s.clock ≤ t) (hfree : s.tasks id = none) :
      LoginMoves s (.check id ip t) { s with limiter := (s.limiter.check ip t).2, clock := t }
  | verify {id ip ok t} (hclock : s.clock ≤ t) (htask : s.tasks id = some (.checked ip)) :
      LoginMoves s (.verify id ip ok t)
        { s with clock := t, tasks := s.tasks.set id (some (.verified ip ok)) }
  | recordSuccess {id ip t} (hclock : s.clock ≤ t) :
      LoginMoves s (.record id ip true t)
        { limiter := s.limiter.recordSuccess ip, clock := t, tasks := s.tasks.set id none }
  | recordFailure {id ip t} (hclock : s.clock ≤ t) :
      LoginMoves s (.record id ip false t)
        { limiter := s.limiter.recordFailure ip t, clock := t, tasks := s.tasks.set id none }

theorem loginStep_moves {s s' : LoginWorld} {l : LoginLabel} (h : loginStep s l = some s') :
    LoginMoves s l s' := by
  unfold loginStep at h
  split at h
  · cases h
  · rename_i hlt
    have hclock : s.clock ≤ l.time := Nat.le_of_not_lt hlt
    cases l with
    | check id ip t =>
      dsimp only at h
      cases hfree : s.tasks id with
      | some task => simp [hfree] at h
      | none =>
        rw [hfree] at h
        dsimp only at h
        cases hcheck : s.limiter.check ip t with
        | mk result limiter =>
          rw [hcheck] at h
          obtain rfl : (s.limiter.check ip t).2 = limiter := by rw [hcheck]
          cases result with
          | error message =>
            cases h
            exact .checkRefused hclock hfree
          | ok _ =>
            cases h
            exact .checkPassed hclock hfree (by rw [hcheck])
    | verify id ip ok t =>
      dsimp only at h
      split at h
      · rename_i htask
        cases h
        exact .verify hclock htask
      · cases h
    | record id ip ok t =>
      dsimp only at h
      split at h
      · cases h
        cases ok with
        | true => exact .recordSuccess hclock
        | false => exact .recordFailure hclock
      · cases h

/-- The label records a failure of `ip` at `T` or later. -/
def LoginLabel.failureFrom (ip : IpAddr) (T : Nat) : LoginLabel → Bool
  | .record _ ip' ok t => decide (ip' = ip) && !ok && decide (T ≤ t)
  | _ => false

/-- No success of `ip` is recorded from `T` on. -/
def NoSuccessFrom (ip : IpAddr) (T : Nat) (labels : List LoginLabel) : Prop :=
  ∀ id t, .record id ip true t ∈ labels → t < T

section Step

variable {s s' : LoginWorld} {l : LoginLabel} {ip : IpAddr} {T u : Nat}

theorem clock_of_step (h : loginStep s l = some s') : s.clock ≤ l.time ∧ s'.clock = l.time := by
  cases loginStep_moves h with
  | checkPassed hclock hfree hcheck => exact ⟨hclock, rfl⟩
  | checkRefused hclock hfree => exact ⟨hclock, rfl⟩
  | verify hclock htask => exact ⟨hclock, rfl⟩
  | recordSuccess hclock => exact ⟨hclock, rfl⟩
  | recordFailure hclock => exact ⟨hclock, rfl⟩

/-- Within the window, every step that records no success of the client counts exactly the failure it
records. -/
theorem failuresFrom_step (h : loginStep s l = some s') (htime : l.time < T + WINDOW)
    (hsuccess : ∀ id t, l ≠ .record id ip true t) :
    s'.limiter.failuresFrom ip T =
      s.limiter.failuresFrom ip T + if l.failureFrom ip T then 1 else 0 := by
  cases loginStep_moves h with
  | checkPassed hclock hfree hcheck => exact LoginLimiter.failuresFrom_check htime
  | checkRefused hclock hfree => exact LoginLimiter.failuresFrom_check htime
  | verify hclock htask => rfl
  | recordSuccess hclock =>
    rename_i id ip' t
    have hne : ip ≠ ip' := by
      rintro rfl
      exact hsuccess id t rfl
    show (s.limiter.recordSuccess ip').failuresFrom ip T = _
    rw [LoginLimiter.failuresFrom, LoginLimiter.entry_recordSuccess_of_ne hne]
    simp [LoginLabel.failureFrom, LoginLimiter.failuresFrom]
  | recordFailure hclock =>
    rename_i id ip' t
    have ht : t < T + WINDOW := htime
    show (s.limiter.recordFailure ip' t).failuresFrom ip T = _
    rw [LoginLimiter.failuresFrom_recordFailure ht]
    simp [LoginLabel.failureFrom]

/-- The login `id` of `ip` is not past a check. -/
def NotChecked (id : Nat) (ip : IpAddr) (s : LoginWorld) : Prop := s.tasks id ≠ some (.checked ip)

/-- Only a check that passes gets a login past its check. -/
theorem notChecked_step {id : Nat} (h : loginStep s l = some s') (hnot : NotChecked id ip s)
    (hcheck : ∀ t, l = .check id ip t → (s.limiter.check ip t).1 ≠ .ok ()) :
    NotChecked id ip s' := by
  have hset : ∀ id' new, (id' = id → new ≠ some (.checked ip)) →
      s.tasks.set id' new id ≠ some (.checked ip) := by
    intro id' new hnew
    by_cases hid : id' = id
    · subst hid
      rw [TaskTable.set, Function.update_self]
      exact hnew rfl
    · rw [TaskTable.set, Function.update_of_ne (Ne.symm hid)]
      exact hnot
  cases loginStep_moves h with
  | checkPassed hclock hfree hpassed =>
    rename_i id' ip' t
    refine hset id' _ ?_
    rintro rfl hip
    cases hip
    exact hcheck t rfl hpassed
  | checkRefused hclock hfree => exact hnot
  | verify hclock htask => exact hset _ _ fun _ hnew => by cases hnew
  | recordSuccess hclock => exact hset _ _ fun _ hnew => by cases hnew
  | recordFailure hclock => exact hset _ _ fun _ hnew => by cases hnew

theorem lockedUntil_step (h : loginStep s l = some s') (htime : l.time < u)
    (hlate : u ≤ s.clock + LOCKOUT) (hsuccess : ∀ id t, l ≠ .record id ip true t)
    (hlocked : s.limiter.LockedUntil ip u) : s'.limiter.LockedUntil ip u := by
  have hcheck : ∀ ip' t, t < u → (s.limiter.check ip' t).2.LockedUntil ip u := by
    intro ip' t ht
    by_cases hip : ip = ip'
    · subst hip
      exact (LoginLimiter.check_locked ht hlocked).2
    · exact LoginLimiter.lockedUntil_check_of_ne hip hlocked
  cases loginStep_moves h with
  | checkPassed hclock hfree hpassed => exact hcheck _ _ htime
  | checkRefused hclock hfree => exact hcheck _ _ htime
  | verify hclock htask => exact hlocked
  | recordSuccess hclock =>
    rename_i id ip' t
    have hne : ip ≠ ip' := by
      rintro rfl
      exact hsuccess id t rfl
    show (s.limiter.recordSuccess ip').LockedUntil ip u
    rw [LoginLimiter.LockedUntil, LoginLimiter.entry_recordSuccess_of_ne hne]
    exact hlocked
  | recordFailure hclock =>
    exact LoginLimiter.lockedUntil_recordFailure (by omega) hlocked

end Step

/-! ## Runs -/

/-- A login that fails, with the times of its steps. -/
structure FailedLogin where
  id : Nat
  checkedAt : Nat
  verifiedAt : Nat
  recordedAt : Nat

/-- The steps of a failed login of `ip`. -/
def FailedLogin.labels (ip : IpAddr) (f : FailedLogin) : List LoginLabel :=
  [.check f.id ip f.checkedAt, .verify f.id ip false f.verifiedAt,
    .record f.id ip false f.recordedAt]

section Run

variable {s₀ s : LoginWorld} {labels mid : List LoginLabel} {ip : IpAddr} {id T u : Nat}

/-- The times of a run do not decrease. -/
theorem times_run (h : exec loginStep s₀ labels = some s) :
    (labels.Pairwise fun l l' => l.time ≤ l'.time) ∧
      (∀ l ∈ labels, s₀.clock ≤ l.time ∧ l.time ≤ s.clock) ∧ s₀.clock ≤ s.clock := by
  induction labels generalizing s₀ with
  | nil =>
    cases h
    exact ⟨.nil, fun l hl => (by cases hl), le_refl _⟩
  | cons l labels ih =>
    obtain ⟨s₁, hstep, hrest⟩ := Option.bind_eq_some_iff.1 h
    obtain ⟨hsorted, hbounds, hle⟩ := ih hrest
    obtain ⟨hclock, hclock₁⟩ := clock_of_step hstep
    refine ⟨List.pairwise_cons.2 ⟨fun l' hl' => ?_, hsorted⟩, fun l' hl' => ?_, by omega⟩
    · have := hbounds l' hl'
      omega
    · rcases List.mem_cons.1 hl' with rfl | hl'
      · omega
      · have := hbounds l' hl'
        omega

theorem time_of_failureFrom {l : LoginLabel} (h : l.failureFrom ip T = true) : T ≤ l.time := by
  cases l with
  | check id ip' t => cases h
  | verify id ip' ok t => cases h
  | record id ip' ok t =>
    simp only [LoginLabel.failureFrom, Bool.and_eq_true, decide_eq_true_eq] at h
    exact h.2

/-- At the end of a run within the window, the limiter keeps every failure recorded in it. -/
theorem failuresFrom_run (hrun : exec loginStep s₀ labels = some s) (hclock : s.clock < T + WINDOW)
    (hsuccess : NoSuccessFrom ip T labels) :
    labels.countP (·.failureFrom ip T) ≤ s.limiter.failuresFrom ip T := by
  induction labels using List.reverseRecOn generalizing s with
  | nil => exact Nat.zero_le _
  | append_singleton labels l ih =>
    obtain ⟨s₁, hrun₁, hlast⟩ := exec_append_eq_some hrun
    obtain ⟨s₂, hstep, hend⟩ := Option.bind_eq_some_iff.1 hlast
    cases hend
    obtain ⟨hle, hlt⟩ := clock_of_step hstep
    have hbefore := ih hrun₁ (by omega) fun id t ht =>
      hsuccess id t (List.mem_append_left _ ht)
    rw [List.countP_append]
    by_cases hown : ∃ id t, l = .record id ip true t
    · -- A success before `T` forgets failures, but none of them is from `T` on.
      obtain ⟨id, t, rfl⟩ := hown
      have ht : t < T := hsuccess id t (List.mem_append_right _ List.mem_cons_self)
      have hnone : ∀ l' ∈ labels ++ [.record id ip true t], ¬ l'.failureFrom ip T = true := by
        intro l' hl' hfail
        have hfrom := time_of_failureFrom hfail
        have hto := ((times_run hrun).2.1 l' hl').2
        have ht' : s.clock = t := hlt
        omega
      rw [← List.countP_append, List.countP_eq_zero.2 hnone]
      exact Nat.zero_le _
    · have hother : ∀ id t, l ≠ .record id ip true t := fun id t heq => hown ⟨id, t, heq⟩
      rw [failuresFrom_step hstep (by omega) hother]
      simp only [List.countP_cons, List.countP_nil]
      omega

/-- A client with five failures in the window passes no check in it. -/
theorem notChecked_run (hrun : exec loginStep s₀ labels = some s) (hclock : s.clock < T + WINDOW)
    (hsuccess : ∀ id t, .record id ip true t ∉ labels) (hnot : NotChecked id ip s₀)
    (hmany : MAX_ATTEMPTS ≤ s₀.limiter.failuresFrom ip T) : NotChecked id ip s := by
  induction labels generalizing s₀ with
  | nil =>
    cases hrun
    exact hnot
  | cons l labels ih =>
    obtain ⟨s₁, hstep, hrest⟩ := Option.bind_eq_some_iff.1 hrun
    have htime := ((times_run hrun).2.1 l List.mem_cons_self).2
    refine ih hrest (fun id t ht => hsuccess id t (List.mem_cons_of_mem _ ht)) ?_ ?_
    · refine notChecked_step hstep hnot ?_
      rintro t rfl
      exact LoginLimiter.check_refused_of_failures (lt_of_le_of_lt htime hclock) hmany
    · rw [failuresFrom_step hstep (by omega) fun id t heq =>
        hsuccess id t (heq ▸ List.mem_cons_self)]
      omega

/-- A client that is locked out stays so, and passes no check. -/
theorem locked_run (hrun : exec loginStep s₀ labels = some s) (hclock : s.clock < u)
    (hlate : u ≤ s₀.clock + LOCKOUT) (hsuccess : ∀ id t, .record id ip true t ∉ labels)
    (hlocked : s₀.limiter.LockedUntil ip u) :
    s.limiter.LockedUntil ip u ∧ (NotChecked id ip s₀ → NotChecked id ip s) := by
  induction labels generalizing s₀ with
  | nil =>
    cases hrun
    exact ⟨hlocked, fun hnot => hnot⟩
  | cons l labels ih =>
    obtain ⟨s₁, hstep, hrest⟩ := Option.bind_eq_some_iff.1 hrun
    have htime := ((times_run hrun).2.1 l List.mem_cons_self).2
    obtain ⟨hle, hlt⟩ := clock_of_step hstep
    have hlocked₁ : s₁.limiter.LockedUntil ip u :=
      lockedUntil_step hstep (by omega) hlate
        (fun id t heq => hsuccess id t (heq ▸ List.mem_cons_self)) hlocked
    obtain ⟨hend, hkeep⟩ := ih hrest (by omega)
      (fun id t ht => hsuccess id t (List.mem_cons_of_mem _ ht)) hlocked₁
    refine ⟨hend, fun hnot => hkeep (notChecked_step hstep hnot ?_)⟩
    rintro t rfl
    exact (LoginLimiter.check_locked (lt_of_le_of_lt htime hclock) hlocked).1

theorem task_of_check {t : Nat} (h : loginStep s₀ (.check id ip t) = some s) :
    NotChecked id ip s₀ := by
  have hfree : s₀.tasks id = none := by
    cases loginStep_moves h with
    | checkPassed hclock hfree hcheck => exact hfree
    | checkRefused hclock hfree => exact hfree
  rw [NotChecked, hfree]
  intro hnone
  cases hnone

theorem task_of_verify {ok : Bool} {t : Nat} (h : loginStep s₀ (.verify id ip ok t) = some s) :
    ¬ NotChecked id ip s₀ := by
  cases loginStep_moves h with
  | verify hclock htask => exact fun hnot => hnot htask

/-- A token is verified only if fewer than five failures of the window were recorded before the
check. -/
theorem failures_before_check {pre post : List LoginLabel} {c v : Nat} {ok : Bool}
    (hrun : exec loginStep s₀ (pre ++ .check id ip c :: (mid ++ .verify id ip ok v :: post)) = some s)
    (hv : v < T + WINDOW) (hpre : NoSuccessFrom ip T pre) (hmid : NoSuccessFrom ip T mid) :
    pre.countP (·.failureFrom ip T) < MAX_ATTEMPTS := by
  obtain ⟨s₁, hrun₁, hrest₁⟩ := exec_append_eq_some hrun
  obtain ⟨s₂, hcheck, hrest₂⟩ := Option.bind_eq_some_iff.1 hrest₁
  obtain ⟨s₃, hrun₃, hrest₃⟩ := exec_append_eq_some hrest₂
  obtain ⟨s₄, hverify, -⟩ := Option.bind_eq_some_iff.1 hrest₃
  obtain ⟨hle₂, hclock₂⟩ := clock_of_step hcheck
  obtain ⟨hle₄, hclock₄⟩ := clock_of_step hverify
  have hle₃ := (times_run hrun₃).2.2
  by_contra hmany
  have hv' : s₃.clock ≤ v := hle₄
  have hkept : MAX_ATTEMPTS ≤ s₁.limiter.failuresFrom ip T :=
    le_trans (Nat.le_of_not_lt hmany) (failuresFrom_run hrun₁ (by omega) hpre)
  have hlate : T ≤ s₁.clock := by
    have hpos : 0 < pre.countP (·.failureFrom ip T) :=
      lt_of_lt_of_le (by decide) (Nat.le_of_not_lt hmany)
    obtain ⟨l, hl, hfail⟩ := List.countP_pos_iff.1 hpos
    exact le_trans (time_of_failureFrom hfail) ((times_run hrun₁).2.1 l hl).2
  have hnone : ∀ id t, .record id ip true t ∉ mid := by
    intro id t ht
    have hbefore := hmid id t ht
    have hafter : s₂.clock ≤ t := ((times_run hrun₃).2.1 _ ht).1
    omega
  have hnot₂ : NotChecked id ip s₂ := by
    refine notChecked_step hcheck (task_of_check hcheck) fun t heq => ?_
    cases heq
    have hc : s₂.clock = c := hclock₂
    exact LoginLimiter.check_refused_of_failures (by omega) hkept
  have hkept₂ : MAX_ATTEMPTS ≤ s₂.limiter.failuresFrom ip T := by
    rw [failuresFrom_step hcheck (by omega) fun id t heq => by cases heq]
    omega
  exact task_of_verify hverify (notChecked_run hrun₃ (by omega) hnone hnot₂ hkept₂)

/-- Once five failures of the window are recorded, no token that is checked afterwards is verified
before the lockout is over. -/
theorem lockout_after_failures {pre mid' post : List LoginLabel} {i t c v : Nat} {ok : Bool}
    (hrun : exec loginStep s₀ (pre ++ .record i ip false t ::
      (mid ++ .check id ip c :: (mid' ++ .verify id ip ok v :: post))) = some s)
    (ht : t < T + WINDOW)
    (hmany : MAX_ATTEMPTS ≤
      (pre ++ [LoginLabel.record i ip false t]).countP (·.failureFrom ip T))
    (hpre : NoSuccessFrom ip T pre) (hmid : ∀ i t, .record i ip true t ∉ mid)
    (hmid' : ∀ i t, .record i ip true t ∉ mid') : t + LOCKOUT ≤ v := by
  obtain ⟨s₁, hrun₁, hrest₁⟩ := exec_append_eq_some hrun
  obtain ⟨s₂, hrecord, hrest₂⟩ := Option.bind_eq_some_iff.1 hrest₁
  obtain ⟨s₃, hrun₃, hrest₃⟩ := exec_append_eq_some hrest₂
  obtain ⟨s₄, hcheck, hrest₄⟩ := Option.bind_eq_some_iff.1 hrest₃
  obtain ⟨s₅, hrun₅, hrest₅⟩ := exec_append_eq_some hrest₄
  obtain ⟨s₆, hverify, -⟩ := Option.bind_eq_some_iff.1 hrest₅
  obtain ⟨hle₂, hclock₂⟩ := clock_of_step hrecord
  obtain ⟨hle₄, hclock₄⟩ := clock_of_step hcheck
  obtain ⟨hle₆, hclock₆⟩ := clock_of_step hverify
  have hle₃ := (times_run hrun₃).2.2
  have hle₅ := (times_run hrun₅).2.2
  have hclock₂ : s₂.clock = t := hclock₂
  have hv : s₅.clock ≤ v := hle₆
  by_contra hearly
  have hlocked₂ : s₂.limiter.LockedUntil ip (t + LOCKOUT) := by
    have hrun₂ : exec loginStep s₀ (pre ++ [.record i ip false t]) = some s₂ := by
      rw [exec_append, hrun₁]
      show (loginStep s₁ _).bind _ = _
      rw [hrecord]
      rfl
    have hsuccess : NoSuccessFrom ip T (pre ++ [.record i ip false t]) := by
      intro i' t' ht'
      rcases List.mem_append.1 ht' with ht' | ht'
      · exact hpre i' t' ht'
      · cases List.mem_singleton.1 ht'
    have hkept := le_trans hmany (failuresFrom_run hrun₂ (by omega) hsuccess)
    cases loginStep_moves hrecord with
    | recordFailure hclock => exact LoginLimiter.recordFailure_locks hkept
  obtain ⟨hlocked₃, -⟩ : s₃.limiter.LockedUntil ip (t + LOCKOUT) ∧
      (NotChecked id ip s₂ → NotChecked id ip s₃) :=
    locked_run hrun₃ (by omega) (by omega) hmid hlocked₂
  have hnot₄ : NotChecked id ip s₄ := by
    refine notChecked_step hcheck (task_of_check hcheck) fun t' heq => ?_
    cases heq
    have hc : s₄.clock = c := hclock₄
    exact (LoginLimiter.check_locked (by omega) hlocked₃).1
  have hlocked₄ : s₄.limiter.LockedUntil ip (t + LOCKOUT) :=
    lockedUntil_step hcheck (by omega) (by omega) (fun _ _ heq => by cases heq) hlocked₃
  have hnot₅ := (locked_run hrun₅ (by omega) (by omega) hmid' hlocked₄).2 hnot₄
  exact task_of_verify hverify hnot₅

/-- Failed logins verified from `T` on are recorded from `T` on. -/
theorem length_le_countP_labels {fs : List FailedLogin}
    (hsorted : (fs.flatMap (FailedLogin.labels ip)).Pairwise fun l l' => l.time ≤ l'.time)
    (hfrom : ∀ f ∈ fs, T ≤ f.verifiedAt) :
    fs.length ≤ (fs.flatMap (FailedLogin.labels ip)).countP (·.failureFrom ip T) := by
  induction fs with
  | nil => exact Nat.zero_le _
  | cons f fs ih =>
    rw [List.flatMap_cons] at hsorted ⊢
    obtain ⟨hfirst, hrest, -⟩ := List.pairwise_append.1 hsorted
    have hrecorded : f.verifiedAt ≤ f.recordedAt := by
      have hafter := (List.pairwise_cons.1 hfirst).2
      exact (List.pairwise_cons.1 hafter).1 _ List.mem_cons_self
    have hcount : (f.labels ip).countP (·.failureFrom ip T) = 1 := by
      have hT := hfrom f List.mem_cons_self
      have hle : T ≤ f.recordedAt := le_trans hT hrecorded
      simp [FailedLogin.labels, LoginLabel.failureFrom, hle]
    have hmore := ih hrest fun g hg => hfrom g (List.mem_cons_of_mem _ hg)
    rw [List.countP_append, hcount, List.length_cons]
    omega

/-- Failed logins of which each is checked after the one before it was recorded. -/
theorem failed_logins_le {fs : List FailedLogin} {c v : Nat}
    (hrun : exec loginStep s₀ labels = some s)
    (hlogins : (fs.flatMap (FailedLogin.labels ip) ++
      [LoginLabel.check id ip c, .verify id ip false v]).Sublist labels)
    (hfrom : ∀ f ∈ fs, T ≤ f.verifiedAt) (hv : v < T + WINDOW)
    (hsuccess : ∀ i t, .record i ip true t ∈ labels → t < T ∨ T + WINDOW ≤ t) :
    fs.length + 1 ≤ MAX_ATTEMPTS := by
  obtain ⟨r₁, r₂, rfl, hfs, hlast⟩ := List.append_sublist_iff.1 hlogins
  obtain ⟨r₃, r₄, rfl, hcheck, hverify⟩ := List.cons_sublist_iff.1 hlast
  obtain ⟨a, b, rfl⟩ := List.append_of_mem hcheck
  obtain ⟨d, e, rfl⟩ := List.append_of_mem (List.singleton_sublist.1 hverify)
  have hshape : r₁ ++ (a ++ LoginLabel.check id ip c :: b ++ (d ++ .verify id ip false v :: e)) =
      (r₁ ++ a) ++ .check id ip c :: ((b ++ d) ++ .verify id ip false v :: e) := by
    simp only [List.append_assoc, List.cons_append]
  rw [hshape] at hrun hsuccess
  obtain ⟨hsorted, -, -⟩ := times_run hrun
  obtain ⟨-, hsorted', hacross⟩ := List.pairwise_append.1 hsorted
  have hpre : NoSuccessFrom ip T (r₁ ++ a) := by
    intro i t ht
    have hle : t ≤ v := hacross _ ht (.verify id ip false v) (by simp)
    have hout := hsuccess i t (List.mem_append_left _ ht)
    omega
  have hmid : NoSuccessFrom ip T (b ++ d) := by
    intro i t ht
    have hle : t ≤ v := by
      have hafter := (List.pairwise_cons.1 hsorted').2
      exact (List.pairwise_append.1 hafter).2.2 _ ht (.verify id ip false v) List.mem_cons_self
    have hout := hsuccess i t
      (List.mem_append_right _ (List.mem_cons_of_mem _ (List.mem_append_left _ ht)))
    omega
  have hfew := failures_before_check hrun hv hpre hmid
  have hsub : (fs.flatMap (FailedLogin.labels ip)).Sublist (r₁ ++ a) :=
    hfs.trans (List.sublist_append_left _ _)
  have hcount := length_le_countP_labels
    ((List.pairwise_append.1 hsorted).1.sublist hsub) hfrom
  have hle := hsub.countP_le (p := (·.failureFrom ip T))
  omega

/-- In every interleaving of the steps of any logins, for every client: failed logins of which each is
checked after the one before it was recorded, and that are verified in one window in which no success
is recorded, are at most five; and once five failures of one window are recorded, no token that is
checked afterwards is verified before the lockout is over, unless a success is recorded. -/
theorem login_limiter_bounds_guesses (hrun : exec loginStep s₀ labels = some s) (ip : IpAddr) :
    (∀ T (fs : List FailedLogin) id c v,
      (fs.flatMap (FailedLogin.labels ip) ++
        [LoginLabel.check id ip c, .verify id ip false v]).Sublist labels →
      (∀ f ∈ fs, T ≤ f.verifiedAt) → v < T + WINDOW →
      (∀ i t, .record i ip true t ∈ labels → t < T ∨ T + WINDOW ≤ t) →
      fs.length + 1 ≤ MAX_ATTEMPTS) ∧
    (∀ T pre i t mid id c mid' ok v post,
      labels = pre ++ .record i ip false t ::
        (mid ++ .check id ip c :: (mid' ++ .verify id ip ok v :: post)) →
      t < T + WINDOW →
      MAX_ATTEMPTS ≤ (pre ++ [LoginLabel.record i ip false t]).countP (·.failureFrom ip T) →
      NoSuccessFrom ip T pre → (∀ i t, .record i ip true t ∉ mid) →
      (∀ i t, .record i ip true t ∉ mid') → t + LOCKOUT ≤ v) := by
  constructor
  · intro T fs id c v hlogins hfrom hv hsuccess
    exact failed_logins_le hrun hlogins hfrom hv hsuccess
  · rintro T pre i t mid id c mid' ok v post rfl ht hmany hpre hmid hmid'
    exact lockout_after_failures hrun ht hmany hpre hmid hmid'

end Run

/-- One failed login after the other, the login `t` at the time `t`. -/
def failedLoginsAt (ip : IpAddr) (times : List Nat) : List LoginLabel :=
  (times.map fun t => ⟨t, t, t, t⟩ : List FailedLogin).flatMap (FailedLogin.labels ip)

/-- Five failed logins in a minute, a refused one, and one after the lockout. -/
theorem login_limiter_bounds_guesses_lockout :
    (exec loginStep {} (failedLoginsAt (.v4 1) [0, 1, 2, 3, 4] ++
      [.check 5 (.v4 1) 5, .check 6 (.v4 1) (4 + LOCKOUT),
        .verify 6 (.v4 1) false (5 + LOCKOUT)])).isSome ∧
    [0, 1, 2, 3].length + 1 ≤ MAX_ATTEMPTS ∧ 4 + LOCKOUT ≤ 5 + LOCKOUT := by
  have hsome : (exec loginStep {} (failedLoginsAt (.v4 1) [0, 1, 2, 3, 4] ++
      [.check 5 (.v4 1) 5, .check 6 (.v4 1) (4 + LOCKOUT),
        .verify 6 (.v4 1) false (5 + LOCKOUT)])).isSome := by
    decide +kernel
  obtain ⟨s, hrun⟩ := Option.isSome_iff_exists.1 hsome
  obtain ⟨hfew, hlock⟩ := login_limiter_bounds_guesses hrun (.v4 1)
  refine ⟨hsome, ?_, ?_⟩
  · refine hfew 0 [⟨0, 0, 0, 0⟩, ⟨1, 1, 1, 1⟩, ⟨2, 2, 2, 2⟩, ⟨3, 3, 3, 3⟩] 4 4 4 ?_ ?_ ?_ ?_
    · decide
    · decide
    · decide
    · simp [failedLoginsAt, FailedLogin.labels]
  · refine hlock 0 (failedLoginsAt (.v4 1) [0, 1, 2, 3] ++
      [.check 4 (.v4 1) 4, .verify 4 (.v4 1) false 4]) 4 4 [.check 5 (.v4 1) 5] 6 (4 + LOCKOUT)
      [] false _ [] rfl ?_ ?_ ?_ ?_ ?_
    · decide
    · decide
    · simp [NoSuccessFrom, failedLoginsAt, FailedLogin.labels]
    · simp
    · simp

/-- Four failures, a success and four failures within a second are eight failures; and six logins that
all pass the check before the first of them is recorded are six. -/
theorem failed_logins_exceed_five :
    (∃ labels, (exec loginStep {} labels).isSome ∧
      8 = labels.countP fun l => l ∈ (List.range 9).map fun t => .verify t (.v4 1) false t) ∧
    ∃ labels, (exec loginStep {} labels).isSome ∧
      6 = labels.countP fun l => l ∈ (List.range 6).map fun id => .verify id (.v4 1) false 0 := by
  constructor
  · refine ⟨failedLoginsAt (.v4 1) [0, 1, 2, 3] ++
      ([.check 4 (.v4 1) 4, .verify 4 (.v4 1) true 4, .record 4 (.v4 1) true 4] ++
        failedLoginsAt (.v4 1) [5, 6, 7, 8]), ?_⟩
    decide +kernel
  · refine ⟨(List.range 6).map (fun id => .check id (.v4 1) 0) ++
      (List.range 6).map fun id => .verify id (.v4 1) false 0, ?_⟩
    decide +kernel

end EShield.Node
