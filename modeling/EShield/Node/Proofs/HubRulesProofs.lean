import EShield.Lib.Exec
import EShield.Node.HubRules
import EShield.Node.Proofs.RuleSetProofs

/-!
# Which bundle is in force

A node ends with the newest bundle that it has ever been offered and can accept, in whatever order the
hubs have offered it old and new ones. Of a bundle with a list that is refused, the lists in front of it
take effect, and the next sync tries again.
-/

namespace EShield.Node

open Attempt ControlPlane Exec LastWrite StampGate

namespace RuleBundle

/-- The call for this list passes. -/
def Accepts (bundle : RuleBundle) : RuleKind → Prop
  | .portAcl => validatePortAclItems bundle.portAcl = .ok ()
  | .l7Patterns => validateL7Patterns bundle.l7Patterns = .ok ()
  | .protectionProjects => Settable bundle.protectionProjects

/-- The list is in the maps, in the snapshot and in the store. -/
def InForce (bundle : RuleBundle) : RuleKind → ControlPlane → Prop
  | .portAcl, s => PortAclActive bundle.portAcl s ∧ s.tables.portAcl = some bundle.portAcl
  | .l7Patterns, s => L7Active bundle.l7Patterns s ∧ s.tables.l7Patterns = some bundle.l7Patterns
  | .protectionProjects, s =>
    ProjectsActive bundle.protectionProjects s ∧
      s.tables.protectionProjects = some bundle.protectionProjects

instance (bundle : RuleBundle) (kind : RuleKind) : Decidable (bundle.Accepts kind) := by
  cases kind with
  | portAcl => exact inferInstanceAs (Decidable (_ = _))
  | l7Patterns => exact inferInstanceAs (Decidable (_ = _))
  | protectionProjects =>
    exact decidable_of_iff
      (validateProtectionProjectsList bundle.protectionProjects = .ok () ∧
        (expandProjects bundle.protectionProjects).isOk)
      ⟨fun ⟨hvalid, hok⟩ => ⟨hvalid, by
          cases h : expandProjects bundle.protectionProjects with
          | ok entries => exact ⟨entries, rfl⟩
          | error e => rw [h] at hok; cases hok⟩,
        fun ⟨hvalid, entries, h⟩ => ⟨hvalid, by rw [h]; rfl⟩⟩

/-- The bundle is applied as far as this list. -/
def Reaches (bundle : RuleBundle) : RuleKind → Prop
  | .portAcl => bundle.Accepts .portAcl
  | .l7Patterns => bundle.Accepts .portAcl ∧ bundle.Accepts .l7Patterns
  | .protectionProjects =>
    bundle.Accepts .portAcl ∧ bundle.Accepts .l7Patterns ∧ bundle.Accepts .protectionProjects

instance (bundle : RuleBundle) (kind : RuleKind) : Decidable (bundle.Reaches kind) := by
  cases kind <;> unfold Reaches <;> infer_instance

/-- No list of the bundle is refused. -/
def Acceptable (bundle : RuleBundle) : Prop := bundle.Reaches .protectionProjects

instance (bundle : RuleBundle) : Decidable bundle.Acceptable :=
  inferInstanceAs (Decidable (bundle.Reaches _))

variable {bundle : RuleBundle} {kind k : RuleKind}

theorem Acceptable.reaches (h : bundle.Acceptable) (kind : RuleKind) : bundle.Reaches kind := by
  cases kind with
  | portAcl => exact h.1
  | l7Patterns => exact ⟨h.1, h.2.1⟩
  | protectionProjects => exact h

/-- A bundle whose list `kind` is the first that is refused reaches those in front of it. -/
theorem reaches_iff_before (hbefore : ∀ k, k.Before kind → bundle.Accepts k)
    (hkind : ¬ bundle.Accepts kind) : bundle.Reaches k ↔ k.Before kind := by
  cases kind with
  | portAcl => cases k <;> simp [Reaches, RuleKind.Before, hkind]
  | l7Patterns =>
    have hacl := hbefore .portAcl trivial
    cases k <;> simp [Reaches, RuleKind.Before, hkind, hacl]
  | protectionProjects =>
    have hacl := hbefore .portAcl trivial
    have hl7 := hbefore .l7Patterns trivial
    cases k <;> simp [Reaches, RuleKind.Before, hkind, hacl, hl7]

end RuleBundle

open RuleBundle

/-! ## One list -/

/-- The list of this kind is left as it is. -/
def SameList : RuleKind → ControlPlane → ControlPlane → Prop
  | .portAcl, s, t =>
    t.maps.portAcl = s.maps.portAcl ∧ t.maps.config.portAclCount = s.maps.config.portAclCount ∧
      t.runtime.portAcl = s.runtime.portAcl ∧ t.tables.portAcl = s.tables.portAcl
  | .l7Patterns, s, t =>
    t.maps.l7Patterns = s.maps.l7Patterns ∧
      t.maps.config.l7PatternCount = s.maps.config.l7PatternCount ∧
      t.runtime.l7Scan.patterns = s.runtime.l7Scan.patterns ∧
      t.tables.l7Patterns = s.tables.l7Patterns
  | .protectionProjects, s, t =>
    t.maps.projectPolicy = s.maps.projectPolicy ∧
      t.maps.config.projectEnabled = s.maps.config.projectEnabled ∧
      t.runtime.protectionProjects = s.runtime.protectionProjects ∧
      t.runtime.protectionProjectsEnabled = s.runtime.protectionProjectsEnabled ∧
      t.tables.protectionProjects = s.tables.protectionProjects

variable {b : RuleBundle} {kind : RuleKind} {s t u : ControlPlane}

theorem SameList.refl (kind : RuleKind) (s : ControlPlane) : SameList kind s s := by
  cases kind <;> simp [SameList]

theorem SameList.trans (hst : SameList kind s t) (htu : SameList kind t u) : SameList kind s u := by
  cases kind with
  | portAcl =>
    obtain ⟨h₁, h₂, h₃, h₄⟩ := hst
    obtain ⟨g₁, g₂, g₃, g₄⟩ := htu
    exact ⟨g₁.trans h₁, g₂.trans h₂, g₃.trans h₃, g₄.trans h₄⟩
  | l7Patterns =>
    obtain ⟨h₁, h₂, h₃, h₄⟩ := hst
    obtain ⟨g₁, g₂, g₃, g₄⟩ := htu
    exact ⟨g₁.trans h₁, g₂.trans h₂, g₃.trans h₃, g₄.trans h₄⟩
  | protectionProjects =>
    obtain ⟨h₁, h₂, h₃, h₄, h₅⟩ := hst
    obtain ⟨g₁, g₂, g₃, g₄, g₅⟩ := htu
    exact ⟨g₁.trans h₁, g₂.trans h₂, g₃.trans h₃, g₄.trans h₄, g₅.trans h₅⟩

theorem inForce_of_same (hsame : SameList kind s t) (h : b.InForce kind s) : b.InForce kind t := by
  cases kind with
  | portAcl =>
    obtain ⟨htable, hcount, hsnapshot, hrow⟩ := hsame
    exact ⟨⟨htable.trans h.1.table, hcount.trans h.1.count, hsnapshot.trans h.1.snapshot⟩,
      hrow.trans h.2⟩
  | l7Patterns =>
    obtain ⟨htable, hcount, hsnapshot, hrow⟩ := hsame
    exact ⟨⟨htable.trans h.1.table, hcount.trans h.1.count, hsnapshot.trans h.1.snapshot⟩,
      hrow.trans h.2⟩
  | protectionProjects =>
    obtain ⟨htable, hflag, hsnapshot, henabled, hrow⟩ := hsame
    obtain ⟨⟨⟨entries, hentries, hold, holdFlag⟩, holdSnapshot, holdEnabled⟩, holdRow⟩ := h
    exact ⟨⟨⟨entries, hentries, htable.trans hold, hflag.trans holdFlag⟩,
      hsnapshot.trans holdSnapshot, henabled.trans holdEnabled⟩, hrow.trans holdRow⟩

/-- A call that passes puts its list in force and leaves the other two. -/
theorem setList_of_accepts (h : b.Accepts kind) (s : ControlPlane) :
    ∃ t, b.setList kind s = (.ok (), t) ∧ b.InForce kind t ∧ ∀ k, k ≠ kind → SameList k s t := by
  cases kind with
  | portAcl =>
    refine ⟨_, setPortAcl_passes h s, ⟨⟨rfl, rfl, rfl⟩, rfl⟩, fun k hk => ?_⟩
    cases k <;> first | exact absurd rfl hk | exact ⟨rfl, rfl, rfl, rfl⟩ | exact ⟨rfl, rfl, rfl, rfl, rfl⟩
  | l7Patterns =>
    refine ⟨_, setL7Patterns_passes h s, ⟨⟨rfl, rfl, rfl⟩, rfl⟩, fun k hk => ?_⟩
    cases k <;> first | exact absurd rfl hk | exact ⟨rfl, rfl, rfl, rfl⟩ | exact ⟨rfl, rfl, rfl, rfl, rfl⟩
  | protectionProjects =>
    obtain ⟨hvalid, entries, hentries⟩ := h
    refine ⟨_, setProtectionProjects_passes hvalid hentries s,
      ⟨⟨⟨entries, hentries, rfl, rfl⟩, rfl, rfl⟩, rfl⟩, fun k hk => ?_⟩
    cases k <;> first | exact absurd rfl hk | exact ⟨rfl, rfl, rfl, rfl⟩

/-- A call that is refused changes nothing. -/
theorem setList_of_not_accepts (h : ¬ b.Accepts kind) (s : ControlPlane) :
    ∃ e, b.setList kind s = (.error e, s) := by
  cases kind with
  | portAcl =>
    cases hvalid : validatePortAclItems b.portAcl with
    | ok u => exact absurd hvalid h
    | error e => exact ⟨e, sequence_cons_of_error (check_of_error hvalid s) _⟩
  | l7Patterns =>
    cases hvalid : validateL7Patterns b.l7Patterns with
    | ok u => exact absurd hvalid h
    | error e => exact ⟨e, sequence_cons_of_error (check_of_error hvalid s) _⟩
  | protectionProjects => exact setProtectionProjects_of_not_settable h s

/-! ## Runs -/

/-- The bundle that a label offers. -/
def RulesLabel.offer : RulesLabel → Option RuleBundle
  | .fetch (.ok reply) => reply
  | _ => none

/-- Nothing but the hub sets the lists. -/
def KeepsRules (c : RulesClient) : RulesLabel → Prop
  | .other node => ∀ kind, SameList kind c.node node
  | _ => True

/-- The offers that `sync_rules_once` takes up after the stamp `n`. -/
abbrev taken (n : UInt64) (bs : List RuleBundle) : List RuleBundle :=
  due RuleBundle.updatedAtNs RuleBundle.Acceptable n bs

/-- The stamp that it keeps. -/
abbrev newestNs (n : UInt64) (bs : List RuleBundle) : UInt64 :=
  newest RuleBundle.updatedAtNs RuleBundle.Acceptable n bs

/-- The list `kind` of `t` is that of the last bundle of `bs` that came so far, or still that of `s`. -/
def LastInForce (kind : RuleKind) (bs : List RuleBundle) (s t : ControlPlane) : Prop :=
  match lastOf (fun b => b.Reaches kind) bs with
  | some b => b.InForce kind t
  | none => SameList kind s t

theorem LastInForce.of_same {bs : List RuleBundle} (h : LastInForce kind bs s t)
    (hsame : SameList kind t u) : LastInForce kind bs s u := by
  unfold LastInForce at h ⊢
  split at h
  · exact inForce_of_same hsame h
  · exact h.trans hsame

theorem lastInForce_concat {bs : List RuleBundle} :
    LastInForce kind (bs ++ [b]) s t ↔
      if b.Reaches kind then b.InForce kind t else LastInForce kind bs s t := by
  unfold LastInForce
  rw [lastOf_concat]
  split_ifs <;> rfl

/-- What holds of the client `c` when `bs` has been offered since it was `c₀`. -/
def Follows (c₀ : RulesClient) (bs : List RuleBundle) (c : RulesClient) : Prop :=
  match c.task with
  | none =>
    c.lastRulesNs = newestNs c₀.lastRulesNs bs ∧
      ∀ k, LastInForce k (taken c₀.lastRulesNs bs) c₀.node c.node
  | some (b, kind) =>
    ∃ as, bs = as ++ [b] ∧ c.lastRulesNs = newestNs c₀.lastRulesNs as ∧
      c.lastRulesNs < b.updatedAtNs ∧
      ∀ k, if k.Before kind then b.Accepts k ∧ b.InForce k c.node
        else LastInForce k (taken c₀.lastRulesNs as) c₀.node c.node

section Steps

variable {c₀ c c' : RulesClient} {bs : List RuleBundle}

theorem follows_init (hidle : c₀.task = none) : Follows c₀ [] c₀ := by
  unfold Follows
  rw [hidle]
  exact ⟨rfl, fun k => SameList.refl k _⟩

/-- An old bundle is passed over, a new one becomes the task. -/
theorem follows_fetch {reply : Except String (Option RuleBundle)} (h : Follows c₀ bs c)
    (hstep : rulesStep c (.fetch reply) = some c') :
    Follows c₀ (bs ++ (RulesLabel.fetch reply).offer.toList) c' := by
  obtain ⟨node, last, task⟩ := c
  cases task with
  | some task => cases hstep
  | none =>
    obtain ⟨hlast, hlists⟩ := h
    dsimp only at hlast hlists
    match reply, hstep with
    | .error e, rfl => exact (List.append_nil bs).symm ▸ ⟨hlast, hlists⟩
    | .ok none, rfl => exact (List.append_nil bs).symm ▸ ⟨hlast, hlists⟩
    | .ok (some b), hstep =>
      dsimp only [rulesStep] at hstep
      show Follows c₀ (bs ++ [b]) c'
      split at hstep <;> cases hstep
      · rename_i hold
        rw [hlast] at hold
        refine ⟨hlast.trans (newest_concat_of_le hold).symm, fun k => ?_⟩
        rw [taken, due_concat, if_pos hold, List.append_nil]
        exact hlists k
      · rename_i hnew
        refine ⟨bs, rfl, hlast, not_le.1 hnew, fun k => ?_⟩
        have hfirst : ¬ k.Before .portAcl := by cases k <;> exact id
        rw [if_neg hfirst]
        exact hlists k

/-- A bundle that has been applied to the end moves the stamp on; one that is refused does not. -/
theorem follows_setNext (h : Follows c₀ bs c) (hstep : rulesStep c .setNext = some c') :
    Follows c₀ bs c' := by
  obtain ⟨node, last, task⟩ := c
  cases task with
  | none => cases hstep
  | some task =>
    obtain ⟨b, kind⟩ := task
    obtain ⟨as, rfl, hlast, hnew, hlists⟩ := h
    dsimp only at hlast hnew hlists
    have hlt : newestNs c₀.lastRulesNs as < b.updatedAtNs := by rwa [← hlast]
    have htaken : taken c₀.lastRulesNs (as ++ [b]) = taken c₀.lastRulesNs as ++ [b] := by
      rw [taken, due_concat, if_neg (not_le.2 hlt)]
    by_cases hkind : b.Accepts kind
    · obtain ⟨t, hset, hforce, hsame⟩ := setList_of_accepts hkind node
      -- the list that has been set, and those in front of it
      have hdone : ∀ k, k = kind ∨ k.Before kind → b.Accepts k ∧ b.InForce k t := by
        rintro k (rfl | hk)
        · exact ⟨hkind, hforce⟩
        · have hlist := hlists k
          rw [if_pos hk] at hlist
          have hne : k ≠ kind := by rintro rfl; cases k <;> exact hk
          exact ⟨hlist.1, inForce_of_same (hsame k hne) hlist.2⟩
      have hrest : ∀ k, k ≠ kind → ¬ k.Before kind →
          LastInForce k (taken c₀.lastRulesNs as) c₀.node t := by
        intro k hne hk
        have hlist := hlists k
        rw [if_neg hk] at hlist
        exact hlist.of_same (hsame k hne)
      simp only [rulesStep, Option.map_some, hset, Option.some.injEq] at hstep
      cases kind with
      | portAcl =>
        cases hstep
        refine ⟨as, rfl, hlast, hnew, fun k => ?_⟩
        cases k with
        | portAcl => exact hdone _ (.inl rfl)
        | l7Patterns => exact hrest _ (by decide) (by decide)
        | protectionProjects => exact hrest _ (by decide) (by decide)
      | l7Patterns =>
        cases hstep
        refine ⟨as, rfl, hlast, hnew, fun k => ?_⟩
        cases k with
        | portAcl => exact hdone _ (.inr trivial)
        | l7Patterns => exact hdone _ (.inl rfl)
        | protectionProjects => exact hrest _ (by decide) (by decide)
      | protectionProjects =>
        cases hstep
        have hok : b.Acceptable :=
          ⟨(hdone .portAcl (.inr trivial)).1, (hdone .l7Patterns (.inr trivial)).1, hkind⟩
        refine ⟨?_, fun k => ?_⟩
        · show b.updatedAtNs = _
          rw [newestNs, newest_concat_of_ok hok, max_eq_right hlt.le]
        · have hall : k = .protectionProjects ∨ k.Before .protectionProjects := by
            cases k <;> decide
          rw [htaken, lastInForce_concat, if_pos (hok.reaches k)]
          exact (hdone k hall).2
    · obtain ⟨e, hset⟩ := setList_of_not_accepts hkind node
      simp only [rulesStep, Option.map_some, hset, Option.some.injEq] at hstep
      subst hstep
      have hbefore : ∀ k, k.Before kind → b.Accepts k := by
        intro k hk
        have hlist := hlists k
        rw [if_pos hk] at hlist
        exact hlist.1
      have hrefused : ¬ b.Acceptable := by
        intro hok
        have hreaches := (reaches_iff_before hbefore hkind).1 (hok.reaches kind)
        cases kind <;> exact hreaches
      refine ⟨hlast.trans (newest_concat_of_not_ok hrefused).symm, fun k => ?_⟩
      rw [htaken, lastInForce_concat]
      have hlist := hlists k
      by_cases hk : k.Before kind
      · rw [if_pos hk] at hlist
        rw [if_pos ((reaches_iff_before hbefore hkind).2 hk)]
        exact hlist.2
      · rw [if_neg hk] at hlist
        rw [if_neg fun hreaches => hk ((reaches_iff_before hbefore hkind).1 hreaches)]
        exact hlist

theorem follows_other {node : ControlPlane} (hkeep : ∀ kind, SameList kind c.node node)
    (h : Follows c₀ bs c) : Follows c₀ bs { c with node := node } := by
  obtain ⟨old, last, task⟩ := c
  cases task with
  | none =>
    obtain ⟨hlast, hlists⟩ := h
    exact ⟨hlast, fun k => (hlists k).of_same (hkeep k)⟩
  | some task =>
    obtain ⟨as, rfl, hlast, hnew, hlists⟩ := h
    refine ⟨as, rfl, hlast, hnew, fun k => ?_⟩
    have hlist := hlists k
    split_ifs at hlist ⊢
    · exact ⟨hlist.1, inForce_of_same (hkeep k) hlist.2⟩
    · exact hlist.of_same (hkeep k)

theorem follows_step {l : RulesLabel} (h : Follows c₀ bs c) (hkeep : KeepsRules c l)
    (hstep : rulesStep c l = some c') : Follows c₀ (bs ++ l.offer.toList) c' := by
  cases l with
  | fetch reply => exact follows_fetch h hstep
  | setNext =>
    rw [show (RulesLabel.setNext).offer.toList = [] from rfl, List.append_nil]
    exact follows_setNext h hstep
  | other node =>
    rw [show (RulesLabel.other node).offer.toList = [] from rfl, List.append_nil]
    cases hstep
    exact follows_other hkeep h

end Steps

/-- The bundles that a run offers. -/
abbrev offers (labels : List RulesLabel) : List RuleBundle := labels.filterMap RulesLabel.offer

theorem follows_run {c₀ c c' : RulesClient} {bs : List RuleBundle} {labels : List RulesLabel}
    (h : Follows c₀ bs c) (hcond : Along rulesStep KeepsRules c labels)
    (hrun : exec rulesStep c labels = some c') : Follows c₀ (bs ++ offers labels) c' := by
  induction labels generalizing c bs with
  | nil =>
    cases hrun
    rw [offers, List.filterMap_nil, List.append_nil]
    exact h
  | cons l labels ih =>
    obtain ⟨c₁, hstep, hrest⟩ := Option.bind_eq_some_iff.1 hrun
    have hoffers : offers (l :: labels) = l.offer.toList ++ offers labels := by
      rw [offers, offers, List.filterMap_cons]
      cases l.offer <;> rfl
    rw [hoffers, ← List.append_assoc]
    exact ih (follows_step h hcond.1 hstep) (hcond.2 c₁ hstep) hrest

/-- Between two syncs the client keeps the stamp of the newest bundle it has accepted, and each list is
that of the last bundle that it has taken up and that was not refused before this list. So the bundle
than which none is as new is in force, if it can be accepted and is newer than the stamp at the start of
the run. -/
theorem hub_rules_follow_newest {c c' : RulesClient} {labels : List RulesLabel}
    (hidle : c.task = none) (hcond : Along rulesStep KeepsRules c labels)
    (hrun : exec rulesStep c labels = some c') (hidle' : c'.task = none) :
    c'.lastRulesNs = newestNs c.lastRulesNs (offers labels) ∧
      (∀ kind, LastInForce kind (taken c.lastRulesNs (offers labels)) c.node c'.node) ∧
      ∀ b ∈ offers labels, b.Acceptable → c.lastRulesNs < b.updatedAtNs →
        (∀ a ∈ offers labels, b.updatedAtNs ≤ a.updatedAtNs → a = b) →
          ∀ kind, b.InForce kind c'.node := by
  have hfollows := follows_run (follows_init hidle) hcond hrun
  unfold Follows at hfollows
  rw [hidle', List.nil_append] at hfollows
  obtain ⟨hlast, hlists⟩ := hfollows
  refine ⟨hlast, hlists, fun b hb hok hnew hmax kind => ?_⟩
  have hlist := hlists kind
  unfold LastInForce at hlist
  rwa [lastOf_due hok (hok.reaches kind) hb hnew hmax] at hlist

/-- A bundle that closes a port. -/
def closesSsh (updatedAtNs : UInt64) : RuleBundle where
  portAcl := [{ protocol := "tcp", dport := "22", action := "drop" }]
  l7Patterns := []
  protectionProjects := []
  updatedAtNs := updatedAtNs

/-- The bundle comes from one hub, and its empty predecessor from another one that lags behind. -/
def lagging : List RulesLabel :=
  [.fetch (.ok (some (closesSsh 2))), .setNext, .setNext, .setNext, .fetch (.error "timeout"),
    .fetch (.ok (some ⟨[], [], [], 1⟩))]

theorem hub_rules_follow_newest_lagging :
    ∃ c', exec rulesStep
        { node := fresh { interface := "eth0", whitelist := [], blacklist := [] } ∅ {} none }
        lagging = some c' ∧
      PortAclActive [{ protocol := "tcp", dport := "22", action := "drop" }] c'.node := by
  obtain ⟨c', hrun, hidle'⟩ : ∃ c', exec rulesStep
        { node := fresh { interface := "eth0", whitelist := [], blacklist := [] } ∅ {} none }
        lagging = some c' ∧ c'.task = none := ⟨_, rfl, rfl⟩
  have hcond : ∀ c, Along rulesStep KeepsRules c lagging := fun _ =>
    ⟨trivial, fun _ _ => ⟨trivial, fun _ _ => ⟨trivial, fun _ _ => ⟨trivial, fun _ _ =>
      ⟨trivial, fun _ _ => ⟨trivial, fun _ _ => trivial⟩⟩⟩⟩⟩⟩
  refine ⟨c', hrun, ?_⟩
  exact ((hub_rules_follow_newest rfl (hcond _) hrun hidle').2.2 (closesSsh 2)
    (by decide) (by decide) (by decide) (by decide) .portAcl).1

end EShield.Node
