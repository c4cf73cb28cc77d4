import EShield.Hub.Api

/-!
# What one step of the hub touches

Each step touches the task and the answers of one call only, and the first step of a call neither the
policies nor the nodes.
-/

namespace EShield.Hub

variable {w w' : HubWorld} {id : Nat}

/-- Of the calls in flight, only `id` may have gone on or been answered. -/
structure OnlyCall (id : Nat) (w w' : HubWorld) : Prop where
  tasks : ∀ i ≠ id, w'.tasks i = w.tasks i
  replies : ∀ r ∈ w'.replies, r ∈ w.replies ∨ r.1 = id

theorem onlyCall_refl (id : Nat) (w : HubWorld) : OnlyCall id w w := ⟨fun _ _ => rfl, fun _ => .inl⟩

theorem onlyCall_app (id : Nat) (w : HubWorld) (app : AppState) (beats : List (String × UInt64)) :
    OnlyCall id w { w with app := app, beats := beats } := ⟨fun _ _ => rfl, fun _ => .inl⟩

theorem OnlyCall.reply (h : OnlyCall id w w') (r : HubReply) : OnlyCall id w (w'.reply id r) where
  tasks i hi := (Function.update_of_ne hi _ _).trans (h.tasks i hi)
  replies := by
    intro r hr
    rcases List.mem_append.1 hr with hr | hr
    · exact h.replies r hr
    · exact .inr (congrArg Prod.fst (List.mem_singleton.1 hr))

theorem OnlyCall.goOn (h : OnlyCall id w w') (t : HubTask) : OnlyCall id w (w'.goOn id t) where
  tasks i hi := (Function.update_of_ne hi _ _).trans (h.tasks i hi)
  replies := h.replies

/-- The tables of policies and of nodes are as they were. -/
structure SameTables (w w' : HubWorld) : Prop where
  store : w'.app.store = w.app.store
  registry : w'.app.registry = w.app.registry
  beats : w'.beats = w.beats
  nodeTimeoutNs : w'.app.nodeTimeoutNs = w.app.nodeTimeoutNs

theorem sameTables_refl (w : HubWorld) : SameTables w w := ⟨rfl, rfl, rfl, rfl⟩

theorem SameTables.reply (h : SameTables w w') (r : HubReply) : SameTables w (w'.reply id r) :=
  { h with }

theorem SameTables.goOn (h : SameTables w w') (t : HubTask) : SameTables w (w'.goOn id t) :=
  { h with }

/-- The limiter leaves the tables and the other calls alone. -/
theorem limited_frame {nodeName : String} {nowNs : UInt64} {next : HubWorld → HubWorld}
    (hnext : ∀ w₁ : HubWorld, SameTables w w₁ → OnlyCall id w w₁ →
      SameTables w (next w₁) ∧ OnlyCall id w (next w₁)) :
    SameTables w (w.limited id nodeName nowNs next) ∧
      OnlyCall id w (w.limited id nodeName nowNs next) := by
  unfold HubWorld.limited
  dsimp only
  split
  · exact hnext _ ⟨rfl, rfl, rfl, rfl⟩ (onlyCall_app id w _ _)
  · exact ⟨⟨rfl, rfl, rfl, rfl⟩, (onlyCall_app id w _ _).reply _⟩

/-- The first step of a call leaves the tables as they are. -/
theorem handle_frame (w : HubWorld) (id : Nat) (identity : Option String) (nowNs : UInt64)
    (request : HubRequest) :
    SameTables w (handle w id identity nowNs request) ∧
      OnlyCall id w (handle w id identity nowNs request) := by
  have hself := onlyCall_refl id w
  have htables := sameTables_refl w
  cases request with
  | pushPolicies name policies =>
    unfold handle
    exact limited_frame fun w₁ h hcall => ⟨h.goOn _, hcall.goOn _⟩
  | pullPolicies since limit => exact ⟨htables.reply _, hself.reply _⟩
  | deletePolicies name ips =>
    unfold handle
    refine limited_frame fun w₁ h hcall => ?_
    split
    · exact ⟨h.reply _, hcall.reply _⟩
    · exact ⟨h.goOn _, hcall.goOn _⟩
  | deletedPolicies since limit => exact ⟨htables.reply _, hself.reply _⟩
  | getRules => exact ⟨htables.reply _, hself.reply _⟩
  | setRules bundle => exact ⟨⟨rfl, rfl, rfl, rfl⟩, (onlyCall_app id w _ _).reply _⟩
  | heartbeat name =>
    unfold handle
    dsimp only
    split
    · exact ⟨htables.reply _, hself.reply _⟩
    · exact limited_frame fun w₁ h hcall => ⟨h.goOn _, hcall.goOn _⟩
  | listNodes => exact ⟨htables.reply _, hself.reply _⟩
  | stats => exact ⟨htables.goOn _, hself.goOn _⟩

theorem advance_frame (w : HubWorld) (id : Nat) (nowNs : UInt64) (t : HubTask) :
    OnlyCall id w (advance w id nowNs t) := by
  cases t with
  | push nodeName chunks merged =>
    cases chunks with
    | nil => exact (onlyCall_refl id w).reply _
    | cons chunk chunks =>
      unfold advance
      dsimp only
      split
      · exact (onlyCall_app id w _ _).goOn _
      · exact (onlyCall_refl id w).reply _
  | delete ips => exact (onlyCall_app id w _ _).reply _
  | heartbeat nodeName => exact (onlyCall_app id w _ _).reply _
  | stats nodeCount onlineNodeCount => exact (onlyCall_refl id w).reply _

end EShield.Hub
