import EShield.Lib.StampGate
import EShield.Node.Reload

/-!
# Rules from the hub

`sync_rules_once` asks the hub for its rule bundle and applies one that is newer than the last one it has
applied: `apply_hub_rules` sets the three lists, one after the other, and stops at the first that is
refused.
-/

namespace EShield.Node

open ControlPlane

structure RuleBundle where
  portAcl : List PortAclItem
  l7Patterns : List L7PatternConfig
  protectionProjects : List ProtectionProject
  updatedAtNs : UInt64
  deriving DecidableEq, Repr

/-- The lists of a bundle, in the order in which they are set. -/
inductive RuleKind where
  | portAcl | l7Patterns | protectionProjects
  deriving DecidableEq, Repr

namespace RuleKind

def next : RuleKind → Option RuleKind
  | portAcl => some l7Patterns
  | l7Patterns => some protectionProjects
  | protectionProjects => none

/-- `a` is set before `b`. -/
def Before : RuleKind → RuleKind → Prop
  | portAcl, l7Patterns | portAcl, protectionProjects | l7Patterns, protectionProjects => True
  | _, _ => False

instance (a b : RuleKind) : Decidable (a.Before b) := by
  cases a <;> cases b <;> unfold Before <;> infer_instance

end RuleKind

/-- One of the three calls of `apply_hub_rules`. -/
def RuleBundle.setList (bundle : RuleBundle) : RuleKind → Attempt ControlPlane String
  | .portAcl => setPortAcl bundle.portAcl
  | .l7Patterns => setL7Patterns bundle.l7Patterns
  | .protectionProjects => setProtectionProjects bundle.protectionProjects

/-- The part of the hub client that follows the rules. -/
structure RulesClient where
  node : ControlPlane
  lastRulesNs : UInt64 := 0
  /-- The bundle that is being applied, and the list that is set next. -/
  task : Option (RuleBundle × RuleKind) := none

inductive RulesLabel where
  /-- The hub answers a request, or none does. -/
  | fetch (reply : Except String (Option RuleBundle))
  /-- The next call of `apply_hub_rules`. -/
  | setNext
  /-- Something else changes the node. -/
  | other (node : ControlPlane)

def rulesStep (c : RulesClient) : RulesLabel → Option RulesClient
  | .fetch reply =>
    match c.task, reply with
    | some _, _ => none
    | none, .ok (some bundle) =>
      if bundle.updatedAtNs ≤ c.lastRulesNs then some c
      else some { c with task := some (bundle, .portAcl) }
    | none, _ => some c
  | .setNext =>
    c.task.map fun (bundle, kind) =>
      match bundle.setList kind c.node, kind.next with
      | (.error _, node), _ => { c with node := node, task := none }
      | (.ok (), node), some kind => { c with node := node, task := some (bundle, kind) }
      | (.ok (), node), none => { node := node, lastRulesNs := bundle.updatedAtNs, task := none }
  | .other node => some { c with node := node }

end EShield.Node
