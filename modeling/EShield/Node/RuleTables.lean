import EShield.Node.RuleSets

/-!
# The other tables of the rule store

WHITELIST has one row for each network, which holds the prefix length. The three rule sets have a
table of a single row each, which is absent until a set is saved; loading then returns the empty
list, as it does for a saved empty one.
-/

namespace EShield.Node

abbrev WhitelistTable := Std.ExtTreeMap IpKey Nat

namespace WhitelistTable

def saveWhitelist (table : WhitelistTable) (key : IpKey) (prefixLen : Nat) : WhitelistTable :=
  table.insert key prefixLen

/-- The row is removed by its key; its prefix length is not compared. -/
def removeWhitelist (table : WhitelistTable) (key : IpKey) (_prefixLen : Nat) : WhitelistTable :=
  table.erase key

def loadWhitelist (table : WhitelistTable) : List Cidr := table.toList

theorem mem_loadWhitelist {table : WhitelistTable} {key : IpKey} {prefixLen : Nat} :
    (key, prefixLen) ∈ table.loadWhitelist ↔ table[key]? = some prefixLen :=
  Std.ExtTreeMap.mem_toList_iff_getElem?_eq_some

end WhitelistTable

structure RuleTables where
  whitelist : WhitelistTable := ∅
  portAcl : Option (List PortAclItem) := none
  l7Patterns : Option (List L7PatternConfig) := none
  protectionProjects : Option (List ProtectionProject) := none

namespace RuleTables

def savePortAclItems (t : RuleTables) (items : List PortAclItem) : RuleTables :=
  { t with portAcl := some items }

def loadPortAclItems (t : RuleTables) : List PortAclItem := t.portAcl.getD []

def saveL7Patterns (t : RuleTables) (patterns : List L7PatternConfig) : RuleTables :=
  { t with l7Patterns := some patterns }

def loadL7Patterns (t : RuleTables) : List L7PatternConfig := t.l7Patterns.getD []

def saveProtectionProjects (t : RuleTables) (projects : List ProtectionProject) : RuleTables :=
  { t with protectionProjects := some projects }

def loadProtectionProjects (t : RuleTables) : List ProtectionProject :=
  t.protectionProjects.getD []

end RuleTables

end EShield.Node
