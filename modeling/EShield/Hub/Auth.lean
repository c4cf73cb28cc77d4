import EShield.Lib.Checks
import EShield.Lib.KeyedRows
import EShield.Lib.Lines
import EShield.Lib.Text

/-!
# Who calls the hub

A call carries a token in its header: the master token, which leaves the node's name to the body of
the call, or the token of one node. The tokens of the nodes are read from a file with a line
`node_name:token` for each of them.
-/

namespace EShield.Hub

open Checks KeyedRows Lines
open Text (splitOnce)

/-- Node names with their tokens, in the order in which the map is walked. -/
structure NodeTokens where
  rows : List (String × String)
  keyed : Keyed Prod.fst rows

namespace NodeTokens

def empty : NodeTokens := { rows := [], keyed := keyed_nil }

/-- A name that is there already gets the new token. -/
def insert (tokens : NodeTokens) (name token : String) : NodeTokens where
  rows := upsert Prod.fst tokens.rows (name, token)
  keyed := tokens.keyed.upsert (name, token)

end NodeTokens

/-! ## The token file -/

/-- One line of the file; blank ones and comments are passed over. -/
def insertTokenLine (path : String) (tokens : NodeTokens) (line : List Char × Nat) :
    Except String NodeTokens := do
  let trimmed := trim line.1
  if trimmed = [] ∨ trimmed.head? = some '#' then return tokens
  let (name, token) ← required (splitOnce ':' trimmed)
    s!"{path}:{line.2 + 1}: expected `node_name:token`"
  let name := trim name
  let token := trim token
  rejectIf (name = [] ∨ token = []) s!"{path}:{line.2 + 1}: node_name and token cannot be empty"
  return tokens.insert (String.ofList name) (String.ofList token)

def loadNodeTokens (path : String) (content : List Char) : Except String NodeTokens :=
  (lines content).zipIdx.foldlM (insertTokenLine path) .empty

/-! ## Authentication -/

structure HubAuth where
  masterToken : String
  nodeTokens : NodeTokens

/-- The token in the header, with or without `Bearer` before it. -/
def presentedToken (provided : Option String) : String :=
  let token := provided.getD ""
  ((token.toList.dropPrefix? "Bearer ".toList).map String.ofList).getD token

namespace HubAuth

/-- `none` is a failure and `some none` the master token. Of several nodes with this token the last
one counts. -/
def authenticate (a : HubAuth) (provided : Option String) : Option (Option String) :=
  let token := presentedToken provided
  if token = "" then none
  else if token = a.masterToken then some none
  else
    (a.nodeTokens.rows.foldl (fun matched row => if token = row.2 then some row.1 else matched)
      none).map some

end HubAuth

end EShield.Hub
