import EShield.Common.Types
import EShield.Lib.Json
import EShield.Lib.Lines

/-!
# Threat feeds

The text that a feed delivers, as both the hub and the nodes read it: a JSON document, or lines whose
first column is an address. Which texts count as an address the two decide for themselves, by `addIp`.
How `serde_json` reads a document is the parameter `fromStr`.
-/

namespace EShield.FeedText

open Lines

/-- What stands for an address in a document: the `ipAddress` of the items under `data`, and the strings
of an array or the `ip` of its items. -/
def jsonEntries (json : Json) : List (List Char) :=
  let data :=
    match json.get? "data" with
    | some (.arr items) => items.filterMap fun item => (item.get? "ipAddress").bind Json.asStr
    | _ => []
  let items :=
    match json with
    | .arr items =>
      items.filterMap fun item => item.asStr.or ((item.get? "ip").bind Json.asStr)
    | _ => []
  data ++ items

/-- What stands for an address in a line; nothing in a blank line and in a comment. -/
def lineEntry (line : List Char) : Option (List Char) :=
  let line := trim line
  if line = [] ∨ line.head? = some '#' then none
  else
    let column := trim (line.takeWhile (· ≠ ','))
    if column = [] then none else some column

def textEntries (text : List Char) : List (List Char) := (lines text).filterMap lineEntry

/-- All that stands for an address in a feed; `none` if it begins like a document and is none. -/
def entries (fromStr : List Char → Option Json) (text : List Char) : Option (List (List Char)) :=
  let first := (trim text).head?
  if first = some '[' ∨ first = some '{' then (fromStr text).map jsonEntries
  else some (textEntries text)

/-- `parse_feed`: what is no address is passed over. -/
def parseFeed (fromStr : List Char → Option Json) (addIp : List Char → Option IpKey)
    (text : List Char) : Option (List IpKey) :=
  (entries fromStr text).map fun es => es.filterMap addIp

end EShield.FeedText
