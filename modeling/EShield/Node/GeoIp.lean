import EShield.Node.Config

/-!
# GeoIP lists

`geoip.rs`: the CIDR blocks that the configured countries and autonomous systems stand for in the two
CSV files. The cache of the source returns what the last load of the same files with the same
selection returned, so it is not part of the model.
-/

namespace EShield.Node

open Text

/-- What the CSV reader finds at a path: nothing there, an error, or the records behind the header. -/
abbrev CsvFiles := String → Option (Except String (List (List String)))

/-- The blocks of the records whose second field is selected. Records that are too short and networks
that are no CIDR block are passed over. -/
def selectedBlocks (selected : List Char → Bool) (records : List (List String)) : List Cidr :=
  records.filterMap fun record =>
    match record with
    | network :: value :: _ =>
      if selected (Lines.trim value.toList) then
        (parseCidr (String.ofList (Lines.trim network.toList))).toOption
      else none
    | _ => none

def parseCountryCsv (countries : List (List Char)) : List (List String) → List Cidr :=
  selectedBlocks fun value => value.map Char.toUpper ∈ countries

def parseAsnCsv (asns : List UInt32) : List (List String) → List Cidr :=
  selectedBlocks fun value =>
    match parseUnsigned 32 value with
    | some asn => UInt32.ofNat asn ∈ asns
    | none => false

/-- The blocks of one file; a file that is not configured or not there has none. -/
def loadCsv (csv : CsvFiles) (path : Option String) (parse : List (List String) → List Cidr) :
    Except String (List Cidr) :=
  match path.bind csv with
  | none => .ok []
  | some records => records.map parse

def loadEntries (csv : CsvFiles) (config : GeoIpConfig) (countries : List String)
    (asns : List UInt32) : Except String (List Cidr) := do
  let byCountry ←
    if countries = [] then pure []
    else loadCsv csv config.countryBlocksCsv (parseCountryCsv (countries.map uppercase))
  let byAsn ← if asns = [] then pure [] else loadCsv csv config.asnBlocksCsv (parseAsnCsv asns)
  return byCountry ++ byAsn

def loadGeoipBlocks (csv : CsvFiles) (config : GeoIpConfig) : Except String (List Cidr) :=
  loadEntries csv config config.blockCountries config.blockAsns

def loadGeoipAllows (csv : CsvFiles) (config : GeoIpConfig) : Except String (List Cidr) :=
  loadEntries csv config config.allowCountries config.allowAsns

/-- Both lists of a configuration, the blocked networks and the allowed ones. -/
def loadGeoipLists (csv : CsvFiles) (config : GeoIpConfig) :
    Except String (List Cidr × List Cidr) := do
  let blocks ← loadGeoipBlocks csv config
  let allows ← loadGeoipAllows csv config
  return (blocks, allows)

end EShield.Node
