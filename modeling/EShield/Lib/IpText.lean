import EShield.Lib.Text

/-!
# Textual IP addresses

The parsers of the standard library for addresses and socket addresses. A reader takes an item off the
front of the text and returns the rest, or fails and takes nothing.
-/

namespace IpText

open Text

inductive IpAddr where
  /-- The four octets, the first one most significant. -/
  | v4 (addr : BitVec 32)
  | v6 (addr : BitVec 128)
  deriving DecidableEq, Repr

abbrev Reader (α : Type) := List Char → Option (α × List Char)

def readGivenChar (c : Char) : Reader Unit
  | x :: rest => if x = c then some ((), rest) else none
  | [] => none

/-- An item that stands behind a separator unless it is the first one. -/
def readSeparator {α : Type} (sep : Char) (index : Nat) (inner : Reader α) : Reader α := fun cs =>
  if index > 0 then (readGivenChar sep cs).bind fun r => inner r.2 else inner cs

/-- A number of at most `maxDigits` digits below `bound`. -/
def readNumber (radix maxDigits : Nat) (allowZeroPrefix : Bool) (bound : Nat) : Reader Nat := fun cs =>
  let digits := cs.takeWhile fun c => (digitVal radix c).isSome
  if maxDigits < digits.length then none
  else if !allowZeroPrefix && digits.head? = some '0' && 1 < digits.length then none
  else
    ((digitsVal radix digits).filter (· < bound)).map fun n => (n, cs.drop digits.length)

/-- Four decimal octets, none with a leading zero. -/
def readIpv4Addr : Reader (BitVec 32) := fun cs => do
  let octet := fun i => readSeparator '.' i (readNumber 10 3 false 256)
  let (a, cs) ← octet 0 cs
  let (b, cs) ← octet 1 cs
  let (c, cs) ← octet 2 cs
  let (d, cs) ← octet 3 cs
  some (BitVec.ofNat 8 a ++ BitVec.ofNat 8 b ++ BitVec.ofNat 8 c ++ BitVec.ofNat 8 d, cs)

/-- Up to `n` groups from the one of number `i` on, and whether an IPv4 address took the place of the
last two of them. -/
def readGroups : (n i : Nat) → List Char → List (BitVec 16) × Bool × List Char
  | 0, _, cs => ([], false, cs)
  | n + 1, i, cs =>
    -- an embedded IPv4 address needs room for two groups
    let ipv4 := if n > 0 then readSeparator ':' i readIpv4Addr cs else none
    match ipv4 with
    | some (addr, cs) => ([addr.extractLsb' 16 16, addr.extractLsb' 0 16], true, cs)
    | none =>
      match readSeparator ':' i (readNumber 16 4 true (2 ^ 16)) cs with
      | some (g, cs) =>
        let (groups, ipv4, cs) := readGroups n (i + 1) cs
        (BitVec.ofNat 16 g :: groups, ipv4, cs)
      | none => ([], false, cs)

/-- Eight groups as one address. -/
def joinGroups (groups : List (BitVec 16)) : BitVec 128 :=
  groups.foldl (fun addr g => (addr <<< 16) ||| g.setWidth 128) 0

def readIpv6Addr : Reader (BitVec 128) := fun cs =>
  let (head, headIpv4, cs) := readGroups 8 0 cs
  if head.length = 8 then some (joinGroups head, cs)
  -- an IPv4 part is not allowed before the double colon
  else if headIpv4 then none
  else do
    let (_, cs) ← readGivenChar ':' cs
    let (_, cs) ← readGivenChar ':' cs
    let (tail, _, cs) := readGroups (8 - (head.length + 1)) 0 cs
    some (joinGroups (head ++ .replicate (8 - head.length - tail.length) 0 ++ tail), cs)

/-- `str::parse` at an IP address: the whole text is one address. -/
def parseIpAddr (cs : List Char) : Option IpAddr :=
  match readIpv4Addr cs with
  | some (addr, rest) => if rest = [] then some (.v4 addr) else none
  | none =>
    match readIpv6Addr cs with
    | some (addr, rest) => if rest = [] then some (.v6 addr) else none
    | none => none

/-- A number of any length behind `c`. -/
def readNumberBehind (c : Char) (bound : Nat) : Reader Nat := fun cs =>
  (readGivenChar c cs).bind fun r => readNumber 10 r.2.length true bound r.2

def readSocketAddrV4 : Reader (BitVec 32 × Nat) := fun cs => do
  let (addr, cs) ← readIpv4Addr cs
  let (port, cs) ← readNumberBehind ':' (2 ^ 16) cs
  some ((addr, port), cs)

/-- The address stands in brackets and may carry a scope. -/
def readSocketAddrV6 : Reader (BitVec 128 × Nat) := fun cs => do
  let (_, cs) ← readGivenChar '[' cs
  let (addr, cs) ← readIpv6Addr cs
  let cs := ((readNumberBehind '%' (2 ^ 32) cs).map Prod.snd).getD cs
  let (_, cs) ← readGivenChar ']' cs
  let (port, cs) ← readNumberBehind ':' (2 ^ 16) cs
  some ((addr, port), cs)

/-- `str::parse` at a socket address: the whole text is an address and a port. -/
def parseSocketAddr (cs : List Char) : Option (IpAddr × Nat) :=
  match readSocketAddrV4 cs with
  | some ((addr, port), rest) => if rest = [] then some (.v4 addr, port) else none
  | none =>
    match readSocketAddrV6 cs with
    | some ((addr, port), rest) => if rest = [] then some (.v6 addr, port) else none
    | none => none

example : parseSocketAddr "[::1%2]:8720".toList = some (.v6 1, 8720) := by decide

example : parseIpAddr "192.0.2.1".toList = some (.v4 0xc0000201) := by decide

example : parseIpAddr "2001:db8::1.2.3.4".toList =
    some (.v6 0x20010db8000000000000000001020304) := by decide

example : parseIpAddr "10.0.0.08".toList = none := by decide

end IpText
