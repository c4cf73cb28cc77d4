import EShield.Node.RuleSets

/-!
# The preview of L7 patterns in the console

`L7View.vue` shows for a probe which patterns match it. A string is the list of its characters; its
length counts the characters beyond the basic plane twice.
-/

namespace EShield.Console

open Node (L7PatternConfig)

/-- `String.length`, in UTF-16 code units. -/
def utf16Length (s : List Char) : Nat := (s.map fun c => if c.toNat < 0x10000 then 1 else 2).sum

/-- `padEnd(n, '\0')`. -/
def padEnd (s : List Char) (n : Nat) : List Char := s ++ List.replicate (n - utf16Length s) (.ofNat 0)

/-- `TextEncoder.encode`. -/
def encode (s : List Char) : List UInt8 := s.flatMap String.utf8EncodeChar

/-- The first eight bytes of a padded string. -/
def first8Bytes (s : List Char) : List UInt8 := (encode (padEnd s 8)).take 8

/-- `match`. Without a mask, or with an empty one, all eight bytes count. -/
def matchPattern (probe : String) (p : L7PatternConfig) : Bool :=
  if p.pattern.toList = [] then false
  else
    let a := first8Bytes probe.toList
    let b := first8Bytes p.pattern.toList
    let mask :=
      match p.mask with
      | some mask => if mask.toList = [] then List.replicate 8 0xff else first8Bytes mask.toList
      | none => List.replicate 8 0xff
    (List.range 8).all fun i => a.getD i 0 &&& mask.getD i 0 = b.getD i 0 &&& mask.getD i 0

end EShield.Console
