import EShield.Common.Pure

/-!
# The Internet checksum

`checksum` and `tcp_checksum` of `eshield-common/src/pure.rs`.
-/

namespace EShield

/-- `(data[i] << 8) | data[i + 1]`. -/
def wordBe (hi lo : UInt8) : UInt32 := hi.toUInt32 <<< 8 ||| lo.toUInt32

/-- The loop over the words of `data`, and its odd last byte. -/
def sumWords (sum : UInt32) : List UInt8 → UInt32
  | hi :: lo :: data => sumWords (sum + wordBe hi lo) data
  | [tail] => sum + tail.toUInt32 <<< 8
  | [] => sum

/-- At most `n` foldings of the upper half into the lower, until nothing is left above. -/
def foldSum : Nat → UInt32 → UInt32
  | 0, sum => sum
  | n + 1, sum =>
    if sum >>> 16 = 0 then sum else foldSum n ((sum &&& (0xffff : UInt32)) + (sum >>> 16))

/-- The checksum of RFC 1071. -/
def checksum (data : List UInt8) : UInt16 := ~~~(foldSum 4 (sumWords 0 data)).toUInt16

/-- What the pseudo-header adds to the sum, one after the other. -/
def pseudoWords (saddr daddr : UInt32) (proto : UInt8) (len : Nat) : List UInt32 :=
  [(saddr >>> 16) &&& (0xffff : UInt32), saddr &&& (0xffff : UInt32),
    (daddr >>> 16) &&& (0xffff : UInt32), daddr &&& (0xffff : UInt32), proto.toUInt32, .ofNat len]

/-- The TCP checksum: the pseudo-header and then the data. -/
def tcpChecksum (saddr daddr : UInt32) (proto : UInt8) (tcpData : List UInt8) : UInt16 :=
  let sum := (pseudoWords saddr daddr proto tcpData.length).foldl (· + ·) 0
  ~~~(foldSum 4 (sumWords sum tcpData)).toUInt16

end EShield
