import EShield.Common.Types

/-!
# Pure helpers

The functions of `eshield-common/src/pure.rs` that the data plane and the control plane share:
merging of blacklist entries, SYN cookies, rate decay, port ACL matching and connection tracking.
-/

namespace EShield

/-! ## Byte order -/

/-- `u16::from_be` and `u16::to_be` on the little-endian host. -/
def bswap16 (x : UInt16) : UInt16 := (x <<< 8) ||| (x >>> 8)

/-- `u32::from_be` and `u32::to_be` on the little-endian host. -/
def bswap32 (x : UInt32) : UInt32 :=
  (x <<< 24) ||| ((x &&& (0xff00 : UInt32)) <<< 8) ||| ((x >>> 8) &&& (0xff00 : UInt32)) |||
    (x >>> 24)

/-! ## Blacklist entries -/

/-- A block with expiry `untilNs` is in force at `nowNs`. -/
def EffectiveAt (untilNs nowNs : UInt64) : Prop := untilNs = BLOCK_PERMANENT ∨ nowNs < untilNs

instance (untilNs nowNs : UInt64) : Decidable (EffectiveAt untilNs nowNs) :=
  inferInstanceAs (Decidable (_ ∨ _))

/-- The later of two expiries, a permanent one being the latest. -/
def laterUntil (a b : UInt64) : UInt64 :=
  if a = BLOCK_PERMANENT ∨ b = BLOCK_PERMANENT then BLOCK_PERMANENT else if a > b then a else b

/-- The entry to write when a source is blocked until `blockedUntilNs` for `reason`. -/
def mergeBlockEntry (prev : Option BlockEntry) (nowNs blockedUntilNs : UInt64) (reason : UInt8)
    (explicit : Bool) : BlockEntry :=
  match prev with
  | some p =>
    if EffectiveAt p.blockedUntilNs nowNs then
      if explicit then
        { blockedUntilNs := laterUntil p.blockedUntilNs blockedUntilNs
          firstSeenNs := p.firstSeenNs
          hitCount := p.hitCount
          blockReason := reason
          lastReason := if p.blockReason ≠ reason then p.blockReason else p.lastReason }
      else
        { blockedUntilNs := laterUntil p.blockedUntilNs blockedUntilNs
          firstSeenNs := p.firstSeenNs
          hitCount := p.hitCount
          blockReason := p.blockReason
          lastReason := if reason ≠ p.blockReason then reason else p.lastReason }
    else fresh
  | none => fresh
where
  fresh : BlockEntry :=
    { blockedUntilNs := blockedUntilNs
      firstSeenNs := nowNs
      hitCount := 0
      blockReason := reason
      lastReason := 0 }

/-! ## SYN cookies -/

def mix (h v : UInt32) : UInt32 :=
  let h := h + v
  let h := UInt32.ofBitVec (h.toBitVec.rotateLeft 5)
  h ^^^ (h >>> 16)

/-- The sixteen secret bytes as four little-endian words. -/
def secretWords (secret : BitVec 128) : List UInt32 :=
  [.ofBitVec (secret.extractLsb' 0 32), .ofBitVec (secret.extractLsb' 32 32),
    .ofBitVec (secret.extractLsb' 64 32), .ofBitVec (secret.extractLsb' 96 32)]

def buildCookieWords (saddr daddr : UInt32) (sport dport : UInt16) (bucket : UInt32)
    (mssIdx : UInt8) (words : List UInt32) : UInt32 :=
  let h : UInt32 := 0x9e3779b9
  let h := mix h (bswap32 saddr)
  let h := mix h (bswap32 daddr)
  let h := mix h ((sport.toUInt32 <<< 16) ||| dport.toUInt32)
  let h := mix h bucket
  let h := mix h mssIdx.toUInt32
  let h := words.foldl mix h
  (mssIdx.toUInt32 <<< 30) ||| (h &&& 0x3fffffff)

/-- The cookie from packed arguments. -/
def buildCookieRuntime (addrPair portBucket : UInt64) (secret : BitVec 128) (mssIdx : UInt8) :
    UInt32 :=
  let saddr := (addrPair &&& 0xffffffff).toUInt32
  let daddr := (addrPair >>> 32).toUInt32
  let sport := (portBucket &&& 0xffff).toUInt16
  let dport := ((portBucket >>> 16) &&& 0xffff).toUInt16
  let bucket := (portBucket >>> 32).toUInt32
  buildCookieWords saddr daddr sport dport bucket mssIdx (secretWords secret)

def mssToIdx (mss : UInt16) : UInt8 :=
  if mss ≥ 1460 then 2 else if mss ≥ 1300 then 1 else 0

/-! ## Rates, ACL rules, connections -/

/-- `tick_ms * 1_000_000`, saturating: the conversion every windowed module makes. -/
def msToNs (ms : UInt64) : UInt64 :=
  if ms > 0xffffffffffffffff / 1000000 then 0xffffffffffffffff else ms * 1000000

theorem msToNs_eq_zero_iff {ms : UInt64} : msToNs ms = 0 ↔ ms = 0 := by
  unfold msToNs
  split
  · rename_i hbig
    constructor
    · intro h
      cases h
    · rintro rfl
      cases hbig
  · rename_i hsmall
    have hle : ms.toNat ≤ 18446744073709 := UInt64.le_iff_toNat_le.1 (not_lt.1 hsmall)
    have hmul : (ms * 1000000).toNat = ms.toNat * 1000000 := by
      rw [UInt64.toNat_mul]
      exact Nat.mod_eq_of_lt (by simp; omega)
    rw [UInt64.eq_zero_iff_toNat, UInt64.eq_zero_iff_toNat, hmul]
    omega

/-- Applies `counter * num / den` once for each full tick elapsed, at most 64 times. -/
def decayCounter (counter elapsedNs tickNs decayNum decayDen : UInt64) : UInt64 :=
  if tickNs = 0 ∨ decayDen = 0 then counter
  else
    let effectiveTicks := min (elapsedNs / tickNs).toNat 64
    (fun decayed => decayed * decayNum / decayDen)^[effectiveTicks] counter

inductive AclMatch where
  | allow
  | drop
  deriving DecidableEq, Repr

def matchPortAclEntry (protocol : UInt8) (dport : UInt16) (entryProtocol : UInt8)
    (dportLow dportHigh : UInt16) (action : UInt8) : Option AclMatch :=
  if action = 0 then none
  else if entryProtocol ≠ 0 ∧ entryProtocol ≠ protocol then none
  else if dportLow ≠ 0 ∧ dportHigh ≠ 0 ∧ (dport < dportLow ∨ dport > dportHigh) then none
  else if dportLow ≠ 0 ∧ dportHigh = 0 ∧ dport ≠ dportLow then none
  else if action = 1 then some .allow
  else if action = 2 then some .drop
  else none

structure ConnTrackStep where
  halfOpen : UInt32
  lastSeenNs : UInt64
  drop : Bool
  deriving DecidableEq, Repr

def connTrackStep (halfOpen : UInt32) (lastSeenNs nowNs : UInt64) (isSyn isAckOrRst : Bool)
    (threshold : UInt32) (windowNs : UInt64) : ConnTrackStep :=
  let halfOpen :=
    if windowNs ≠ 0 ∧ nowNs.saturatingSub lastSeenNs > windowNs then 0 else halfOpen
  let halfOpen :=
    if isSyn then halfOpen.saturatingAdd 1
    else if isAckOrRst then halfOpen.saturatingSub 1
    else halfOpen
  { halfOpen := halfOpen, lastSeenNs := nowNs, drop := decide (halfOpen > threshold) }

end EShield
