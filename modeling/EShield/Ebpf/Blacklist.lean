import EShield.Ebpf.Trust

/-!
# The blacklist in the data plane
-/

namespace EShield.Ebpf

/-- Writes the merge of a block into the entry of `key`: the step that every writer of the BLACKLIST
map makes. -/
def mergeInto (blacklist : LruHashMap IpKey BlockEntry) (key : IpKey)
    (nowNs blockedUntilNs : UInt64) (reason : UInt8) (explicit : Bool) :
    LruHashMap IpKey BlockEntry :=
  blacklist.insert key (mergeBlockEntry (blacklist key) nowNs blockedUntilNs reason explicit)

/-- The source has an entry in force. -/
def Blacklisted (blacklist : LruHashMap IpKey BlockEntry) (src : IpKey) (nowNs : UInt64) : Prop :=
  ∃ e, blacklist src = some e ∧ EffectiveAt e.blockedUntilNs nowNs

instance (blacklist : LruHashMap IpKey BlockEntry) (src : IpKey) (nowNs : UInt64) :
    Decidable (Blacklisted blacklist src nowNs) :=
  decidable_of_iff (∃ e ∈ blacklist src, EffectiveAt e.blockedUntilNs nowNs) (by rfl)

/-- Looks the source up. A hit adds 16 to its count every sixteenth time; an expired entry is removed
and the source's trust reset. -/
def isBlacklisted (m : Maps) (src : IpKey) (nowNs : UInt64) : Bool × Maps :=
  match m.blacklist src with
  | some entry =>
    if EffectiveAt entry.blockedUntilNs nowNs then
      let m := m.withStats fun s => { s with blacklistHitSample := s.blacklistHitSample + 1 }
      if m.globalStats.blacklistHitSample &&& 0xf = 0 then
        let updated := { entry with hitCount := entry.hitCount.saturatingAdd 16 }
        let m := { m with blacklist := m.blacklist.insert src updated }
        (true, m.withStats fun s => { s with blacklistHitGen := s.blacklistHitGen + 1 })
      else (true, m)
    else
      (false,
        { m with
          blacklist := m.blacklist.remove src
          trustMap := m.trustMap.insert src { trustScore := TRUST_DEFAULT } })
  | none => (false, m)

/-- The expiry of a block of `durationS` seconds from `nowNs` on; 0 seconds means permanent. -/
def addUntil (nowNs durationS : UInt64) : UInt64 :=
  if durationS = 0 then BLOCK_PERMANENT
  else
    let blockNs :=
      if durationS > 0xffffffffffffffff / 1000000000 then 0xffffffffffffffff
      else durationS * 1000000000
    nowNs.saturatingAdd blockNs

/-- Blacklists the source and zeroes its trust. -/
def addToBlacklist (m : Maps) (src : IpKey) (nowNs blockDurationS : UInt64) (reason : UInt8) :
    Maps :=
  let newUntilNs := addUntil nowNs blockDurationS
  let m := { m with blacklist := mergeInto m.blacklist src nowNs newUntilNs reason false }
  let m := m.withStats fun s => { s with blacklistGen := s.blacklistGen + 1 }
  { m with
    trustMap := m.trustMap.insert src { trustScore := TRUST_MIN, lastUpdateNs := nowNs } }

end EShield.Ebpf
