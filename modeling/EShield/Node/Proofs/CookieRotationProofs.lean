import EShield.Ebpf.Proofs.SynCookieProofs
import EShield.Node.CookieSecrets

/-!
# Cookies under rotation

A cookie is checked with the secret it was built with as long as that secret serves the bucket it
was built in: as the current secret of that bucket, or as the one kept behind the next. A challenge
sent before the secrets have been rotated into its bucket is built with a secret that serves an
older one.
-/

namespace EShield.Node

open Ebpf

variable {secret : CookieSecret} {bucket : UInt64} {key : BitVec 128} {r : Rotation}
  {rs : List Rotation}

/-! ## Rotations -/

/-- The secrets hold `key` where an ACK of `bucket` looks for it. -/
def Serves (secret : CookieSecret) (bucket : UInt64) (key : BitVec 128) : Prop :=
  (secret.bucketIndex = bucket ∧ secret.current = key) ∨
    (secret.bucketIndex.toNat = bucket.toNat + 1 ∧ secret.previous = key)

theorem Serves.verifySecret (hserves : Serves secret bucket key) :
    verifySecret secret bucket = some key := by
  unfold Ebpf.verifySecret
  rcases hserves with ⟨hbucket, hkey⟩ | ⟨hbucket, hkey⟩
  · rw [if_pos hbucket.symm, hkey]
  · have hne : bucket ≠ secret.bucketIndex := by
      rintro rfl
      omega
    have hprev : bucket = secret.bucketIndex.saturatingSub 1 := by
      apply UInt64.toNat_inj.1
      rw [UInt64.toNat_saturatingSub, hbucket]
      rfl
    rw [if_neg hne, if_pos hprev, hkey]

/-- A rotation into the bucket, or into the next, leaves its secret in place. -/
theorem Serves.rotate (hserves : Serves secret bucket key)
    (hnext : (bucketOfSecs r.nowS).toNat ≤ bucket.toNat + 1) :
    Serves (rotateCookieSecretsInner secret r) bucket key := by
  unfold rotateCookieSecretsInner
  split
  · exact hserves
  · rename_i hlater
    have hlt : secret.bucketIndex.toNat < (bucketOfSecs r.nowS).toNat :=
      UInt64.lt_iff_toNat_lt.1 (not_le.1 hlater)
    rcases hserves with ⟨rfl, hkey⟩ | ⟨hbucket, _⟩
    · exact .inr ⟨by dsimp only; omega, hkey⟩
    · omega

theorem Serves.rotateAll (hserves : Serves secret bucket key)
    (hnext : ∀ r ∈ rs, (bucketOfSecs r.nowS).toNat ≤ bucket.toNat + 1) :
    Serves (rotateAll secret rs) bucket key := by
  unfold Node.rotateAll
  induction rs generalizing secret with
  | nil => exact hserves
  | cons r rs ih =>
    exact ih (hserves.rotate (hnext r (by simp))) fun r' hr' => hnext r' (by simp [hr'])

/-- The first rotation after a bucket that was passed over keeps the secret behind the new one. -/
theorem serves_rotateAll_of_lt (hlt : secret.bucketIndex < bucket) (hne : rs ≠ [])
    (hskip : ∀ r ∈ rs, (bucketOfSecs r.nowS).toNat = bucket.toNat + 1) :
    Serves (rotateAll secret rs) bucket secret.current := by
  obtain ⟨r, rs, rfl⟩ := List.exists_cons_of_ne_nil hne
  have hr := hskip r (by simp)
  have hlater : ¬ bucketOfSecs r.nowS ≤ secret.bucketIndex := by
    rw [UInt64.le_iff_toNat_le]
    have hlt' := UInt64.lt_iff_toNat_lt.1 hlt
    omega
  have hfirst : Serves (rotateCookieSecretsInner secret r) bucket secret.current := by
    rw [rotateCookieSecretsInner, if_neg hlater]
    exact .inr ⟨hr, rfl⟩
  exact hfirst.rotateAll fun r' hr' => (hskip r' (by simp [hr'])).le

theorem bucketIndex_rotate (secret : CookieSecret) (r : Rotation) :
    (rotateCookieSecretsInner secret r).bucketIndex =
      max secret.bucketIndex (bucketOfSecs r.nowS) := by
  unfold rotateCookieSecretsInner
  split
  · rename_i hle
    exact (max_eq_left hle).symm
  · rename_i hlater
    exact (max_eq_right (not_le.1 hlater).le).symm

/-- The bucket index is at most `bucket` exactly when no rotation went beyond it. -/
theorem bucketIndex_rotateAll_le_iff :
    (rotateAll secret rs).bucketIndex ≤ bucket ↔
      secret.bucketIndex ≤ bucket ∧ ∀ r ∈ rs, bucketOfSecs r.nowS ≤ bucket := by
  unfold rotateAll
  induction rs generalizing secret with
  | nil => simp
  | cons r rs ih =>
    rw [List.foldl_cons, ih, bucketIndex_rotate, max_le_iff, List.forall_mem_cons, and_assoc]

/-! ## From SYN to ACK -/

/-- The rotations around a SYN and the ACK that answers its challenge, in the order of the clock. -/
structure CookieRun where
  current : BitVec 128
  previous : BitVec 128
  startS : UInt64
  before : List Rotation
  synNs : UInt64
  after : List Rotation
  ackNs : UInt64
  start_le : startS ≤ synNs / 1000000000
  before_le : ∀ r ∈ before, r.nowS ≤ synNs / 1000000000
  le_after : ∀ r ∈ after, synNs / 1000000000 ≤ r.nowS
  after_le : ∀ r ∈ after, r.nowS ≤ ackNs / 1000000000
  syn_le_ack : synNs ≤ ackNs
  within : ackNs.toNat < synNs.toNat + 30000000000

namespace CookieRun

variable (run : CookieRun)

/-- The secrets when the SYN comes. -/
def secretsAtSyn : CookieSecret :=
  rotateAll (initCookieSecrets run.current run.previous run.startS) run.before

/-- The secrets when the ACK comes. -/
def secretsAtAck : CookieSecret := rotateAll run.secretsAtSyn run.after

/-- The secrets were set or rotated in the bucket of the SYN before it came, or else the next
rotation comes before the ACK and in the next bucket. -/
def RotatedInTime : Prop :=
  (bucketOfSecs run.startS = bucketOf run.synNs ∨
      ∃ r ∈ run.before, bucketOfSecs r.nowS = bucketOf run.synNs) ∨
    (run.after ≠ [] ∧ ∀ r ∈ run.after, bucketOfSecs r.nowS ≠ bucketOf run.synNs)

theorem toNat_bucketOf (nowNs : UInt64) : (bucketOf nowNs).toNat = nowNs.toNat / 1000000000 / 60 :=
  rfl

/-- An ACK less than 30 s after the SYN falls into the same bucket or into the next. -/
theorem bucketOf_ack :
    (bucketOf run.ackNs).toNat = (bucketOf run.synNs).toNat ∨
      (bucketOf run.ackNs).toNat = (bucketOf run.synNs).toNat + 1 := by
  have hle := UInt64.le_iff_toNat_le.1 run.syn_le_ack
  have hlt := run.within
  rw [toNat_bucketOf, toNat_bucketOf]
  omega

theorem bucketOfSecs_le {nowS nowNs : UInt64} (hle : nowS ≤ nowNs / 1000000000) :
    bucketOfSecs nowS ≤ bucketOf nowNs := by
  rw [UInt64.le_iff_toNat_le] at hle ⊢
  exact Nat.div_le_div_right hle

theorem le_bucketOfSecs {nowS nowNs : UInt64} (hle : nowNs / 1000000000 ≤ nowS) :
    bucketOf nowNs ≤ bucketOfSecs nowS := by
  rw [UInt64.le_iff_toNat_le] at hle ⊢
  exact Nat.div_le_div_right hle

theorem bucketIndex_secretsAtSyn_le : run.secretsAtSyn.bucketIndex ≤ bucketOf run.synNs :=
  bucketIndex_rotateAll_le_iff.2
    ⟨bucketOfSecs_le run.start_le, fun r hr => bucketOfSecs_le (run.before_le r hr)⟩

/-- The challenge is built with the current secret. -/
theorem challengeSecret_atSyn :
    challengeSecret run.secretsAtSyn (bucketOf run.synNs) = run.secretsAtSyn.current := by
  have hle := UInt64.le_iff_toNat_le.1 run.bucketIndex_secretsAtSyn_le
  unfold challengeSecret
  split
  · rfl
  · rename_i hne
    refine if_neg fun hprev => hne ?_
    have hprev' := congrArg UInt64.toNat hprev
    rw [UInt64.toNat_saturatingSub, show (1 : UInt64).toNat = 1 from rfl] at hprev'
    apply UInt64.toNat_inj.1
    omega

theorem bucketOfSecs_after_le {r : Rotation} (hr : r ∈ run.after) :
    (bucketOfSecs r.nowS).toNat ≤ (bucketOf run.synNs).toNat + 1 := by
  have hle := UInt64.le_iff_toNat_le.1 (bucketOfSecs_le (run.after_le r hr))
  have hack := run.bucketOf_ack
  omega

/-- After timely rotations the secret of the challenge serves its bucket when the ACK comes. -/
theorem serves_of_rotatedInTime (htimely : run.RotatedInTime) :
    Serves run.secretsAtAck (bucketOf run.synNs) run.secretsAtSyn.current := by
  by_cases hcurrent : run.secretsAtSyn.bucketIndex = bucketOf run.synNs
  · have hserves : Serves run.secretsAtSyn (bucketOf run.synNs) run.secretsAtSyn.current :=
      .inl ⟨hcurrent, rfl⟩
    exact hserves.rotateAll fun r hr => run.bucketOfSecs_after_le hr
  · have hlt : run.secretsAtSyn.bucketIndex < bucketOf run.synNs :=
      lt_of_le_of_ne run.bucketIndex_secretsAtSyn_le hcurrent
    rcases htimely with hin | ⟨hne, hskip⟩
    · have hreached := bucketIndex_rotateAll_le_iff.1 (le_refl run.secretsAtSyn.bucketIndex)
      rcases hin with hstart | ⟨r, hr, hbucket⟩
      · exact absurd hlt (not_lt.2 (hstart ▸ hreached.1))
      · exact absurd hlt (not_lt.2 (hbucket ▸ hreached.2 r hr))
    · refine serves_rotateAll_of_lt hlt hne fun r hr => ?_
      have hle := UInt64.le_iff_toNat_le.1 (le_bucketOfSecs (run.le_after r hr))
      have hnot : (bucketOfSecs r.nowS).toNat ≠ (bucketOf run.synNs).toNat :=
        fun heq => hskip r hr (UInt64.toNat_inj.1 heq)
      have hup := run.bucketOfSecs_after_le hr
      omega

end CookieRun

/-! ## The round trip -/

/-- The packet is an ACK of the connection of `syn` that acknowledges the sequence number of
`frame`. -/
structure Acknowledges (syn frame : XdpContext) (ipHdrLen : Nat) (ack : XdpContext) (ip tcp : Nat) :
    Prop where
  isAck : TcpHdr.flags ack tcp &&& TCP_FLAG_ACK ≠ 0
  notSyn : TcpHdr.flags ack tcp &&& TCP_FLAG_SYN = 0
  saddr : IpHdr.saddr ack ip = IpHdr.saddr syn ETH_HDR_LEN
  daddr : IpHdr.daddr ack ip = IpHdr.daddr syn ETH_HDR_LEN
  source : TcpHdr.source ack tcp = TcpHdr.source syn (ETH_HDR_LEN + ipHdrLen)
  dest : TcpHdr.dest ack tcp = TcpHdr.dest syn (ETH_HDR_LEN + ipHdrLen)
  ackSeq : bswap32 (TcpHdr.ackSeq ack tcp) =
    bswap32 (TcpHdr.seq frame (ETH_HDR_LEN + ipHdrLen)) + 1

/-- An ACK that carries a cookie built with a secret that serves its bucket is accepted. -/
theorem handleAck_of_serves {ack : XdpContext} {m : Maps} {pc : PacketCtxRef} {ip tcp : Nat}
    {mssIdx : UInt8} {ts : UInt64}
    (hisAck : TcpHdr.flags ack tcp &&& TCP_FLAG_ACK ≠ 0)
    (hnotSyn : TcpHdr.flags ack tcp &&& TCP_FLAG_SYN = 0)
    (hentry : m.synProxyConn (srcKey (IpHdr.saddr ack ip)) = some ts)
    (hfresh : pc.nowNs.saturatingSub ts < CHALLENGE_TIMEOUT_NS)
    (hserves : Serves m.cookieSecrets bucket key)
    (hbucket : (bucketOf pc.nowNs).toNat = bucket.toNat ∨
      (bucketOf pc.nowNs).toNat = bucket.toNat + 1)
    (hmss : mssIdx < 4)
    (hcookie : bswap32 (TcpHdr.ackSeq ack tcp) =
      cookieFor (IpHdr.saddr ack ip) (IpHdr.daddr ack ip) (bswap16 (TcpHdr.source ack tcp))
        (bswap16 (TcpHdr.dest ack tcp)) bucket key mssIdx + 1) :
    handleAck ack m pc ip tcp =
      (some .pass,
        { m with synProxyConn := m.synProxyConn.remove (srcKey (IpHdr.saddr ack ip)) }) := by
  have hexpected : bswap32 (TcpHdr.ackSeq ack tcp) - 1 =
      cookieFor (IpHdr.saddr ack ip) (IpHdr.daddr ack ip) (bswap16 (TcpHdr.source ack tcp))
        (bswap16 (TcpHdr.dest ack tcp)) bucket key mssIdx := by
    rw [hcookie]
    exact UInt32.add_sub_cancel _ _
  unfold handleAck
  dsimp only
  rw [if_neg (by simp [hisAck, hnotSyn]), hentry]
  dsimp only
  rw [if_neg (not_not.2 hfresh), hexpected]
  have hidx : (cookieFor (IpHdr.saddr ack ip) (IpHdr.daddr ack ip)
      (bswap16 (TcpHdr.source ack tcp)) (bswap16 (TcpHdr.dest ack tcp)) bucket key mssIdx
        >>> 30).toUInt8 = mssIdx := mssIdx_of_buildCookieWords _ _ _ _ _ hmss _
  rw [hidx, if_pos]
  -- the bucket of the cookie is the one tried first, or the one tried second
  rw [List.any_eq_true]
  refine ⟨(bucketOf pc.nowNs).toNat - bucket.toNat, List.mem_range.2 ?_, ?_⟩
  · unfold VALID_BUCKETS
    omega
  · have htried : (bucketOf pc.nowNs).saturatingSub
        (UInt64.ofNat ((bucketOf pc.nowNs).toNat - bucket.toNat)) = bucket := by
      apply UInt64.toNat_inj.1
      rw [UInt64.toNat_saturatingSub, UInt64.toNat_ofNat_of_lt' (by simp only [UInt64.size]; omega)]
      omega
    rw [htried, hserves.verifySecret]
    exact decide_eq_true rfl

/-- A challenge sent under timely rotations is answered: whatever else happened to the maps in
between, the ACK that returns its cookie while the source is in challenge mode passes and ends the
mode. -/
theorem cookie_round_trip (h : Helpers) (run : CookieRun) (syn : XdpContext) {ack : XdpContext}
    (m₁ : Maps) {m₂ : Maps} (pc₁ : PacketCtxRef) {pc₂ : PacketCtxRef} {ip tcp : Nat} {ts : UInt64}
    (hnow₁ : pc₁.nowNs = run.synNs) (hnow₂ : pc₂.nowNs = run.ackNs)
    (hm₁ : m₁.cookieSecrets = run.secretsAtSyn) (hm₂ : m₂.cookieSecrets = run.secretsAtAck)
    (hsent : (handleSyn h syn m₁ pc₁ ETH_HDR_LEN (ETH_HDR_LEN + pc₁.ipHdrLen)).1 = some .tx)
    (hack : Acknowledges syn
      (handleSyn h syn m₁ pc₁ ETH_HDR_LEN (ETH_HDR_LEN + pc₁.ipHdrLen)).2.1 pc₁.ipHdrLen ack ip tcp)
    (hentry : m₂.synProxyConn (srcKey (IpHdr.saddr ack ip)) = some ts)
    (hfresh : pc₂.nowNs.saturatingSub ts < CHALLENGE_TIMEOUT_NS) (htimely : run.RotatedInTime) :
    handleAck ack m₂ pc₂ ip tcp =
      (some .pass,
        { m₂ with synProxyConn := m₂.synProxyConn.remove (srcKey (IpHdr.saddr ack ip)) }) := by
  have hserves := run.serves_of_rotatedInTime htimely
  rw [← hm₂] at hserves
  refine handleAck_of_serves hack.isAck hack.notSyn hentry hfresh hserves
    (hnow₂ ▸ run.bucketOf_ack)
    (challengeMssIdx_lt syn pc₁ (TcpHdr.hdrLen syn (ETH_HDR_LEN + pc₁.ipHdrLen))) ?_
  rw [hack.ackSeq, (handleSyn_answersSyn hsent).seq, hack.saddr, hack.daddr, hack.source, hack.dest,
    challengeCookie, hnow₁, hm₁, run.challengeSecret_atSyn]

/-- The ACK of the connection of `sampleSyn` with the given acknowledgment number. -/
def sampleAck (ackSeq : UInt32) : XdpContext :=
  (XdpContext.ofBytes
    [2, 0, 0, 0, 0, 2, 2, 0, 0, 0, 0, 1, 8, 0,
      0x45, 0, 0, 40, 0, 2, 0, 0, 64, 6, 0, 0, 192, 0, 2, 1, 198, 51, 100, 2,
      0x9c, 0x40, 1, 0xbb, 0, 0, 0x12, 0x35, 0, 0, 0, 0, 0x50, 0x10, 0xff, 0xff,
      0, 0, 0, 0]).setU32 42 (bswap32 ackSeq)

/-- Maps in which the source of `sampleSyn` is in challenge mode since `ts`. -/
def challengedMaps (secret : CookieSecret) (ts : UInt64) : Maps :=
  { cookieSecrets := secret
    synProxyConn := LruHashMap.empty.insert (srcKey (IpHdr.saddr sampleSyn ETH_HDR_LEN)) ts }

/-- Secrets set in the bucket of the SYN and rotated before the ACK. -/
def timelyRun : CookieRun where
  current := 1
  previous := 2
  startS := 61
  before := []
  synNs := 119000000000
  after := [⟨121, 3⟩]
  ackNs := 125000000000
  start_le := by decide
  before_le := by decide
  le_after := by decide
  after_le := by decide
  syn_le_ack := by decide
  within := by decide

theorem cookie_round_trip_across_rotation :
    handleAck (sampleAck 274909041) (challengedMaps timelyRun.secretsAtAck 118000000000)
        ⟨20, 125000000000⟩ 14 34 =
      (some .pass,
        { challengedMaps timelyRun.secretsAtAck 118000000000 with
          synProxyConn :=
            (challengedMaps timelyRun.secretsAtAck 118000000000).synProxyConn.remove
              (srcKey (IpHdr.saddr (sampleAck 274909041) 14)) }) :=
  cookie_round_trip {} timelyRun sampleSyn
    (challengedMaps timelyRun.secretsAtSyn 118000000000) ⟨20, 119000000000⟩ rfl rfl rfl rfl (by decide)
    ⟨by decide, by decide, by decide, by decide, by decide, by decide, by decide⟩
    (show _ = some (118000000000 : UInt64) by decide) (by decide) (.inl (.inl (by decide)))

/-- Secrets set one second before a bucket begins; the first rotation of that bucket is yet to
come. -/
def lateRun : CookieRun where
  current := 1
  previous := 2
  startS := 59
  before := []
  synNs := 61000000000
  after := []
  ackNs := 62000000000
  start_le := by decide
  before_le := by decide
  le_after := by decide
  after_le := by decide
  syn_le_ack := by decide
  within := by decide

/-- Between the start of a bucket and its rotation a SYN is answered, and the ACK that returns the
cookie a second later is not accepted. -/
theorem cookie_before_rotation_is_refused :
    (handleSyn {} sampleSyn (challengedMaps lateRun.secretsAtSyn 60000000000) ⟨20, 61000000000⟩
        14 34).1 = some .tx ∧
      Acknowledges sampleSyn
        (handleSyn {} sampleSyn (challengedMaps lateRun.secretsAtSyn 60000000000)
          ⟨20, 61000000000⟩ 14 34).2.1 20 (sampleAck 274909041) 14 34 ∧
      (challengedMaps lateRun.secretsAtAck 60000000000).synProxyConn
        (srcKey (IpHdr.saddr (sampleAck 274909041) 14)) = some 60000000000 ∧
      (62000000000 : UInt64).saturatingSub 60000000000 < CHALLENGE_TIMEOUT_NS ∧
      (handleAck (sampleAck 274909041) (challengedMaps lateRun.secretsAtAck 60000000000)
        ⟨20, 62000000000⟩ 14 34).1 = none :=
  ⟨by decide, ⟨by decide, by decide, by decide, by decide, by decide, by decide, by decide⟩,
    by decide, by decide, by decide⟩

end EShield.Node
