import EShield.Ebpf.Pipeline
import EShield.Ebpf.Proofs.ParserProofs

/-!
# Verdicts on blacklisted sources

A stage that drops never answers `XDP_PASS`, and no stage before the blacklist lets a packet pass.
So a blacklisted source passes only where the frame is not parsed at all.
-/

namespace EShield.Ebpf

/-! ## Frames and sources -/

/-- The Ethernet header and the IP header it announces lie inside the frame. -/
def HeaderComplete (ctx : XdpContext) : Prop :=
  ETH_HDR_LEN ≤ ctx.len ∧
    ((EthHdr.proto ctx 0 = ETH_P_IP ∧ IP_HDR_LEN ≤ IpHdr.hdrLen ctx ETH_HDR_LEN ∧
        ETH_HDR_LEN + IpHdr.hdrLen ctx ETH_HDR_LEN ≤ ctx.len) ∨
      (EthHdr.proto ctx 0 = ETH_P_IPV6 ∧ ETH_HDR_LEN + IPV6_HDR_LEN ≤ ctx.len))

/-- The source address in the IP header of a frame. -/
def frameSource (ctx : XdpContext) : IpKey :=
  if EthHdr.proto ctx 0 = ETH_P_IP then srcKey (IpHdr.saddr ctx ETH_HDR_LEN)
  else .fromIpv6 (Ipv6Hdr.saddr ctx ETH_HDR_LEN)

/-- The bytes from `offset` on hold the port fields of `protocol`, if it has any. -/
def HoldsPorts (ctx : XdpContext) (offset : Nat) (protocol : UInt8) : Prop :=
  (protocol = IPPROTO_TCP → offset + TCP_HDR_LEN ≤ ctx.len) ∧
    (protocol = IPPROTO_UDP → offset + UDP_HDR_LEN ≤ ctx.len)

/-- A non-first IPv4 fragment, or a frame that holds the port fields of its protocol. -/
def PortsReadable (ctx : XdpContext) : Prop :=
  (EthHdr.proto ctx 0 = ETH_P_IP → isFragment ctx ETH_HDR_LEN = true ∨
      HoldsPorts ctx (ETH_HDR_LEN + IpHdr.hdrLen ctx ETH_HDR_LEN) (IpHdr.proto ctx ETH_HDR_LEN)) ∧
    (EthHdr.proto ctx 0 = ETH_P_IPV6 →
      HoldsPorts ctx (ETH_HDR_LEN + IPV6_HDR_LEN) (Ipv6Hdr.nextHeader ctx ETH_HDR_LEN))

/-- A stored prefix of the trie of its family covers the source. -/
def WhitelistCovers (m : Maps) (src : IpKey) : Prop :=
  (src.ipFamily = some .ipv4 ∧ ∃ e ∈ m.whitelistV4, e.1.Covers ⟨32, src.ipv4⟩) ∨
    (src.ipFamily = some .ipv6 ∧ ∃ e ∈ m.whitelistV6, e.1.Covers ⟨128, src.addr⟩)

instance (ctx : XdpContext) : Decidable (HeaderComplete ctx) := inferInstanceAs (Decidable (_ ∧ _))

instance (ctx : XdpContext) (offset : Nat) (protocol : UInt8) :
    Decidable (HoldsPorts ctx offset protocol) := inferInstanceAs (Decidable (_ ∧ _))

instance (ctx : XdpContext) : Decidable (PortsReadable ctx) :=
  inferInstanceAs (Decidable (_ ∧ _))

instance (m : Maps) (src : IpKey) : Decidable (WhitelistCovers m src) :=
  inferInstanceAs (Decidable (_ ∨ _))

theorem isWhitelisted_iff (m : Maps) (src : IpKey) :
    isWhitelisted m src = true ↔ WhitelistCovers m src := by
  unfold isWhitelisted lpmContains WhitelistCovers
  cases src.ipFamily with
  | none => simp
  | some family => cases family <;> simp [LpmTrie.get_isSome_iff]

/-! ## Parsing -/

theorem readPorts_isSome_iff (ctx : XdpContext) (offset : Nat) (protocol : UInt8) :
    (readPorts ctx offset protocol).isSome ↔ HoldsPorts ctx offset protocol := by
  have hne : IPPROTO_TCP ≠ IPPROTO_UDP := by decide
  unfold readPorts HoldsPorts XdpContext.ptrAt
  by_cases htcp : protocol = IPPROTO_TCP
  · simp [htcp, hne]
  · by_cases hudp : protocol = IPPROTO_UDP
    · simp [hudp, hne.symm]
    · simp [htcp, hudp]

/-- On complete headers parsing succeeds exactly when the port fields can be read, and then it
yields the source of the frame. -/
theorem parse_isSome_iff {ctx : XdpContext} (hc : HeaderComplete ctx) :
    (parse ctx).isSome ↔ PortsReadable ctx := by
  obtain ⟨heth, ⟨hproto, hihl, hlen⟩ | ⟨hproto, hlen⟩⟩ := hc
  · have hip : ETH_HDR_LEN + IP_HDR_LEN ≤ ctx.len := by omega
    have hports := readPorts_isSome_iff ctx (ETH_HDR_LEN + IpHdr.hdrLen ctx ETH_HDR_LEN)
      (IpHdr.proto ctx ETH_HDR_LEN)
    unfold parse parseIpv4 PortsReadable
    have hne : ETH_P_IP ≠ ETH_P_IPV6 := by decide
    rw [ptrAt_of_le (by simpa using heth)]
    simp only [Option.bind_some, hproto, if_true, ptrAt_of_le hip, Nat.not_lt.2 hihl, if_false, hne]
    split <;> simp_all
  · have hne : ETH_P_IPV6 ≠ ETH_P_IP := by decide
    unfold parse parseIpv6 PortsReadable
    rw [ptrAt_of_le (by simpa using heth)]
    simp only [Option.bind_some, hproto, hne, if_false, if_true, ptrAt_of_le hlen,
      Option.isSome_map, readPorts_isSome_iff]
    simp

theorem parse_src {ctx : XdpContext} {pc : PacketCtx} (h : parse ctx = some pc) :
    pc.src = frameSource ctx := by
  unfold parse at h
  obtain ⟨eth, heth, h⟩ := Option.bind_eq_some_iff.1 h
  obtain ⟨_, rfl⟩ := ptrAt_eq_some_iff.1 heth
  unfold frameSource
  split at h
  · rename_i hproto
    rw [if_pos hproto]
    obtain ⟨ip, hip, h⟩ := Option.bind_eq_some_iff.1 h
    obtain ⟨_, rfl⟩ := ptrAt_eq_some_iff.1 hip
    simp only at h
    split at h
    · cases h
    · split at h
      · cases h
        rfl
      · obtain ⟨ports, _, rfl⟩ := Option.map_eq_some_iff.1 h
        rfl
  · rename_i hproto
    rw [if_neg hproto]
    split at h
    · obtain ⟨ip, hip, h⟩ := Option.bind_eq_some_iff.1 h
      obtain ⟨_, rfl⟩ := ptrAt_eq_some_iff.1 hip
      obtain ⟨ports, _, rfl⟩ := Option.map_eq_some_iff.1 h
      rfl
    · cases h

/-! ## Stages that drop -/

/-- A reset is sent or the packet dropped. -/
theorem replyTcpRst_ne_pass (h : Helpers) (ctx : XdpContext) (m : Maps) (ipHdrLen : Nat) :
    (replyTcpRst h ctx m ipHdrLen).1 ≠ .pass := by
  unfold replyTcpRst
  repeat' split
  all_goals simp

theorem dropPacket_ne_pass (h : Helpers) (s : PacketState) : (dropPacket h s).1 ≠ .pass := by
  simp only [dropPacket]
  split
  · exact replyTcpRst_ne_pass h _ _ _
  · simp

/-- A stage's drop is a verdict, and not `XDP_PASS`. -/
theorem dropAs_fst (h : Helpers) (ruleId : UInt16) (count : GlobalStats → GlobalStats)
    (protocol : UInt8) (s : PacketState) :
    ∃ a, (dropAs h ruleId count protocol s).1 = some a ∧ a ≠ .pass :=
  ⟨_, rfl, dropPacket_ne_pass h _⟩

theorem isBlacklisted_fst (m : Maps) (src : IpKey) (nowNs : UInt64) :
    (isBlacklisted m src nowNs).1 = true ↔ Blacklisted m.blacklist src nowNs := by
  unfold isBlacklisted Blacklisted
  cases m.blacklist src with
  | none => simp
  | some e =>
    by_cases he : EffectiveAt e.blockedUntilNs nowNs
    · simp only [he, if_true, Option.some.injEq]
      split <;> simp [he]
    · simp [he]

/-- The blacklist stage stops every source with an entry in force. -/
theorem checkBlacklistDrop_acts (h : Helpers) {s : PacketState}
    (hb : Blacklisted s.maps.blacklist s.pc.src s.pc.nowNs) :
    ∃ a, (checkBlacklistDrop h s).1 = some a ∧ a ≠ .pass := by
  have hfst := (isBlacklisted_fst s.maps s.pc.src s.pc.nowNs).2 hb
  unfold checkBlacklistDrop
  split
  · exact dropAs_fst h _ _ _ _
  · simp_all

/-- The ACL stage drops, or hands the packet on as it is. -/
theorem checkPortAclDrop_cases (h : Helpers) (aclCount : UInt8) (s : PacketState) :
    (∃ a, (checkPortAclDrop h aclCount s).1 = some a ∧ a ≠ .pass) ∨
      checkPortAclDrop h aclCount s = (none, s) := by
  unfold checkPortAclDrop
  split
  · exact .inr rfl
  · split
    · exact .inl (dropAs_fst h _ _ _ _)
    · exact .inr rfl

/-! ## Runs of stages -/

/-- If no stage of `pre` lets a state with `I` pass and those that do not act keep `I`, and `stage`
stops every state with `I`, then the run stops the packet. -/
theorem runStages_stops (h : Helpers) {I : PacketState → Prop}
    (pre : List (PacketState → Option XdpAction × PacketState))
    {post : List (PacketState → Option XdpAction × PacketState)}
    (stage : PacketState → Option XdpAction × PacketState)
    (hpre : ∀ f ∈ pre, ∀ s, I s →
      (∃ a, (f s).1 = some a ∧ a ≠ .pass) ∨ ∃ s', f s = (none, s') ∧ I s')
    (hstage : ∀ s, I s → ∃ a, (stage s).1 = some a ∧ a ≠ .pass)
    {s : PacketState} (hs : I s) :
    ∃ a s', runStages h (pre ++ stage :: post) s = (some a, s') ∧ a ≠ .pass := by
  induction pre generalizing s with
  | nil =>
    obtain ⟨a, ha, hne⟩ := hstage s hs
    refine ⟨a, logPacketSample h a (stage s).2, ?_, hne⟩
    rw [List.nil_append, runStages, show stage s = (some a, (stage s).2) from Prod.ext ha rfl]
  | cons f pre ih =>
    rw [List.cons_append, runStages]
    rcases hpre f (by simp) s hs with ⟨a, ha, hne⟩ | ⟨s', hs', hI⟩
    · rw [show f s = (some a, (f s).2) from Prod.ext ha rfl]
      exact ⟨a, _, rfl, hne⟩
    · rw [hs']
      exact ih (fun g hg => hpre g (by simp [hg])) hI

/-- The stages stop every packet whose source is blacklisted. -/
theorem stages_stop (h : Helpers) (runtime : RuntimeConfig) {s : PacketState}
    (hb : Blacklisted s.maps.blacklist s.pc.src s.pc.nowNs) :
    ∃ a s', runStages h (stages h runtime) s = (some a, s') ∧ a ≠ .pass := by
  refine runStages_stops h (I := fun s => Blacklisted s.maps.blacklist s.pc.src s.pc.nowNs)
    [checkPortAclDrop h (min runtime.portAclCount 32)] (checkBlacklistDrop h) ?_
    (fun s hs => checkBlacklistDrop_acts h hs) hb
  intro f hf s hs
  rw [List.mem_singleton.1 hf]
  rcases checkPortAclDrop_cases h (min runtime.portAclCount 32) s with hdrop | hnone
  · exact .inl hdrop
  · exact .inr ⟨s, hnone, hs⟩

/-- A blacklisted source that is not whitelisted is stopped exactly when the parser can read the
port fields: a frame cut off inside its TCP or UDP header is let through before any check. -/
theorem tryEshield_ne_pass_iff (h : Helpers) (nowNs : UInt64) (ctx : XdpContext) (m : Maps)
    (hc : HeaderComplete ctx) (hb : Blacklisted m.blacklist (frameSource ctx) nowNs)
    (hw : ¬ WhitelistCovers m (frameSource ctx)) :
    (tryEshield h nowNs ctx m).1 ≠ .pass ↔ PortsReadable ctx := by
  rw [← parse_isSome_iff hc]
  unfold tryEshield
  cases hparse : parse ctx with
  | none => simp
  | some pc =>
    have hsrc := parse_src hparse
    have hwl : isWhitelisted (m.withStats fun st => { st with totalPackets := st.totalPackets + 1 })
        pc.src = false := by
      rw [hsrc, Bool.eq_false_iff]
      exact fun hcov => hw ((isWhitelisted_iff m _).1 hcov)
    simp only [hwl, Option.isSome_some, iff_true]
    obtain ⟨a, s', hrun, hne⟩ := stages_stop h m.config
      (s :=
        { pc :=
            { pc with
              nowNs := nowNs
              tcpResetOnDrop := m.config.tcpResetOnDrop
              trustAddDivisor := max m.config.trustAddDivisor 1
              trustSubDivisor := max m.config.trustSubDivisor 1 }
          maps := m.withStats fun st => { st with totalPackets := st.totalPackets + 1 }
          ctx := ctx })
      (by rw [hsrc]; exact hb)
    simp only [Maps.withStats] at hrun ⊢
    rw [hrun]
    exact hne

/-- A TCP frame from 10.0.0.1 to 10.0.0.2 with `payload` behind its IP header. -/
def tcpFrame (payload : List UInt8) : XdpContext :=
  .ofBytes ([2, 0, 0, 0, 0, 2, 2, 0, 0, 0, 0, 1, 0x08, 0x00] ++
    [0x45, 0, 0, 0, 0, 0, 0, 0, 64, 6, 0, 0, 10, 0, 0, 1, 10, 0, 0, 2] ++ payload)

/-- A UDP frame from 10.0.0.1 to 10.0.0.2. -/
def udpFrame : XdpContext :=
  .ofBytes ([2, 0, 0, 0, 0, 2, 2, 0, 0, 0, 0, 1, 0x08, 0x00] ++
    [0x45, 0, 0, 28, 0, 0, 0, 0, 64, 17, 0, 0, 10, 0, 0, 1, 10, 0, 0, 2] ++
    [0x30, 0x39, 0x00, 0x35, 0, 8, 0, 0])

/-- Maps in which 10.0.0.1 is blocked for ever. -/
def blockedMaps : Maps :=
  { blacklist :=
      mergeInto .empty (.fromIpv4 0x0a000001#32) 1 BLOCK_PERMANENT rules.BLACKLIST.toUInt8 true }

/-- A frame with a whole TCP header from a blocked source is stopped. -/
theorem tryEshield_stops_whole_header :
    (tryEshield {} 5 (tcpFrame (List.replicate 20 0)) blockedMaps).1 ≠ .pass :=
  (tryEshield_ne_pass_iff {} 5 (tcpFrame (List.replicate 20 0)) blockedMaps (by decide)
    (by decide) (by decide)).2 (by decide)

/-- The first eight bytes of a TCP header, as a tiny first fragment carries them, get through. -/
theorem tryEshield_passes_cut_header :
    HeaderComplete (tcpFrame [0x04, 0xd2, 0x00, 0x50, 0, 0, 0, 1]) ∧
      Blacklisted blockedMaps.blacklist
        (frameSource (tcpFrame [0x04, 0xd2, 0x00, 0x50, 0, 0, 0, 1])) 5 ∧
      ¬ WhitelistCovers blockedMaps (frameSource (tcpFrame [0x04, 0xd2, 0x00, 0x50, 0, 0, 0, 1])) ∧
      (tryEshield {} 5 (tcpFrame [0x04, 0xd2, 0x00, 0x50, 0, 0, 0, 1]) blockedMaps).1 = .pass :=
  by
  decide

end EShield.Ebpf
