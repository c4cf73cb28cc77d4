import EShield.Ebpf.Proofs.IsolationProofs
import EShield.Ebpf.Proofs.ResetReplyProofs

/-!
# Frames that leave the program

A frame is handed on byte for byte, or it goes back to where it came from: what the program sends
itself is addressed to the sender of the frame that it answers, and is no longer than that frame or a
bare reset.
-/

namespace EShield.Ebpf

open XdpContext

variable {h : Helpers} {ctx frame : XdpContext} {m : Maps} {nowNs : UInt64} {s t : PacketState}
  {runtime : RuntimeConfig}

/-- The answer goes to the sender of the frame, on behalf of its receiver. -/
structure SentBack (ctx frame : XdpContext) : Prop where
  len : frame.len ≤ max ctx.len (ETH_HDR_LEN + 40)
  macs : ∀ i < 6, frame.u8 (EthHdr.dst 0 + i) = ctx.u8 (EthHdr.src 0 + i) ∧
    frame.u8 (EthHdr.src 0 + i) = ctx.u8 (EthHdr.dst 0 + i)
  saddr : IpHdr.saddr frame ETH_HDR_LEN = IpHdr.daddr ctx ETH_HDR_LEN
  daddr : IpHdr.daddr frame ETH_HDR_LEN = IpHdr.saddr ctx ETH_HDR_LEN
  /-- The ports are those of the frame, if its TCP header is in it. -/
  ports : ETH_HDR_LEN + 40 ≤ ctx.len →
    TcpHdr.source frame 34 = TcpHdr.dest ctx 34 ∧ TcpHdr.dest frame 34 = TcpHdr.source ctx 34

/-! ## Resets -/

/-- Moving the end of a frame leaves the bytes that were in it. -/
theorem mem_adjustTail {delta : Int} {cut : XdpContext}
    (hcut : bpfXdpAdjustTail h ctx delta = some cut) {i : Nat} (hi : i < ctx.len) :
    cut.mem i = ctx.mem i := by
  unfold bpfXdpAdjustTail at hcut
  dsimp only at hcut
  split at hcut
  · cases hcut
  · cases hcut
    exact if_neg fun hout => absurd hout.1 (by omega)

theorem u16_adjustTail {delta : Int} {cut : XdpContext}
    (hcut : bpfXdpAdjustTail h ctx delta = some cut) {p : Nat} (hp : p + 2 ≤ ctx.len) :
    cut.u16 p = ctx.u16 p := by
  simp only [XdpContext.u16, mem_adjustTail hcut (show p < ctx.len by omega),
    mem_adjustTail hcut (show p + 1 < ctx.len by omega)]

theorem u32_adjustTail {delta : Int} {cut : XdpContext}
    (hcut : bpfXdpAdjustTail h ctx delta = some cut) {p : Nat} (hp : p + 4 ≤ ctx.len) :
    cut.u32 p = ctx.u32 p := by
  simp only [XdpContext.u32, u16_adjustTail hcut (show p + 2 ≤ ctx.len by omega),
    u16_adjustTail hcut (show p + 2 + 2 ≤ ctx.len by omega)]

/-- A reset that is built goes back, also that of a fragment. -/
theorem sentBack_buildRst (hsent : buildRst h ctx = (true, frame))
    (hlen : ETH_HDR_LEN + IP_HDR_LEN ≤ ctx.len) : SentBack ctx frame := by
  simp only [ETH_HDR_LEN, IP_HDR_LEN] at hlen
  obtain ⟨cut, mid, hcut, -, hmid, hframe⟩ := buildRst_cases hsent
  have hcutLen : cut.len = 54 := by
    have hmoved := len_adjustTail hcut
    simp only [ETH_HDR_LEN] at hmoved
    omega
  obtain ⟨⟨-, hsaddr, hdaddr, hsource, hdest, -⟩, -⟩ := fields_rewriteRst cut
  have hmacs := fun i (hi : i < 6) => macs_rewriteRst cut hi
  have hbody : (rewriteRst cut 0 14 34).len = cut.len := rfl
  generalize rewriteRst cut 0 14 34 = body at *
  have hmid' : SameOutside body mid 24 2 := hmid ▸ sameOutside_setU16 _ _ _
  have hframe' : SameOutside mid frame 50 2 := hframe ▸ sameOutside_setU16 _ _ _
  have hflen : frame.len = 54 := by
    rw [hframe, len_setU16, hmid, len_setU16, hbody]
    exact hcutLen
  exact
    { len := by
        simp only [ETH_HDR_LEN]
        omega
      macs := fun i hi => by
        change frame.u8 (0 + i) = ctx.u8 (6 + i) ∧ frame.u8 (6 + i) = ctx.u8 (0 + i)
        rw [hframe'.u8 (by omega), hmid'.u8 (by omega), hframe'.u8 (by omega), hmid'.u8 (by omega),
          (hmacs i hi).1, (hmacs i hi).2]
        exact ⟨mem_adjustTail hcut (by omega), mem_adjustTail hcut (by omega)⟩
      saddr := by
        change frame.u32 26 = ctx.u32 30
        rw [hframe'.u32 (by omega), hmid'.u32 (by omega), hsaddr]
        exact u32_adjustTail hcut (by omega)
      daddr := by
        change frame.u32 30 = ctx.u32 26
        rw [hframe'.u32 (by omega), hmid'.u32 (by omega), hdaddr]
        exact u32_adjustTail hcut (by omega)
      ports := fun hfits => by
        simp only [ETH_HDR_LEN] at hfits
        change frame.u16 34 = ctx.u16 36 ∧ frame.u16 36 = ctx.u16 34
        rw [hframe'.u16 (by omega), hmid'.u16 (by omega), hframe'.u16 (by omega),
          hmid'.u16 (by omega), hsource, hdest]
        exact ⟨u16_adjustTail hcut (by omega), u16_adjustTail hcut (by omega)⟩ }

/-! ## Cookies -/

theorem len_computeChecksums (ctx : XdpContext) (ip tcp ipHdrLen tcpHdrLen : Nat) :
    (computeChecksums ctx ip tcp ipHdrLen tcpHdrLen).2.len = ctx.len := by
  unfold computeChecksums
  split
  · rfl
  · dsimp only
    split <;> rfl

/-- A challenge never grows the frame. -/
theorem len_sendSynack_le (h : Helpers) (ctx : XdpContext) (pc : PacketCtxRef) (tcpHdrLen : Nat)
    (mssIdx : UInt8) (cookie originalSeq : UInt32) :
    (sendSynack h ctx pc tcpHdrLen mssIdx cookie originalSeq).2.len ≤ ctx.len := by
  unfold sendSynack
  dsimp only
  generalize (if tcpHdrLen ≥ 24 then 24 else 20) = newTcpHdrLen
  split
  · exact Nat.le_refl _
  rename_i cut hcut
  have hlen : cut.len ≤ ctx.len := by
    split at hcut
    · have hmoved := len_adjustTail hcut
      omega
    · cases hcut
      exact Nat.le_refl _
  split
  · split
    · split
      · exact hlen
      · rw [len_computeChecksums]
        exact hlen
    · rw [len_computeChecksums]
      exact hlen
  · exact hlen

/-- A challenge that the SYN proxy sends goes back. -/
theorem sentBack_handleSyn {pc : PacketCtxRef}
    (hsent : (handleSyn h ctx m pc ETH_HDR_LEN (ETH_HDR_LEN + pc.ipHdrLen)).1 = some .tx) :
    SentBack ctx (handleSyn h ctx m pc ETH_HDR_LEN (ETH_HDR_LEN + pc.ipHdrLen)).2.1 := by
  have hanswers := handleSyn_answersSyn hsent
  obtain ⟨hihl, m', -, hchallenge, hframe⟩ := handleSyn_tx hsent
  have hlen := len_sendSynack_le h ctx pc
    (TcpHdr.hdrLen ctx (ETH_HDR_LEN + pc.ipHdrLen))
    (challengeMssIdx ctx pc (TcpHdr.hdrLen ctx (ETH_HDR_LEN + pc.ipHdrLen)))
    (challengeCookie ctx m' pc ETH_HDR_LEN (ETH_HDR_LEN + pc.ipHdrLen)
      (TcpHdr.hdrLen ctx (ETH_HDR_LEN + pc.ipHdrLen)))
    (bswap32 (TcpHdr.seq ctx (ETH_HDR_LEN + pc.ipHdrLen)))
  rw [synChallenge_tx hchallenge, ← hframe] at hlen
  refine ⟨le_max_of_le_left hlen, hanswers.macs, hanswers.saddr, hanswers.daddr, fun _ => ?_⟩
  have htcp : ETH_HDR_LEN + pc.ipHdrLen = 34 := by rw [hihl]; rfl
  have hports := And.intro hanswers.source hanswers.dest
  rwa [htcp] at hports ⊢

/-! ## Runs -/

/-- How a frame comes out of a stage, or of a run of them: as it was, unless it is dropped, or sent
back. -/
structure KeepsFrame (ctx : XdpContext) (r : Option XdpAction × PacketState) : Prop where
  kept : r.1 = none ∨ r.1 = some .pass → r.2.ctx = ctx
  sent : r.1 = some .tx → SentBack ctx r.2.ctx

/-- The packet is one that the parser made of its frame. -/
def IsParsed (s : PacketState) : Prop :=
  ∃ pc, parse s.ctx = some pc ∧ s.pc.ipHdrLen = pc.ipHdrLen ∧ s.pc.protocol = pc.protocol

theorem IsParsed.same (hs : IsParsed s) (hsame : SamePacket s t) : IsParsed t := by
  obtain ⟨pc, hparse, hihl, hprotocol⟩ := hs
  have hof := hsame.ofPacket
  exact ⟨pc, by rw [hof.ctx, hparse], hof.ipHdrLen.trans hihl, hof.protocol.trans hprotocol⟩

/-- Only a packet behind 20 bytes of IPv4 is answered with a reset. -/
theorem sentBack_dropPacket (hs : IsParsed s) (htx : (dropPacket h s).1 = .tx) :
    SentBack s.ctx (dropPacket h s).2.ctx := by
  obtain ⟨-, hihl, hbuilt⟩ := buildRst_of_dropPacket htx
  obtain ⟨pc, hparse, hihl', -⟩ := hs
  rcases parse_cases hparse with ⟨-, hlen, -⟩ | ⟨-, -, -, -, hv6, -⟩
  · exact sentBack_buildRst hbuilt hlen
  · rw [← hihl', hihl] at hv6
    exact absurd hv6 (by decide)

theorem stage_keepsFrame {f : PacketState → Option XdpAction × PacketState}
    (hf : f ∈ stages h runtime) (hs : IsParsed s) : KeepsFrame s.ctx (f s) := by
  obtain ⟨i, hi⟩ := List.mem_iff_getElem?.1 hf
  have hout := outcome_stage hi s
  generalize f s = r at hout
  cases hout with
  | goesOn t hsame => exact ⟨fun _ => hsame.ctx, fun htx => by cases htx⟩
  | passes t hsame => exact ⟨fun _ => hsame.ctx, fun htx => by cases htx⟩
  | dropped t hsame hown =>
    refine ⟨?_, fun htx => ?_⟩
    · rintro (hnone | hpass)
      · cases hnone
      · exact absurd (Option.some.inj hpass) (dropPacket_ne_pass h t)
    · have hback := sentBack_dropPacket (hs.same hsame) (Option.some.inj htx)
      rwa [hsame.ctx] at hback
  | proxied a t hown ha hsame hframe hip htcp hsyn =>
    refine ⟨?_, fun htx => ?_⟩
    · rintro (hnone | hpass)
      · cases hnone
      · exact absurd (Option.some.inj hpass) ha
    · cases htx
      rw [hframe]
      exact sentBack_handleSyn hsyn

theorem runStages_keepsFrame {list : List (PacketState → Option XdpAction × PacketState)}
    (hsub : ∀ f ∈ list, f ∈ stages h runtime) (hs : IsParsed s) :
    KeepsFrame s.ctx (runStages h list s) := by
  induction list generalizing s with
  | nil => exact ⟨fun _ => rfl, fun htx => by cases htx⟩
  | cons f list ih =>
    have hf := hsub f List.mem_cons_self
    have hstage := stage_keepsFrame hf hs
    rw [runStages]
    rcases hfs : f s with ⟨_ | action, t⟩
    · have hrest := ih (fun g hg => hsub g (List.mem_cons_of_mem f hg))
        (hs.same (stage_samePacket hf hfs))
      rwa [(stage_samePacket hf hfs).ctx] at hrest
    · rw [hfs] at hstage
      refine ⟨fun hpass => ?_, fun htx => ?_⟩
      · rw [ctx_logPacketSample]
        exact hstage.kept hpass
      · rw [ctx_logPacketSample]
        exact hstage.sent htx

/-- A frame that passes leaves as it came; a frame that is sent goes back to the sender of the one that
came, and is no longer than that one or a bare reset. -/
theorem frames_pass_or_go_back (h : Helpers) (nowNs : UInt64) (ctx : XdpContext) (m : Maps) :
    ((tryEshield h nowNs ctx m).1 = .pass → (tryEshield h nowNs ctx m).2.1 = ctx) ∧
      ((tryEshield h nowNs ctx m).1 = .tx → SentBack ctx (tryEshield h nowNs ctx m).2.1) := by
  cases hparse : parse ctx with
  | none =>
    rw [tryEshield, hparse]
    exact ⟨fun _ => rfl, fun htx => by cases htx⟩
  | some pc =>
    rw [tryEshield_of_parse hparse]
    split
    · exact ⟨fun _ => rfl, fun htx => by cases htx⟩
    · have hs : IsParsed (enter nowNs ctx m pc) := ⟨pc, hparse, rfl, rfl⟩
      have hframe : KeepsFrame _ (runStages h (stages h m.config) (enter nowNs ctx m pc)) :=
        runStages_keepsFrame (fun _ hf => hf) hs
      generalize runStages h (stages h m.config) (enter nowNs ctx m pc) = r at hframe
      obtain ⟨action, t⟩ := r
      cases action with
      | none => exact ⟨fun _ => hframe.kept (.inl rfl), fun htx => by cases htx⟩
      | some action =>
        exact ⟨fun hpass => hframe.kept (.inr (congrArg some hpass)),
          fun htx => hframe.sent (congrArg some htx)⟩

end EShield.Ebpf
