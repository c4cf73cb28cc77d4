import EShield.Ebpf.Proofs.SampleProofs

/-!
# Which packets are sampled as they came

The sample is taken behind the stage that acts. Between that stage and the frame that came lie at most
the reset of `drop_packet` or the challenge of the SYN proxy.
-/

namespace EShield.Ebpf

open XdpContext

variable {h : Helpers} {nowNs : UInt64} {ctx : XdpContext} {m : Maps} {pc : PacketCtx}
  {runtime : RuntimeConfig} {s t t' u u' v : PacketState} {sample : PacketSample} {a a' : XdpAction}
  {i j l4 : Nat} {own : Prop} {list : List (PacketState → Option XdpAction × PacketState)}

/-! ## The stage that acts -/

/-- The stage `i` acts on the packet that the stages before it have let go on. -/
structure ActsAt (h : Helpers) (list : List (PacketState → Option XdpAction × PacketState))
    (s : PacketState) (i : Nat) (t : PacketState) (a : XdpAction) (u : PacketState) : Prop where
  before : runStages h (list.take i) s = (none, t)
  acts : ∃ f, list[i]? = some f ∧ f t = (some a, u)

/-- A run that ends with a verdict ends with the sample of what a stage leaves. -/
theorem actsAt_of_runStages (hrun : runStages h list s = (some a, v)) :
    ∃ i t u, ActsAt h list s i t a u ∧ v = logPacketSample h a u := by
  induction list generalizing s with
  | nil => cases hrun
  | cons f list ih =>
    rw [runStages] at hrun
    rcases hf : f s with ⟨_ | b, t⟩
    · rw [hf] at hrun
      obtain ⟨i, w, u, ⟨hbefore, hacts⟩, hv⟩ := ih hrun
      refine ⟨i + 1, w, u, ⟨?_, hacts⟩, hv⟩
      rw [List.take_succ_cons, runStages, hf]
      exact hbefore
    · rw [hf] at hrun
      cases hrun
      exact ⟨0, s, t, ⟨rfl, f, rfl, hf⟩, rfl⟩

/-- No stage behind the one that acts gets the packet. -/
theorem ActsAt.stops (hacts : ActsAt h list s i t a u) (hlt : i < j) :
    (runStages h (list.take j) s).1 = some a := by
  obtain ⟨hbefore, f, hf, hact⟩ := hacts
  obtain ⟨k, rfl⟩ := Nat.exists_eq_add_of_lt hlt
  obtain ⟨hi, rfl⟩ := List.getElem?_eq_some_iff.1 hf
  rw [Nat.add_assoc, List.take_add, runStages_append, hbefore, List.drop_eq_getElem_cons hi]
  dsimp only
  rw [List.take_succ_cons, runStages, hact]

theorem ActsAt.unique (hacts : ActsAt h list s i t a u) (hacts' : ActsAt h list s j t' a' u') :
    i = j ∧ t = t' ∧ a = a' := by
  rcases lt_trichotomy i j with hlt | rfl | hlt
  · have hstop := hacts.stops hlt
    rw [hacts'.before] at hstop
    cases hstop
  · obtain ⟨hbefore, f, hf, hact⟩ := hacts
    obtain ⟨hbefore', f', hf', hact'⟩ := hacts'
    cases hbefore.symm.trans hbefore'
    cases hf.symm.trans hf'
    cases hact.symm.trans hact'
    exact ⟨rfl, rfl, rfl⟩
  · have hstop := hacts'.stops hlt
    rw [hacts.before] at hstop
    cases hstop

theorem Outcome.same_of_goesOn (hout : Outcome h own s (none, t)) : SamePacket s t := by
  cases hout
  assumption

/-- A packet that goes on is the one that came. -/
theorem samePacket_of_runStages
    (hlist : ∀ f ∈ list, ∀ s t, f s = (none, t) → SamePacket s t)
    (hrun : runStages h list s = (none, t)) : SamePacket s t := by
  induction list generalizing s with
  | nil =>
    cases hrun
    exact .refl _
  | cons f list ih =>
    rw [runStages] at hrun
    rcases hf : f s with ⟨_ | b, u⟩
    · rw [hf] at hrun
      have hsu : SamePacket s u := hlist f List.mem_cons_self s u hf
      exact hsu.trans (ih (fun g hg => hlist g (List.mem_cons_of_mem f hg)) hrun)
    · rw [hf] at hrun
      cases hrun

theorem same_of_stage {f : PacketState → Option XdpAction × PacketState}
    (hf : f ∈ stages h runtime) (hgo : f s = (none, t)) : SamePacket s t := by
  obtain ⟨i, hi⟩ := List.mem_iff_getElem?.1 hf
  have hout := outcome_stage hi s
  rw [hgo] at hout
  exact hout.same_of_goesOn

/-- The packet on which a stage acts is the one that came. -/
theorem ActsAt.same (hacts : ActsAt h (stages h runtime) s i t a u) : SamePacket s t :=
  samePacket_of_runStages (fun _ hf _ _ hgo => same_of_stage (List.mem_of_mem_take hf) hgo)
    hacts.before

theorem ActsAt.outcome (hacts : ActsAt h (stages h runtime) s i t a u) :
    Outcome h (i = 6 ∧ ToSynProxy runtime.synProxyEnabled t) t (some a, u) := by
  obtain ⟨f, hf, hact⟩ := hacts.acts
  rw [← hact]
  exact outcome_stage hf t

/-- The packet is refused by a stage other than the SYN proxy. -/
theorem ActsAt.leftToDropPacket_iff (hacts : ActsAt h (stages h runtime) s i t a u) :
    LeftToDropPacket h runtime s ↔ a ≠ .pass ∧ ¬ (i = 6 ∧ ToSynProxy runtime.synProxyEnabled t) := by
  constructor
  · rintro ⟨j, f, t', hf, hbefore, ⟨a', hact, hrefused⟩, hown⟩
    obtain ⟨rfl, rfl, rfl⟩ := hacts.unique ⟨hbefore, f, hf, Prod.ext hact rfl⟩
    exact ⟨hrefused, hown⟩
  · rintro ⟨hrefused, hown⟩
    obtain ⟨f, hf, hact⟩ := hacts.acts
    exact ⟨i, f, t, hf, hacts.before, ⟨a, by rw [hact], hrefused⟩, hown⟩

/-! ## What the sample is taken of -/

/-- `drop_packet` writes into the frame for a TCP packet behind 20 bytes, if drops are answered. -/
theorem dropPacket_ctx (h : Helpers) (s : PacketState) :
    (dropPacket h s).2.ctx =
      if s.pc.tcpResetOnDrop ≠ 0 ∧ s.pc.protocol = IPPROTO_TCP ∧ s.pc.ipHdrLen = IP_HDR_LEN then
        (buildRst h s.ctx).2
      else s.ctx := by
  obtain ⟨m, hdrop, -⟩ := dropPacket_split h s
  rw [hdrop]
  by_cases hdue : s.pc.tcpResetOnDrop ≠ 0 ∧ s.pc.protocol = IPPROTO_TCP
  · rw [if_pos hdue]
    dsimp only
    by_cases hihl : s.pc.ipHdrLen = IP_HDR_LEN
    · rw [if_pos ⟨hdue.1, hdue.2, hihl⟩, replyTcpRst, if_pos hihl]
      split
      · rename_i heq
        rw [heq]
      · rename_i heq
        rw [heq]
    · rw [if_neg fun hall => hihl hall.2.2, replyTcpRst, if_neg hihl]
  · rw [if_neg hdue, if_neg fun hall => hdue ⟨hall.1, hall.2.1⟩]

theorem SamePacket.sampled (hsame : SamePacket (enter nowNs ctx m pc) t) : SampledPacket pc t where
  src := by
    rw [hsame.pc]
    rfl
  protocol := by
    rw [hsame.pc]
    rfl
  ipHdrLen := by
    rw [hsame.pc]
    rfl
  ports := by
    rw [hsame.pc]
    rfl

/-- What a stage leaves of the packet has no sample yet, and is the packet but for its frame. -/
theorem Outcome.sampled (hout : Outcome h own t (some a, u))
    (hsame : SamePacket (enter nowNs ctx m pc) t) :
    SampledPacket pc u ∧ u.maps.packetSamples = m.packetSamples := by
  have hsamples : t.maps.packetSamples = m.packetSamples := hsame.samples
  cases hout with
  | passes _ hu => exact ⟨(hsame.trans hu).sampled, hu.samples.trans hsamples⟩
  | dropped w hw hown =>
    obtain ⟨hsrc, hprotocol, hihl, hports⟩ := (hsame.trans hw).sampled
    rw [← dropPacket_pc h w] at hsrc hprotocol hihl hports
    exact ⟨⟨hsrc, hprotocol, hihl, hports⟩,
      (samples_dropPacket h w).trans (hw.samples.trans hsamples)⟩
  | proxied _ _ hown ha hu =>
    obtain ⟨hsrc, hprotocol, hihl, hports⟩ := (hsame.trans hu).sampled
    exact ⟨⟨hsrc, hprotocol, hihl, hports⟩, hu.samples.trans hsamples⟩

/-- The only sample of a run is that of the packet on which a stage has acted. -/
theorem sampleOf_of_tryEshield (hparse : parse ctx = some pc)
    (hemit : (tryEshield h nowNs ctx m).2.2.packetSamples = m.packetSamples ++ [sample]) :
    ∃ i t a u l4, ActsAt h (stages h m.config) (enter nowNs ctx m pc) i t a u ∧
      SampleOf u l4 sample := by
  have hnone : m.packetSamples ≠ m.packetSamples ++ [sample] := by simp
  rw [tryEshield_of_parse hparse] at hemit
  split at hemit
  · dsimp only at hemit
    rw [samples_countPassed] at hemit
    exact absurd hemit hnone
  rcases hrun : runStages h (stages h m.config) (enter nowNs ctx m pc) with ⟨_ | a, v⟩
  · rw [hrun, leave, samples_countPassed] at hemit
    have hsame : SamePacket (enter nowNs ctx m pc) v :=
      samePacket_of_runStages (fun _ hf _ _ hgo => same_of_stage hf hgo) hrun
    exact absurd (hsame.samples.symm.trans hemit) hnone
  · rw [hrun, leave] at hemit
    obtain ⟨i, t, u, hacts, rfl⟩ := actsAt_of_runStages hrun
    obtain ⟨-, hsamples⟩ := hacts.outcome.sampled hacts.same
    rcases logPacketSample_cases h a u with hkept | ⟨l4, sample', hsample, htaken⟩
    · rw [hkept, hsamples] at hemit
      exact absurd hemit hnone
    · rw [htaken, hsamples] at hemit
      cases List.append_cancel_left hemit
      exact ⟨i, t, a, u, l4, hacts, hsample⟩

/-! ## Frames that go back -/

/-- A packet of TCP behind 20 bytes is sampled if its frame holds the header, with the data offset that
the frame has then. -/
theorem l4HdrLen_tcp (hprotocol : u.pc.protocol = IPPROTO_TCP) (hihl : u.pc.ipHdrLen = 20)
    (hl4 : l4HdrLen u = some l4) : 54 ≤ u.ctx.len ∧ l4 = TcpHdr.hdrLen u.ctx 34 := by
  rw [l4HdrLen, if_pos hprotocol, hihl] at hl4
  obtain ⟨tcp, htcp, rfl⟩ := Option.map_eq_some_iff.1 hl4
  obtain ⟨hlen, rfl⟩ := ptrAt_eq_some_iff.1 htcp
  exact ⟨hlen, rfl⟩

theorem destination_inj {x y : UInt32} :
    (toNeBytes x).setWidth 128 = (toNeBytes y).setWidth 128 ↔ x = y := by
  constructor
  · intro heq
    have hbytes : toNeBytes x = toNeBytes y := by
      have hcut := congrArg (BitVec.setWidth 32) heq
      rwa [BitVec.setWidth_setWidth_of_le _ (by decide), BitVec.setWidth_setWidth_of_le _ (by decide),
        BitVec.setWidth_eq, BitVec.setWidth_eq] at hcut
    rw [← bswap32_bswap32 x, ← bswap32_bswap32 y]
    exact congrArg bswap32 (UInt32.toBitVec_inj.1 hbytes)
  · rintro rfl
    rfl

/-- The destination of a frame that goes back to its source is that of the frame that came if a source
sends to itself. -/
theorem sampleDstIp_back (hparse : parse ctx = some pc) (hu : SampledPacket pc u)
    (hihl : pc.ipHdrLen = IP_HDR_LEN) (hprotocol : pc.protocol = IPPROTO_TCP)
    (hlen : 54 ≤ u.ctx.len)
    (hback : IpHdr.daddr u.ctx ETH_HDR_LEN = IpHdr.saddr ctx ETH_HDR_LEN) :
    sampleDstIp u = frameDestination ctx ↔
      IpHdr.daddr ctx ETH_HDR_LEN = IpHdr.saddr ctx ETH_HDR_LEN := by
  obtain ⟨htype, -⟩ := fits_of_parse hparse hihl hprotocol
  rcases frame_cases hparse with ⟨-, hfamily, -⟩ | ⟨hother, -⟩
  · rw [frameDestination, if_pos htype,
      sampleDstIp_ipv4 (by rw [hu.src, hfamily]) (le_trans (by decide) hlen), hback,
      destination_inj]
    exact eq_comm
  · exact absurd htype hother

/-- The sample of a reset. -/
theorem describes_reset_iff (hparse : parse ctx = some pc) (hu : SampledPacket pc u)
    (hihl : pc.ipHdrLen = IP_HDR_LEN) (hprotocol : pc.protocol = IPPROTO_TCP)
    (hfits : ResetFits h ctx) (hctx : u.ctx = (buildRst h ctx).2) (hsample : SampleOf u l4 sample) :
    Describes ctx sample ↔
      ctx.len = 54 ∧ IpHdr.daddr ctx ETH_HDR_LEN = IpHdr.saddr ctx ETH_HDR_LEN := by
  obtain ⟨htype, -, hproto, -⟩ := fits_of_parse hparse hihl hprotocol
  have hroom : ETH_HDR_LEN + IP_HDR_LEN ≤ ctx.len := by
    rcases frame_cases hparse with ⟨-, -, hlen⟩ | ⟨hother, -⟩
    · exact hlen
    · exact absurd htype hother
  obtain ⟨hlen, hback, hhdr⟩ := buildRst_frame hfits hroom hproto
  rw [← hctx] at hlen hback hhdr
  obtain ⟨-, hl4⟩ :=
    l4HdrLen_tcp (hu.protocol.trans hprotocol) (hu.ipHdrLen.trans hihl) hsample.skipped
  rw [hhdr] at hl4
  rw [describes_iff hparse hu hsample, sampleDstIp_back hparse hu hihl hprotocol hlen.ge hback, hihl,
    hl4, hlen]
  simp only [ETH_HDR_LEN, IP_HDR_LEN]
  constructor
  · rintro ⟨hself, hpacketLen, -⟩
    exact ⟨hpacketLen.symm, hself⟩
  · rintro ⟨hpacketLen, hself⟩
    exact ⟨hself, hpacketLen.symm, fun hfull => absurd hfull (by decide)⟩

/-- A challenge that changes nothing of what is sampled: the source sends to itself, the header stays as
long as it is, and the bytes behind the first four of the new one are those of the payload. -/
structure ChallengeRepeats (h : Helpers) (ctx : XdpContext) (t : PacketState) : Prop where
  self : IpHdr.daddr ctx ETH_HDR_LEN = IpHdr.saddr ctx ETH_HDR_LEN
  len : ctx.len < 2 ^ 16
  shrink : synackShrink (TcpHdr.hdrLen ctx 34) = 0
  payload : 102 ≤ ctx.len → frameL7 ctx + 64 ≤ ctx.len ∧
    ∀ j < 64, (proxyFrame h t).mem (38 + j) = ctx.mem (frameL7 ctx + j)

/-- The sample of a challenge. -/
theorem describes_challenge_iff (hparse : parse ctx = some pc) (hu : SampledPacket pc u)
    (htctx : t.ctx = ctx) (hprotocol : pc.protocol = IPPROTO_TCP) (hihl : pc.ipHdrLen = IP_HDR_LEN)
    (hwritten : ChallengeWritten h t) (hctx : u.ctx = proxyFrame h t)
    (hsample : SampleOf u l4 sample) :
    Describes ctx sample ↔ ChallengeRepeats h ctx t := by
  obtain ⟨-, hlen, hback, hhdr⟩ := (proxyFrame_cases h t).1 hwritten
  have hroom := hwritten.fits.2
  rw [htctx] at hlen hback hroom
  obtain ⟨hfull, hl4⟩ :=
    l4HdrLen_tcp (hu.protocol.trans hprotocol) (hu.ipHdrLen.trans hihl) hsample.skipped
  rw [hctx] at hfull
  rw [hctx, hhdr] at hl4
  have hself := sampleDstIp_back hparse hu hihl hprotocol (hctx ▸ hfull) (hctx ▸ hback)
  rw [describes_iff hparse hu hsample, hself, hihl, hl4, hctx, hlen]
  simp only [ETH_HDR_LEN, IP_HDR_LEN]
  constructor
  · rintro ⟨hself, hpacketLen, hpayload⟩
    have hle := Nat.mod_le (ctx.len - synackShrink (TcpHdr.hdrLen ctx 34)) (2 ^ 16)
    have hlt := Nat.mod_lt (ctx.len - synackShrink (TcpHdr.hdrLen ctx 34)) (show 2 ^ 16 > 0 by decide)
    have hshrink : synackShrink (TcpHdr.hdrLen ctx 34) = 0 := by omega
    rw [hshrink] at hpayload
    exact ⟨hself, hpacketLen ▸ hlt, hshrink, hpayload⟩
  · rintro ⟨hself, hpacketLen, hshrink, hpayload⟩
    rw [hshrink]
    exact ⟨hself, Nat.mod_eq_of_lt hpacketLen, hpayload⟩

/-! ## The condition -/

/-- `drop_packet` writes a reset into the frame. -/
def ResetWritten (h : Helpers) (nowNs : UInt64) (ctx : XdpContext) (m : Maps) (pc : PacketCtx) : Prop :=
  LeftToDropPacket h m.config (enter nowNs ctx m pc) ∧ m.config.tcpResetOnDrop ≠ 0 ∧
    pc.protocol = IPPROTO_TCP ∧ pc.ipHdrLen = IP_HDR_LEN ∧ ResetFits h ctx

/-- The packet comes to the SYN proxy, which may write a challenge into the frame. -/
def ComesToProxy (h : Helpers) (nowNs : UInt64) (ctx : XdpContext) (m : Maps) (pc : PacketCtx)
    (t : PacketState) : Prop :=
  runStages h (stagesBeforeTcp h m.config) (enter nowNs ctx m pc) = (none, t) ∧
    ToSynProxy m.config.synProxyEnabled t

/-- When the sample describes the packet: if a reset is written, the frame was as long as one and its
source sends to itself; if a challenge is written, it repeats what was there; else the frame has a
length of 16 bits, and what is skipped of a later fragment is what follows. -/
structure SampleFits (h : Helpers) (nowNs : UInt64) (ctx : XdpContext) (m : Maps) (pc : PacketCtx) :
    Prop where
  reset : ResetWritten h nowNs ctx m pc →
    ctx.len = 54 ∧ IpHdr.daddr ctx ETH_HDR_LEN = IpHdr.saddr ctx ETH_HDR_LEN
  challenge : ∀ t, ComesToProxy h nowNs ctx m pc t → ChallengeWritten h t → ChallengeRepeats h ctx t
  kept : ¬ ResetWritten h nowNs ctx m pc →
    (∀ t, ComesToProxy h nowNs ctx m pc t → ¬ ChallengeWritten h t) →
      ctx.len < 2 ^ 16 ∧ FragmentRepeats ctx (enter nowNs ctx m pc)

/-! ## Runs -/

/-- The frame behind a reset. -/
theorem ActsAt.ctx_of_reset (hacts : ActsAt h (stages h m.config) (enter nowNs ctx m pc) i t a u)
    (hreset : ResetWritten h nowNs ctx m pc) : u.ctx = (buildRst h ctx).2 := by
  obtain ⟨hleft, hdue, hprotocol, hihl, -⟩ := hreset
  obtain ⟨hrefused, hown⟩ := hacts.leftToDropPacket_iff.1 hleft
  have hsame := hacts.same
  have hout := hacts.outcome
  cases hout with
  | passes => exact absurd rfl hrefused
  | dropped w hw =>
    have hsampled := (hsame.trans hw).sampled
    have hdue' : w.pc.tcpResetOnDrop = m.config.tcpResetOnDrop := by
      rw [(hsame.trans hw).pc]
      rfl
    rw [dropPacket_ctx, if_pos ⟨hdue' ▸ hdue, hsampled.protocol.trans hprotocol,
      hsampled.ipHdrLen.trans hihl⟩, (hsame.trans hw).ctx]
    rfl
  | proxied _ _ hto => exact absurd hto hown

/-- A challenge is written by the stage for TCP, which then acts. -/
theorem tcpStage_challenges (hto : ToSynProxy runtime.synProxyEnabled t)
    (hwritten : ChallengeWritten h t) :
    ∃ a u, tcpStage h runtime t = (some a, u) ∧ a ≠ .pass := by
  obtain ⟨hprotocol, hflags, hfrag, hon⟩ := hto
  have hlen := hwritten.fits.2
  have hip : t.ctx.ptrAt IP_HDR_LEN ETH_HDR_LEN = some ETH_HDR_LEN :=
    ptrAt_of_le (by simp only [ETH_HDR_LEN, IP_HDR_LEN]; omega)
  have htcp : t.ctx.ptrAt TCP_HDR_LEN (ETH_HDR_LEN + t.pc.ipHdrLen) =
      some (ETH_HDR_LEN + t.pc.ipHdrLen) :=
    ptrAt_of_le (by simp only [hwritten.ipHdrLen, ETH_HDR_LEN, TCP_HDR_LEN]; omega)
  have hacted := ((proxyFrame_cases h t).1 hwritten).1
  have hcases := handleSyn_cases h t.ctx t.maps t.ref ETH_HDR_LEN (ETH_HDR_LEN + t.pc.ipHdrLen)
  rw [tcpStage, if_pos hprotocol, checkTcpDrop, if_neg (by rw [hfrag]; tauto), if_pos hon,
    synProxy_eq h t hip htcp]
  obtain ⟨t₁, ht₁⟩ : ∃ t₁, (if TcpHdr.isSyn t.ctx (ETH_HDR_LEN + t.pc.ipHdrLen) then
      { t with pc := { t.pc with rateCounted := true } } else t) = t₁ := ⟨_, rfl⟩
  have hctx : t₁.ctx = t.ctx := by rw [← ht₁]; split <;> rfl
  have hmaps : t₁.maps = t.maps := by rw [← ht₁]; split <;> rfl
  have href : t₁.ref = t.ref := by rw [← ht₁]; split <;> rfl
  rw [ht₁, synProxyOn, hctx, hmaps, href]
  rcases hsyn : handleSyn h t.ctx t.maps t.ref ETH_HDR_LEN (ETH_HDR_LEN + t.pc.ipHdrLen) with
    ⟨_ | action, frame, m⟩
  · exact absurd (by rw [hsyn]) hacted
  · refine ⟨action, _, rfl, ?_⟩
    rintro rfl
    rw [hsyn] at hcases
    rcases hcases with ⟨hnone, -⟩ | hdrop | htx
    · cases hnone
    · cases hdrop
    · cases htx

/-- A packet with a challenge in its frame is that of the SYN proxy. -/
theorem ActsAt.of_challenge (hacts : ActsAt h (stages h m.config) (enter nowNs ctx m pc) i t a u)
    (hcomes : ComesToProxy h nowNs ctx m pc t') (hwritten : ChallengeWritten h t') :
    i = 6 ∧ t = t' ∧ a ≠ .pass := by
  obtain ⟨a', u', hstage, hrefused⟩ := tcpStage_challenges hcomes.2 hwritten
  obtain ⟨hi, ht, ha⟩ := hacts.unique ⟨hcomes.1, _, rfl, hstage⟩
  exact ⟨hi, ht, ha ▸ hrefused⟩

/-- The frame behind a challenge. -/
theorem ActsAt.ctx_of_challenge (hacts : ActsAt h (stages h m.config) (enter nowNs ctx m pc) i t a u)
    (hcomes : ComesToProxy h nowNs ctx m pc t) (hwritten : ChallengeWritten h t) :
    u.ctx = proxyFrame h t := by
  obtain ⟨rfl, -, hrefused⟩ := hacts.of_challenge hcomes hwritten
  have hout := hacts.outcome
  cases hout with
  | passes => exact absurd rfl hrefused
  | dropped _ _ hown => exact absurd ⟨rfl, hcomes.2⟩ hown
  | proxied _ _ _ _ _ hframe => exact hframe

/-- The frame of a packet that is sampled is else the one that came. -/
theorem ActsAt.ctx_of_kept (hacts : ActsAt h (stages h m.config) (enter nowNs ctx m pc) i t a u)
    (hreset : ¬ ResetWritten h nowNs ctx m pc)
    (hchallenge : ∀ t, ComesToProxy h nowNs ctx m pc t → ¬ ChallengeWritten h t)
    (hsample : SampleOf u l4 sample) : u.ctx = ctx := by
  have hsame := hacts.same
  have hout := hacts.outcome
  cases hout with
  | passes _ hu => exact (hsame.trans hu).ctx
  | dropped w hw hown =>
    have hsampled := (hsame.trans hw).sampled
    have hwctx : w.ctx = ctx := (hsame.trans hw).ctx
    rw [dropPacket_ctx, hwctx]
    split
    · rename_i hdue
      refine buildRst_no_frame fun hfits => hreset ?_
      have hdue' : w.pc.tcpResetOnDrop = m.config.tcpResetOnDrop := by
        rw [(hsame.trans hw).pc]
        rfl
      exact ⟨hacts.leftToDropPacket_iff.2 ⟨dropPacket_ne_pass h w, hown⟩, hdue' ▸ hdue.1,
        hsampled.protocol.symm.trans hdue.2.1, hsampled.ipHdrLen.symm.trans hdue.2.2, hfits⟩
    · rfl
  | proxied _ _ hown ha hu hframe =>
    obtain ⟨rfl, hto⟩ := hown
    have hnot : ¬ ChallengeWritten h t := hchallenge t ⟨hacts.before, hto⟩
    rcases (proxyFrame_cases h t).2 hnot with hkept | ⟨hihl, hshort⟩
    · rw [hframe, hkept]
      exact hsame.ctx
    · have hprotocol : u.pc.protocol = IPPROTO_TCP := by
        rw [show u.pc.protocol = t.pc.protocol by rw [hu.pc]]
        exact hto.1
      have hihl' : u.pc.ipHdrLen = 20 := by
        rw [show u.pc.ipHdrLen = t.pc.ipHdrLen by rw [hu.pc]]
        exact hihl
      have hlen := (l4HdrLen_tcp hprotocol hihl' hsample.skipped).1
      rw [hframe] at hlen
      exact absurd hlen (not_le.2 hshort)

/-- A sample describes the packet that came exactly if it fits: behind a reset or a challenge only where
these repeat the packet, else if neither its length nor an L4 header that it does not have is in the
way. -/
theorem sample_describes_iff (hparse : parse ctx = some pc)
    (hemit : (tryEshield h nowNs ctx m).2.2.packetSamples = m.packetSamples ++ [sample]) :
    Describes ctx sample ↔ SampleFits h nowNs ctx m pc := by
  obtain ⟨i, t, a, u, l4, hacts, hsample⟩ := sampleOf_of_tryEshield hparse hemit
  have hsame := hacts.same
  obtain ⟨hu, -⟩ := hacts.outcome.sampled hsame
  by_cases hreset : ResetWritten h nowNs ctx m pc
  · obtain ⟨hleft, -, hprotocol, hihl, hfits⟩ := id hreset
    rw [describes_reset_iff hparse hu hihl hprotocol hfits (hacts.ctx_of_reset hreset) hsample]
    refine ⟨fun hback => ⟨fun _ => hback, fun t' hcomes hwritten => ?_, fun hnot => absurd hreset hnot⟩,
      fun hfits => hfits.reset hreset⟩
    obtain ⟨rfl, rfl, -⟩ := hacts.of_challenge hcomes hwritten
    exact absurd ⟨rfl, hcomes.2⟩ (hacts.leftToDropPacket_iff.1 hleft).2
  by_cases hchallenge : ∀ t, ComesToProxy h nowNs ctx m pc t → ¬ ChallengeWritten h t
  · have hctx := hacts.ctx_of_kept hreset hchallenge hsample
    have hskips : l4HdrLen u = l4HdrLen (enter nowNs ctx m pc) := by
      rw [l4HdrLen, l4HdrLen, hu.protocol, hu.ipHdrLen, hctx]
      rfl
    rw [describes_kept_iff hparse hu hctx hsample, FragmentRepeats, hskips]
    refine ⟨fun hkept => ⟨fun hyes => absurd hyes hreset, fun t' hcomes hwritten => ?_,
      fun _ _ => hkept⟩, fun hfits => hfits.kept hreset hchallenge⟩
    exact absurd hwritten (hchallenge t' hcomes)
  · push Not at hchallenge
    obtain ⟨t', hcomes, hwritten⟩ := hchallenge
    obtain ⟨-, rfl, -⟩ := hacts.of_challenge hcomes hwritten
    have hprotocol : pc.protocol = IPPROTO_TCP := hsame.sampled.protocol.symm.trans hcomes.2.1
    have hihl : pc.ipHdrLen = IP_HDR_LEN := hsame.sampled.ipHdrLen.symm.trans hwritten.ipHdrLen
    rw [describes_challenge_iff hparse hu hsame.ctx hprotocol hihl hwritten
      (hacts.ctx_of_challenge hcomes hwritten) hsample]
    refine ⟨fun hrepeats => ⟨fun hyes => absurd hyes hreset, fun t'' hcomes' hwritten' => ?_,
      fun _ hnone => absurd hwritten (hnone t hcomes)⟩, fun hfits => hfits.challenge t hcomes hwritten⟩
    obtain ⟨-, rfl, -⟩ := hacts.of_challenge hcomes' hwritten'
    exact hrepeats

/-! ## A blocked source -/

/-- The source of `sampleSyn` is blocked for good, every packet is sampled, and drops are answered or
not. -/
def sampledBlocked (tcpResetOnDrop : UInt8) : Maps :=
  { blockedSource with
    config :=
      { tcpResetOnDrop := tcpResetOnDrop, packetLogEnabled := 1, packetLogSampleRate := 1 } }

/-- The sample of `sampleSyn`, dropped, with this destination. -/
def blockedSample (dstIp : BitVec 128) : PacketSample :=
  { timestampNs := 0
    srcIp := 0xc0000201
    dstIp := dstIp
    family := 4
    protocol := 6
    srcPort := 40000
    dstPort := 443
    action := 0
    ruleId := rules.BLACKLIST
    packetLen := 54
    payloadBytes := 0
    payloadSample := List.replicate 64 0 }

theorem sample_describes_blocked :
    Describes sampleSyn (blockedSample 0xc6336402) ↔
      SampleFits {} 0 sampleSyn (sampledBlocked 0) ((parse sampleSyn).get (by decide)) :=
  sample_describes_iff (Option.some_get _).symm (by decide +kernel)

/-- Where the drop is answered, the sample gives the source as the destination. -/
theorem reset_is_sampled :
    (tryEshield {} 0 sampleSyn (sampledBlocked 1)).2.2.packetSamples =
        (sampledBlocked 1).packetSamples ++ [blockedSample 0xc0000201] ∧
      ¬ Describes sampleSyn (blockedSample 0xc0000201) := by
  refine ⟨by decide +kernel, fun hdesc => ?_⟩
  exact absurd hdesc.dstIp (by decide)

end EShield.Ebpf
