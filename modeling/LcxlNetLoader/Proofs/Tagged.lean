import LcxlNetLoader.Proofs.Dispatch

/-!
# Frames with a tag

A tag moves everything from the type on by four bytes. Each handler that is given where the data
begins reads the same there (`processARP_simulates` and so on), so that only the handler that is not
given it can tell the difference.
-/

namespace LcxlNetLoader

open ReadLog

variable {cfg : LcxlSetting} {f : LcxlFilter} {isRecv : Bool} {amb : Ambient}
  {virtualAddr : LcxlAddrInfo} {result : ProcessNblResult}

/-- Where a tag moves a byte to. -/
def pastTag (i : ℕ) : ℕ := if i < 12 then i else i + 4

theorem pastTag_add {off : ℕ} (h : 12 ≤ off) (k : ℕ) : pastTag (off + k) = off + 4 + k := by
  rw [pastTag, if_neg (by omega)]
  omega

theorem read_simulates {off : ℕ} (h : 12 ≤ off) :
    Simulates (β := UInt8) pastTag (read off) (read (off + 4)) :=
  simulates_read (pastTag_add h 0)

theorem readRange_simulates {off : ℕ} (h : 12 ≤ off) (n : ℕ) :
    Simulates (β := UInt8) pastTag (readRange off n) (readRange (off + 4) n) :=
  simulates_readRange fun k _ => pastTag_add h k

theorem readU16_simulates {off : ℕ} (h : 12 ≤ off) :
    Simulates pastTag (readU16 off) (readU16 (off + 4)) := by
  unfold readU16
  refine (read_simulates h).bind fun lo => ?_
  rw [Nat.add_right_comm]
  exact (read_simulates (by omega)).bind fun hi => simulates_pure

theorem lcxlReadARPEthernet_simulates {data : ℕ} (h : 12 ≤ data) (old : LcxlArpEthernet) :
    Simulates pastTag (lcxlReadARPEthernet data old) (lcxlReadARPEthernet (data + 4) old) := by
  have hadd : ∀ a : ℕ, data + 4 + a = data + a + 4 := fun a => Nat.add_right_comm data 4 a
  have hadd' : ∀ a b : ℕ, a + 4 + b = a + b + 4 := fun a b => Nat.add_right_comm a 4 b
  unfold lcxlReadARPEthernet
  simp only [hadd']
  refine (readU16_simulates h).bind fun _ => (readU16_simulates (by omega)).bind fun _ =>
    (readU16_simulates (by omega)).bind fun _ => (read_simulates (by omega)).bind fun h =>
    (read_simulates (by omega)).bind fun p => ?_
  refine (readRange_simulates (by omega) _).bind fun _ =>
    (readRange_simulates (by omega) _).bind fun _ =>
    (readRange_simulates (by omega) _).bind fun _ =>
    (readRange_simulates (by omega) _).bind fun _ => simulates_pure

theorem processARP_simulates {data : ℕ} (h : 12 ≤ data) :
    Simulates pastTag (processARP f data virtualAddr amb result)
      (processARP f (data + 4) virtualAddr amb result) := by
  unfold processARP
  refine (lcxlReadARPEthernet_simulates h _).bind fun arp => ?_
  split_ifs <;> exact simulates_pure

theorem processICMPv6_simulates {hdr : ℕ} (h : 12 ≤ hdr) :
    Simulates pastTag (processICMPv6 cfg f isRecv hdr virtualAddr result)
      (processICMPv6 cfg f isRecv (hdr + 4) virtualAddr result) := by
  have hadd : ∀ a : ℕ, hdr + 4 + a = hdr + a + 4 := fun a => Nat.add_right_comm hdr 4 a
  unfold processICMPv6
  simp only [hadd]
  refine Simulates.ite ((readRange_simulates (by omega) _).bind fun _ =>
    Simulates.ite ?_ simulates_pure) (Simulates.ite ?_ simulates_pure)
  all_goals
    refine (read_simulates (by omega)).bind fun type =>
      (readRange_simulates (by omega) _).bind fun source =>
      (readRange_simulates (by omega) _).bind fun destination => ?_
    split_ifs <;> exact simulates_pure

theorem processUDP_simulates {hdr : ℕ} (m : IpMode) (h : 12 ≤ hdr) :
    Simulates pastTag (processUDP f isRecv hdr m virtualAddr result)
      (processUDP f isRecv (hdr + 4) m virtualAddr result) := by
  have hadd : ∀ a b : ℕ, a + 4 + b = a + b + 4 := fun a b => Nat.add_right_comm a 4 b
  unfold processUDP
  simp only [hadd]
  refine Simulates.ite ((readRange_simulates (by omega) _).bind fun _ => ?_) simulates_pure
  split_ifs <;> exact simulates_pure

theorem checkTCPNBLMacAddr_simulates {macAddr : IfPhysicalAddress} :
    Simulates pastTag (checkTCPNBLMacAddr macAddr isRecv) (checkTCPNBLMacAddr macAddr isRecv) := by
  unfold checkTCPNBLMacAddr
  refine (simulates_readRange fun k hk => ?_).bind fun address => simulates_pure
  rw [pastTag, if_pos (by split_ifs <;> omega)]

theorem ipHeaderLength_simulates {hdr : ℕ} (m : IpMode) (h : 12 ≤ hdr) :
    Simulates pastTag (ipHeaderLength m hdr) (ipHeaderLength m (hdr + 4)) := by
  cases m with
  | ipv4 => exact (read_simulates h).bind fun b => simulates_pure
  | ipv6 => exact simulates_pure

theorem readTcpPacket_simulates {hdr : ℕ} (m : IpMode) (h : 12 ≤ hdr) :
    Simulates pastTag (readTcpPacket m hdr) (readTcpPacket m (hdr + 4)) := by
  have hadd : ∀ a b : ℕ, a + 4 + b = a + b + 4 := fun a b => Nat.add_right_comm a 4 b
  unfold readTcpPacket
  simp only [hadd]
  refine (ipHeaderLength_simulates m h).bind fun len => ?_
  exact (readRange_simulates (by omega) _).bind fun _ =>
    (readRange_simulates (by omega) _).bind fun _ => (readU16_simulates (by omega)).bind fun _ =>
    (readU16_simulates (by omega)).bind fun _ => (read_simulates (by omega)).bind fun _ =>
    simulates_pure

theorem processTCP_simulates {hdr : ℕ} (m : IpMode) (h : 12 ≤ hdr) :
    Simulates pastTag (processTCP cfg f isRecv hdr m virtualAddr amb result)
      (processTCP cfg f isRecv (hdr + 4) m virtualAddr amb result) := by
  have hadd : ∀ a b : ℕ, a + 4 + b = a + b + 4 := fun a b => Nat.add_right_comm a 4 b
  unfold processTCP
  simp only [hadd]
  refine Simulates.ite (Simulates.ite ?_ simulates_pure) (Simulates.ite (Simulates.ite
    simulates_pure ?_) simulates_pure)
  · refine (readRange_simulates (by omega) _).bind fun destination =>
      Simulates.ite ?_ simulates_pure
    exact (readTcpPacket_simulates m h).bind fun pkt => simulates_pure
  · refine (readRange_simulates (by omega) _).bind fun address => Simulates.ite ?_ simulates_pure
    exact (readRange_simulates (by omega) _).bind fun destination => simulates_pure

theorem processTCPFrame_simulates {hdr : ℕ} (m : IpMode) (h : 12 ≤ hdr) :
    Simulates pastTag (processTCPFrame cfg f isRecv hdr m virtualAddr amb result)
      (processTCPFrame cfg f isRecv (hdr + 4) m virtualAddr amb result) := by
  unfold processTCPFrame
  exact checkTCPNBLMacAddr_simulates.bind fun ok =>
    Simulates.ite (processTCP_simulates m h) simulates_pure

variable {fr fr' : Frame}

namespace Tagged

theorem byte_pastTag (h : Tagged fr fr') {i : ℕ} (hi : i < fr.dataLength) :
    fr'.byte (pastTag i) = fr.byte i := by
  unfold pastTag
  split_ifs with hi'
  · exact h.macs i hi'
  · exact h.rest i (by omega) hi

/-- What a handler returns of the frame it returns of the tagged one. -/
theorem val_eq {α : Type} {m m' : FrameRead α} (h : Tagged fr fr') (hm : Simulates pastTag m m')
    (hw : m.Within (· < fr.dataLength) fr.byte) : m'.val fr'.byte = m.val fr.byte :=
  hm.val_eq hw fun _ hi => h.byte_pastTag hi

/-- The type is found behind the tag, and the data where it is moved to. -/
theorem getEthernetData_eq (h : Tagged fr fr') (hu : fr.Untagged) :
    (getEthernetData fr'.dataLength).val fr'.byte
      = some (ntohs (u16OfBytes (fr.byte 12) (fr.byte 13)), 14 + 4, fr.dataLength - 14) := by
  have hlen : 14 ≤ fr.dataLength := hu.header
  have htag : (readU16 12).val fr'.byte = u16OfBytes 0x81 0x00 := by
    show u16OfBytes (fr'.byte 12) (fr'.byte 13) = _
    rw [h.tag.1, h.tag.2]
  have htype : (readU16 16).val fr'.byte = u16OfBytes (fr.byte 12) (fr.byte 13) := by
    show u16OfBytes (fr'.byte (12 + 4)) (fr'.byte (13 + 4)) = _
    rw [h.rest 12 (by omega) (by omega), h.rest 13 (by omega) (by omega)]
  have hq : ntohs (u16OfBytes 0x81 0x00) = ethernetType8021q := by decide
  unfold getEthernetData
  simp only [val_ite, val_bind, val_pure, htag, htype, hq, if_true, h.dataLength]
  unfold sizeofEthernetHeader
  rw [if_neg (by omega), if_pos (by omega)]
  refine congrArg some (Prod.ext rfl (Prod.ext rfl ?_))
  show fr.dataLength + 4 - (14 + 4) = fr.dataLength - 14
  omega

theorem byte_data (h : Tagged fr fr') {k : ℕ} (hk : 14 + k < fr.dataLength) :
    fr'.byte (14 + 4 + k) = fr.byte (14 + k) := by
  rw [Nat.add_right_comm]
  exact h.rest _ (by omega) hk

theorem tcp_eq (h : Tagged fr fr') (m : IpMode) (hN : 12 ≤ fr.dataLength)
    (hfit : 14 + (sourceAddress m).1 + 2 * (sourceAddress m).2 ≤ fr.dataLength)
    (hp : fr.byte (14 + protocolOffset m) = 0x06)
    (hroute : LooksUpRoute f isRecv fr m 14 →
      14 + (ipHeaderLength m 14).val fr.byte + tcpFlagsEnd ≤ fr.dataLength) :
    (processTCPFrame cfg f isRecv (14 + 4) m f.module.virtualAddr amb .zero).val fr'.byte
      = (processTCPFrame cfg f isRecv 14 m f.module.virtualAddr amb .zero).val fr.byte :=
  h.val_eq (processTCPFrame_simulates m (by omega)) ((tcpPacket_within m hN hfit).2 hroute hp)

/-- The header is found in the frame, and in the tagged one behind the tag. -/
structure Found (fr fr' : Frame) (ty : UInt16) : Prop where
  header : 14 ≤ fr.dataLength
  untagged : (getEthernetData fr.dataLength).val fr.byte = some (ty, 14, fr.dataLength - 14)
  tagged : (getEthernetData fr'.dataLength).val fr'.byte = some (ty, 14 + 4, fr.dataLength - 14)

theorem found (h : Tagged fr fr') (hu : fr.Untagged) :
    Found fr fr' (ntohs (u16OfBytes (fr.byte 12) (fr.byte 13))) :=
  ⟨hu.header, Frame.getEthernetData_untagged hu, h.getEthernetData_eq hu⟩

theorem processed_arp (h : Tagged fr fr') (hd : Found fr fr' ethernetTypeArp)
    (hfit : HeadersFit cfg f isRecv fr ethernetTypeArp 14 (fr.dataLength - 14)) :
    fr'.processed cfg f isRecv amb = fr.processed cfg f isRecv amb := by
  have hlen := hd.header
  rw [Frame.processed_of_arp hd.untagged, Frame.processed_of_arp hd.tagged]
  by_cases hl : fr.dataLength - 14 ≥ sizeofArpHeader ∧ f.module.virtualAddr.enabled .ipv4
  · have harp := hfit.arp rfl hl.1 hl.2
    rw [if_pos hl, if_pos hl, h.val_eq (processARP_simulates (by omega))
      ((processARP_within 14 _).2 (by omega))]
  · rw [if_neg hl, if_neg hl]

theorem processed_ipv4 (h : Tagged fr fr') (hd : Found fr fr' ethernetTypeIpv4)
    (hfit : HeadersFit cfg f isRecv fr ethernetTypeIpv4 14 (fr.dataLength - 14)) :
    fr'.processed cfg f isRecv amb = fr.processed cfg f isRecv amb := by
  have hlen := hd.header
  rw [Frame.processed_of_ipv4 hd.untagged, Frame.processed_of_ipv4 hd.tagged]
  by_cases hl : fr.dataLength - 14 ≥ sizeofIpv4Header ∧ f.module.virtualAddr.enabled .ipv4
  · have hsize : 20 ≤ fr.dataLength - 14 := hl.1
    rw [if_pos hl, if_pos hl, h.byte_data (by omega)]
    by_cases hp : fr.byte (14 + 9) = 0x06
    · rw [if_pos hp, if_pos hp, h.tcp_eq .ipv4 (by omega) _ hp]
      · intro hr
        have := hfit.ipv4 rfl hl.1 hl.2 hr
        show 14 + (fr.byte 14 &&& 0x0F).toNat * 4 + tcpFlagsEnd ≤ _
        omega
      · show 14 + 12 + 2 * 4 ≤ _
        omega
    · rw [if_neg hp, if_neg hp]
  · rw [if_neg hl, if_neg hl]

theorem processed_ipv6 (h : Tagged fr fr') (hd : Found fr fr' ethernetTypeIpv6)
    (hfit : HeadersFit cfg f isRecv fr ethernetTypeIpv6 14 (fr.dataLength - 14)) :
    fr'.processed cfg f isRecv amb = fr.processed cfg f isRecv amb := by
  have hlen := hd.header
  rw [Frame.processed_of_ipv6 hd.untagged, Frame.processed_of_ipv6 hd.tagged]
  by_cases hl : fr.dataLength - 14 ≥ sizeofIpv6Header ∧ f.module.virtualAddr.enabled .ipv6
  · have hsize : 40 ≤ fr.dataLength - 14 := hl.1
    have hhdr : 14 + sizeofIpv6Header ≤ fr.dataLength := by
      show 14 + 40 ≤ _
      omega
    rw [if_pos hl, if_pos hl, h.byte_data (by omega)]
    by_cases hi : fr.byte (14 + 6) = 0x3A
    · obtain ⟨hserver, hdbg⟩ := hfit.icmpv6 rfl hl.1 hl.2 hi
      rw [if_pos hi, if_pos hi, h.val_eq (processICMPv6_simulates (by omega))
        ((processICMPv6_within hhdr).2 ⟨fun hr => ?_, fun hd => ?_⟩)]
      · have := hserver hr
        omega
      · have := hdbg hd
        omega
    rw [if_neg hi, if_neg hi]
    by_cases hp : fr.byte (14 + 6) = 0x06
    · rw [if_pos hp, if_pos hp, h.tcp_eq .ipv6 (by omega) _ hp]
      · intro hr
        have := hfit.ipv6 rfl hl.1 hl.2 hr
        show 14 + sizeofIpv6Header + tcpFlagsEnd ≤ _
        omega
      · show 14 + 8 + 2 * 16 ≤ _
        omega
    rw [if_neg hp, if_neg hp]
    by_cases hq : fr.byte (14 + 6) = 0x11
    · rw [if_pos hq, if_pos hq, h.val_eq (processUDP_simulates .ipv6 (by omega))
        (processUDP_within hhdr)]
    · rw [if_neg hq, if_neg hq]
  · rw [if_neg hl, if_neg hl]

/-- Whatever is no checking frame has the same effect and the same result, tagged or not. -/
theorem processed_eq (h : Tagged fr fr') (hu : fr.Untagged) (hf : fr.Fits cfg f isRecv)
    (hc : ntohs (u16OfBytes (fr.byte 12) (fr.byte 13)) ≠ ethernetTypeLcxlChecking) :
    fr'.processed cfg f isRecv amb = fr.processed cfg f isRecv amb := by
  have hd := h.found hu
  have hfit := (fits_iff hd.untagged).1 hf
  generalize ntohs (u16OfBytes (fr.byte 12) (fr.byte 13)) = ty at *
  by_cases h2 : ty = ethernetTypeArp
  · subst h2
    exact h.processed_arp hd hfit
  by_cases h3 : ty = ethernetTypeIpv4
  · subst h3
    exact h.processed_ipv4 hd hfit
  by_cases h4 : ty = ethernetTypeIpv6
  · subst h4
    exact h.processed_ipv6 hd hfit
  rw [Frame.processed_of_other hd.untagged hc h2 h3 h4,
    Frame.processed_of_other hd.tagged hc h2 h3 h4]

/-- Where a checking frame has its code, a tagged one has its type. -/
theorem checking_code (h : Tagged fr fr') (hu : fr.Untagged)
    (hc : ntohs (u16OfBytes (fr.byte 12) (fr.byte 13)) = ethernetTypeLcxlChecking) :
    fr'.checking.code ≠ checkingCodeRequest ∧ fr'.checking.code ≠ checkingCodeResponse := by
  have hlen : 14 ≤ fr.dataLength := hu.header
  have hcode : fr'.checking.code = u16OfBytes (fr.byte 12) (fr.byte 13) := by
    show u16OfBytes (fr'.byte (12 + 4)) (fr'.byte (13 + 4)) = _
    rw [h.rest 12 (by omega) (by omega), h.rest 13 (by omega) (by omega)]
  rw [hcode]
  generalize u16OfBytes (fr.byte 12) (fr.byte 13) = code at hc
  constructor <;> rintro rfl <;> exact absurd hc (by decide)

theorem checking_source (h : Tagged fr fr') : fr'.checking.source = fr.checking.source :=
  slice_eq_iff.2 fun i hi => h.macs _ (by omega)

end Tagged

theorem ServerTable.modify_eq_iff {t : ServerTable} {p : ServerPtr}
    {g g' : ServerInfoListEntry → ServerInfoListEntry} :
    t.modify p g = t.modify p g' ↔ g (t.mem p) = g' (t.mem p) := by
  refine ⟨fun h => ?_, fun h => by rw [modify, h, modify]⟩
  have := congrArg (fun t : ServerTable => t.mem p) h
  simpa using this

theorem heard_eq_iff {s : ServerInfoListEntry} {c c' : Checking} (now : ℤ)
    (hp : c.performance.length = 40) (hc : c'.code ≠ checkingCodeResponse) :
    s.heard now c' = s.heard now c ↔
      (c.code = checkingCodeResponse → s.performance.toList = c.performance) := by
  unfold ServerInfoListEntry.heard
  rw [if_neg hc]
  by_cases h : c.code = checkingCodeResponse
  · simp only [h, if_true, ServerInfoListEntry.mk.injEq, true_and, and_true, forall_const]
    have hmove := toList_move s.performance hp
    exact ⟨fun he => (congrArg _ he).trans hmove,
      fun he => List.Vector.eq _ _ (he.trans hmove.symm)⟩
  · simp [h]

/-- Two checking frames from one address, the second no response, are alike to a module when the
first tells it nothing new. -/
theorem hear_serverList_iff {c c' : Checking} (now : ℤ) (hs : c'.source = c.source)
    (hp : c.performance.length = 40) (hc : c'.code ≠ checkingCodeResponse) :
    (f.hear now c').module.serverList = (f.hear now c).module.serverList ↔
      (c.code = checkingCodeResponse → ∀ p, f.sender c = some p →
        (f.module.serverList.mem p).performance.toList = c.performance) := by
  have hsender : f.sender c' = f.sender c := by rw [LcxlFilter.sender, hs, LcxlFilter.sender]
  unfold LcxlFilter.hear
  rw [hsender]
  by_cases hr : f.module.lcxlRole = roleRouter
  · rw [if_pos hr, if_pos hr]
    rcases f.sender c with _ | p
    · exact iff_of_true rfl nofun
    · have hmem : (lockServerList f.module.serverList).mem p = f.module.serverList.mem p := rfl
      show (unlockServerList (lockServerList f.module.serverList)).modify p (·.heard now c')
        = (unlockServerList (lockServerList f.module.serverList)).modify p (·.heard now c) ↔ _
      rw [ServerTable.modify_eq_iff]
      refine (heard_eq_iff now hp hc).trans (imp_congr_right fun _ => ?_)
      simp only [Option.some.injEq, forall_eq']
      rfl
  · have hnone : f.sender c = none := if_neg hr
    rw [if_neg hr, if_neg hr, hnone]
    exact iff_of_true rfl nofun

theorem hear_routeTable (now : ℤ) (c : Checking) : (f.hear now c).routeTable = f.routeTable := by
  unfold LcxlFilter.hear
  split_ifs <;> rfl

/-- A tag makes a difference to a checking frame that says something, and to no other frame. -/
theorem tagged_sameOutcome_iff (cfg : LcxlSetting) (f : LcxlFilter) (isRecv : Bool) (amb : Ambient)
    (fr fr' : Frame) (hu : fr.Untagged) (hf : fr.Fits cfg f isRecv) (h : Tagged fr fr') :
    SameOutcome (fr.processed cfg f isRecv amb) (fr'.processed cfg f isRecv amb) ↔
      TellsNothing f isRecv fr := by
  by_cases hc : ntohs (u16OfBytes (fr.byte 12) (fr.byte 13)) = ethernetTypeLcxlChecking
  · have hd := Frame.getEthernetData_untagged hu
    have hd' := h.getEthernetData_eq hu
    rw [hc] at hd hd'
    rw [Frame.processed_of_checking hd, Frame.processed_of_checking hd']
    unfold TellsNothing
    rw [imp_iff_right hc]
    by_cases hl : fr.dataLength - 14 ≥ sizeofLcxlCheckingHeader
    · rw [if_pos hl, if_pos hl]
      cases isRecv with
      | false => exact iff_of_true ⟨rfl, rfl, rfl⟩ fun hr => absurd hr Bool.false_ne_true
      | true =>
        obtain ⟨hreq, hresp⟩ := h.checking_code hu hc
        have hl' : sizeofLcxlCheckingHeader ≤ fr.dataLength - sizeofEthernetHeader := hl
        rw [imp_iff_right rfl, imp_iff_right hl', processCheckingNBL_recv, processCheckingNBL_recv,
          if_neg hreq, ← hear_serverList_iff amb.now h.checking_source (by simp [Frame.checking,
            Frame.slice]) hresp]
        constructor
        · intro ho
          refine ⟨fun hr => ?_, ho.serverList⟩
          have hcode := ho.code
          rw [if_pos hr] at hcode
          cases hcode
        · rintro ⟨hr, hs⟩
          refine ⟨?_, ?_, hs⟩
          · rw [if_neg hr]
          · rw [hear_routeTable, hear_routeTable]
    · rw [if_neg hl, if_neg hl]
      exact iff_of_true ⟨rfl, rfl, rfl⟩ fun _ hl' => absurd hl' hl
  · rw [h.processed_eq hu hf hc]
    exact iff_of_true ⟨rfl, rfl, rfl⟩ fun _ hc' => absurd hc' hc

section Runs

/-- The frame with a tag of VLAN 5. -/
def Frame.tag (fr : Frame) : Frame where
  byte i := if i < 12 then fr.byte i else if i < 16 then [0x81, 0x00, 0x00, 0x05].getD (i - 12) 0
    else fr.byte (i - 4)
  dataLength := fr.dataLength + 4

theorem Frame.tagged_tag (fr : Frame) : Tagged fr fr.tag where
  dataLength := rfl
  macs i hi := if_pos hi
  tag := ⟨rfl, rfl⟩
  rest i hi _ := by
    show (if i + 4 < 12 then _ else if i + 4 < 16 then _ else fr.byte (i + 4 - 4)) = _
    rw [if_neg (by omega), if_neg (by omega), Nat.add_sub_cancel]

theorem Frame.tcpFrame_untagged : (Sample.tcpFrame thSyn).Untagged :=
  ⟨by decide +kernel, by decide +kernel⟩

theorem tcpFrame_fits :
    (Sample.tcpFrame thSyn).Fits Sample.setting Sample.router true := by
  have hd := Frame.getEthernetData_untagged Frame.tcpFrame_untagged
  have hty : ntohs (u16OfBytes ((Sample.tcpFrame thSyn).byte 12) ((Sample.tcpFrame thSyn).byte 13))
      = ethernetTypeIpv4 := by decide +kernel
  rw [hty] at hd
  exact (fits_iff hd).2 (headersFit_ipv4.2 fun _ _ _ => by decide +kernel)

theorem tagged_sameOutcome_iff_syn :
    SameOutcome ((Sample.tcpFrame thSyn).processed Sample.setting Sample.router true
        (Sample.ambient 0))
      ((Sample.tcpFrame thSyn).tag.processed Sample.setting Sample.router true
        (Sample.ambient 0)) :=
  (tagged_sameOutcome_iff Sample.setting Sample.router true (Sample.ambient 0)
    (Sample.tcpFrame thSyn) (Sample.tcpFrame thSyn).tag Frame.tcpFrame_untagged tcpFrame_fits
    (Frame.tagged_tag _)).2
    fun _ h => absurd h (by decide +kernel)

/-- A request from the server, of 64 bytes. -/
def sampleRequest : Frame := createCheckingNBL Sample.serverMac.mac anycastMacAddr
  checkingCodeRequest (.zero 40)

/-- A request with a tag is taken for none. -/
theorem not_sameOutcome_of_request :
    Tagged sampleRequest sampleRequest.tag ∧ sampleRequest.Untagged ∧
      sizeofEthernetLcxlChecking ≤ sampleRequest.dataLength ∧
      (sampleRequest.processed Sample.setting Sample.router true (Sample.ambient 0)).2.code
        = .checkingNbl ∧
      (sampleRequest.tag.processed Sample.setting Sample.router true (Sample.ambient 0)).2.code
        = .pass :=
  ⟨Frame.tagged_tag _, ⟨by decide +kernel, by decide +kernel⟩, by decide +kernel, by decide +kernel,
    by decide +kernel⟩

end Runs

end LcxlNetLoader
