import LcxlNetLoader.Bounds
import LcxlNetLoader.Proofs.Receive

/-!
# What is read of a frame

For each handler exactly when it stays inside the frame, its header having been checked to lie
there, and from these when `ProcessNBL` does.
-/

namespace LcxlNetLoader

open ReadLog

variable {cfg : LcxlSetting} {f : LcxlFilter} {fr : Frame} {amb : Ambient} {isRecv : Bool}
  {mem : ℕ → UInt8} {N : ℕ} {result : ProcessNblResult}

theorem getEthernetData_within : (getEthernetData N).Within (· < N) mem := by
  unfold getEthernetData
  simp only [within_ite, within_bind, within_pure, within_readU16, implies_true, and_true]
  unfold sizeofEthernetHeader
  exact ⟨trivial, fun h => ⟨by omega, fun _ _ => by omega⟩⟩

/-- The data begins after the header, tagged or not, and runs to the frame's end. -/
theorem getEthernetData_eq_some {ty : UInt16} {data len : ℕ}
    (h : (getEthernetData N).val mem = some (ty, data, len)) :
    (data = 14 ∨ data = 18) ∧ data + len = N := by
  unfold getEthernetData at h
  simp only [val_ite, val_bind, val_pure] at h
  unfold sizeofEthernetHeader at h
  split_ifs at h
  all_goals
    simp only [Option.some.injEq, Prod.mk.injEq] at h
    omega

theorem checkTCPNBLMacAddr_within {macAddr : IfPhysicalAddress} (h : 12 ≤ N) :
    (checkTCPNBLMacAddr macAddr isRecv).Within (· < N) mem := by
  unfold checkTCPNBLMacAddr
  simp only [within_bind, within_pure, within_readRange, and_true]
  split_ifs <;> omega

theorem checkTCPNBLMacAddr_recv {macAddr : IfPhysicalAddress} :
    (checkTCPNBLMacAddr macAddr true).val fr.byte
      ↔ fr.slice 0 6 = macAddr.mac ∨ fr.slice 0 6 = anycastMacAddr := by
  unfold checkTCPNBLMacAddr
  simp [range_eq_slice]

theorem lcxlReadARPEthernet_within (a : ℕ) (old : LcxlArpEthernet) :
    (lcxlReadARPEthernet a old).Within (· < N) mem
      ↔ a + arpExtent (mem (a + 4)).toNat (mem (a + 5)).toNat ≤ N := by
  unfold lcxlReadARPEthernet arpExtent
  simp only [within_bind, within_pure, within_read, within_readRange, within_readU16, val_read,
    and_true]
  unfold sizeofArpHeader
  generalize (mem (a + 4)).toNat = h
  generalize (mem (a + 5)).toNat = p
  split_ifs with hp <;> omega

theorem processARP_within (a : ℕ) (virtualAddr : LcxlAddrInfo) :
    (processARP f a virtualAddr amb result).Within (· < N) mem
      ↔ a + arpExtent (mem (a + 4)).toNat (mem (a + 5)).toNat ≤ N := by
  unfold processARP
  rw [within_bind, lcxlReadARPEthernet_within, and_iff_left]
  split_ifs <;> exact within_pure.2 trivial

theorem processICMPv6_within {hdr : ℕ} {virtualAddr : LcxlAddrInfo}
    (h : hdr + sizeofIpv6Header ≤ N) :
    (processICMPv6 cfg f isRecv hdr virtualAddr result).Within (· < N) mem
      ↔ (f.module.lcxlRole = roleServer → hdr + (sizeofIpv6Header + 1) ≤ N)
        ∧ (cfg.dbg → hdr + (sizeofIpv6Header + 4) ≤ N) := by
  unfold sizeofIpv6Header at h ⊢
  simp only [processICMPv6, within_bind, within_ite, within_read, within_readRange, within_pure,
    implies_true, and_true]
  unfold sizeofIpv6Header
  constructor
  · rintro ⟨h1, h2⟩
    refine ⟨fun hr => ?_, fun hd => ?_⟩
    · by_cases hd : cfg.dbg
      · have := ((h1 hd).2 hr).1
        omega
      · have := (h2 hd hr).1
        omega
    · have := (h1 hd).1
      omega
  · rintro ⟨h1, h2⟩
    refine ⟨fun hd => ⟨?_, fun hr => ?_⟩, fun _ hr => ?_⟩
    · have := h2 hd
      omega
    · have := h1 hr
      omega
    · have := h1 hr
      omega

theorem processUDP_within {hdr : ℕ} {virtualAddr : LcxlAddrInfo}
    (h : hdr + sizeofIpv6Header ≤ N) :
    (processUDP f isRecv hdr .ipv6 virtualAddr result).Within (· < N) mem := by
  unfold sizeofIpv6Header at h
  unfold processUDP sourceAddress
  simp only [within_bind, within_ite, within_readRange, within_pure, implies_true, and_true]
  exact fun _ => by split_ifs <;> omega

theorem readTcpPacket_within {hdr : ℕ} (m : IpMode) (h : hdr + (sourceAddress m).1
    + 2 * (sourceAddress m).2 ≤ N) : (readTcpPacket m hdr).Within (· < N) mem
      ↔ hdr + (ipHeaderLength m hdr).val mem + tcpFlagsEnd ≤ N := by
  unfold readTcpPacket tcpFlagsEnd
  simp only [within_bind, within_read, within_readRange, within_readU16, within_pure, and_true]
  have hl : (ipHeaderLength m hdr).Within (· < N) mem := by
    cases m
    · simp only [sourceAddress] at h
      simp only [ipHeaderLength, within_bind, within_read, within_pure, and_true]
      omega
    · exact within_pure.2 trivial
  rw [and_iff_right hl]
  omega

theorem processTCP_within {hdr : ℕ} (m : IpMode) (h : hdr + (sourceAddress m).1
    + 2 * (sourceAddress m).2 ≤ N) :
    (processTCP cfg f isRecv hdr m f.module.virtualAddr amb result).Within (· < N) fr.byte
      ↔ (f.module.lcxlRole = roleRouter → isRecv →
          fr.slice (hdr + (sourceAddress m).1 + (sourceAddress m).2) (sourceAddress m).2
            = f.module.virtualAddr.virtualIp m →
          hdr + (ipHeaderLength m hdr).val fr.byte + tcpFlagsEnd ≤ N) := by
  unfold processTCP
  simp only [within_bind, within_ite, within_readRange, within_pure, readTcpPacket_within m h,
    range_eq_slice]
  have hsource : (sourceAddress m).2 = 0 ∨ hdr + (sourceAddress m).1 + (sourceAddress m).2 ≤ N :=
    .inr (by omega)
  have hdestination : (sourceAddress m).2 = 0
      ∨ hdr + (sourceAddress m).1 + (sourceAddress m).2 + (sourceAddress m).2 ≤ N := .inr (by omega)
  simp only [hsource, hdestination, true_and, implies_true, and_true]

theorem processTCPFrame_within {hdr : ℕ} (m : IpMode) (hN : 12 ≤ N)
    (h : hdr + (sourceAddress m).1 + 2 * (sourceAddress m).2 ≤ N)
    (hp : fr.byte (hdr + protocolOffset m) = 0x06) :
    (processTCPFrame cfg f isRecv hdr m f.module.virtualAddr amb result).Within (· < N) fr.byte
      ↔ (LooksUpRoute f isRecv fr m hdr →
          hdr + (ipHeaderLength m hdr).val fr.byte + tcpFlagsEnd ≤ N) := by
  unfold processTCPFrame
  simp only [within_bind, within_ite, within_pure, checkTCPNBLMacAddr_within hN,
    processTCP_within m h, implies_true, and_true, true_and]
  refine ⟨fun hw hl => ?_, fun hw hmac hr hrecv hd => ?_⟩
  · have hrecv := hl.recv
    subst hrecv
    exact hw (checkTCPNBLMacAddr_recv.2 hl.mac) hl.role rfl hl.destination
  · subst hrecv
    exact hw ⟨hr, rfl, hp, checkTCPNBLMacAddr_recv.1 hmac, hd⟩

/-- Only a TCP packet has a route looked up. -/
theorem tcpPacket_within {hdr : ℕ} (m : IpMode) (hN : 12 ≤ N)
    (h : hdr + (sourceAddress m).1 + 2 * (sourceAddress m).2 ≤ N) :
    (fr.byte (hdr + protocolOffset m) = 0x06 →
      (processTCPFrame cfg f isRecv hdr m f.module.virtualAddr amb result).Within (· < N) fr.byte)
      ↔ (LooksUpRoute f isRecv fr m hdr →
          hdr + (ipHeaderLength m hdr).val fr.byte + tcpFlagsEnd ≤ N) := by
  by_cases hp : fr.byte (hdr + protocolOffset m) = 0x06
  · rw [imp_iff_right hp, processTCPFrame_within m hN h hp]
  · exact ⟨fun _ h => absurd h.protocol hp, fun _ h => absurd h hp⟩

theorem processCheckingNBL_within (hN : 18 ≤ N) :
    (processCheckingNBL f isRecv amb result).Within (· < N) fr.byte
      ↔ (isRecv → f.module.lcxlRole = roleRouter → knownSource f fr →
          u16OfBytes (fr.byte 16) (fr.byte 17) = checkingCodeResponse →
          sizeofEthernetLcxlChecking ≤ N) := by
  unfold processCheckingNBL knownSource serverResponded
  simp only [within_bind, within_ite, within_pure, within_readU16, within_readRange,
    range_eq_slice]
  rcases findServer (fun _ => false) (lockServerList f.module.serverList)
    ⟨6, (Bytes.zero 32).move (fr.slice 6 6)⟩ with _ | p
  · simp only [within_pure, Option.isSome_none, Bool.false_eq_true, implies_true,
      IsEmpty.forall_iff, and_true, iff_true]
    exact fun _ => ⟨by omega, fun _ => by omega⟩
  · simp only [updatePerformance, within_bind, within_ite, within_pure, within_readU16,
      within_readRange, Option.isSome_some, implies_true, forall_const, and_true]
    have hcode : (readU16 16).val fr.byte = u16OfBytes (fr.byte 16) (fr.byte 17) := rfl
    unfold sizeofEthernetLcxlChecking
    rw [hcode]
    refine ⟨fun h hrecv hr hc => ?_, fun h hrecv => ⟨by omega, fun hr => ⟨by omega, by omega,
      fun hc => ?_⟩⟩⟩
    · have := ((h hrecv).2 hr).2.2 hc
      omega
    · have := h hrecv hr hc
      omega

section Headers

variable {data len : ℕ}

/-- Of a frame's headers only those of its type matter. -/
theorem headersFit_checking : HeadersFit cfg f isRecv fr ethernetTypeLcxlChecking data len ↔
    (sizeofLcxlCheckingHeader ≤ len → isRecv → f.module.lcxlRole = roleRouter →
      knownSource f fr → u16OfBytes (fr.byte 16) (fr.byte 17) = checkingCodeResponse →
      sizeofEthernetLcxlChecking ≤ fr.dataLength) :=
  ⟨fun h => h.checking rfl, fun h => ⟨fun _ => h, fun h => absurd h (by decide),
    fun h => absurd h (by decide), fun h => absurd h (by decide), fun h => absurd h (by decide)⟩⟩

theorem headersFit_arp : HeadersFit cfg f isRecv fr ethernetTypeArp data len ↔
    (sizeofArpHeader ≤ len → f.module.virtualAddr.enabled .ipv4 →
      arpExtent (fr.byte (data + 4)).toNat (fr.byte (data + 5)).toNat ≤ len) :=
  ⟨fun h => h.arp rfl, fun h => ⟨fun h => absurd h (by decide), fun _ => h,
    fun h => absurd h (by decide), fun h => absurd h (by decide), fun h => absurd h (by decide)⟩⟩

theorem headersFit_ipv4 : HeadersFit cfg f isRecv fr ethernetTypeIpv4 data len ↔
    (sizeofIpv4Header ≤ len → f.module.virtualAddr.enabled .ipv4 →
      LooksUpRoute f isRecv fr .ipv4 data →
      (fr.byte data &&& 0x0F).toNat * 4 + tcpFlagsEnd ≤ len) :=
  ⟨fun h => h.ipv4 rfl, fun h => ⟨fun h => absurd h (by decide), fun h => absurd h (by decide),
    fun _ => h, fun h => absurd h (by decide), fun h => absurd h (by decide)⟩⟩

theorem headersFit_ipv6 : HeadersFit cfg f isRecv fr ethernetTypeIpv6 data len ↔
    (sizeofIpv6Header ≤ len → f.module.virtualAddr.enabled .ipv6 →
      (LooksUpRoute f isRecv fr .ipv6 data → sizeofIpv6Header + tcpFlagsEnd ≤ len)
        ∧ (fr.byte (data + 6) = 0x3A → (f.module.lcxlRole = roleServer → sizeofIpv6Header + 1 ≤ len)
          ∧ (cfg.dbg → sizeofIpv6Header + 4 ≤ len))) :=
  ⟨fun h hl he => ⟨h.ipv6 rfl hl he, h.icmpv6 rfl hl he⟩,
    fun h => ⟨fun h => absurd h (by decide), fun h => absurd h (by decide),
      fun h => absurd h (by decide), fun _ hl he => (h hl he).1, fun _ hl he => (h hl he).2⟩⟩

theorem headersFit_other {ty : UInt16} (h1 : ty ≠ ethernetTypeLcxlChecking)
    (h2 : ty ≠ ethernetTypeArp) (h3 : ty ≠ ethernetTypeIpv4) (h4 : ty ≠ ethernetTypeIpv6) :
    HeadersFit cfg f isRecv fr ty data len :=
  ⟨fun h => absurd h h1, fun h => absurd h h2, fun h => absurd h h3, fun h => absurd h h4,
    fun h => absurd h h4⟩

theorem fits_iff {ty : UInt16}
    (hd : (getEthernetData fr.dataLength).val fr.byte = some (ty, data, len)) :
    fr.Fits cfg f isRecv ↔ HeadersFit cfg f isRecv fr ty data len := by
  refine ⟨fun h => h _ _ _ hd, fun h ty' data' len' hd' => ?_⟩
  rw [hd] at hd'
  cases hd'
  exact h

end Headers

/-- Of an IPv4 packet the TCP header is read. -/
theorem ipv4_within {data len : ℕ} (hdata : 14 ≤ data) (hlen : data + len = fr.dataLength)
    (hl : 20 ≤ len) :
    (fr.byte (data + 9) = 0x06 →
      (processTCPFrame cfg f isRecv data .ipv4 f.module.virtualAddr amb .zero).Within
        (· < fr.dataLength) fr.byte)
      ↔ (LooksUpRoute f isRecv fr .ipv4 data →
        (fr.byte data &&& 0x0F).toNat * 4 + tcpFlagsEnd ≤ len) := by
  have hfit : data + (sourceAddress .ipv4).1 + 2 * (sourceAddress .ipv4).2 ≤ fr.dataLength := by
    simp only [sourceAddress]
    omega
  have hihl : (ipHeaderLength .ipv4 data).val fr.byte = (fr.byte data &&& 0x0F).toNat * 4 := rfl
  refine (tcpPacket_within .ipv4 (by omega) hfit).trans (imp_congr_right fun _ => ?_)
  rw [hihl]
  omega

/-- Of an IPv6 packet the ICMPv6 header is read, or else the TCP header. -/
theorem ipv6_within {data len : ℕ} (hdata : 14 ≤ data) (hlen : data + len = fr.dataLength)
    (hl : 40 ≤ len) :
    (fr.byte (data + 6) = 0x3A →
        (processICMPv6 cfg f isRecv data f.module.virtualAddr .zero).Within (· < fr.dataLength)
          fr.byte)
      ∧ (¬ fr.byte (data + 6) = 0x3A →
        (fr.byte (data + 6) = 0x06 →
          (processTCPFrame cfg f isRecv data .ipv6 f.module.virtualAddr amb .zero).Within
            (· < fr.dataLength) fr.byte)
        ∧ (¬ fr.byte (data + 6) = 0x06 → fr.byte (data + 6) = 0x11 →
          (processUDP f isRecv data .ipv6 f.module.virtualAddr .zero).Within (· < fr.dataLength)
            fr.byte))
      ↔ (LooksUpRoute f isRecv fr .ipv6 data → sizeofIpv6Header + tcpFlagsEnd ≤ len)
        ∧ (fr.byte (data + 6) = 0x3A →
          (f.module.lcxlRole = roleServer → sizeofIpv6Header + 1 ≤ len)
            ∧ (cfg.dbg → sizeofIpv6Header + 4 ≤ len)) := by
  have hhdr : data + sizeofIpv6Header ≤ fr.dataLength := by
    unfold sizeofIpv6Header
    omega
  have hfit : data + (sourceAddress .ipv6).1 + 2 * (sourceAddress .ipv6).2 ≤ fr.dataLength := by
    simp only [sourceAddress]
    omega
  rw [processICMPv6_within hhdr]
  simp only [processUDP_within hhdr, implies_true, and_true]
  have htcp : (¬ fr.byte (data + 6) = 0x3A → fr.byte (data + 6) = 0x06 →
      (processTCPFrame cfg f isRecv data .ipv6 f.module.virtualAddr amb .zero).Within
        (· < fr.dataLength) fr.byte)
      ↔ (LooksUpRoute f isRecv fr .ipv6 data →
        data + sizeofIpv6Header + tcpFlagsEnd ≤ fr.dataLength) := by
    refine Iff.trans ⟨fun h h6 => h ?_ h6, fun h _ => h⟩ (tcpPacket_within .ipv6 (by omega) hfit)
    have hprotocol : fr.byte (data + 6) = 0x06 := h6
    rw [hprotocol]
    decide
  rw [htcp, and_comm]
  refine and_congr (imp_congr_right fun _ => ?_) (imp_congr_right fun _ =>
    and_congr (imp_congr_right fun _ => ?_) (imp_congr_right fun _ => ?_))
  · omega
  · omega
  · omega

/-- What the parser reads of a frame lies in it exactly when its headers fit. -/
theorem processNBL_within_iff (cfg : LcxlSetting) (f : LcxlFilter) (isRecv : Bool) (fr : Frame)
    (amb : Ambient) : (processNBL cfg f isRecv fr.dataLength amb).Within (· < fr.dataLength) fr.byte
      ↔ fr.Fits cfg f isRecv := by
  unfold processNBL
  rw [within_bind, and_iff_right getEthernetData_within]
  rcases hd : (getEthernetData fr.dataLength).val fr.byte with _ | ⟨ty, data, len⟩
  · simp [Frame.Fits, hd]
  rw [fits_iff hd]
  obtain ⟨hdata, hlen⟩ := getEthernetData_eq_some hd
  simp only
  by_cases h1 : ty = ethernetTypeLcxlChecking
  · subst h1
    rw [headersFit_checking, if_pos rfl, within_ite]
    simp only [within_pure, implies_true, and_true, ge_iff_le]
    refine imp_congr_right fun hl => processCheckingNBL_within ?_
    unfold sizeofLcxlCheckingHeader at hl
    omega
  by_cases h2 : ty = ethernetTypeArp
  · subst h2
    rw [headersFit_arp, if_neg h1, if_pos rfl, within_ite, within_bind, processARP_within]
    simp only [within_pure, implies_true, and_true, ge_iff_le, and_imp, LcxlAddrInfo.enabled]
    refine imp_congr_right fun hl => imp_congr_right fun he => ?_
    omega
  by_cases h3 : ty = ethernetTypeIpv4
  · subst h3
    rw [headersFit_ipv4, if_neg h1, if_neg h2, if_pos rfl, within_ite, within_bind, within_read,
      within_ite]
    simp only [within_pure, implies_true, and_true, ge_iff_le, and_imp, LcxlAddrInfo.enabled]
    refine imp_congr_right fun hl => imp_congr_right fun he => ?_
    have hread : (ReadLog.read (data + 9)).val fr.byte = fr.byte (data + 9) := rfl
    unfold sizeofIpv4Header at hl
    rw [and_iff_right (by omega), hread]
    exact ipv4_within (by omega) hlen hl
  by_cases h4 : ty = ethernetTypeIpv6
  · subst h4
    rw [headersFit_ipv6, if_neg h1, if_neg h2, if_neg h3, if_pos rfl, within_ite, within_bind,
      within_read]
    simp only [within_ite, within_bind, within_pure, implies_true, and_true, ge_iff_le, and_imp,
      LcxlAddrInfo.enabled]
    refine imp_congr_right fun hl => imp_congr_right fun he => ?_
    have hread : (ReadLog.read (data + 6)).val fr.byte = fr.byte (data + 6) := rfl
    unfold sizeofIpv6Header at hl
    rw [and_iff_right (by omega), hread]
    exact ipv6_within (by omega) hlen hl
  rw [if_neg h1, if_neg h2, if_neg h3, if_neg h4]
  exact ⟨fun _ => headersFit_other h1 h2 h3 h4, fun _ => within_pure.2 trivial⟩

/-- An ARP request in a frame of the least length, whose hardware addresses claim 255 bytes. -/
def longArp : Frame := .ofBytes
  ([0xFF, 0xFF, 0xFF, 0xFF, 0xFF, 0xFF, 2, 0, 0, 0, 0, 9, 0x08, 0x06]
    ++ [0, 1, 0x08, 0, 255, 4, 0, 1] ++ List.replicate 38 0)

theorem processNBL_not_within : ¬ ∀ (cfg : LcxlSetting) (f : LcxlFilter) (isRecv : Bool)
    (fr : Frame) (amb : Ambient),
    (processNBL cfg f isRecv fr.dataLength amb).Within (· < fr.dataLength) fr.byte := by
  intro h
  have hread : 539 ∈ (processNBL Sample.setting Sample.router true longArp.dataLength
      (Sample.ambient 0)).reads longArp.byte := by decide +kernel
  have hlt : 539 < 60 := h Sample.setting Sample.router true longArp (Sample.ambient 0) 539 hread
  omega

end LcxlNetLoader
