import LcxlNetLoader.Proofs.Dispatch

/-!
# The same segment in either family

What becomes of a TCP packet of a module that does not route is decided by the MAC address and by
whether the packet's source is the virtual address (`processed_tcp`), in either family. A UDP packet
has a handler in one of them only.
-/

namespace LcxlNetLoader

open ReadLog

variable {cfg : LcxlSetting} {f : LcxlFilter} {isRecv : Bool} {amb : Ambient}

namespace IpPacket

variable {m : IpMode} (p : IpPacket m)

theorem header_le : sizeofIpHeader m ≤ p.dataLength := p.header.trans p.fits

/-- A TCP packet of an enabled family goes to the handler of TCP packets. -/
theorem processed_of_tcp (he : f.module.virtualAddr.enabled m) (hp : p.protocol = ipProtoTcp) :
    p.frame.processed cfg f isRecv amb =
      (processTCPFrame cfg f isRecv p.data m f.module.virtualAddr amb .zero).val p.frame.byte := by
  have hsize := p.header_le
  have hd := p.ethernet
  cases m with
  | ipv4 =>
    rw [Frame.processed_of_ipv4 hd, if_pos ⟨hsize, he⟩]
    exact if_pos hp
  | ipv6 =>
    have hicmp : p.frame.byte (p.data + 6) ≠ 0x3A := by
      rw [show p.frame.byte (p.data + 6) = ipProtoTcp from hp]
      decide
    rw [Frame.processed_of_ipv6 hd, if_pos ⟨hsize, he⟩, if_neg hicmp]
    exact if_pos hp

/-- A UDP packet is none of the protocols that are handled in IPv4. -/
theorem processed_of_udp4 (q : IpPacket .ipv4) (hp : q.protocol = ipProtoUdp) :
    q.frame.processed cfg f isRecv amb = (f, .zero) := by
  have htcp : q.frame.byte (q.data + 9) ≠ 0x06 := by
    rw [show q.frame.byte (q.data + 9) = ipProtoUdp from hp]
    decide
  rw [Frame.processed_of_ipv4 q.ethernet, if_neg htcp, ite_self]

theorem processed_of_udp6 (q : IpPacket .ipv6) (he : f.module.virtualAddr.enabled .ipv6)
    (hp : q.protocol = ipProtoUdp) : q.frame.processed cfg f isRecv amb
      = (f, (processUDP f isRecv q.data .ipv6 f.module.virtualAddr .zero).val q.frame.byte) := by
  have hbyte : q.frame.byte (q.data + 6) = ipProtoUdp := hp
  have hicmp : q.frame.byte (q.data + 6) ≠ 0x3A := by
    rw [hbyte]
    decide
  have htcp : q.frame.byte (q.data + 6) ≠ 0x06 := by
    rw [hbyte]
    decide
  rw [Frame.processed_of_ipv6 q.ethernet, if_pos ⟨q.header_le, he⟩, if_neg hicmp, if_neg htcp]
  exact if_pos hbyte

end IpPacket

theorem checkTCPNBLMacAddr_congr {fr fr' : Frame} {macAddr : IfPhysicalAddress}
    (h : fr.slice 0 12 = fr'.slice 0 12) :
    (checkTCPNBLMacAddr macAddr isRecv).val fr.byte
      = (checkTCPNBLMacAddr macAddr isRecv).val fr'.byte := by
  have hoff : fr.slice (if isRecv then 0 else 6) 6 = fr'.slice (if isRecv then 0 else 6) 6 := by
    rw [slice_eq_iff] at h ⊢
    intro i hi
    have := h ((if isRecv then 0 else 6) + i) (by split_ifs <;> omega)
    rwa [Nat.zero_add] at this
  simp only [checkTCPNBLMacAddr, val_bind, val_pure, range_eq_slice, hoff]

/-- What is decided of a TCP packet where nothing is routed. -/
theorem processTCPFrame_code {fr : Frame} {m : IpMode} {data : ℕ}
    (hr : f.module.lcxlRole ≠ roleRouter) :
    ((processTCPFrame cfg f isRecv data m f.module.virtualAddr amb .zero).val fr.byte).2.code =
      if (checkTCPNBLMacAddr f.module.macAddr isRecv).val fr.byte then
        if f.module.lcxlRole = roleServer ∧ ¬ isRecv ∧
            fr.slice (data + (sourceAddress m).1) (sourceAddress m).2
              = f.module.virtualAddr.virtualIp m then .modify
        else .pass
      else .drop := by
  simp only [processTCPFrame, processTCP, hr, if_false, val_bind, val_ite, val_pure, range_eq_slice]
  by_cases hs : f.module.lcxlRole = roleServer
  · cases isRecv <;> simp [hs] <;> split_ifs <;> rfl
  · simp only [hs, if_false, false_and]
    split_ifs <;> rfl

/-- What is decided of a UDP packet by its handler. -/
theorem processUDP_code {fr : Frame} {m : IpMode} {data : ℕ} :
    ((processUDP f isRecv data m f.module.virtualAddr .zero).val fr.byte).code =
      if f.module.lcxlRole = roleServer ∧
          fr.slice (data + (sourceAddress m).1 + if isRecv then (sourceAddress m).2 else 0)
            (sourceAddress m).2 = f.module.virtualAddr.virtualIp m then .drop
      else .pass := by
  simp only [processUDP, val_bind, val_ite, val_pure, range_eq_slice]
  by_cases hs : f.module.lcxlRole = roleServer
  · simp only [hs, if_true, true_and]
    split_ifs <;> rfl
  · simp only [hs, if_false, false_and]
    rfl

/-- The end of a packet that has the virtual address is where the handler of UDP packets looks. -/
theorem IpPacket.address_eq {m : IpMode} (p : IpPacket m) :
    p.frame.slice (p.data + (sourceAddress m).1 + if isRecv then (sourceAddress m).2 else 0)
      (sourceAddress m).2 = if isRecv then p.destination else p.source := by
  cases isRecv <;> rfl

/-- A segment fares alike in both families, unless it is UDP for or from a server's virtual
address. -/
theorem codes_agree_iff (cfg : LcxlSetting) (f : LcxlFilter) (isRecv : Bool) (amb amb' : Ambient)
    (p : IpPacket .ipv4) (q : IpPacket .ipv6) (protocol : UInt8) (segment : List UInt8)
    (hr : f.module.lcxlRole ≠ roleRouter) (h4 : f.module.virtualAddr.enabled .ipv4)
    (h6 : f.module.virtualAddr.enabled .ipv6) (hp : protocol = ipProtoTcp ∨ protocol = ipProtoUdp)
    (cp : p.Carries protocol segment) (cq : q.Carries protocol segment)
    (he : SameEnds f.module.virtualAddr p q) :
    (p.frame.processed cfg f isRecv amb).2.code = (q.frame.processed cfg f isRecv amb').2.code
      ↔ ¬ p.VirtualUdp f isRecv := by
  rcases hp with rfl | rfl
  · have hudp : ¬ p.VirtualUdp f isRecv := fun h => absurd (cp.protocol.symm.trans h.protocol)
      (by decide)
    rw [p.processed_of_tcp h4 cp.protocol, q.processed_of_tcp h6 cq.protocol,
      processTCPFrame_code hr, processTCPFrame_code hr, checkTCPNBLMacAddr_congr he.macs]
    refine iff_of_true (if_congr Iff.rfl (if_congr ?_ rfl rfl) rfl) hudp
    exact and_congr_right fun _ => and_congr_right fun _ => he.source
  · have haddress : (if isRecv then q.destination else q.source)
        = f.module.virtualAddr.virtualIp .ipv6
        ↔ (if isRecv then p.destination else p.source)
          = f.module.virtualAddr.virtualIp .ipv4 := by
      cases isRecv
      · exact he.source.symm
      · exact he.destination.symm
    rw [p.processed_of_udp4 cp.protocol, q.processed_of_udp6 h6 cq.protocol, processUDP_code,
      q.address_eq]
    by_cases h : f.module.lcxlRole = roleServer ∧ (if isRecv then q.destination else q.source)
        = f.module.virtualAddr.virtualIp .ipv6
    · rw [if_pos h]
      exact iff_of_false nofun (not_not.2 ⟨h.1, cp.protocol, haddress.1 h.2⟩)
    · rw [if_neg h]
      exact iff_of_true rfl fun hv => h ⟨hv.role, haddress.2 hv.address⟩

section Runs

/-- A server of 10.0.0.1 and fd00::1. -/
def dualServer : LcxlFilter := { Sample.router with
  module := { Sample.router.module with
    lcxlRole := roleServer
    virtualAddr := ⟨0x03, (Bytes.zero 4).move [10, 0, 0, 1], 24,
      (Bytes.zero 16).move [0xFD, 0, 0, 0, 0, 0, 0, 0, 0, 0, 0, 0, 0, 0, 0, 1], 64⟩ } }

/-- Eight bytes from port 8080 to port 53. -/
def sampleSegment : List UInt8 := [0x1F, 0x90, 0, 53, 0, 8, 0, 0]

def sampleMacs : List UInt8 := [0xFF, 0xFF, 0xFF, 0xFF, 0xFF, 0xFF, 2, 0, 0, 0, 0, 1]

def sampleProtocol (udp : Bool) : UInt8 := if udp then ipProtoUdp else ipProtoTcp

/-- The segment in IPv4, from 10.0.0.9 to the server. -/
def samplePacket4 (udp : Bool) : IpPacket .ipv4 where
  frame := .ofBytes (sampleMacs ++ [0x08, 0x00]
    ++ [0x45, 0, 0, 28, 0, 0, 0, 0, 64, sampleProtocol udp, 0, 0]
    ++ [10, 0, 0, 9] ++ [10, 0, 0, 1] ++ sampleSegment)
  data := 14
  dataLength := 28
  ethernet := by cases udp <;> decide +kernel
  header := by cases udp <;> decide +kernel
  fits := by cases udp <;> decide +kernel

/-- The segment in IPv6, from fd00::9 to the server. -/
def samplePacket6 (udp : Bool) : IpPacket .ipv6 where
  frame := .ofBytes (sampleMacs ++ [0x86, 0xDD]
    ++ [0x60, 0, 0, 0, 0, 8, sampleProtocol udp, 64]
    ++ [0xFD, 0, 0, 0, 0, 0, 0, 0, 0, 0, 0, 0, 0, 0, 0, 9]
    ++ [0xFD, 0, 0, 0, 0, 0, 0, 0, 0, 0, 0, 0, 0, 0, 0, 1] ++ sampleSegment)
  data := 14
  dataLength := 48
  ethernet := by cases udp <;> decide +kernel
  header := by cases udp <;> decide +kernel
  fits := by cases udp <;> decide +kernel

theorem samplePacket4_carries (udp : Bool) :
    (samplePacket4 udp).Carries (sampleProtocol udp) sampleSegment where
  protocol := by cases udp <;> decide +kernel
  segment := by cases udp <;> decide +kernel

theorem samplePacket6_carries (udp : Bool) :
    (samplePacket6 udp).Carries (sampleProtocol udp) sampleSegment where
  protocol := by cases udp <;> decide +kernel
  segment := by cases udp <;> decide +kernel

theorem samplePackets_sameEnds (udp : Bool) :
    SameEnds dualServer.module.virtualAddr (samplePacket4 udp) (samplePacket6 udp) where
  macs := by cases udp <;> decide +kernel
  source := by cases udp <;> decide +kernel
  destination := by cases udp <;> decide +kernel

theorem codes_agree_iff_tcp :
    ((samplePacket4 false).frame.processed Sample.setting dualServer true (Sample.ambient 0)).2.code
      = ((samplePacket6 false).frame.processed Sample.setting dualServer true
        (Sample.ambient 0)).2.code :=
  (codes_agree_iff Sample.setting dualServer true (Sample.ambient 0) (Sample.ambient 0)
    (samplePacket4 false) (samplePacket6 false) (sampleProtocol false) sampleSegment (by decide)
    (by decide) (by decide) (.inl rfl) (samplePacket4_carries _) (samplePacket6_carries _)
    (samplePackets_sameEnds _)).2
    fun h => absurd ((samplePacket4_carries false).protocol.symm.trans h.protocol) (by decide)

/-- UDP for the virtual address goes up to the server's upper layers in IPv4. -/
theorem codes_differ_udp :
    SameEnds dualServer.module.virtualAddr (samplePacket4 true) (samplePacket6 true) ∧
      (samplePacket4 true).Carries ipProtoUdp sampleSegment ∧
      (samplePacket6 true).Carries ipProtoUdp sampleSegment ∧
      ((samplePacket4 true).frame.processed Sample.setting dualServer true
        (Sample.ambient 0)).2.code = .pass ∧
      ((samplePacket6 true).frame.processed Sample.setting dualServer true
        (Sample.ambient 0)).2.code = .drop :=
  ⟨samplePackets_sameEnds _, samplePacket4_carries _, samplePacket6_carries _, by decide +kernel,
    by decide +kernel⟩

end Runs

end LcxlNetLoader
