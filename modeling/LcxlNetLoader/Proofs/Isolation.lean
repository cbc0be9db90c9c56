import LcxlNetLoader.Proofs.Dispatch

/-!
# What a server keeps out

A server is not to be found by the virtual address. Of neighbour advertisements it drops those that
come from the address (`processed_advertisement`), whatever address they are about; of ARP packets
those that are about it.
-/

namespace LcxlNetLoader

open ReadLog

variable {cfg : LcxlSetting} {f : LcxlFilter} {isRecv : Bool} {amb : Ambient} {fr : Frame}

namespace Frame

theorem IsAdvertisement.untagged (h : fr.IsAdvertisement) : fr.Untagged := by
  refine ⟨?_, ?_⟩
  · have := h.complete
    show 14 ≤ _
    omega
  · rw [h.ethernetType]
    decide

/-- The result of an advertisement depends on the addresses of its IPv6 header. -/
theorem processed_advertisement (h : fr.IsAdvertisement) (hr : f.module.lcxlRole = roleServer)
    (he : f.module.virtualAddr.enabled .ipv6) :
    fr.processed cfg f isRecv amb = (f,
      if fr.ipv6Source = f.module.virtualAddr.ipv6.toList then
        { ProcessNblResult.zero with code := .drop }
      else if fr.slice (14 + 24) 16 = f.module.virtualAddr.ipv6.toList ∧ isRecv then
        { ProcessNblResult.zero with code := .icmpv6Na }
      else .zero) := by
  have hd := getEthernetData_untagged h.untagged
  rw [h.ethernetType] at hd
  have hcomplete := h.complete
  have hl : fr.dataLength - 14 ≥ sizeofIpv6Header := by
    show 40 ≤ fr.dataLength - 14
    omega
  have htype : (read (14 + sizeofIpv6Header) : FrameRead UInt8).val fr.byte = 136 := h.type
  rw [processed_of_ipv6 hd, if_pos ⟨hl, he⟩, if_pos h.nextHeader]
  have hne : (136 : UInt8) ≠ 133 ∧ (136 : UInt8) ≠ 135 := by decide
  refine congrArg (Prod.mk f) ?_
  unfold processICMPv6
  simp only [hr, if_true, val_ite, val_bind, htype, hne, if_false, range_eq_slice, val_pure,
    ite_self]
  rfl

/-- A frame that is dropped is all that becomes of it. -/
theorem keptOut_iff_drop :
    fr.KeptOut cfg f isRecv amb ↔ (fr.processed cfg f isRecv amb).2.code = .drop := by
  refine ⟨KeptOut.code, fun h => ⟨h, ?_⟩⟩
  unfold processed at h
  cases isRecv with
  | true =>
    simp only [if_true, receiveFrame]
    generalize (processNBL cfg f true fr.dataLength amb).val fr.byte = r at h
    obtain ⟨f', code, route, modifyip⟩ := r
    obtain rfl : code = .drop := h
    rfl
  | false =>
    simp only [Bool.false_eq_true, if_false, sendFrame]
    generalize (processNBL cfg f false fr.dataLength amb).val fr.byte = r at h
    obtain ⟨f', code, route, modifyip⟩ := r
    obtain rfl : code = .drop := h
    rfl

/-- An advertisement of the virtual address is kept out just when it also comes from there. -/
theorem keptOut_iff (cfg : LcxlSetting) (f : LcxlFilter) (isRecv : Bool) (amb : Ambient)
    (fr : Frame) (h : fr.IsAdvertisement) (hr : f.module.lcxlRole = roleServer)
    (he : f.module.virtualAddr.enabled .ipv6) :
    (fr.targetAddress = f.module.virtualAddr.ipv6.toList → fr.KeptOut cfg f isRecv amb) ↔
      (fr.targetAddress = f.module.virtualAddr.ipv6.toList →
        fr.ipv6Source = f.module.virtualAddr.ipv6.toList) := by
  refine imp_congr_right fun _ => ?_
  rw [keptOut_iff_drop, processed_advertisement h hr he]
  split_ifs with hs hd
  · exact iff_of_true rfl hs
  · exact iff_of_false nofun hs
  · exact iff_of_false nofun hs

end Frame

section Runs

/-- A server of fd00::1. -/
def ipv6Server : LcxlFilter := { Sample.router with
  module := { Sample.router.module with
    lcxlRole := roleServer
    virtualAddr := ⟨saEnableIpv6, .zero 4, 0,
      (Bytes.zero 16).move [0xFD, 0, 0, 0, 0, 0, 0, 0, 0, 0, 0, 0, 0, 0, 0, 1], 64⟩ } }

/-- An advertisement of fd00::1 to all nodes, from the address of that first and last byte. -/
def advertisement (first last : UInt8) : Frame := .ofBytes
  ([0x33, 0x33, 0, 0, 0, 1, 2, 0, 0, 0, 0, 9, 0x86, 0xDD]
    ++ [0x60, 0, 0, 0, 0, 24, 0x3A, 255]
    ++ [first, 0, 0, 0, 0, 0, 0, 0, 0, 0, 0, 0, 0, 0, 0, last]
    ++ [0xFF, 0x02, 0, 0, 0, 0, 0, 0, 0, 0, 0, 0, 0, 0, 0, 1]
    ++ [136, 0, 0, 0, 0x20, 0, 0, 0]
    ++ [0xFD, 0, 0, 0, 0, 0, 0, 0, 0, 0, 0, 0, 0, 0, 0, 1])

theorem keptOut_iff_own :
    (advertisement 0xFD 1).KeptOut Sample.setting ipv6Server true (Sample.ambient 0) :=
  (Frame.keptOut_iff Sample.setting ipv6Server true (Sample.ambient 0) (advertisement 0xFD 1)
    ⟨by decide +kernel, by decide +kernel, by decide +kernel, by decide +kernel⟩ rfl (by decide)).2
    (fun _ => by decide +kernel) (by decide +kernel)

/-- What another host advertises the virtual address with reaches the server. -/
theorem not_keptOut_of_other :
    (advertisement 0xFE 9).IsAdvertisement ∧
      (advertisement 0xFE 9).targetAddress = ipv6Server.module.virtualAddr.ipv6.toList ∧
      ((advertisement 0xFE 9).processed Sample.setting ipv6Server true (Sample.ambient 0)).2.code
        = .pass ∧
      ((advertisement 0xFE 9).processed Sample.setting ipv6Server false (Sample.ambient 0)).2.code
        = .pass :=
  ⟨⟨by decide +kernel, by decide +kernel, by decide +kernel, by decide +kernel⟩, by decide +kernel,
    by decide +kernel, by decide +kernel⟩

end Runs

/-! ## ARP -/

/-- What is read of a number and put in the order of the wire is the bytes on the wire. -/
theorem ntohs_readU16_iff {off : ℕ} {hi lo : UInt8} {n : UInt16}
    (hn : hi.toNat * 256 + lo.toNat = n.toNat) :
    ntohs ((readU16 off).val fr.byte) = n ↔ fr.slice off 2 = [hi, lo] := by
  have hread : (readU16 off).val fr.byte = u16OfBytes (fr.byte off) (fr.byte (off + 1)) := rfl
  have hslice : fr.slice off 2 = [fr.byte off, fr.byte (off + 1)] := rfl
  have ha := (fr.byte off).toNat_lt
  have hb := (fr.byte (off + 1)).toNat_lt
  have hhi := hi.toNat_lt
  have hlo := lo.toNat_lt
  rw [hread, ntohs_eq_iff, hslice, List.cons.injEq, List.cons.injEq, and_iff_left rfl,
    ← UInt8.toNat_inj, ← UInt8.toNat_inj]
  omega

/-- Four bytes copied to an address make it the address they are. -/
theorem move_eq_iff {old a : Bytes 4} {bs : List UInt8} (h : bs.length = 4) :
    old.move bs = a ↔ bs = a.toList := by
  have hmove := toList_move old h
  exact ⟨fun he => hmove.symm.trans (congrArg _ he), fun he => List.Vector.eq _ _ (hmove.trans he)⟩

section Arp

variable {data len : ℕ} {a : Bytes 4}

namespace IsArp

theorem protocolSpace_eq (h : IsArp fr data len) (old : LcxlArpEthernet) :
    ((lcxlReadARPEthernet data old).val fr.byte).protocolAddressSpace = ethernetTypeIpv4 :=
  (ntohs_readU16_iff (by decide)).2 h.protocolSpace

/-- The sender's address is copied from where the packet has it. -/
theorem sender_eq_iff (h : IsArp fr data len) (old : LcxlArpEthernet) :
    ((lcxlReadARPEthernet data old).val fr.byte).senderProtocolAddress = a
      ↔ fr.arpSender data = a.toList := by
  have hval : ((lcxlReadARPEthernet data old).val fr.byte).senderProtocolAddress =
      old.senderProtocolAddress.move (fr.slice (data + 8 + (fr.byte (data + 4)).toNat)
        (min 4 (fr.byte (data + 5)).toNat)) := by
    simp only [lcxlReadARPEthernet, val_bind, val_pure, val_read, range_eq_slice]
    rfl
  rw [hval, h.protocolLength]
  exact move_eq_iff (by simp [Frame.slice])

theorem target_eq_iff (h : IsArp fr data len) (old : LcxlArpEthernet) :
    ((lcxlReadARPEthernet data old).val fr.byte).targetProtocolAddress = a
      ↔ fr.arpTarget data = a.toList := by
  have hval : ((lcxlReadARPEthernet data old).val fr.byte).targetProtocolAddress =
      old.targetProtocolAddress.move (fr.slice (data + 8 + (fr.byte (data + 4)).toNat
        + (fr.byte (data + 5)).toNat + (fr.byte (data + 4)).toNat)
        (min 4 (fr.byte (data + 5)).toNat)) := by
    simp only [lcxlReadARPEthernet, val_bind, val_pure, val_read, range_eq_slice]
    rfl
  have hoff : data + 8 + (fr.byte (data + 4)).toNat + (4 : UInt8).toNat
      + (fr.byte (data + 4)).toNat = data + 8 + 2 * (fr.byte (data + 4)).toNat + 4 := by
    rw [show (4 : UInt8).toNat = 4 from rfl]
    omega
  rw [hval, h.protocolLength, hoff]
  exact move_eq_iff (by simp [Frame.slice])

end IsArp

/-- An ARP packet is dropped just when it is about the virtual address, and let pass otherwise. -/
theorem arp_dropped_iff (cfg : LcxlSetting) (f : LcxlFilter) (isRecv : Bool) (amb : Ambient)
    (fr : Frame) (data len : ℕ) (h : IsArp fr data len) (hr : f.module.lcxlRole = roleServer)
    (he : f.module.virtualAddr.enabled .ipv4) :
    ((fr.processed cfg f isRecv amb).2.code = .drop ↔ fr.ArpAbout data f.module.virtualAddr.ipv4) ∧
      (¬ fr.ArpAbout data f.module.virtualAddr.ipv4 →
        (fr.processed cfg f isRecv amb).2.code = .pass) := by
  have hfits := h.fits
  have hl : len ≥ sizeofArpHeader := by
    show 8 ≤ len
    omega
  have hrequest : ((lcxlReadARPEthernet data amb.stack).val fr.byte).opcode = arpRequest
      ↔ fr.arpOpcode data = [0, 1] := ntohs_readU16_iff (by decide)
  have hresponse : ((lcxlReadARPEthernet data amb.stack).val fr.byte).opcode = arpResponse
      ↔ fr.arpOpcode data = [0, 2] := ntohs_readU16_iff (by decide)
  rw [Frame.processed_of_arp h.ethernet, if_pos ⟨hl, he⟩]
  simp only [processARP, val_bind, val_ite, val_pure, h.protocolSpace_eq, ne_eq, not_true_eq_false,
    if_false, hr, if_true, hrequest, hresponse, h.sender_eq_iff, h.target_eq_iff, Frame.ArpAbout]
  have hpassed : ProcessNblResultCode.pass ≠ .drop := by decide
  by_cases h1 : fr.arpOpcode data = [0, 1]
  · have h2 : ([0, 1] : List UInt8) ≠ [0, 2] := by decide
    simp only [h1, h2, if_true, true_and, false_and, or_false]
    split_ifs with ht
    · exact ⟨iff_of_true rfl ht.symm, fun hn => absurd ht.symm hn⟩
    · exact ⟨iff_of_false hpassed fun hn => ht hn.symm, fun _ => rfl⟩
  · simp only [h1, if_false, false_and, false_or]
    split_ifs with h2 hs
    · exact ⟨iff_of_true rfl ⟨h2, hs⟩, fun hn => absurd ⟨h2, hs⟩ hn⟩
    · exact ⟨iff_of_false hpassed fun hn => hs hn.2, fun _ => rfl⟩
    · exact ⟨iff_of_false hpassed fun hn => h2 hn.1, fun _ => rfl⟩

end Arp

section Runs

/-- A server of 10.0.0.1. -/
def ipv4Server : LcxlFilter :=
  { Sample.router with module := { Sample.router.module with lcxlRole := roleServer } }

/-- A tagged request for 10.0.0.1, of hardware addresses of eight bytes. -/
def arpFrame : Frame := .ofBytes
  ([0xFF, 0xFF, 0xFF, 0xFF, 0xFF, 0xFF, 2, 0, 0, 0, 0, 9, 0x81, 0x00, 0, 5, 0x08, 0x06]
    ++ [0, 1, 0x08, 0x00, 8, 4, 0, 1] ++ [2, 0, 0, 0, 0, 0, 0, 9] ++ [10, 0, 0, 9]
    ++ [0, 0, 0, 0, 0, 0, 0, 0] ++ [10, 0, 0, 1])

theorem arp_dropped_iff_request :
    (arpFrame.processed Sample.setting ipv4Server true (Sample.ambient 0)).2.code = .drop :=
  (arp_dropped_iff Sample.setting ipv4Server true (Sample.ambient 0) arpFrame 18 32
    ⟨by decide +kernel, by decide +kernel, by decide +kernel, by decide +kernel⟩ rfl
    (by decide)).1.2 (.inl ⟨by decide +kernel, .inr (by decide +kernel)⟩)

end Runs

end LcxlNetLoader
