import LcxlNetLoader.Proofs.Solicitations

/-!
# The solicitation built again

The bytes of the frame that is built, which are those of the solicitation where nothing is written,
and what they say. What is cut off is the last option if its last eight bytes are one, and the rest
of the frame keeps its place.
-/

namespace LcxlNetLoader

open ReadLog OnesComplement

variable {cfg : LcxlSetting} {f : LcxlFilter} {amb : Ambient} {fr : Frame} {heap : ℕ → UInt8}
  {hdr i off k : ℕ} {n : NeighborSolicit}

/-! ## The bytes of the frame built -/

namespace Frame

/-- The copy, from no address. -/
def fromNowhere (fr : Frame) (heap : ℕ → UInt8) : Frame :=
  (fr.copy (fr.dataLength - 2 - 6) heap).write 22 (List.replicate 16 0)

/-- The length that is stored. -/
def shortened (fr : Frame) (heap : ℕ → UInt8) : UInt16 :=
  ntohs (u16OfBytes ((fr.fromNowhere heap).byte 18) ((fr.fromNowhere heap).byte 19)) - 2 - 6

/-- All that is written, in order. -/
theorem withoutOption_eq (fr : Frame) (heap : ℕ → UInt8) : ∃ x y, fr.withoutOption heap
    = ((fr.fromNowhere heap).write 18 (u16Bytes (ntohs (fr.shortened heap)))).write 56 [x, y] :=
  ⟨_, _, storeIcmpChksum_eq⟩

theorem dataLength_withoutOption (fr : Frame) (heap : ℕ → UInt8) :
    (fr.withoutOption heap).dataLength = fr.dataLength - 8 := by
  obtain ⟨x, y, h⟩ := withoutOption_eq fr heap
  rw [h]
  exact Nat.sub_sub fr.dataLength 2 6

theorem withoutOption_byte (hi : i < fr.dataLength - 8)
    (h : i < 18 ∨ 20 ≤ i ∧ i < 22 ∨ 38 ≤ i ∧ i < 56 ∨ 58 ≤ i) :
    (fr.withoutOption heap).byte i = fr.byte i := by
  obtain ⟨x, y, hw⟩ := withoutOption_eq fr heap
  have hcopy : (fr.fromNowhere heap).byte i = fr.byte i := by
    have hc : (fr.copy (fr.dataLength - 2 - 6) heap).byte i = fr.byte i := copy_byte (by omega)
    rcases Nat.lt_or_ge i 22 with h22 | h22
    · rw [fromNowhere, write_byte_of_lt h22, hc]
    · rw [fromNowhere, write_byte_of_ge (by simp; omega), hc]
  have hlength : ((fr.fromNowhere heap).write 18
      (u16Bytes (ntohs (fr.shortened heap)))).byte i = fr.byte i := by
    rcases Nat.lt_or_ge i 18 with h18 | h18
    · rw [write_byte_of_lt h18, hcopy]
    · rw [write_byte_of_ge (by simp [u16Bytes]; omega), hcopy]
  rw [hw]
  rcases Nat.lt_or_ge i 56 with h56 | h56
  · rw [write_byte_of_lt h56, hlength]
  · rw [write_byte_of_ge (by simp; omega), hlength]

theorem withoutOption_slice (hk : off + k ≤ fr.dataLength - 8)
    (h : off + k ≤ 18 ∨ 20 ≤ off ∧ off + k ≤ 22 ∨ 38 ≤ off ∧ off + k ≤ 56 ∨ 58 ≤ off) :
    (fr.withoutOption heap).slice off k = fr.slice off k :=
  slice_eq_iff.2 fun i hi => withoutOption_byte (by omega) (by omega)

/-- Where the source address is, and the payload length and next header of a tagged frame. -/
theorem withoutOption_source (fr : Frame) (heap : ℕ → UInt8) :
    (fr.withoutOption heap).slice 22 16 = List.replicate 16 0 := by
  obtain ⟨x, y, hw⟩ := withoutOption_eq fr heap
  rw [hw, slice_write_of_le (by omega), slice_write_of_ge (by simp [u16Bytes]), fromNowhere]
  exact slice_write

theorem withoutOption_payloadLength (h : 20 ≤ fr.dataLength - 8) :
    (fr.withoutOption heap).payloadLength 14 = (fr.payloadLength 14 + 65528) % 65536 := by
  obtain ⟨x, y, hw⟩ := withoutOption_eq fr heap
  have hshort : (fr.shortened heap).toNat = (fr.payloadLength 14 + 65528) % 65536 := by
    have hc : ∀ j, j < 20 → (fr.fromNowhere heap).byte j = fr.byte j := fun j hj => by
      rw [fromNowhere, write_byte_of_lt (by omega), copy_byte (by omega)]
    rw [shortened, hc 18 (by omega), hc 19 (by omega), UInt16.toNat_sub, UInt16.toNat_sub,
      show UInt16.toNat 2 = 2 from rfl, show UInt16.toNat 6 = 6 from rfl]
    have := payloadLength_lt fr 14
    have heq : (ntohs (u16OfBytes (fr.byte 18) (fr.byte 19))).toNat = fr.payloadLength 14 := rfl
    rw [heq]
    omega
  rw [hw, show (56 : ℕ) = 14 + sizeofIpv6Header + 2 from rfl, payloadLength_write, ← hshort]
  have h18 : ((fr.fromNowhere heap).write 18 (u16Bytes (ntohs (fr.shortened heap)))).byte 18
      = (ntohs (fr.shortened heap)).toUInt8 := rfl
  have h19 : ((fr.fromNowhere heap).write 18 (u16Bytes (ntohs (fr.shortened heap)))).byte 19
      = (ntohs (fr.shortened heap) >>> 8).toUInt8 := rfl
  rw [payloadLength, h18, h19, u16OfBytes_u16Bytes, ntohs_ntohs]

/-! ## What the building touches -/

theorem after_copy (fr : Frame) (m : ℕ) (heap : ℕ → UInt8) :
    (BufferLog.write 0 (fr.slice 0 m)).after heap = (fr.copy m heap).byte := by
  funext j
  rw [BufferLog.after_write]
  dsimp only
  rw [if_pos (Nat.zero_le j), List.getD_eq_getElem?_getD]
  rcases Nat.lt_or_ge j m with hj | hj
  · rw [copy_byte hj, Nat.sub_zero, List.getElem?_eq_getElem (by simpa using hj), Option.getD_some]
    simp [slice]
  · rw [Nat.sub_zero, List.getElem?_eq_none (by simpa using hj), Option.getD_none]
    exact (if_neg (by omega)).symm

theorem after_write (fr : Frame) (off : ℕ) (bs : List UInt8) :
    (BufferLog.write off bs).after fr.byte = (fr.write off bs).byte := rfl

theorem val_readU16 (fr : Frame) (off : ℕ) :
    (readU16 off).val fr.byte = u16OfBytes (fr.byte off) (fr.byte (off + 1)) := rfl

theorem withoutOptionAt_after (fr : Frame) (heap : ℕ → UInt8) :
    fr.withoutOptionAt.after heap = (fr.withoutOption heap).byte := by
  simp only [withoutOptionAt, BufferLog.after_bind, BufferLog.val_get, BufferLog.after_get,
    after_copy, after_write, val_readU16, val_calcUpperLayerChksumAt]
  simp only [withoutOption, calcIcmpChksum]

theorem within_calcSumAt {N : ℕ} (sum : UInt16) (data : ℕ) (len : UInt16) :
    (calcSumAt sum data len).Within (· < N) fr.byte ↔ len.toNat = 0 ∨ data + len.toNat ≤ N := by
  rw [Within, reads_calcSumAt]
  refine ⟨fun h => ?_, fun h i hi => ?_⟩
  · by_contra hne
    rw [not_or] at hne
    have := h _ (List.mem_map_of_mem (List.mem_range.2 (show len.toNat - 1 < len.toNat by omega)))
    omega
  · obtain ⟨j, hj, rfl⟩ := List.mem_map.1 hi
    have := List.mem_range.1 hj
    omega

/-- What a checksum reads is the header from the length on, and the payload. -/
theorem within_calcUpperLayerChksumAt {N : ℕ} {proto : UInt8} (hdr : ℕ)
    (h : hdr + sizeofIpv6Header + fr.payloadLength hdr ≤ N) :
    (calcUpperLayerChksumAt hdr proto).Within (· < N) fr.byte := by
  have hlen : (ntohs ((readU16 (hdr + 4)).val fr.byte)).toNat = fr.payloadLength hdr := rfl
  have h16 : sizeofIpv6Header = 40 := rfl
  simp only [calcUpperLayerChksumAt, within_bind, within_readU16, within_pure, and_true,
    within_calcSumAt, hlen, show UInt16.toNat 32 = 32 from rfl]
  omega

/-- The building stays in a buffer that the packet as it is then lies in. -/
theorem withoutOptionAt_within (h : 58 ≤ fr.dataLength - 8)
    (hp : 54 + (fr.withoutOption heap).payloadLength 14 ≤ fr.dataLength - 8) :
    fr.withoutOptionAt.Within (· < fr.dataLength - 8) heap := by
  obtain ⟨x, y, hw⟩ := withoutOption_eq fr heap
  set buffer := (fr.fromNowhere heap).write 18 (u16Bytes (ntohs (fr.shortened heap))) with hbuffer
  have hlen : (buffer.write 56 [0, 0]).payloadLength 14
      = (fr.withoutOption heap).payloadLength 14 := by
    rw [hw]
    exact (payloadLength_write buffer 14 _).trans (payloadLength_write buffer 14 _).symm
  have hread : (calcUpperLayerChksumAt 14 ipProtoIcmp6).Within (· < fr.dataLength - 8)
      (buffer.write 56 [0, 0]).byte :=
    within_calcUpperLayerChksumAt 14 (by rw [hlen]; exact hp)
  simp only [withoutOptionAt, BufferLog.within_bind, BufferLog.within_write, BufferLog.within_get,
    BufferLog.after_get, BufferLog.val_get, after_copy, within_readU16,
    length_slice, List.length_replicate]
  refine ⟨.inr (by omega), .inr ?_, ?_, .inr ?_, .inr ?_, hread, .inr ?_⟩ <;>
    simp [u16Bytes] <;> omega

end Frame

/-! ## Options -/

theorem NdOption.length_bytes (o : NdOption) : o.bytes.length = o.value.length + 2 := rfl

theorem NdOption.eight_le (o : NdOption) : 8 ≤ o.bytes.length := by
  obtain ⟨n, hn, -, h⟩ := o.whole
  rw [o.length_bytes]
  omega

namespace NeighborSolicit

theorem unspecified_optionBytes_le : ∀ (os : List NdOption),
    ((os.filter fun o => o.type ≠ ndOptSourceLinkaddr).flatMap (·.bytes)).length
      ≤ (os.flatMap (·.bytes)).length
  | [] => le_rfl
  | o :: os => by
    have ih := unspecified_optionBytes_le os
    rw [List.filter_cons]
    split_ifs
    · simp only [List.flatMap_cons, List.length_append]
      omega
    · simp only [List.flatMap_cons, List.length_append]
      omega

/-- Nothing is left out of options that are as long as what is left of them. -/
theorem forall_type_ne : ∀ {os : List NdOption},
    ((os.filter fun o => o.type ≠ ndOptSourceLinkaddr).flatMap (·.bytes)).length
      = (os.flatMap (·.bytes)).length → ∀ o ∈ os, o.type ≠ ndOptSourceLinkaddr
  | [], _ => by simp
  | o :: os, h => by
    have hle := unspecified_optionBytes_le os
    have h8 := o.eight_le
    rw [List.filter_cons] at h
    split_ifs at h with ho
    · simp only [List.flatMap_cons, List.length_append, Nat.add_left_cancel_iff] at h
      exact List.forall_mem_cons.2 ⟨by simpa using ho, forall_type_ne h⟩
    · simp only [List.flatMap_cons, List.length_append] at h
      omega

/-- The options end in the one left out, of eight bytes. -/
theorem exists_last : ∀ {os : List NdOption},
    (os.filter fun o => o.type ≠ ndOptSourceLinkaddr).flatMap (·.bytes) <+: os.flatMap (·.bytes) →
    ((os.filter fun o => o.type ≠ ndOptSourceLinkaddr).flatMap (·.bytes)).length + 8
      = (os.flatMap (·.bytes)).length →
    ∃ opts o, os = opts ++ [o] ∧ o.type = ndOptSourceLinkaddr ∧ o.value.length = 6
      ∧ ∀ o' ∈ opts, o'.type ≠ ndOptSourceLinkaddr
  | [], _, h => by simp at h
  | o :: os, hp, h => by
    have hle := unspecified_optionBytes_le os
    have h8 := o.eight_le
    rw [List.filter_cons] at h hp
    split_ifs at h hp with ho
    · rw [List.flatMap_cons, List.flatMap_cons] at h hp
      rw [List.length_append, List.length_append] at h
      obtain ⟨opts, o', rfl, ht, hv, hall⟩ :=
        exists_last ((List.prefix_append_right_inj _).1 hp) (by omega)
      exact ⟨o :: opts, o', rfl, ht, hv, List.forall_mem_cons.2 ⟨by simpa using ho, hall⟩⟩
    · have ho' : o.type = ndOptSourceLinkaddr := by simpa using ho
      rw [List.flatMap_cons, List.length_append] at h
      have hall : ∀ o' ∈ os, o'.type ≠ ndOptSourceLinkaddr := forall_type_ne (by omega)
      have hv : o.value.length = 6 := by
        have := o.length_bytes
        omega
      cases os with
      | nil => exact ⟨[], o, rfl, ho', hv, by simp⟩
      | cons o' os =>
        -- The first byte left is the type of the next option, and is to be that of this one.
        have hne := hall o' List.mem_cons_self
        rw [List.filter_cons_of_pos (by simpa using hne)] at hp
        simp only [List.flatMap_cons, NdOption.bytes, List.cons_append] at hp
        exact absurd ((List.cons_prefix_cons.1 hp).1.trans ho') hne

/-- What is left of the options is what the last eight bytes are cut off from. -/
theorem endsInLinkaddr_iff : n.EndsInLinkaddr ↔ n.unspecified.optionBytes <+: n.optionBytes
    ∧ n.unspecified.optionBytes.length + 8 = n.optionBytes.length := by
  refine ⟨?_, fun h => exists_last h.1 h.2⟩
  rintro ⟨opts, o, hos, ht, hv, hall⟩
  have hleft : n.unspecified.options = opts := by
    rw [unspecified, hos, List.filter_append, List.filter_eq_self.2 fun o' ho' => by
      simpa using hall o' ho', List.filter_singleton]
    simp [ht]
  have hbytes : n.optionBytes = n.unspecified.optionBytes ++ o.bytes := by
    rw [optionBytes, hos, List.flatMap_append, List.flatMap_singleton, optionBytes, hleft]
  rw [hbytes, List.length_append, o.length_bytes, hv]
  exact ⟨List.prefix_append _ _, rfl⟩

end NeighborSolicit

/-! ## The solicitation built -/

namespace Frame

theorem dataOffset_eq (fr : Frame) : fr.dataOffset = 14
      ∧ ntohs (u16OfBytes (fr.byte 12) (fr.byte 13)) ≠ ethernetType8021q
    ∨ fr.dataOffset = 18 ∧ ntohs (u16OfBytes (fr.byte 12) (fr.byte 13)) = ethernetType8021q := by
  unfold dataOffset
  split_ifs with h
  · exact .inr ⟨rfl, h⟩
  · exact .inl ⟨rfl, h⟩

/-- What is written to a tagged frame is not where its header is. -/
theorem not_carries_tagged (fr : Frame) (heap : ℕ → UInt8) (n : NeighborSolicit) :
    ¬ (fr.withoutOption heap).Carries 18 n := by
  intro h
  have hzero : (fr.withoutOption heap).byte 24 = 0 := by
    have := congrArg (·.getD 2 1) (fr.withoutOption_source heap)
    simpa [slice] using this
  exact absurd (h.nextHeader.symm.trans hzero) (by decide)

theorem EndsInLinkaddr_of_carries (h : fr.Carries 14 n)
    (h' : (fr.withoutOption heap).Carries 14 n.unspecified) : n.EndsInLinkaddr := by
  have hwhole := h.whole
  have hwhole' := h'.whole
  have hpl := h.payloadLength
  have hlt := payloadLength_lt fr 14
  have hpl' := h'.payloadLength
  have h16 : sizeofIpv6Header = 40 := rfl
  unfold NeighborSolicit.icmpLength at hwhole hwhole' hpl hpl'
  rw [dataLength_withoutOption] at hwhole'
  rw [withoutOption_payloadLength (by omega)] at hpl'
  have hlen : n.unspecified.optionBytes.length + 8 = n.optionBytes.length := by omega
  refine NeighborSolicit.endsInLinkaddr_iff.2 ⟨?_, hlen⟩
  rw [← h'.options, ← h.options, ← hlen, slice_add,
    withoutOption_slice (by omega) (by omega)]
  exact List.prefix_append _ _

theorem carries_unspecified (h : fr.Carries 14 n) (hn : n.EndsInLinkaddr) :
    (fr.withoutOption heap).Carries 14 n.unspecified := by
  obtain ⟨hsame, hlen⟩ := NeighborSolicit.endsInLinkaddr_iff.1 hn
  have hwhole := h.whole
  have hpl := h.payloadLength
  have hlt := payloadLength_lt fr 14
  have h16 : sizeofIpv6Header = 40 := rfl
  unfold NeighborSolicit.icmpLength at hwhole hpl
  have hslice : ∀ off k, off + k ≤ fr.dataLength - 8 →
      (off + k ≤ 18 ∨ 20 ≤ off ∧ off + k ≤ 22 ∨ 38 ≤ off ∧ off + k ≤ 56 ∨ 58 ≤ off) →
      (fr.withoutOption heap).slice off k = fr.slice off k := fun _ _ => withoutOption_slice
  have hbyte : ∀ i, i < fr.dataLength - 8 →
      (i < 18 ∨ 20 ≤ i ∧ i < 22 ∨ 38 ≤ i ∧ i < 56 ∨ 58 ≤ i) →
      (fr.withoutOption heap).byte i = fr.byte i := fun _ => withoutOption_byte
  refine ⟨?_, ?_, ?_, ?_, ?_, ?_, ?_, ?_, ?_, ?_, ?_, ?_⟩
  · rw [dataLength_withoutOption, NeighborSolicit.icmpLength]
    omega
  · exact (hslice 14 4 (by omega) (by omega)).trans h.firstWord
  · rw [withoutOption_payloadLength (by omega), NeighborSolicit.icmpLength]
    omega
  · exact (hbyte 20 (by omega) (by omega)).trans h.nextHeader
  · exact (hbyte 21 (by omega) (by omega)).trans h.hopLimit
  · exact fr.withoutOption_source heap
  · exact (hslice 38 16 (by omega) (by omega)).trans h.destination
  · exact (hbyte 54 (by omega) (by omega)).trans h.type
  · exact (hbyte 55 (by omega) (by omega)).trans h.code
  · exact (hslice 58 4 (by omega) (by omega)).trans h.reserved
  · exact (hslice 62 16 (by omega) (by omega)).trans h.target
  · have hoptions := h.options
    rw [← hlen, slice_add] at hoptions
    rw [hslice 78 _ (by omega) (by omega)]
    refine (List.prefix_of_prefix_length_le ⟨_, hoptions⟩ hsame ?_).eq_of_length ?_
    · simp
    · simp

theorem withoutOption_verifies_iff (h : 4 ≤ (fr.withoutOption heap).payloadLength 14) :
    (fr.withoutOption heap).upperLayerSum 14 ipProtoIcmp6 = 65535
      ↔ (fr.withoutOption heap).payloadLength 14 + ipProtoIcmp6.toNat < 65536 := by
  obtain ⟨x, y, hw⟩ := withoutOption_eq fr heap
  set buffer := (fr.fromNowhere heap).write 18 (u16Bytes (ntohs (fr.shortened heap))) with hbuffer
  have hstore : fr.withoutOption heap = buffer.storeIcmpChksum 14 := rfl
  have hlen : (fr.withoutOption heap).payloadLength 14 = buffer.payloadLength 14 := by
    rw [hw]
    exact payloadLength_write buffer 14 _
  rw [hlen] at h ⊢
  rw [hstore]
  exact storeIcmpChksum_verifies_iff h

end Frame

theorem sendFrame_of_icmpv6Ns (h : (fr.processed cfg f false amb).2.code = .icmpv6Ns) :
    (sendFrame cfg f fr amb).2 = (.icmpv6Ns, some (.send (fr.withoutOption amb.heap))) := by
  have hc : ((processNBL cfg f false fr.dataLength amb).val fr.byte).2.code = .icmpv6Ns := h
  rw [sendFrame]
  dsimp only
  rw [hc]

/-- What is built is right where eight bytes of the frame's end are the option to be left out, the
frame is not tagged, and the checksum loses no carry. -/
theorem rebuiltRight_iff (h : (fr.processed cfg f false amb).2.code = .icmpv6Ns) :
    RebuiltRight cfg f amb fr (fr.withoutOption amb.heap) ↔
      ntohs (u16OfBytes (fr.byte 12) (fr.byte 13)) ≠ ethernetType8021q
      ∧ ∃ n, fr.Carries sizeofEthernetHeader n ∧ n.EndsInLinkaddr
        ∧ n.icmpLength + 50 < 65536 := by
  have h58 : ipProtoIcmp6.toNat = 58 := rfl
  have h14 : sizeofEthernetHeader = 14 := rfl
  have h40 : sizeofIpv6Header = 40 := rfl
  refine ⟨fun hr => ?_, ?_⟩
  · obtain ⟨n, hn, hn'⟩ := hr.resolicited.solicit
    have hsum := hr.resolicited.checksum
    rcases fr.dataOffset_eq with ⟨hoff, htag⟩ | ⟨hoff, -⟩ <;> rw [hoff] at hn hn' hsum
    · have hends := Frame.EndsInLinkaddr_of_carries hn hn'
      obtain ⟨-, hlen⟩ := NeighborSolicit.endsInLinkaddr_iff.1 hends
      have hpl := hn'.payloadLength
      unfold NeighborSolicit.icmpLength at hpl
      rw [Frame.withoutOption_verifies_iff (by omega)] at hsum
      refine ⟨htag, n, hn, hends, ?_⟩
      unfold NeighborSolicit.icmpLength
      omega
    · exact absurd hn' (fr.not_carries_tagged amb.heap n.unspecified)
  · rintro ⟨htag, n, hn, hends, hlt⟩
    have hoff : fr.dataOffset = 14 := if_neg htag
    obtain ⟨-, hlen⟩ := NeighborSolicit.endsInLinkaddr_iff.1 hends
    have hn' : (fr.withoutOption amb.heap).Carries 14 n.unspecified :=
      Frame.carries_unspecified hn hends
    have hwhole := hn.whole
    have hpl := hn'.payloadLength
    have hdl := fr.dataLength_withoutOption amb.heap
    unfold NeighborSolicit.icmpLength at hwhole hpl hlt
    refine ⟨sendFrame_of_icmpv6Ns h, fr.withoutOptionAt_after amb.heap, ?_, ?_, ⟨n, ?_⟩, ?_⟩
    · rw [hdl]
      exact Frame.withoutOptionAt_within (by omega) (by omega)
    · rw [hoff]
      exact Frame.withoutOption_slice (by omega) (by omega)
    · rw [hoff]
      exact ⟨hn, hn'⟩
    · rw [hoff, Frame.withoutOption_verifies_iff (by omega)]
      omega

/-- The link-layer address 02:00:00:00:00:01. -/
def sampleLinkaddr : NdOption := ⟨ndOptSourceLinkaddr, [2, 0, 0, 0, 0, 1], 1, by decide⟩

/-- Which neighbour fd00::9 is, asked from fd00::1. -/
def sampleSolicit (linkaddr : Bool) : NeighborSolicit where
  firstWord := (Bytes.zero 4).move [0x60]
  hopLimit := 255
  source := (Bytes.zero 16).move [0xFD, 0, 0, 0, 0, 0, 0, 0, 0, 0, 0, 0, 0, 0, 0, 1]
  destination := (Bytes.zero 16).move [0xFF, 0x02, 0, 0, 0, 0, 0, 0, 0, 0, 0, 1, 0xFF, 0, 0, 9]
  code := 0
  reserved := .zero 4
  target := (Bytes.zero 16).move [0xFD, 0, 0, 0, 0, 0, 0, 0, 0, 0, 0, 0, 0, 0, 0, 9]
  options := if linkaddr then [sampleLinkaddr] else []

def sampleSolicitFrame (linkaddr : Bool) : Frame :=
  let n := sampleSolicit linkaddr
  .ofBytes ([0x33, 0x33, 0xFF, 0, 0, 9] ++ [2, 0, 0, 0, 0, 1] ++ [0x86, 0xDD]
    ++ n.firstWord.toList ++ [0, UInt8.ofNat n.icmpLength, ipProtoIcmp6, 255]
    ++ n.source.toList ++ n.destination.toList
    ++ [icmpv6NeighborSolicit, 0, 0, 0] ++ n.reserved.toList ++ n.target.toList ++ n.optionBytes)

theorem sampleSolicitFrame_carries (linkaddr : Bool) :
    (sampleSolicitFrame linkaddr).Carries 14 (sampleSolicit linkaddr) where
  whole := by cases linkaddr <;> decide +kernel
  firstWord := by cases linkaddr <;> decide +kernel
  payloadLength := by cases linkaddr <;> decide +kernel
  nextHeader := by cases linkaddr <;> decide +kernel
  hopLimit := by cases linkaddr <;> decide +kernel
  source := by cases linkaddr <;> decide +kernel
  destination := by cases linkaddr <;> decide +kernel
  type := by cases linkaddr <;> decide +kernel
  code := by cases linkaddr <;> decide +kernel
  reserved := by cases linkaddr <;> decide +kernel
  target := by cases linkaddr <;> decide +kernel
  options := by cases linkaddr <;> decide +kernel

theorem rebuiltRight_iff_linkaddr :
    RebuiltRight Sample.setting dualServer (Sample.ambient 0) (sampleSolicitFrame true)
      ((sampleSolicitFrame true).withoutOption (Sample.ambient 0).heap) :=
  (rebuiltRight_iff (by decide +kernel)).2 ⟨by decide +kernel, sampleSolicit true,
    sampleSolicitFrame_carries true, ⟨[], sampleLinkaddr, rfl, rfl, rfl, by simp⟩,
    by decide +kernel⟩

/-- Of a solicitation without options, eight bytes of the target are cut off. -/
theorem not_rebuiltRight :
    (sampleSolicitFrame false).Carries 14 (sampleSolicit false)
      ∧ ((sampleSolicitFrame false).processed Sample.setting dualServer false
        (Sample.ambient 0)).2.code = .icmpv6Ns
      ∧ ((sampleSolicitFrame false).withoutOption (Sample.ambient 0).heap).dataLength = 70
      ∧ ∀ built, ¬ RebuiltRight Sample.setting dualServer (Sample.ambient 0)
        (sampleSolicitFrame false) built := by
  refine ⟨sampleSolicitFrame_carries false, by decide +kernel, by decide +kernel, fun built h => ?_⟩
  have hoff : (sampleSolicitFrame false).dataOffset = 14 := by decide +kernel
  obtain ⟨n, hn, hn'⟩ := h.resolicited.solicit
  have hsent := h.sent.symm.trans (sendFrame_of_icmpv6Ns (by decide +kernel))
  have hbuilt : built = (sampleSolicitFrame false).withoutOption (Sample.ambient 0).heap := by
    simpa using hsent
  rw [hoff] at hn'
  have hwhole := hn'.whole
  have hlen : built.dataLength = 70 := by
    rw [hbuilt]
    decide +kernel
  have h40 : sizeofIpv6Header = 40 := rfl
  unfold NeighborSolicit.icmpLength at hwhole
  omega

end LcxlNetLoader
