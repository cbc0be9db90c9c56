import LcxlNetLoader.Packets
import LcxlNetLoader.Proofs.Bounds

/-!
# Where a frame goes

`ProcessNBL` of a frame of each type, and what an untagged frame and a tagged one are to
`GetEthernetData`.
-/

namespace LcxlNetLoader

open ReadLog

variable {cfg : LcxlSetting} {f : LcxlFilter} {isRecv : Bool} {amb : Ambient} {fr : Frame}
  {ty : UInt16} {data len : ℕ}

theorem toList_move {n : ℕ} (dst : Bytes n) {src : List UInt8} (h : src.length = n) :
    (dst.move src).toList = src := by
  have hd : dst.toList.drop src.length = [] := by
    rw [List.drop_eq_nil_iff, List.Vector.toList_length, h]
  show (src ++ dst.toList.drop src.length).take n = src
  rw [hd, List.append_nil, ← h, List.take_length]

theorem updatePerformance_checking (t : ServerTable) (p : ServerPtr) :
    (updatePerformance t p).val fr.byte = t.modify p fun s => { s with
      performance := if fr.checking.code = checkingCodeResponse then
        s.performance.move fr.checking.performance else s.performance } := by
  have hcode : (readU16 16).val fr.byte = fr.checking.code := rfl
  simp only [updatePerformance, val_bind, val_ite, val_pure, range_eq_slice, hcode]
  by_cases h : fr.checking.code = checkingCodeResponse
  · simp only [h, if_true]
    rfl
  · simp [h, ServerTable.modify]

theorem hear_eq (f : LcxlFilter) (now : ℤ) (c : Checking) : ∃ t, f.hear now c = f.setServers t := by
  unfold LcxlFilter.hear
  split_ifs
  · exact ⟨_, rfl⟩
  · exact ⟨f.module.serverList, rfl⟩

/-- What a checking frame received does is decided by the three things it says. -/
theorem processCheckingNBL_recv : (processCheckingNBL f true amb .zero).val fr.byte =
    (f.hear amb.now fr.checking,
      if fr.checking.code = checkingCodeRequest then
        { ProcessNblResult.zero with code := .checkingNbl }
      else .zero) := by
  have hcode : (readU16 16).val fr.byte = fr.checking.code := rfl
  unfold processCheckingNBL LcxlFilter.hear LcxlFilter.sender
  rw [if_pos rfl, val_bind, val_ite, hcode]
  by_cases hr : f.module.lcxlRole = roleRouter
  · rw [if_pos hr, val_bind, range_eq_slice]
    simp only [hr, if_true, serverResponded]
    have hfind : findServer (fun _ => false) (lockServerList f.module.serverList)
        ⟨6, (Bytes.zero 32).move (fr.slice 6 6)⟩
        = findServer (fun _ => false) f.module.serverList
          ⟨6, (Bytes.zero 32).move fr.checking.source⟩ := rfl
    rw [hfind]
    rcases findServer (fun _ => false) f.module.serverList
      ⟨6, (Bytes.zero 32).move fr.checking.source⟩ with _ | p
    · rfl
    · dsimp only
      rw [val_bind, updatePerformance_checking, ServerTable.modify_modify, val_pure]
      rfl
  · rw [if_neg hr, if_neg hr, val_pure]

namespace Frame

theorem processed_of_checking (hd : (getEthernetData fr.dataLength).val fr.byte
    = some (ethernetTypeLcxlChecking, data, len)) : fr.processed cfg f isRecv amb =
      if len ≥ sizeofLcxlCheckingHeader then (processCheckingNBL f isRecv amb .zero).val fr.byte
      else (f, .zero) := by
  unfold processed processNBL
  rw [val_bind, hd]
  simp only [if_true, val_ite, val_pure]

theorem processed_of_arp (hd : (getEthernetData fr.dataLength).val fr.byte
    = some (ethernetTypeArp, data, len)) : fr.processed cfg f isRecv amb =
      if len ≥ sizeofArpHeader ∧ f.module.virtualAddr.enabled .ipv4 then
        (f, (processARP f data f.module.virtualAddr amb .zero).val fr.byte)
      else (f, .zero) := by
  have h1 : ethernetTypeArp ≠ ethernetTypeLcxlChecking := by decide
  unfold processed processNBL
  rw [val_bind, hd]
  simp only [h1, if_false, if_true, val_ite, val_bind, val_pure]
  rfl

theorem processed_of_ipv4 (hd : (getEthernetData fr.dataLength).val fr.byte
    = some (ethernetTypeIpv4, data, len)) : fr.processed cfg f isRecv amb =
      if len ≥ sizeofIpv4Header ∧ f.module.virtualAddr.enabled .ipv4 then
        if fr.byte (data + 9) = 0x06 then
          (processTCPFrame cfg f isRecv data .ipv4 f.module.virtualAddr amb .zero).val fr.byte
        else (f, .zero)
      else (f, .zero) := by
  have h1 : ethernetTypeIpv4 ≠ ethernetTypeLcxlChecking := by decide
  have h2 : ethernetTypeIpv4 ≠ ethernetTypeArp := by decide
  unfold processed processNBL
  rw [val_bind, hd]
  simp only [h1, h2, if_false, if_true]
  rw [val_ite, val_bind, val_read, val_ite]
  rfl

theorem processed_of_ipv6 (hd : (getEthernetData fr.dataLength).val fr.byte
    = some (ethernetTypeIpv6, data, len)) : fr.processed cfg f isRecv amb =
      if len ≥ sizeofIpv6Header ∧ f.module.virtualAddr.enabled .ipv6 then
        if fr.byte (data + 6) = 0x3A then
          (f, (processICMPv6 cfg f isRecv data f.module.virtualAddr .zero).val fr.byte)
        else if fr.byte (data + 6) = 0x06 then
          (processTCPFrame cfg f isRecv data .ipv6 f.module.virtualAddr amb .zero).val fr.byte
        else if fr.byte (data + 6) = 0x11 then
          (f, (processUDP f isRecv data .ipv6 f.module.virtualAddr .zero).val fr.byte)
        else (f, .zero)
      else (f, .zero) := by
  have h1 : ethernetTypeIpv6 ≠ ethernetTypeLcxlChecking := by decide
  have h2 : ethernetTypeIpv6 ≠ ethernetTypeArp := by decide
  have h3 : ethernetTypeIpv6 ≠ ethernetTypeIpv4 := by decide
  unfold processed processNBL
  rw [val_bind, hd]
  simp only [h1, h2, h3, if_false, if_true]
  rw [val_ite, val_bind, val_read, val_ite, val_ite, val_ite]
  rfl

theorem processed_of_other (hd : (getEthernetData fr.dataLength).val fr.byte = some (ty, data, len))
    (h1 : ty ≠ ethernetTypeLcxlChecking) (h2 : ty ≠ ethernetTypeArp) (h3 : ty ≠ ethernetTypeIpv4)
    (h4 : ty ≠ ethernetTypeIpv6) : fr.processed cfg f isRecv amb = (f, .zero) := by
  unfold processed processNBL
  rw [val_bind, hd]
  simp only [h1, h2, h3, h4, if_false, val_pure]

/-- The type and data of a frame that is not tagged. -/
theorem getEthernetData_untagged (h : fr.Untagged) :
    (getEthernetData fr.dataLength).val fr.byte
      = some (ntohs (u16OfBytes (fr.byte 12) (fr.byte 13)), 14, fr.dataLength - 14) := by
  have hlen : ¬ fr.dataLength < sizeofEthernetHeader := not_lt.2 h.header
  have hread : (readU16 12).val fr.byte = u16OfBytes (fr.byte 12) (fr.byte 13) := rfl
  unfold getEthernetData
  rw [if_neg hlen, val_bind, hread, if_neg h.type]
  rfl

end Frame

end LcxlNetLoader
