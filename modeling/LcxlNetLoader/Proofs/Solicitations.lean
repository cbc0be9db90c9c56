import LcxlNetLoader.Solicitations
import LcxlNetLoader.Proofs.Checksum
import LcxlNetLoader.Proofs.Families

/-!
# Which solicitations go out, and as what

A router solicitation falls through to what is meant for neighbour solicitations, which overwrites
that it was to be dropped. What is built from a solicitation is right for one kind of solicitation:
eight bytes are cut off at its end whatever they are.
-/

namespace LcxlNetLoader

open ReadLog OnesComplement

variable {cfg : LcxlSetting} {f : LcxlFilter} {amb : Ambient} {fr : Frame} {heap : ℕ → UInt8}

/-! ## What is rewritten -/

section Codes

variable {p : IpPacket .ipv6}

theorem processed_of_icmp (he : f.module.virtualAddr.enabled .ipv6)
    (hp : p.protocol = ipProtoIcmp6) : p.frame.processed cfg f false amb
      = (f, (processICMPv6 cfg f false p.data f.module.virtualAddr .zero).val p.frame.byte) := by
  rw [Frame.processed_of_ipv6 p.ethernet, if_pos ⟨p.fits, he⟩]
  exact if_pos hp

theorem processSolicit_sent (a : LcxlAddrInfo) (source destination : List UInt8)
    (result : ProcessNblResult) : (processSolicit false a source destination result).code =
      if destination = solicitedNodeMulticastAddress a.ipv6 ∨ destination = a.virtualIp .ipv6
      then .drop
      else if source = a.virtualIp .ipv6 then .icmpv6Ns
      else result.code := by
  have hv : a.virtualIp .ipv6 = a.ipv6.toList := rfl
  rw [processSolicit, hv]
  by_cases hd : destination = solicitedNodeMulticastAddress a.ipv6 ∨ destination = a.ipv6.toList
  · rw [if_pos hd, if_pos hd]
  · rw [if_neg hd, if_neg hd]
    by_cases hs : source = a.ipv6.toList
    · rw [if_pos ⟨by simp, hs⟩, if_pos hs]
    · rw [if_neg fun h => hs h.2, if_neg hs]

/-- What becomes of the messages that are told apart when they are sent. -/
theorem code_of_icmp (cfg : LcxlSetting) (amb : Ambient) (hr : f.module.lcxlRole = roleServer)
    (he : f.module.virtualAddr.enabled .ipv6) (hp : p.protocol = ipProtoIcmp6) :
    (p.frame.processed cfg f false amb).2.code =
      if p.icmpType = icmpv6RouterSolicit ∨ p.icmpType = icmpv6NeighborSolicit then
        if p.destination = solicitedNodeMulticastAddress f.module.virtualAddr.ipv6
            ∨ p.destination = f.module.virtualAddr.virtualIp .ipv6 then .drop
        else if p.source = f.module.virtualAddr.virtualIp .ipv6 then .icmpv6Ns
        else .pass
      else if p.icmpType = 136 ∧ p.source = f.module.virtualAddr.virtualIp .ipv6 then .drop
      else .pass := by
  rw [processed_of_icmp he hp]
  simp only [processICMPv6, val_bind, val_ite, val_pure, ite_self, if_pos hr, val_read,
    range_eq_slice]
  have htype : p.frame.byte (p.data + sizeofIpv6Header) = p.icmpType := rfl
  have hsource : p.frame.slice (p.data + 8) 16 = p.source := rfl
  have hdest : p.frame.slice (p.data + 24) 16 = p.destination := rfl
  have hv : f.module.virtualAddr.ipv6.toList = f.module.virtualAddr.virtualIp .ipv6 := rfl
  rw [htype, hsource, hdest, hv, show (133 : UInt8) = icmpv6RouterSolicit from rfl,
    show (135 : UInt8) = icmpv6NeighborSolicit from rfl]
  by_cases h133 : p.icmpType = icmpv6RouterSolicit
  · have hsolicit : p.icmpType = icmpv6RouterSolicit ∨ p.icmpType = icmpv6NeighborSolicit :=
      .inl h133
    rw [if_pos h133, processSolicit_sent, if_pos hsolicit]
    by_cases hs : p.source = f.module.virtualAddr.virtualIp .ipv6
    · rw [if_pos hs, if_pos hs]
    · have hs' : ¬ (p.source = f.module.virtualAddr.virtualIp .ipv6 ∧ ¬ false = true) :=
        fun h => hs h.1
      rw [if_neg hs, if_neg hs', if_neg hs]
      rfl
  · rw [if_neg h133]
    by_cases h135 : p.icmpType = icmpv6NeighborSolicit
    · have hsolicit : p.icmpType = icmpv6RouterSolicit ∨ p.icmpType = icmpv6NeighborSolicit :=
        .inr h135
      rw [if_pos h135, processSolicit_sent, if_pos hsolicit]
      rfl
    · rw [if_neg h135, if_neg (not_or.2 ⟨h133, h135⟩)]
      by_cases h136 : p.icmpType = 136
      · rw [if_pos h136]
        by_cases hs : p.source = f.module.virtualAddr.virtualIp .ipv6
        · rw [if_pos hs, if_pos ⟨h136, hs⟩]
        · rw [if_neg hs, if_neg fun h => Bool.false_ne_true h.2, if_neg fun h => hs h.2]
          rfl
      · rw [if_neg h136, if_neg fun h => h136 h.1]
        rfl

theorem sendFrame_of_drop (h : (fr.processed cfg f false amb).2.code = .drop) :
    (sendFrame cfg f fr amb).2 = (.drop, none) := by
  have hc : ((processNBL cfg f false fr.dataLength amb).val fr.byte).2.code = .drop := h
  rw [sendFrame]
  dsimp only
  rw [hc]

/-- Only neighbour solicitations are rewritten, and router solicitations from the virtual address
dropped, unless one of the latter goes to another address than those that solicitations are always
dropped for. -/
theorem onlySolicitations_iff (hr : f.module.lcxlRole = roleServer)
    (he : f.module.virtualAddr.enabled .ipv6) (hp : p.protocol = ipProtoIcmp6) :
    OnlySolicitations cfg f amb p ↔ ¬ (p.icmpType = icmpv6RouterSolicit
      ∧ p.source = f.module.virtualAddr.virtualIp .ipv6
      ∧ p.destination ≠ f.module.virtualAddr.virtualIp .ipv6
      ∧ p.destination ≠ solicitedNodeMulticastAddress f.module.virtualAddr.ipv6) := by
  have hcode := code_of_icmp cfg amb hr he hp
  have hne : icmpv6RouterSolicit ≠ icmpv6NeighborSolicit := by decide
  refine ⟨fun h hbad => ?_, fun h => ⟨fun hns => ?_, fun htype hsource => ?_⟩⟩
  · obtain ⟨htype, hsource, hd, hd'⟩ := hbad
    rw [if_pos (.inl htype), if_neg (not_or.2 ⟨hd', hd⟩), if_pos hsource] at hcode
    exact hne (htype.symm.trans (h.rewritten hcode))
  · rw [hns] at hcode
    by_contra h135
    split_ifs at hcode with h1 h2 h3
    rcases h1 with h1 | h1
    · rw [not_or] at h2
      exact h ⟨h1, h3, h2.2, h2.1⟩
    · exact h135 h1
  · have hd : p.destination = solicitedNodeMulticastAddress f.module.virtualAddr.ipv6
        ∨ p.destination = f.module.virtualAddr.virtualIp .ipv6 := by
      by_contra hd
      rw [not_or] at hd
      exact h ⟨htype, hsource, hd.2, hd.1⟩
    rw [if_pos (.inl htype), if_pos hd] at hcode
    exact ⟨hcode, sendFrame_of_drop hcode⟩

end Codes

def sampleType (neighbor : Bool) : UInt8 :=
  if neighbor then icmpv6NeighborSolicit else icmpv6RouterSolicit

/-- A solicitation from fd00::1, the virtual address of `dualServer`, to ff02::2. -/
def sampleMessage (neighbor : Bool) : IpPacket .ipv6 where
  frame := .ofBytes ([0x33, 0x33, 0, 0, 0, 2] ++ [2, 0, 0, 0, 0, 1] ++ [0x86, 0xDD]
    ++ [0x60, 0, 0, 0, 0, 8, ipProtoIcmp6, 255]
    ++ [0xFD, 0, 0, 0, 0, 0, 0, 0, 0, 0, 0, 0, 0, 0, 0, 1]
    ++ [0xFF, 0x02, 0, 0, 0, 0, 0, 0, 0, 0, 0, 0, 0, 0, 0, 2]
    ++ [sampleType neighbor, 0, 0, 0, 0, 0, 0, 0])
  data := 14
  dataLength := 48
  ethernet := by cases neighbor <;> decide +kernel
  header := by cases neighbor <;> decide +kernel
  fits := by cases neighbor <;> decide +kernel

theorem onlySolicitations_iff_neighbor :
    OnlySolicitations Sample.setting dualServer (Sample.ambient 0)
      (sampleMessage true) :=
  (onlySolicitations_iff (by decide) (by decide) (by decide +kernel)).2 (by decide +kernel)

/-- A router solicitation from the virtual address is sent on as a neighbour solicitation. -/
theorem not_onlySolicitations :
    (sampleMessage false).icmpType = icmpv6RouterSolicit
      ∧ (sampleMessage false).source = dualServer.module.virtualAddr.virtualIp .ipv6
      ∧ ((sampleMessage false).frame.processed Sample.setting dualServer false
        (Sample.ambient 0)).2.code = .icmpv6Ns
      ∧ ¬ OnlySolicitations Sample.setting dualServer (Sample.ambient 0)
        (sampleMessage false) := by
  refine ⟨by decide +kernel, by decide +kernel, by decide +kernel, fun h => ?_⟩
  exact absurd (h.rewritten (by decide +kernel)) (by decide +kernel)

end LcxlNetLoader
