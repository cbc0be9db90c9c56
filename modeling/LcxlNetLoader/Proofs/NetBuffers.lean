import LcxlNetLoader.NetBuffers
import LcxlNetLoader.Proofs.Bounds
import LcxlNetLoader.Proofs.Connections
import LcxlNetLoader.Proofs.Counters

/-!
# Frames that are forwarded from several MDLs

The copy takes as many bytes as the net buffer has, from the current MDL on. It is the frame that
was received where the data is in that MDL, or the memory behind it happens to be the rest of it.
-/

namespace LcxlNetLoader

open Linked DataPath ReadLog

namespace NetBuffer

variable {nb : NetBuffer} {memory : ℕ → UInt8} {i : ℕ}

@[simp] theorem length_data : nb.data.length = nb.dataLength :=
  Scatter.length_window (by simpa [Function.comp_def] using nb.fits)

/-- In the current MDL the data is where the driver takes it to be. -/
theorem data_getD (hi : i < nb.dataLength) (h : nb.currentMdlOffset + i < nb.currentMdl.length) :
    nb.data.getD i 0 = nb.header + i :=
  Scatter.window_getD_head hi h

theorem getD_mem_data (hi : i < nb.dataLength) : nb.data.getD i 0 ∈ nb.data := by
  rw [List.getD_eq_getElem?_getD, List.getElem?_eq_getElem (by simpa using hi), Option.getD_some]
  exact List.getElem_mem _

/-- The memory from the header on is the data just where it continues as that. -/
theorem continues_iff : nb.Continues memory ↔ ∀ i < nb.dataLength, nb.header + i ∈ nb.data
    ∧ (i < 6 ∨ 12 ≤ i → memory (nb.header + i) = memory (nb.data.getD i 0)) := by
  refine ⟨fun h i hi => ?_, fun h i _ hi => h i hi⟩
  rcases Nat.lt_or_ge (nb.currentMdlOffset + i) nb.currentMdl.length with hin | hout
  · rw [← data_getD hi hin]
    exact ⟨getD_mem_data hi, fun _ => rfl⟩
  · exact h i hout hi

theorem continues_of_le (h : nb.currentMdlOffset + nb.dataLength ≤ nb.currentMdl.length) :
    nb.Continues memory :=
  fun i hi hlt => by omega

/-- The driver reads the data only, if it finds it all, just where it keeps to its length. -/
theorem reads_data_iff {reads : List ℕ} :
    (∀ i ∈ reads ++ List.range nb.dataLength, nb.header + i ∈ nb.data)
      ↔ (∀ i < nb.dataLength, nb.header + i ∈ nb.data) ∧ ∀ i ∈ reads, i < nb.dataLength := by
  have hblock : (∀ i < nb.dataLength, nb.header + i ∈ nb.data) → ∀ i,
      nb.header + i ∈ nb.data ↔ i < nb.dataLength := by
    intro h i
    rw [Scatter.mem_iff_of_block length_data h]
    omega
  rw [List.forall_mem_append, and_comm]
  simp only [List.mem_range]
  refine and_congr_right fun hall => ?_
  exact forall₂_congr fun i _ => hblock hall i

end NetBuffer

namespace Frame

variable {cfg : LcxlSetting} {f : LcxlFilter} {fr : Frame} {amb : Ambient} {mac : List UInt8}
  {heap : ℕ → UInt8} {i : ℕ}

theorem routedTo_destination (hmac : mac.length = 6) : (fr.routedTo mac heap).slice 0 6 = mac := by
  rw [← hmac]
  exact slice_write

theorem routedTo_source (hmac : mac.length = 6) (hl : 6 ≤ fr.dataLength) :
    (fr.routedTo mac heap).slice 6 6 = fr.slice 0 6 := by
  have hcopy : (fr.copy fr.dataLength heap).slice 0 6 = fr.slice 0 6 :=
    slice_eq_iff.2 fun i hi => copy_byte (by omega)
  rw [routedTo, slice_write_of_ge (by omega), hcopy]
  calc ((fr.copy fr.dataLength heap).write 6 (fr.slice 0 6)).slice 6 6
      = ((fr.copy fr.dataLength heap).write 6 (fr.slice 0 6)).slice 6 (fr.slice 0 6).length := by
        rw [length_slice]
    _ = fr.slice 0 6 := slice_write

theorem routedTo_byte (hmac : mac.length = 6) (hi : 12 ≤ i) (hlt : i < fr.dataLength) :
    (fr.routedTo mac heap).byte i = fr.byte i := by
  rw [routedTo, write_byte_of_ge (by omega), write_byte_of_ge (by rw [length_slice]; omega),
    copy_byte hlt]

theorem tcpFits_iff {ty : UInt16} {data len protocol size : ℕ} {m : IpMode}
    (hd : (getEthernetData fr.dataLength).val fr.byte = some (ty, data, len))
    (hm : ipModeOf ty = some (m, protocol, size)) :
    fr.TcpFits ↔ (ipHeaderLength m data).val fr.byte + tcpFlagsEnd ≤ len := by
  refine ⟨fun h => h _ _ _ _ _ _ hd hm, fun h ty' data' len' m' protocol' size' hd' hm' => ?_⟩
  rw [hd] at hd'
  cases hd'
  rw [hm] at hm'
  cases hm'
  exact h

variable (cfg amb) in
/-- A packet that is routed is read within its frame just where its TCP header lies in it. -/
theorem processNBL_within_tcp {pkt : TcpPacket} (hv : vipPacket f fr = some pkt) :
    (processNBL cfg f true fr.dataLength amb).Within (· < fr.dataLength) fr.byte
      ↔ fr.TcpFits := by
  obtain ⟨ty, data, len, m, protocol, size, hd, hm, ⟨hr, hl, he, hp, hmac, hdst⟩, rfl⟩ :=
    vipPacket_eq_some.1 hv
  rw [readTcpPacket_dstAddr, range_eq_slice] at hdst
  have hlook (hprotocol : protocol = protocolOffset m) : LooksUpRoute f true fr m data :=
    ⟨hr, rfl, hprotocol ▸ hp, checkTCPNBLMacAddr_recv.1 hmac, hdst⟩
  obtain ⟨hdata, hlen⟩ := getEthernetData_eq_some hd
  unfold processNBL
  rw [ReadLog.within_bind, and_iff_right getEthernetData_within, hd, tcpFits_iff hd hm]
  simp only
  rcases ipModeOf_eq_some.1 hm with ⟨rfl, rfl, rfl, rfl⟩ | ⟨rfl, rfl, rfl, rfl⟩
  · have hread : (ReadLog.read (data + 9)).val fr.byte = 0x06 := hp
    have hhdr : data + (sourceAddress .ipv4).1 + 2 * (sourceAddress .ipv4).2 ≤ fr.dataLength := by
      simp only [sourceAddress, sizeofIpv4Header] at hl ⊢
      omega
    unfold sizeofIpv4Header at hl
    rw [if_neg (by decide), if_neg (by decide), if_pos rfl, if_pos ⟨hl, he⟩, ReadLog.within_bind,
      ReadLog.within_read, hread, if_pos rfl, processTCPFrame_within .ipv4 (by omega) hhdr hp,
      and_iff_right (by omega), imp_iff_right (hlook rfl)]
    omega
  · have hread : (ReadLog.read (data + 6)).val fr.byte = 0x06 := hp
    have hhdr : data + (sourceAddress .ipv6).1 + 2 * (sourceAddress .ipv6).2 ≤ fr.dataLength := by
      simp only [sourceAddress, sizeofIpv6Header] at hl ⊢
      omega
    unfold sizeofIpv6Header at hl
    rw [if_neg (by decide), if_neg (by decide), if_neg (by decide), if_pos rfl, if_pos ⟨hl, he⟩,
      ReadLog.within_bind, ReadLog.within_read, hread, if_neg (by decide), if_pos rfl,
      processTCPFrame_within .ipv6 (by omega) hhdr hp, and_iff_right (by omega),
      imp_iff_right (hlook rfl)]
    omega

end Frame

section Routed

variable {cfg : LcxlSetting} {f : LcxlFilter} {fr : Frame} {amb : Ambient}

theorem vipPacket_of_router (hc : (receiveFrame cfg f fr amb).2.1 = .router) :
    ∃ pkt, vipPacket f fr = some pkt := by
  rw [receiveFrame_code] at hc
  rcases hv : vipPacket f fr with _ | pkt
  · rcases hs : checkingSource f fr with _ | mac
    · rcases (processNBL_other cfg amb hv hs).2 with h | h | h | h <;> rw [h] at hc <;> cases hc
    · obtain ⟨t, code, hcode, hval, -⟩ := processNBL_checking cfg amb hs
      rw [hval] at hc
      rcases hcode with rfl | rfl <;> cases hc
  · exact ⟨pkt, rfl⟩

/-- A frame that is routed goes to the server of its route. -/
theorem routed_forwardedTo (h : f.routeTable.Rest)
    (hc : (receiveFrame cfg f fr amb).2.1 = .router) :
    ∃ server, ForwardedTo cfg f fr amb server := by
  obtain ⟨pkt, hv⟩ := vipPacket_of_router hc
  have hbusy := routeTCPNBL_busy h cfg pkt amb.now amb.later
  rw [receiveFrame_vip_router hv] at hc
  rcases hq : (routeTCPNBL cfg f pkt amb.now amb.later).2 with _ | q
  · rw [hq] at hc
    cases hc
  · rw [hq] at hbusy
    obtain ⟨r, hr, hrq, -⟩ := hbusy.entry q rfl
    obtain ⟨server, hserver⟩ := hbusy.served r hr
    exact ⟨server, forwardedTo_of_route hv hq hbusy.toOk hr hrq hserver⟩

theorem receiveVerdict_rest {h : NblHeap} {ambs : NblPtr → Ambient} {x : NblPtr}
    (hr : f.routeTable.Rest) : (receiveVerdict cfg ambs h f x).1.routeTable.Rest := by
  unfold receiveVerdict receiveNbl
  rcases h.frame x with _ | fr
  · exact hr
  · rcases hv : vipPacket f fr with _ | pkt
    · exact (receive_not_vip cfg (ambs x) hv).1 ▸ hr
    · exact (receive_vip cfg (ambs x) hr hv).1

theorem after_rest {h : NblHeap} {ambs : NblPtr → Ambient} : ∀ (xs : List NblPtr)
    (f : LcxlFilter), f.routeTable.Rest →
    ((receiveVerdict cfg ambs h).after f xs).routeTable.Rest
  | [], _, hr => hr
  | _ :: xs, _, hr => after_rest xs _ (receiveVerdict_rest hr)

end Routed

/-- What is copied is the frame received as far as the memory has that where it is copied from. -/
theorem NetBuffer.forwarded_iff (nb : NetBuffer) (memory heap : ℕ → UInt8) {mac : List UInt8}
    (hmac : mac.length = 6) (hl : 6 ≤ nb.dataLength) :
    (nb.frame memory).Forwarded mac ((nb.seen memory).routedTo mac heap)
      ↔ ∀ i < nb.dataLength, i < 6 ∨ 12 ≤ i →
        memory (nb.header + i) = memory (nb.data.getD i 0) := by
  have hsource : ((nb.seen memory).routedTo mac heap).slice 6 6 = (nb.seen memory).slice 0 6 :=
    Frame.routedTo_source hmac hl
  have hrest (i : ℕ) (hi : 12 ≤ i) (hlt : i < nb.dataLength) :
      ((nb.seen memory).routedTo mac heap).byte i = memory (nb.header + i) :=
    Frame.routedTo_byte hmac hi hlt
  constructor
  · intro h i hlt hi
    rcases hi with hi | hi
    · have hslice := slice_eq_iff.1 (hsource.symm.trans h.source) i hi
      rwa [Nat.zero_add] at hslice
    · rw [← hrest i hi hlt]
      exact h.rest i hi hlt
  · intro h
    refine ⟨rfl, Frame.routedTo_destination hmac, hsource.trans (slice_eq_iff.2 fun i hi => ?_),
      fun i hi hlt => (hrest i hi hlt).trans (h i hlt (.inr hi))⟩
    rw [Nat.zero_add]
    exact h i (by omega) (.inl hi)

namespace BufferedCall

variable {c : BufferedCall} {cfg : LcxlSetting} {f : LcxlFilter} {before behind : List NblPtr}
  {x : NblPtr}

/-- The frames sent for an NBL come between those sent for the NBLs around it. -/
theorem sentFrames_split (hnbls : c.nbls = before ++ x :: behind) (hf : f.state = .running) :
    (c.result cfg f).sentFrames = c.sentFor cfg f before
      ++ (((receiveOwn cfg c.amb c.heap (c.after cfg f before) x).bind OwnNbl.sent).toList
        ++ c.sentFor cfg (c.after cfg f (before ++ [x])) behind) := by
  obtain ⟨ss, rs, ho, hs, -⟩ := receive_sent cfg c.amb c.left c.portNumber
    (UInt32.ofNat c.nbls.length) c.receiveFlags c.chain le_rfl c.alloc hf
  have hsent : (c.result cfg f).sentFrames = c.sentFor cfg f c.nbls := by
    have hnbls : (c.result cfg f).nbls NdisRoutine.isSend = ss := hs
    rw [DataPath.sentFrames, hnbls]
    exact ho.sent_frames
  have hafter : c.after cfg f (before ++ [x])
      = (receiveVerdict cfg c.amb c.heap (c.after cfg f before) x).1 :=
    Verdict.after_append ..
  rw [hsent, hnbls, hafter, sentFor, Verdict.owns_append, List.filterMap_append, Verdict.owns,
    List.filterMap_append]
  congr 2
  show (receiveOwn cfg c.amb c.heap (c.after cfg f before) x).toList.filterMap OwnNbl.sent = _
  rcases receiveOwn cfg c.amb c.heap (c.after cfg f before) x with _ | o
  · rfl
  · rcases ho : OwnNbl.sent o with _ | fr <;> simp [ho]

/-- The frame of an NBL that is routed is the one that is seen of its net buffer. -/
theorem frame_of_router (hx : x ∈ c.nbls)
    (hc : (receiveVerdict cfg c.amb c.heap f x).2 = .router) :
    c.heap.frame x = some ((c.netBuffer x).seen c.memory)
      ∧ (receiveFrame cfg f ((c.netBuffer x).seen c.memory) (c.amb x)).2.1 = .router := by
  unfold receiveVerdict receiveNbl at hc
  have hframe := c.frames x hx
  rcases hfr : c.heap.frame x with _ | fr
  · rw [hfr] at hc
    cases hc
  · rw [hfr] at hc hframe
    have hseen : fr = (c.netBuffer x).seen c.memory := by
      obtain ⟨header, hheader, rfl⟩ := Option.map_eq_some_iff.1 hframe.symm
      simp only [NetBuffer.getEthernetHeader, Option.ite_none_right_eq_some, Option.some.injEq]
        at hheader
      rw [← hheader.2]
      rfl
    rw [← hseen]
    exact ⟨rfl, hc⟩

/-- What is sent for an NBL that is routed. -/
theorem sent_of_router (hnbls : c.nbls = before ++ x :: behind) (hf : f.state = .running)
    (hrest : f.routeTable.Rest)
    (hc : (receiveVerdict cfg c.amb c.heap (c.after cfg f before) x).2 = .router) :
    ∃ server, RoutesTo cfg (c.after cfg f before) ((c.netBuffer x).seen c.memory) (c.amb x) server
      ∧ (c.result cfg f).sentFrames = c.sentFor cfg f before
        ++ ((c.netBuffer x).seen c.memory).routedTo
          ((c.after cfg f before).module.serverList.mem server).info.macAddr.mac (c.amb x).heap
        :: c.sentFor cfg (c.after cfg f (before ++ [x])) behind := by
  obtain ⟨hframe, hrouter⟩ := frame_of_router (hnbls ▸ by simp) hc
  obtain ⟨server, -, hown, hroute⟩ := routed_forwardedTo (after_rest before f hrest) hrouter
  refine ⟨server, hroute, ?_⟩
  have hnbl : receiveOwn cfg c.amb c.heap (c.after cfg f before) x
      = (receiveFrame cfg (c.after cfg f before) ((c.netBuffer x).seen c.memory)
          (c.amb x)).2.2 := by
    unfold receiveOwn receiveNbl
    rw [hframe]
  rw [sentFrames_split hnbls hf, hnbl]
  simp only [after] at hown ⊢
  rw [hown]
  rfl

/-- A frame that is routed is no shorter than its addresses. -/
theorem length_of_router (hx : x ∈ c.nbls)
    (hc : (receiveVerdict cfg c.amb c.heap f x).2 = .router) : 14 ≤ (c.netBuffer x).dataLength := by
  obtain ⟨pkt, hv⟩ := vipPacket_of_router (frame_of_router hx hc).2
  obtain ⟨ty, data, len, -, -, -, hd, -⟩ := vipPacket_eq_some.1 hv
  have hlen := getEthernetData_eq_some hd
  have hseen : ((c.netBuffer x).seen c.memory).dataLength = (c.netBuffer x).dataLength := rfl
  omega

/-- What is read of an NBL that is routed is its net buffer's just where that goes on behind its
current MDL, and has the TCP header in it. -/
theorem reads_iff (hx : x ∈ c.nbls) (hc : (receiveVerdict cfg c.amb c.heap f x).2 = .router) :
    (∀ i ∈ ((c.netBuffer x).seen c.memory).routerReads cfg f (c.amb x),
      (c.netBuffer x).header + i ∈ (c.netBuffer x).data)
      ↔ (∀ i < (c.netBuffer x).dataLength, (c.netBuffer x).header + i ∈ (c.netBuffer x).data)
        ∧ ((c.netBuffer x).seen c.memory).TcpFits := by
  obtain ⟨pkt, hv⟩ := vipPacket_of_router (frame_of_router hx hc).2
  rw [← Frame.processNBL_within_tcp cfg (c.amb x) hv]
  exact NetBuffer.reads_data_iff

/-- In every state of a run: an NBL that is routed is forwarded as its net buffer has it exactly
where the memory behind the current MDL goes on with the data that is not in it, if there is any,
and the TCP header ends in the data. -/
theorem forwards_iff {f₀ : LcxlFilter} {tr : List Event} {s : Traced}
    (h : Sys.Run (Traced.Step cfg) (Traced.start f₀) tr s) (hf : s.filter.state = .running)
    (hnbls : c.nbls = before ++ x :: behind)
    (hc : (receiveVerdict cfg c.amb c.heap (c.after cfg s.filter before) x).2 = .router) :
    c.Forwards cfg s.filter before x behind
      ↔ (c.netBuffer x).Continues c.memory ∧ ((c.netBuffer x).seen c.memory).TcpFits := by
  have hx : x ∈ c.nbls := hnbls ▸ by simp
  obtain ⟨server, hroute, hsent⟩ := sent_of_router hnbls hf (Traced.tracks h).rest hc
  have hlen := length_of_router hx hc
  have hreads := reads_iff hx hc
  have hmac := length_mac ((c.after cfg s.filter before).module.serverList.mem server).info.macAddr
  have hforwarded := (c.netBuffer x).forwarded_iff c.memory (c.amb x).heap hmac (by omega)
  rw [NetBuffer.continues_iff]
  constructor
  · rintro ⟨⟨server', fr, -, hsent', hfr⟩, hr⟩
    obtain ⟨hdata, htcp⟩ := hreads.1 hr
    obtain ⟨rfl, -⟩ := List.cons.inj (List.append_cancel_left (hsent'.symm.trans hsent))
    have hvalues := hforwarded.1
      ⟨hfr.dataLength, Frame.routedTo_destination hmac, hfr.source, hfr.rest⟩
    exact ⟨fun i hi => ⟨hdata i hi, hvalues i hi⟩, htcp⟩
  · rintro ⟨hcont, htcp⟩
    exact ⟨⟨server, _, hroute, hsent, hforwarded.2 fun i hi => (hcont i hi).2⟩,
      hreads.2 ⟨fun i hi => (hcont i hi).1, htcp⟩⟩

end BufferedCall

namespace Sample

/-- A packet of a connection that is open, of its headers at 1000 and six bytes at 5000. -/
def packetMemory (a : ℕ) : UInt8 :=
  if a < 5000 then ((tcpFrame thAck).write 17 [46]).byte (a - 1000) else UInt8.ofNat (a - 4999)

def splitBuffer : NetBuffer where
  currentMdl := ⟨1000, 54⟩
  mapped := true
  next := [⟨5000, 6⟩]
  currentMdlOffset := 0
  dataLength := 60
  begins := by decide
  fits := by decide

/-- The headers, with six bytes behind them. -/
def wholeBuffer : NetBuffer where
  currentMdl := ⟨1000, 60⟩
  mapped := true
  next := []
  currentMdlOffset := 0
  dataLength := 60
  begins := by decide
  fits := by decide

def buffered (nb : NetBuffer) (h : nb.mapped) : BufferedCall where
  toReceiveCall := receive (nb.seen packetMemory)
  memory := packetMemory
  netBuffer _ := nb
  frames _ _ := by
    simp only [NetBuffer.ethernetFrame, NetBuffer.getEthernetHeader, h, if_true, Option.map_some]
    rfl

end Sample

open Sample Traced in
theorem forwards_iff_whole :
    (buffered wholeBuffer rfl).Forwards setting opened.filter [] 0 [] := by
  have hcontinues : wholeBuffer.Continues packetMemory :=
    NetBuffer.continues_of_le (by decide)
  have hdata : (getEthernetData (wholeBuffer.seen packetMemory).dataLength).val
      (wholeBuffer.seen packetMemory).byte = some (ethernetTypeIpv4, 14, 46) := by
    decide +kernel
  have hfits : (wholeBuffer.seen packetMemory).TcpFits :=
    (Frame.tcpFits_iff hdata rfl).2 (by decide +kernel)
  exact (BufferedCall.forwards_iff (c := buffered wholeBuffer rfl) opened_run rfl rfl
    (by decide +kernel)).2 ⟨hcontinues, hfits⟩

open Sample Traced in
/-- The six bytes in the second MDL are not those that are sent. -/
theorem not_forwards : ¬ ∀ (cfg : LcxlSetting) (f₀ : LcxlFilter) (tr : List Event) (s : Traced)
    (c : BufferedCall) (before behind : List NblPtr) (x : NblPtr),
    Sys.Run (Step cfg) (start f₀) tr s → s.filter.state = .running →
    c.nbls = before ++ x :: behind →
    (receiveVerdict cfg c.amb c.heap (c.after cfg s.filter before) x).2 = .router →
    c.Forwards cfg s.filter before x behind := by
  intro h
  have hreads := (h setting router opening opened (buffered splitBuffer rfl) [] [] 0 opened_run rfl
    rfl (by decide +kernel)).reads 54 (List.mem_append_right _ (by decide))
  revert hreads
  decide +kernel

end LcxlNetLoader
