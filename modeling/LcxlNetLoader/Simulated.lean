import LcxlNetLoader.DataPath

/-!
# Simulated receives

The NBLs that `FilterReceiveNetBufferLists` creates for neighbour advertisements, to be indicated up
in their place.
-/

namespace LcxlNetLoader

/-- A server is sent an advertisement to the virtual address that does not come from there. -/
structure Frame.Advertises (f : LcxlFilter) (data : ℕ) (fr : Frame) : Prop where
  lcxlRole : f.module.lcxlRole = roleServer
  enabled : f.module.virtualAddr.enabled .ipv6
  ethernetData : ∃ dataLength, sizeofIpv6Header ≤ dataLength ∧
    (getEthernetData fr.dataLength).val fr.byte = some (ethernetTypeIpv6, data, dataLength)
  nextHeader : fr.byte (data + 6) = 0x3A
  type : fr.byte (data + sizeofIpv6Header) = 136
  source : fr.slice (data + 8) 16 ≠ f.module.virtualAddr.ipv6.toList
  destination : fr.slice (data + 24) 16 = f.module.virtualAddr.ipv6.toList

/-- The frame is the other one with `mac` as its destination. -/
structure Frame.Readdressed (mac : List UInt8) (fr fr' : Frame) : Prop where
  dataLength : fr'.dataLength = fr.dataLength
  destination : ∀ i < 6, fr'.byte i = mac.getD i 0
  rest : ∀ i, 6 ≤ i → i < fr.dataLength → fr'.byte i = fr.byte i

/-- The calls that indicate NBLs from the address on. -/
def indicationsFrom (alloc : NblPtr) (calls : List NdisCall) : List NdisCall :=
  calls.filter fun c => c.routine.isIndicate && c.nbl.any (alloc ≤ ·)

namespace ReceiveCall

variable (c : ReceiveCall) (cfg : LcxlSetting) (f : LcxlFilter)

/-- The NBLs whose frames are classified as advertisements. -/
def advertised : List NblPtr :=
  (receiveVerdict cfg c.amb c.heap).select (· == .icmpv6Na) f c.nbls

/-- What the driver creates of its own. -/
abbrev owns : List OwnNbl :=
  (receiveVerdict cfg c.amb c.heap).owns (receiveOwn cfg c.amb c.heap) f c.nbls

/-- The NBLs created for them, in their order. -/
structure Created (rs : List NblPtr) : Prop where
  nodup : rs.Nodup
  fresh : ∀ y ∈ rs, c.heap.alloc ≤ y ∧ y < (c.result cfg f).heap.alloc
  frames : List.Forall₂ (fun x y => ∃ fr fr', c.heap.frame x = some fr
    ∧ (c.result cfg f).heap.frame y = some fr' ∧ fr.Readdressed f.module.macAddr.mac fr')
    (c.advertised cfg f) rs

/-- The NBLs created for advertisements go up in one call, counted, and every NBL created goes
somewhere. -/
structure Delivers : Prop where
  simulated : ∃ rs, c.Created cfg f rs ∧ ∃ flags,
    HandedOver (indicationsFrom c.heap.alloc (c.result cfg f).calls)
      (.indicateReceive c.portNumber (UInt32.ofNat rs.length)) flags rs
  referenced : ∀ y, c.heap.alloc ≤ y → y < (c.result cfg f).heap.alloc →
    ∃ call ∈ (c.result cfg f).calls, ∃ xs, call.Carries xs ∧ y ∈ xs

end ReceiveCall

end LcxlNetLoader
