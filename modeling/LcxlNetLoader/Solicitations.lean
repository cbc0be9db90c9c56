import LcxlNetLoader.Lib.BufferLog
import LcxlNetLoader.Checksum
import LcxlNetLoader.Packets

/-!
# Solicitations

What a server sends in ICMPv6 that asks for a neighbour or for a router, what a neighbour
solicitation says, and the one that the filter builds from it, as it is to be: from no address, and
without the option that says which link-layer address the source has.
-/

namespace LcxlNetLoader

def icmpv6RouterSolicit : UInt8 := 133
def icmpv6NeighborSolicit : UInt8 := 135

/-- The type of the ICMPv6 message in a packet. -/
def IpPacket.icmpType (p : IpPacket .ipv6) : UInt8 := p.frame.byte (p.data + sizeofIpv6Header)

/-- No message but a neighbour solicitation is rewritten, and what asks for a router from the
virtual address is dropped with nothing sent in its place. -/
structure OnlySolicitations (cfg : LcxlSetting) (f : LcxlFilter) (amb : Ambient)
    (p : IpPacket .ipv6) : Prop where
  rewritten : (p.frame.processed cfg f false amb).2.code = .icmpv6Ns →
    p.icmpType = icmpv6NeighborSolicit
  dropped : p.icmpType = icmpv6RouterSolicit → p.source = f.module.virtualAddr.virtualIp .ipv6 →
    (p.frame.processed cfg f false amb).2.code = .drop
      ∧ (sendFrame cfg f p.frame amb).2 = (.drop, none)

/-! ## What a solicitation says -/

/-- An option of neighbour discovery, which is a number of eight bytes long. -/
structure NdOption where
  type : UInt8
  value : List UInt8
  whole : ∃ n, 0 < n ∧ n < 256 ∧ value.length + 2 = 8 * n

/-- The source link-layer address. -/
def ndOptSourceLinkaddr : UInt8 := 1

namespace NdOption

def bytes (o : NdOption) : List UInt8 :=
  o.type :: UInt8.ofNat ((o.value.length + 2) / 8) :: o.value

end NdOption

structure NeighborSolicit where
  firstWord : Bytes 4
  hopLimit : UInt8
  source : Bytes 16
  destination : Bytes 16
  code : UInt8
  reserved : Bytes 4
  target : Bytes 16
  options : List NdOption

namespace NeighborSolicit

variable (n : NeighborSolicit)

def optionBytes : List UInt8 := n.options.flatMap (·.bytes)

/-- The length of the ICMPv6 message. -/
def icmpLength : ℕ := 24 + n.optionBytes.length

/-- The same from `::`, without the source's link-layer address. -/
def unspecified : NeighborSolicit :=
  { n with
    source := Bytes.zero 16
    options := n.options.filter fun o => o.type ≠ ndOptSourceLinkaddr }

/-- The source's link-layer address, of six bytes, is the option at the end and none before it. -/
def EndsInLinkaddr : Prop :=
  ∃ opts o, n.options = opts ++ [o] ∧ o.type = ndOptSourceLinkaddr ∧ o.value.length = 6
    ∧ ∀ o' ∈ opts, o'.type ≠ ndOptSourceLinkaddr

end NeighborSolicit

namespace Frame

variable (fr : Frame)

/-- Where the Ethernet header ends. -/
def dataOffset : ℕ :=
  if ntohs (u16OfBytes (fr.byte 12) (fr.byte 13)) = ethernetType8021q then sizeofEthernetHeader + 4
  else sizeofEthernetHeader

/-- The solicitation lies whole in the frame, of which any bytes after it are padding. What its
checksum is is left open. -/
structure Carries (hdr : ℕ) (n : NeighborSolicit) : Prop where
  whole : hdr + sizeofIpv6Header + n.icmpLength ≤ fr.dataLength
  firstWord : fr.slice hdr 4 = n.firstWord.toList
  payloadLength : fr.payloadLength hdr = n.icmpLength
  nextHeader : fr.byte (hdr + 6) = ipProtoIcmp6
  hopLimit : fr.byte (hdr + 7) = n.hopLimit
  source : fr.slice (hdr + 8) 16 = n.source.toList
  destination : fr.slice (hdr + 24) 16 = n.destination.toList
  type : fr.byte (hdr + 40) = icmpv6NeighborSolicit
  code : fr.byte (hdr + 41) = n.code
  reserved : fr.slice (hdr + 44) 4 = n.reserved.toList
  target : fr.slice (hdr + 48) 16 = n.target.toList
  options : fr.slice (hdr + 64) n.optionBytes.length = n.optionBytes

/-- `built` has behind the same Ethernet header the same solicitation from `::`, with a checksum
that is right. -/
structure Resolicited (built : Frame) : Prop where
  ethernet : built.slice 0 fr.dataOffset = fr.slice 0 fr.dataOffset
  solicit : ∃ n, fr.Carries fr.dataOffset n ∧ built.Carries fr.dataOffset n.unspecified
  checksum : built.upperLayerSum fr.dataOffset ipProtoIcmp6 = 65535

/-- What `FilterSendNetBufferLists` does in the buffer for the solicitation it builds. -/
def withoutOptionAt : BufferLog UInt8 Unit := do
  let hdr := sizeofEthernetHeader
  BufferLog.write 0 (fr.slice 0 (fr.dataLength - 2 - 6))
  BufferLog.write (hdr + 8) (List.replicate 16 0)
  let payloadLength := ntohs (← BufferLog.get (readU16 (hdr + 4)))
  BufferLog.write (hdr + 4) (u16Bytes (ntohs (payloadLength - 2 - 6)))
  BufferLog.write (hdr + sizeofIpv6Header + 2) [0, 0]
  let chksum ← BufferLog.get (calcUpperLayerChksumAt hdr ipProtoIcmp6)
  BufferLog.write (hdr + sizeofIpv6Header + 2) (u16Bytes (ntohs chksum))

end Frame

/-- The frame that is sent in place of a solicitation is built within its buffer, and is the
solicitation as it is to be. -/
structure RebuiltRight (cfg : LcxlSetting) (f : LcxlFilter) (amb : Ambient) (fr built : Frame) :
    Prop where
  sent : (sendFrame cfg f fr amb).2 = (.icmpv6Ns, some (.send built))
  after : fr.withoutOptionAt.after amb.heap = built.byte
  within : fr.withoutOptionAt.Within (· < built.dataLength) amb.heap
  resolicited : fr.Resolicited built

end LcxlNetLoader
