import LcxlNetLoader.Bounds

/-!
# Packets in frames

The packets that the handlers tell apart, by where their fields lie on the wire: a segment carried
by either family, a frame with an 802.1Q tag put in, a neighbour advertisement and an ARP packet.
-/

namespace LcxlNetLoader

/-- `ProcessNBL` of the whole frame. -/
def Frame.processed (cfg : LcxlSetting) (f : LcxlFilter) (isRecv : Bool) (amb : Ambient)
    (fr : Frame) : LcxlFilter × ProcessNblResult :=
  (processNBL cfg f isRecv fr.dataLength amb).val fr.byte

/-! ## A segment in either family -/

def ethernetTypeOf : IpMode → UInt16
  | .ipv4 => ethernetTypeIpv4
  | .ipv6 => ethernetTypeIpv6

def sizeofIpHeader : IpMode → ℕ
  | .ipv4 => sizeofIpv4Header
  | .ipv6 => sizeofIpv6Header

def ipProtoTcp : UInt8 := 0x06
def ipProtoUdp : UInt8 := 0x11

/-- A frame, tagged or not, of which the `dataLength` bytes from `data` on are an IP packet whose
header is as long as it has to be and lies in the frame. -/
structure IpPacket (ipMode : IpMode) where
  frame : Frame
  data : ℕ
  dataLength : ℕ
  ethernet : (getEthernetData frame.dataLength).val frame.byte
    = some (ethernetTypeOf ipMode, data, dataLength)
  header : sizeofIpHeader ipMode ≤ (ipHeaderLength ipMode data).val frame.byte
  fits : (ipHeaderLength ipMode data).val frame.byte ≤ dataLength

namespace IpPacket

variable {m : IpMode} (p : IpPacket m)

def macs : List UInt8 := p.frame.slice 0 12

def protocol : UInt8 := p.frame.byte (p.data + protocolOffset m)

def source : List UInt8 := p.frame.slice (p.data + (sourceAddress m).1) (sourceAddress m).2

def destination : List UInt8 :=
  p.frame.slice (p.data + (sourceAddress m).1 + (sourceAddress m).2) (sourceAddress m).2

def headerLength : ℕ := (ipHeaderLength m p.data).val p.frame.byte

def payload : List UInt8 :=
  p.frame.slice (p.data + p.headerLength) (p.dataLength - p.headerLength)

/-- The segment follows the header, and what is after it is padding. -/
structure Carries (protocol : UInt8) (segment : List UInt8) : Prop where
  protocol : p.protocol = protocol
  segment : segment <+: p.payload

end IpPacket

/-- The packets go between the same MAC addresses, and have the virtual address at the same ends. -/
structure SameEnds (a : LcxlAddrInfo) (p : IpPacket .ipv4) (q : IpPacket .ipv6) : Prop where
  macs : p.macs = q.macs
  source : p.source = a.virtualIp .ipv4 ↔ q.source = a.virtualIp .ipv6
  destination : p.destination = a.virtualIp .ipv4 ↔ q.destination = a.virtualIp .ipv6

/-- A UDP packet of a server that has the virtual address at the end the packet has reached here. -/
structure IpPacket.VirtualUdp {m : IpMode} (p : IpPacket m) (f : LcxlFilter) (isRecv : Bool) :
    Prop where
  role : f.module.lcxlRole = roleServer
  protocol : p.protocol = ipProtoUdp
  address : (if isRecv then p.destination else p.source) = f.module.virtualAddr.virtualIp m

/-! ## A checking frame -/

/-- What a checking frame says, and the address it comes from. -/
structure Checking where
  code : UInt16
  performance : List UInt8
  source : List UInt8
deriving DecidableEq

/-- The frame as `ETHERNET_LCXL_CHECKING`. -/
def Frame.checking (fr : Frame) : Checking where
  code := u16OfBytes (fr.byte 16) (fr.byte 17)
  performance := fr.slice 24 40
  source := fr.slice 6 6

/-- A server once a checking frame from it was received at time `now`. -/
def ServerInfoListEntry.heard (s : ServerInfoListEntry) (now : ℤ) (c : Checking) :
    ServerInfoListEntry :=
  { s with
    timestamp := now
    info := { s.info with status := (s.info.status ||| ssOnline) &&& ~~~ssChecking }
    performance :=
      if c.code = checkingCodeResponse then s.performance.move c.performance else s.performance }

/-- The server that a router takes a checking frame to come from. -/
def LcxlFilter.sender (f : LcxlFilter) (c : Checking) : Option ServerPtr :=
  if f.module.lcxlRole = roleRouter then
    findServer (fun _ => false) f.module.serverList ⟨6, (Bytes.zero 32).move c.source⟩
  else none

/-- What receiving a checking frame leaves of the servers. -/
def LcxlFilter.hear (f : LcxlFilter) (now : ℤ) (c : Checking) : LcxlFilter :=
  if f.module.lcxlRole = roleRouter then
    let t := lockServerList f.module.serverList
    let t := match f.sender c with
      | some p => t.modify p (·.heard now c)
      | none => t
    f.setServers (unlockServerList t)
  else f

/-! ## A tag -/

/-- The frame is no shorter than its header, and not tagged. -/
structure Frame.Untagged (fr : Frame) : Prop where
  header : sizeofEthernetHeader ≤ fr.dataLength
  type : ntohs (u16OfBytes (fr.byte 12) (fr.byte 13)) ≠ ethernetType8021q

/-- `fr'` is the frame with a tag after its source address, the tag's last two bytes being any. -/
structure Tagged (fr fr' : Frame) : Prop where
  dataLength : fr'.dataLength = fr.dataLength + 4
  macs : ∀ i, i < 12 → fr'.byte i = fr.byte i
  tag : fr'.byte 12 = 0x81 ∧ fr'.byte 13 = 0x00
  rest : ∀ i, 12 ≤ i → i < fr.dataLength → fr'.byte (i + 4) = fr.byte i

/-- The result codes are the same, and so are what is left of the routes and of the servers. -/
structure SameOutcome (r r' : LcxlFilter × ProcessNblResult) : Prop where
  code : r'.2.code = r.2.code
  routeTable : r'.1.routeTable = r.1.routeTable
  serverList : r'.1.module.serverList = r.1.module.serverList

/-- If the frame is a checking frame received, it is no request, and as a response it tells nothing
new of the server it comes from. -/
def TellsNothing (f : LcxlFilter) (isRecv : Bool) (fr : Frame) : Prop :=
  isRecv → ntohs (u16OfBytes (fr.byte 12) (fr.byte 13)) = ethernetTypeLcxlChecking →
    sizeofLcxlCheckingHeader ≤ fr.dataLength - sizeofEthernetHeader →
    fr.checking.code ≠ checkingCodeRequest ∧
      (fr.checking.code = checkingCodeResponse → ∀ p, f.sender fr.checking = some p →
        (f.module.serverList.mem p).performance.toList = fr.checking.performance)

/-! ## A neighbour advertisement -/

/-- An untagged neighbour advertisement, all of its header there. -/
structure Frame.IsAdvertisement (fr : Frame) : Prop where
  ethernetType : ntohs (u16OfBytes (fr.byte 12) (fr.byte 13)) = ethernetTypeIpv6
  nextHeader : fr.byte (14 + 6) = 0x3A
  type : fr.byte (14 + 40) = 136
  complete : 14 + 40 + 24 ≤ fr.dataLength

namespace Frame

def ipv6Source (fr : Frame) : List UInt8 := fr.slice (14 + 8) 16

def targetAddress (fr : Frame) : List UInt8 := fr.slice (14 + 40 + 8) 16

/-- The frame is dropped, and nothing goes up or down in its place. -/
structure KeptOut (cfg : LcxlSetting) (f : LcxlFilter) (isRecv : Bool) (amb : Ambient)
    (fr : Frame) : Prop where
  code : (fr.processed cfg f isRecv amb).2.code = .drop
  nothing : (if isRecv then receiveFrame cfg f fr amb else sendFrame cfg f fr amb).2 = (.drop, none)

end Frame

/-! ## An ARP packet -/

/-- The `len` bytes from `data` on are an ARP packet for IPv4, all of its addresses there. -/
structure IsArp (fr : Frame) (data len : ℕ) : Prop where
  ethernet : (getEthernetData fr.dataLength).val fr.byte = some (ethernetTypeArp, data, len)
  protocolSpace : fr.slice (data + 2) 2 = [0x08, 0x00]
  protocolLength : fr.byte (data + 5) = 4
  fits : 8 + 2 * (fr.byte (data + 4)).toNat + 2 * 4 ≤ len

namespace Frame

variable (fr : Frame) (data : ℕ)

def arpOpcode : List UInt8 := fr.slice (data + 6) 2

/-- The sender's protocol address follows its hardware address. -/
def arpSender : List UInt8 := fr.slice (data + 8 + (fr.byte (data + 4)).toNat) 4

/-- The target's protocol address follows its hardware address, which follows the sender's. -/
def arpTarget : List UInt8 := fr.slice (data + 8 + 2 * (fr.byte (data + 4)).toNat + 4) 4

/-- The packet asks for the address or on its behalf, or answers for it. -/
def ArpAbout (ipv4 : Bytes 4) : Prop :=
  fr.arpOpcode data = [0, 1] ∧ (fr.arpSender data = ipv4.toList ∨ fr.arpTarget data = ipv4.toList)
    ∨ fr.arpOpcode data = [0, 2] ∧ fr.arpSender data = ipv4.toList

end Frame

end LcxlNetLoader
