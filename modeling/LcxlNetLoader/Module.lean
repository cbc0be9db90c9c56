import LcxlNetLoader.Lib.Run
import LcxlNetLoader.Process

/-!
# A module at work

What a module does with one frame it receives or sends, up to the NBL it creates for it, and the
events a module's runs are made of. `vipPacket` says which received frames are the virtual
address's TCP packets, and `routeEvents` what such a frame does to connections.
-/

namespace LcxlNetLoader

namespace Frame

/-- `NdisMoveMemory` of the first `n` bytes to a buffer just allocated. -/
def copy (fr : Frame) (n : ℕ) (heap : ℕ → UInt8) : Frame :=
  ⟨fun i => if i < n then fr.byte i else heap i, n⟩

/-- The frame goes on from the router: from where it was sent to, to the server's address. -/
def routedTo (fr : Frame) (serverMac : List UInt8) (heap : ℕ → UInt8) : Frame :=
  let buffer := fr.copy fr.dataLength heap
  (buffer.write 6 (buffer.slice 0 6)).write 0 serverMac

/-- The neighbour solicitation again, from `::` and without its option. -/
def withoutOption (fr : Frame) (heap : ℕ → UInt8) : Frame :=
  let buffer := fr.copy (fr.dataLength - 2 - 6) heap
  let hdr := sizeofEthernetHeader
  let buffer := buffer.write (hdr + 8) (List.replicate 16 0)
  let payloadLength := ntohs (u16OfBytes (buffer.byte (hdr + 4)) (buffer.byte (hdr + 5)))
  let buffer := buffer.write (hdr + 4) (u16Bytes (ntohs (payloadLength - 2 - 6)))
  let (buffer, chksum) := calcIcmpChksum buffer hdr
  buffer.write (hdr + sizeofIpv6Header + 2) (u16Bytes (ntohs chksum))

end Frame

/-- An NBL the driver creates, to be sent down or to be indicated up. -/
inductive OwnNbl
  | send (fr : Frame)
  | recv (fr : Frame)

/-- The MAC address of the server a route goes to. -/
def LcxlFilter.routeMac (f : LcxlFilter) (p : RoutePtr) : List UInt8 :=
  match (f.routeTable.find p).bind (·.dstServer) with
  | some s => (f.module.serverList.mem s).info.macAddr.mac
  | none => []

/-- A route that was closed is deleted once its last packet has been copied. -/
def LcxlFilter.dropClosed (f : LcxlFilter) (p : RoutePtr) : LcxlFilter :=
  if (f.routeTable.find p).any (·.status = .closed) then
    let (rt, t) := deleteRouteListEntry f.routeTable f.module.serverList p
    f.setRouting rt t
  else f

/-- One round of the loop of `FilterReceiveNetBufferLists`, without its queues. -/
def receiveFrame (cfg : LcxlSetting) (f : LcxlFilter) (fr : Frame) (amb : Ambient) :
    LcxlFilter × ProcessNblResultCode × Option OwnNbl :=
  let (f, result) := (processNBL cfg f true fr.dataLength amb).val fr.byte
  match result.code, result.route with
  | .router, some p =>
    (f.dropClosed p, .router, some (.send (fr.routedTo (f.routeMac p) amb.heap)))
  | .icmpv6Na, _ =>
    (f, .icmpv6Na,
      some (.recv ((fr.copy fr.dataLength amb.heap).write 0 f.module.macAddr.mac)))
  | .checkingNbl, _ =>
    (f, .checkingNbl, some (.send (createCheckingNBL f.module.macAddr.mac (fr.slice 6 6)
      checkingCodeResponse f.module.performance)))
  | code, _ => (f, code, none)

/-- One round of the loop of `FilterSendNetBufferLists`, without its queues. -/
def sendFrame (cfg : LcxlSetting) (f : LcxlFilter) (fr : Frame) (amb : Ambient) :
    LcxlFilter × ProcessNblResultCode × Option OwnNbl :=
  let (f, result) := (processNBL cfg f false fr.dataLength amb).val fr.byte
  match result.code with
  | .icmpv6Ns => (f, .icmpv6Ns, some (.send (fr.withoutOption amb.heap)))
  | code => (f, code, none)

/-- What befalls a module between two moments at rest. -/
inductive Event
  | recv (fr : Frame) (amb : Ambient)
  | tick (now : ℤ)
  | addServer (past : ServerPtr → Bool) (now : ℤ) (server : LcxlServer)
  | delServer (past : ServerPtr → Bool) (macAddr : IfPhysicalAddress)
  /-- Anything else, leaving the module as it is given here. -/
  | other (f : LcxlFilter)

def LcxlFilter.exec (cfg : LcxlSetting) (f : LcxlFilter) : Event → LcxlFilter
  | .recv fr amb => (receiveFrame cfg f fr amb).1
  | .tick now => (workerTick cfg f now).1
  | .addServer past now server => f.setServers (routerAddServer past now f.module.serverList server)
  | .delServer past macAddr => f.setServers (routerDelServer past f.module.serverList macAddr).1
  | .other f' => f'

/-- The address family of a frame's type, where its header names the protocol above, and the size
of that header. -/
def ipModeOf (ethernetType : UInt16) : Option (IpMode × ℕ × ℕ) :=
  if ethernetType = ethernetTypeIpv4 then some (.ipv4, 9, sizeofIpv4Header)
  else if ethernetType = ethernetTypeIpv6 then some (.ipv6, 6, sizeofIpv6Header)
  else none

def LcxlAddrInfo.enabled (a : LcxlAddrInfo) (ipMode : IpMode) : Bool :=
  match ipMode with
  | .ipv4 => has a.status saEnableIpv4
  | .ipv6 => has a.status saEnableIpv6

/-- The TCP packet of a frame received by a router, if it is one to the enabled virtual address
and to a MAC address the router takes. -/
def vipPacket (f : LcxlFilter) (fr : Frame) : Option TcpPacket := do
  let (ethernetType, data, dataLength) ← (getEthernetData fr.dataLength).val fr.byte
  let (ipMode, protocol, size) ← ipModeOf ethernetType
  let pkt := (readTcpPacket ipMode data).val fr.byte
  if f.module.lcxlRole = roleRouter ∧ size ≤ dataLength ∧ f.module.virtualAddr.enabled ipMode
      ∧ fr.byte (data + protocol) = 0x06
      ∧ (checkTCPNBLMacAddr f.module.macAddr true).val fr.byte
      ∧ pkt.dstAddr = f.module.virtualAddr.virtualIp ipMode then
    some pkt
  else none

/-- What a connection is known by. -/
structure ConnKey where
  ipMode : Option IpMode
  srcAddr : List UInt8
  srcPort : UInt16
  dstPort : UInt16
deriving DecidableEq

def LcxlRouteListEntry.key (r : LcxlRouteListEntry) : ConnKey :=
  ⟨r.srcIp.ipMode, r.srcIp.addr, r.srcPort, r.dstPort⟩

def TcpPacket.key (pkt : TcpPacket) : ConnKey :=
  ⟨some pkt.ipMode, pkt.srcAddr, pkt.thSport, pkt.thDport⟩

/-- What happens to a connection: a server is selected for it, being then as given, or its route
is removed by the timeout or by a close. -/
inductive ConnEvent
  | selected (key : ConnKey) (server : ServerPtr) (info : ServerInfoListEntry)
  | purged (key : ConnKey)
  | closed (key : ConnKey)

def ConnEvent.key : ConnEvent → ConnKey
  | .selected key _ _ => key
  | .purged key => key
  | .closed key => key

/-- What the packet of a frame about to be received does to connections: which routes the lookup
throws out, which server is selected, and which route is then deleted as closed. -/
def routeEvents (cfg : LcxlSetting) (f : LcxlFilter) (fr : Frame) (amb : Ambient) :
    List ConnEvent :=
  match vipPacket f fr with
  | none => []
  | some pkt =>
    let (rt, t, _) := getRouteListEntry cfg f.routeTable f.module.routeTimeout
      f.module.serverList pkt amb.now
    let server := if pkt.thFlags = thSyn then
        (selectBestServer t pkt.ipMode pkt.dstAddr f.module.routingAlgorithm
          f.routingAlgorithmData).2.2
      else none
    let after := (receiveFrame cfg f fr amb).1.routeTable
    (rt.freed.drop f.routeTable.freed.length).map (fun r => .purged r.key)
      ++ server.toList.map (fun p => .selected pkt.key p (t.mem p))
      ++ (after.freed.drop rt.freed.length).map (fun r => .closed r.key)

/-- A frame of exactly these bytes, in front of zeros. -/
def Frame.ofBytes (bs : List UInt8) : Frame := ⟨fun i => bs.getD i 0, bs.length⟩

namespace Sample

/-- A router of 10.0.0.1 that has no servers yet. -/
def router : LcxlFilter where
  filterHandle := 1
  state := .running
  outstandingSends := 0
  outstandingRcvs := 0
  trackReceives := false
  trackSends := false
  module := {
    miniportIfindex := 1
    miniportNetLuid := 1
    miniportFriendlyName := ⟨0, fun _ => 0⟩
    miniportName := ⟨0, fun _ => 0⟩
    filterModuleName := ⟨0, fun _ => 0⟩
    macAddr := ⟨6, .zero 32⟩
    lcxlRole := roleRouter
    virtualAddr := ⟨saEnableIpv4, (Bytes.zero 4).move [10, 0, 0, 1], 24, .zero 16, 0⟩
    performance := .zero 40
    serverList := ⟨initLcxlList, fun _ => allocServer 0, 0⟩
    routeTimeout := 1800
    serverCheck := ⟨10, 10, 2⟩
    routingAlgorithm := raLeastConnection }
  routeTable := ⟨[], 0, []⟩
  routingAlgorithmData := ⟨0⟩

def setting : LcxlSetting := ⟨1, false⟩

def serverMac : IfPhysicalAddress := ⟨6, (Bytes.zero 32).move [2, 0, 0, 0, 0, 7]⟩

/-- A server that is up, for IPv4. -/
def server : LcxlServer := ⟨ssOnline, saEnableIpv4, serverMac⟩

def addServer : Event := .addServer (fun _ => false) 0 server

/-- A TCP packet with the given flags from 10.0.0.9, port 8080, to the router, port 80. -/
def tcpFrame (flags : UInt8) : Frame := .ofBytes
  ([0xFF, 0xFF, 0xFF, 0xFF, 0xFF, 0xFF, 2, 0, 0, 0, 0, 1, 0x08, 0x00]
    ++ [0x45, 0, 0, 40, 0, 0, 0, 0, 64, 6, 0, 0, 10, 0, 0, 9, 10, 0, 0, 1]
    ++ [0x1F, 0x90, 0, 80, 0, 0, 0, 0, 0, 0, 0, 0, 0x50, flags, 0, 0, 0, 0, 0, 0])

def ambient (now : ℤ) : Ambient where
  now := now
  later := now
  stack := ⟨0, 0, 0, ⟨0, .zero 32⟩, .zero 4, ⟨0, .zero 32⟩, .zero 4⟩
  heap := fun _ => 0

end Sample

end LcxlNetLoader
