import LcxlNetLoader.Server

/-!
# The route table

`LCXL_ROUTE_LIST_ENTRY`: one entry a connection, holding a reference to the server it goes to.
A lookup throws out the expired entries it passes.
-/

namespace LcxlNetLoader

inductive RouteStatus
  | none
  | normal
  | lastAck
  | closed
deriving DecidableEq

/-- `LCXL_IP`, the address being the four or sixteen bytes the mode has. -/
structure LcxlIp where
  ipMode : Option IpMode
  addr : List UInt8
deriving DecidableEq

/-- The address of a `LCXL_ROUTE_LIST_ENTRY`. -/
abbrev RoutePtr := ℕ

/-- `LCXL_ROUTE_LIST_ENTRY`, at the address `self`. -/
structure LcxlRouteListEntry where
  self : RoutePtr
  status : RouteStatus
  srcIp : LcxlIp
  srcPort : UInt16
  dstPort : UInt16
  dstServer : Option ServerPtr
  recvTimestamp : ℤ
deriving DecidableEq

/-- What routing reads of a TCP packet: ports and addresses as they lie in memory. -/
structure TcpPacket where
  ipMode : IpMode
  srcAddr : List UInt8
  dstAddr : List UInt8
  thSport : UInt16
  thDport : UInt16
  thFlags : UInt8
deriving DecidableEq

def thFin : UInt8 := 0x01
def thSyn : UInt8 := 0x02
def thRst : UInt8 := 0x04
def thAck : UInt8 := 0x10

/-- A `route_list` and the address `AllocRoute` gives next. `freed` is not in the source: it
records the entries given to `FreeRoute`, the latest last. -/
structure RouteTable where
  list : List LcxlRouteListEntry
  next : RoutePtr
  freed : List LcxlRouteListEntry

def RouteTable.find (rt : RouteTable) (p : RoutePtr) : Option LcxlRouteListEntry :=
  rt.list.find? (·.self = p)

def RouteTable.modify (rt : RouteTable) (p : RoutePtr)
    (g : LcxlRouteListEntry → LcxlRouteListEntry) : RouteTable :=
  { rt with list := rt.list.map fun r => if r.self = p then g r else r }

/-- An entry as `AllocRoute` leaves it. -/
def allocRoute (self : RoutePtr) : LcxlRouteListEntry :=
  ⟨self, .none, ⟨none, []⟩, 0, 0, none, 0⟩

def createRouteListEntry (rt : RouteTable) : RouteTable × RoutePtr :=
  ({ rt with list := allocRoute rt.next :: rt.list, next := rt.next + 1 }, rt.next)

def initRouteListEntry (rt : RouteTable) (p : RoutePtr) (pkt : TcpPacket) (server : ServerPtr)
    (now : ℤ) : RouteTable :=
  rt.modify p fun r => { r with
    recvTimestamp := now
    srcIp := ⟨some pkt.ipMode, pkt.srcAddr⟩
    status := .normal
    dstServer := some server
    dstPort := pkt.thDport
    srcPort := pkt.thSport }

/-- The reference an entry holds is given back. -/
def dropServer (t : ServerTable) (r : LcxlRouteListEntry) : ServerTable :=
  match r.dstServer with
  | some p => decRefListEntry t p
  | none => t

def deleteRouteListEntry (rt : RouteTable) (t : ServerTable) (p : RoutePtr) :
    RouteTable × ServerTable :=
  match rt.find p with
  | some r =>
    ({ rt with list := rt.list.eraseP (·.self = p), freed := rt.freed ++ [r] }, dropServer t r)
  | none => (rt, t)

/-- The entry is the packet's connection's. -/
def LcxlRouteListEntry.matches (r : LcxlRouteListEntry) (pkt : TcpPacket) : Bool :=
  some pkt.ipMode == r.srcIp.ipMode && r.srcPort == pkt.thSport && r.dstPort == pkt.thDport
    && r.srcIp.addr == pkt.srcAddr

/-- The entry has not been used for longer than `routeTimeout` seconds. -/
def LcxlRouteListEntry.expired (cfg : LcxlSetting) (routeTimeout now : ℤ)
    (r : LcxlRouteListEntry) : Bool :=
  now - r.recvTimestamp > routeTimeout * cfg.frequency

/-- The walk of `GetRouteListEntry`: the list it leaves, the entries it deletes, in order, and
the entry it stops at. -/
def getRouteLoop (cfg : LcxlSetting) (routeTimeout now : ℤ) (pkt : TcpPacket) :
    List LcxlRouteListEntry → ServerTable →
      List LcxlRouteListEntry × List LcxlRouteListEntry × ServerTable × Option RoutePtr
  | [], t => ([], [], t, none)
  | r :: rs, t =>
    if r.matches pkt then ({ r with recvTimestamp := now } :: rs, [], t, some r.self)
    else if r.expired cfg routeTimeout now then
      let (kept, gone, t, p) := getRouteLoop cfg routeTimeout now pkt rs (dropServer t r)
      (kept, r :: gone, t, p)
    else
      let (kept, gone, t, p) := getRouteLoop cfg routeTimeout now pkt rs t
      (r :: kept, gone, t, p)

def getRouteListEntry (cfg : LcxlSetting) (rt : RouteTable) (routeTimeout : ℤ)
    (t : ServerTable) (pkt : TcpPacket) (now : ℤ) :
    RouteTable × ServerTable × Option RoutePtr :=
  let (kept, gone, t, p) := getRouteLoop cfg routeTimeout now pkt rt.list t
  ({ rt with list := kept, freed := rt.freed ++ gone }, t, p)

end LcxlNetLoader
