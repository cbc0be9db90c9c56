import LcxlNetLoader.Balance
import LcxlNetLoader.Selection

/-!
# Opening a connection

What a packet that opens a connection is owed: a route of its own, used now, to a server that was
available. `OpensRoute` is the condition under which `RouteTCPNBL` finds or makes one.
-/

namespace LcxlNetLoader

namespace LcxlFilter

/-- Every route goes to a linked server, and holds a reference of it. -/
structure Referenced (f : LcxlFilter) : Prop where
  listed : f.module.serverList.Listed
  selfs : (f.routeTable.list.map (·.self)).Nodup
  linked : ∀ r ∈ f.routeTable.list, ∃ p ∈ f.module.serverList.lst.list, r.dstServer = some p
  held : ∀ p ∈ f.module.serverList.lst.list,
    f.routesTo p ≤ (f.module.serverList.mem p).refCount

/-- The server is linked, and available to the packet. -/
def Serves (f : LcxlFilter) (pkt : TcpPacket) (p : ServerPtr) : Prop :=
  p ∈ f.module.serverList.lst.list ∧ f.module.serverList.avaliable pkt.ipMode p

/-- The packet gets a route of its connection, in use since now, to a server that was available. -/
def GetsRoute (cfg : LcxlSetting) (f : LcxlFilter) (pkt : TcpPacket) (now later : ℤ) : Prop :=
  ∃ p r s, (routeTCPNBL cfg f pkt now later).2 = some p
    ∧ (routeTCPNBL cfg f pkt now later).1.routeTable.find p = some r
    ∧ r.key = pkt.key ∧ r.status = .normal ∧ (r.recvTimestamp = now ∨ r.recvTimestamp = later)
    ∧ r.dstServer = some s ∧ f.Serves pkt s

/-- How many expired routes to the server are in front of the packet's own. -/
def expiredTo (cfg : LcxlSetting) (f : LcxlFilter) (pkt : TcpPacket) (now : ℤ) (p : ServerPtr) :
    ℕ :=
  ((f.routeTable.list.takeWhile (·.key ≠ pkt.key)).filter
    (·.expired cfg f.module.routeTimeout now)).countP (·.dstServer = some p)

/-- The server has a reference left, or is linked all the same, if the expired routes to it go. -/
def Outlasts (cfg : LcxlSetting) (f : LcxlFilter) (pkt : TcpPacket) (now : ℤ) (p : ServerPtr) :
    Prop :=
  f.module.serverList.lst.lockCount ≠ 0 ∨ f.expiredTo cfg pkt now p = 0
    ∨ f.expiredTo cfg pkt now p < (f.module.serverList.mem p).refCount

/-- With `TH_SYN` alone an available server outlasts the expired routes to it, and with other flags
as well the connection has a route in normal use to an available server. -/
def OpensRoute (cfg : LcxlSetting) (f : LcxlFilter) (pkt : TcpPacket) (now : ℤ) : Prop :=
  if pkt.thFlags = thSyn then ∃ p, f.Serves pkt p ∧ f.Outlasts cfg pkt now p
  else ∃ r s, f.ownRoute pkt = some r ∧ r.status = .normal ∧ r.dstServer = some s ∧ f.Serves pkt s

end LcxlFilter

end LcxlNetLoader
