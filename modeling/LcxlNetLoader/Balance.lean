import LcxlNetLoader.Accounting

/-!
# What one packet does to the references

`RouteEffect` is what a packet does to connections: the routes its lookup throws out, the server
selected for it, and the route it gives to that server or closes. `RoutedExactly` says that counts,
routes and linked servers change by this and by nothing else.
-/

namespace LcxlNetLoader

/-- Nobody holds the list, nothing waits on it, and every server linked has a reference. -/
structure ServerTable.Steady (t : ServerTable) : Prop where
  lockCount : t.lst.lockCount = 0
  toBeAddList : t.lst.toBeAddList = []
  toBeDelList : t.lst.toBeDelList = []
  nodup : t.lst.list.Nodup
  referenced : ∀ p ∈ t.lst.list, 1 ≤ (t.mem p).refCount

structure RouteEffect where
  purged : List LcxlRouteListEntry
  selected : Option ServerPtr
  reused : Option LcxlRouteListEntry
  closed : Option LcxlRouteListEntry

namespace RouteEffect

/-- The routes deleted. -/
def removed (e : RouteEffect) : List LcxlRouteListEntry := e.purged ++ e.closed.toList

/-- A route that is deleted or re-used gives up its server, and the server selected gains one. -/
def refChange (e : RouteEffect) (p : ServerPtr) : ℤ :=
  e.selected.toList.count p - (e.removed ++ e.reused.toList).countP (·.dstServer = some p)

end RouteEffect

/-- The route of a packet's connection after the packet, which had the server selected. -/
def LcxlRouteListEntry.after (r : LcxlRouteListEntry) (pkt : TcpPacket)
    (selected : Option ServerPtr) (now later : ℤ) : LcxlRouteListEntry :=
  match selected with
  | some s => { r with recvTimestamp := later, status := .normal, dstServer := some s }
  | none => { r with
      recvTimestamp := now
      status := if pkt.thFlags = thSyn then r.status else nextStatus r.status pkt.thFlags }

def newRoute (self : RoutePtr) (pkt : TcpPacket) (server : ServerPtr) (later : ℤ) :
    LcxlRouteListEntry :=
  ⟨self, .normal, ⟨some pkt.ipMode, pkt.srcAddr⟩, pkt.thSport, pkt.thDport, some server, later⟩

namespace LcxlFilter

/-- The server list is steady and its counts are the routes', every route goes to a linked server,
and no two are of one connection. -/
structure Balanced (f : LcxlFilter) : Prop where
  steady : f.module.serverList.Steady
  accounted : f.Accounted
  linked : ∀ r ∈ f.routeTable.list, ∃ p ∈ f.module.serverList.lst.list, r.dstServer = some p
  keys : (f.routeTable.list.map (·.key)).Nodup
  selfs : (f.routeTable.list.map (·.self)).Nodup
  fresh : ∀ r ∈ f.routeTable.list, r.self < f.routeTable.next

/-- The route of the packet's connection. -/
def ownRoute (f : LcxlFilter) (pkt : TcpPacket) : Option LcxlRouteListEntry :=
  f.routeTable.list.find? (·.key = pkt.key)

/-- The lookup throws out expired routes up to the one of the packet's connection. -/
def routeEffect (cfg : LcxlSetting) (f : LcxlFilter) (pkt : TcpPacket) (now : ℤ) : RouteEffect :=
  let (_, t, _) :=
    getRouteListEntry cfg f.routeTable f.module.routeTimeout f.module.serverList pkt now
  let selected :=
    if pkt.thFlags = thSyn then
      (selectBestServer t pkt.ipMode pkt.dstAddr f.module.routingAlgorithm
        f.routingAlgorithmData).2.2
    else none
  { purged := (f.routeTable.list.takeWhile (·.key ≠ pkt.key)).filter
      (·.expired cfg f.module.routeTimeout now)
    selected := selected
    reused := selected.bind fun _ => f.ownRoute pkt
    closed :=
      if pkt.thFlags = thSyn then none
      else (f.ownRoute pkt).filter (nextStatus ·.status pkt.thFlags = .closed) }

/-- The route the packet creates. -/
def inserted (cfg : LcxlSetting) (f : LcxlFilter) (pkt : TcpPacket) (amb : Ambient) :
    Option LcxlRouteListEntry :=
  if f.ownRoute pkt = none then
    (f.routeEffect cfg pkt amb.now).selected.map
      (newRoute f.routeTable.next pkt · amb.later)
  else none

/-- The routes after the packet. -/
def routesAfter (cfg : LcxlSetting) (f : LcxlFilter) (pkt : TcpPacket) (amb : Ambient) :
    List LcxlRouteListEntry :=
  let e := f.routeEffect cfg pkt amb.now
  (f.inserted cfg pkt amb).toList ++ (f.routeTable.list.filter (· ∉ e.removed)).map fun r =>
    if r.key = pkt.key then r.after pkt e.selected amb.now amb.later else r

/-- From `f` to `f'` exactly the packet's effect has taken place. -/
structure RoutedExactly (cfg : LcxlSetting) (f : LcxlFilter) (pkt : TcpPacket) (amb : Ambient)
    (f' : LcxlFilter) : Prop where
  refCount : ∀ p, (f'.module.serverList.mem p).refCount =
    (f.module.serverList.mem p).refCount + (f.routeEffect cfg pkt amb.now).refChange p
  routes : f'.routeTable.list = f.routesAfter cfg pkt amb
  servers : f'.module.serverList.lst.list =
    f.module.serverList.lst.list.filter fun p => (f'.module.serverList.mem p).refCount ≠ 0
  unlinked : ∀ p ∈ f.module.serverList.lst.list, p ∉ f'.module.serverList.lst.list →
    f'.routesTo p = 0
  balanced : f'.Balanced

end LcxlFilter

end LcxlNetLoader
