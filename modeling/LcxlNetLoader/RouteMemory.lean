import LcxlNetLoader.Lib.Ring
import LcxlNetLoader.Route

/-!
# The route list in memory

`route_list` as the ring of links its entries are in, where an entry that was freed is gone. A
lookup walks the ring itself, so one that touched a freed entry would have no result here.
-/

namespace LcxlNetLoader

/-- The links of the entries and of the head, what the entries hold, and the servers they go to.
`freed` is not in the source: it records what was given to `FreeRoute`, the latest last. -/
structure RouteMemory where
  links : Ring.Links RoutePtr
  entry : RoutePtr → LcxlRouteListEntry
  servers : ServerTable
  freed : List RoutePtr

namespace RouteMemory

/-- The fields of an entry that is in memory. -/
def read (m : RouteMemory) (p : RoutePtr) : Option LcxlRouteListEntry :=
  (m.links p).map fun _ => m.entry p

def deleteRouteListEntry (m : RouteMemory) (p : RoutePtr) : Option RouteMemory := do
  let routeInfo ← m.read p
  let links ← Ring.removeEntry m.links p
  let links ← Ring.free links p
  let server ← routeInfo.dstServer
  pure { m with
    links := links, freed := m.freed ++ [p], servers := decRefListEntry m.servers server }

/-- The loop of `GetRouteListEntry` from `link` on, of at most as many rounds as there is fuel. -/
def getRouteLoop (cfg : LcxlSetting) (routeTimeout now : ℤ) (pkt : TcpPacket) (head : RoutePtr) :
    (fuel : ℕ) → (link : RoutePtr) → RouteMemory → Option (RouteMemory × Option RoutePtr)
  | 0, _, _ => none
  | fuel + 1, link, m =>
    if link = head then some (m, none)
    else do
      let routeInfo ← m.read link
      if routeInfo.matches pkt then
        let routeInfo := { routeInfo with recvTimestamp := now }
        pure ({ m with entry := Function.update m.entry link routeInfo }, some link)
      else
        let next ← Ring.flink m.links link
        let routeInfo ← m.read link
        let m ← if routeInfo.expired cfg routeTimeout now then m.deleteRouteListEntry link
          else pure m
        getRouteLoop cfg routeTimeout now pkt head fuel next m

def getRouteListEntry (cfg : LcxlSetting) (m : RouteMemory) (head : RoutePtr) (routeTimeout : ℤ)
    (pkt : TcpPacket) (now : ℤ) (fuel : ℕ) : Option (RouteMemory × Option RoutePtr) := do
  let link ← Ring.flink m.links head
  getRouteLoop cfg routeTimeout now pkt head fuel link m

/-- The route list at `head` has these entries. -/
structure Holds (m : RouteMemory) (head : RoutePtr) (rs : List LcxlRouteListEntry) : Prop where
  ring : Ring.IsRing m.links head (rs.map (·.self))
  entry : ∀ r ∈ rs, m.entry r.self = r

section

variable (cfg : LcxlSetting) (routeTimeout now : ℤ) (pkt : TcpPacket)
  (rs : List LcxlRouteListEntry)

/-- The entries in front of the packet's, which are all of them if it has none. -/
def before : List LcxlRouteListEntry := rs.takeWhile fun r => !r.matches pkt

/-- The packet's entry and those behind it. -/
def fromOwn : List LcxlRouteListEntry := rs.dropWhile fun r => !r.matches pkt

/-- The entries in front of the packet's that have not been used for too long. -/
def gone : List LcxlRouteListEntry := (before pkt rs).filter (·.expired cfg routeTimeout now)

/-- A lookup has returned the packet's entry, used now, and has thrown out what is gone. -/
structure LookedUp (head : RoutePtr) (m m' : RouteMemory) (p : Option RoutePtr) : Prop where
  found : p = (rs.find? (·.matches pkt)).map (·.self)
  list : m'.Holds head ((before pkt rs).filter (!·.expired cfg routeTimeout now)
    ++ (fromOwn pkt rs).modifyHead fun r => { r with recvTimestamp := now })
  freed : m'.freed = m.freed ++ (gone cfg routeTimeout now pkt rs).map (·.self)
  once : ((gone cfg routeTimeout now pkt rs).map (·.self)).Nodup
  unallocated : ∀ r ∈ gone cfg routeTimeout now pkt rs, m'.links r.self = none
  refCount : ∀ s, (m'.servers.mem s).refCount = (m.servers.mem s).refCount
    - (gone cfg routeTimeout now pkt rs).countP (·.dstServer = some s)

end

end RouteMemory

end LcxlNetLoader
