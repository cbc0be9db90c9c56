import LcxlNetLoader.Module

/-!
# Connections over a run

A module together with what has happened to its connections so far. The frames it receives are
what changes its route list; between two of them anything else may change.
-/

namespace LcxlNetLoader

/-- A module, and the connection events so far, the latest last. -/
structure Traced where
  filter : LcxlFilter
  log : List ConnEvent

namespace Traced

/-- A module with an empty `route_list`. -/
def start (f : LcxlFilter) : Traced := ⟨{ f with routeTable := ⟨[], 0, []⟩ }, []⟩

def exec (cfg : LcxlSetting) (s : Traced) (e : Event) : Traced where
  filter := s.filter.exec cfg e
  log := match e with
    | .recv fr amb => s.log ++ routeEvents cfg s.filter fr amb
    | _ => s.log

/-- Whatever is not one of the module's own steps leaves the route list alone. -/
def KeepsRoutes (s : Traced) : Event → Prop
  | .other f => f.routeTable = s.filter.routeTable
  | _ => True

abbrev Step (cfg : LcxlSetting) : Traced → Event → Traced → Prop :=
  Sys.Guarded KeepsRoutes (exec cfg)

/-- The last thing that happened to the connection is that the server, being as `info` says, was
selected for it. -/
def Assigned (s : Traced) (key : ConnKey) (server : ServerPtr) (info : ServerInfoListEntry) :
    Prop :=
  ∃ l₁ l₂, s.log = l₁ ++ .selected key server info :: l₂ ∧ ∀ e ∈ l₂, e.key ≠ key

end Traced

/-- The frame's result is a route to the server, and the frame goes on to the server's address. -/
structure ForwardedTo (cfg : LcxlSetting) (f : LcxlFilter) (fr : Frame) (amb : Ambient)
    (server : ServerPtr) : Prop where
  code : (receiveFrame cfg f fr amb).2.1 = .router
  sent : (receiveFrame cfg f fr amb).2.2 =
    some (.send (fr.routedTo (f.module.serverList.mem server).info.macAddr.mac amb.heap))
  route : ∃ p r, ((processNBL cfg f true fr.dataLength amb).val fr.byte).2.route = some p
    ∧ r ∈ ((processNBL cfg f true fr.dataLength amb).val fr.byte).1.routeTable.list
    ∧ r.self = p ∧ r.dstServer = some server

end LcxlNetLoader
