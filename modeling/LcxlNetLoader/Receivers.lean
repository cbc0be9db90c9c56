import Mathlib.Logic.Function.Basic
import LcxlNetLoader.Module

/-!
# Frames received side by side

Any number of calls of `FilterReceiveNetBufferLists` work on one module, each with at most one route
that `RouteTCPNBL` gave it. A call has three more things to do with a route, one after the other: it
copies the frame and reads `dst_server`, it reads `status`, and it deletes the route if that is
closed. Whatever the other calls do may come in between.
-/

namespace LcxlNetLoader

/-- What a call does next with the route it has. -/
inductive RouteUse
  | copyFrame
  | readStatus
  | delete
deriving DecidableEq

inductive ReceiveStep (ι : Type*)
  /-- The clock reads `now` in `GetRouteListEntry` and `later` in `InitRouteListEntry`. -/
  | route (i : ι) (pkt : TcpPacket) (now later : ℤ)
  | use (i : ι)
  /-- Anything else that leaves the route list alone. -/
  | other (f : LcxlFilter)

/-- A module and the calls at work on it. `frees` is not in the source: it records every call of
`FreeRoute`, the latest last, of an entry that was freed before as well. -/
structure Receivers (ι : Type*) where
  filter : LcxlFilter
  hand : ι → Option (RouteUse × RoutePtr)
  frees : List RoutePtr

/-- The entries the lookup passes before one it finds. -/
def passed (rt : RouteTable) (pkt : TcpPacket) : List LcxlRouteListEntry :=
  rt.list.takeWhile fun r => !r.matches pkt

namespace Receivers

variable {ι : Type*}

/-- A module with an empty `route_list`, nothing being received. -/
def start (f : LcxlFilter) : Receivers ι :=
  ⟨{ f with routeTable := ⟨[], 0, []⟩ }, fun _ => none, []⟩

def Linked (s : Receivers ι) (p : RoutePtr) : Prop := ∃ r ∈ s.filter.routeTable.list, r.self = p

/-- The call has a route, and its next step dereferences it. -/
def Holds (s : Receivers ι) (i : ι) (p : RoutePtr) : Prop := ∃ u, s.hand i = some (u, p)

variable [DecidableEq ι]

def take (s : Receivers ι) (i : ι) (hand : Option (RouteUse × RoutePtr)) : Receivers ι :=
  { s with hand := Function.update s.hand i hand }

/-- `RemoveEntryList` and `FreeRoute` of an entry that is not linked any more leave the model's
table as it is. -/
def exec (cfg : LcxlSetting) (s : Receivers ι) : ReceiveStep ι → Receivers ι
  | .route i pkt now later =>
    let (f, route) := routeTCPNBL cfg s.filter pkt now later
    let purged := f.routeTable.freed.drop s.filter.routeTable.freed.length
    { s.take i (route.map fun p => (.copyFrame, p)) with
      filter := f, frees := s.frees ++ purged.map (·.self) }
  | .use i => match s.hand i with
    | none => s
    | some (.copyFrame, p) => s.take i (some (.readStatus, p))
    | some (.readStatus, p) =>
      s.take i (if (s.filter.routeTable.find p).any (·.status = .closed) then some (.delete, p)
        else none)
    | some (.delete, p) =>
      let (rt, t) := deleteRouteListEntry s.filter.routeTable s.filter.module.serverList p
      { s.take i none with filter := s.filter.setRouting rt t, frees := s.frees ++ [p] }
  | .other f => { s with filter := f }

omit [DecidableEq ι] in
/-- A call looks up its next packet's route when it is done with the last one's. -/
def Enabled (s : Receivers ι) : ReceiveStep ι → Prop
  | .route i _ _ _ => s.hand i = none
  | .use i => s.hand i ≠ none
  | .other f => f.routeTable = s.filter.routeTable

omit [DecidableEq ι] in
/-- A route that is dereferenced is linked. -/
def UsesLinked (s : Receivers ι) : ReceiveStep ι → Prop
  | .use i => ∀ p, s.Holds i p → s.Linked p
  | _ => True

omit [DecidableEq ι] in
/-- No route is freed that another call has: the lookup passes no such route that has expired, and
no such route is deleted. -/
def LeavesHeld (cfg : LcxlSetting) (s : Receivers ι) : ReceiveStep ι → Prop
  | .route _ pkt now _ => ∀ r ∈ passed s.filter.routeTable pkt,
      r.expired cfg s.filter.module.routeTimeout now → ∀ j, ¬ s.Holds j r.self
  | .use i => ∀ p, s.hand i = some (.delete, p) → ∀ j ≠ i, ¬ s.Holds j p
  | .other _ => True

end Receivers

end LcxlNetLoader
