import LcxlNetLoader.Module

/-!
# Reference accounting over a run

A server's reference count is meant to be the number of routes that go to it, and one more until
it is deleted. `ModuleStep` is any frame, tick or request to add or delete a server, and
`KeepsDeletedStep` one that does not write a found server's deleted mark from the request.
-/

namespace LcxlNetLoader

namespace LcxlFilter

/-- A module with an empty `server_list` and an empty `route_list`. -/
def fresh (f : LcxlFilter) : LcxlFilter :=
  f.setRouting ⟨[], 0, []⟩ ⟨initLcxlList, f.module.serverList.mem, 0⟩

/-- How many routes go to the server. -/
def routesTo (f : LcxlFilter) (p : ServerPtr) : ℕ :=
  f.routeTable.list.countP (·.dstServer = some p)

/-- Every linked server's count is the number of its routes, and one more if it is not deleted. -/
def Accounted (f : LcxlFilter) : Prop :=
  ∀ p ∈ f.module.serverList.lst.list, (f.module.serverList.mem p).refCount =
    f.routesTo p + if has (f.module.serverList.mem p).info.status ssDeleted then 0 else 1

/-- No count is below zero, and every route goes to a linked server that was never handed to
`RemoveEntryfromLcxlList`. -/
structure NoneDangling (f : LcxlFilter) : Prop where
  nonneg : ∀ p ∈ f.module.serverList.lst.list, 0 ≤ (f.module.serverList.mem p).refCount
  linked : ∀ r ∈ f.routeTable.list, ∀ p, r.dstServer = some p →
    p ∈ f.module.serverList.lst.list ∧ p ∉ f.module.serverList.lst.toBeDelList
      ∧ p ∉ f.module.serverList.lst.delCalls

/-- The event is one of the module's own. -/
def Own (_ : LcxlFilter) : Event → Prop
  | .other _ => False
  | _ => True

/-- A request to add a server leaves the deleted mark of the server it finds as it is, and adds no
server that is marked deleted. -/
def KeepsDeleted (f : LcxlFilter) : Event → Prop
  | .addServer past _ server =>
    has server.status ssDeleted =
      match findServer past f.module.serverList server.macAddr with
      | some p => has (f.module.serverList.mem p).info.status ssDeleted
      | none => false
  | .other _ => False
  | _ => True

abbrev ModuleStep (cfg : LcxlSetting) : LcxlFilter → Event → LcxlFilter → Prop :=
  Sys.Guarded Own (exec cfg)

abbrev KeepsDeletedStep (cfg : LcxlSetting) : LcxlFilter → Event → LcxlFilter → Prop :=
  Sys.Guarded KeepsDeleted (exec cfg)

end LcxlFilter

end LcxlNetLoader
