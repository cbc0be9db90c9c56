import LcxlNetLoader.Accounting
import LcxlNetLoader.DataPath
import LcxlNetLoader.Device

/-!
# The life of a module

NDIS attaches a module, restarts and pauses it in turn and detaches it; the worker thread checks
the servers of every router that is linked. A step here is one such handler from its start to its
end, an IOCTL, or a call of the data path.
-/

namespace LcxlNetLoader

inductive NdisMedium
  | medium802_3
  | wan
  | wirelessWan
  | other
deriving DecidableEq

/-- What is read of `NDIS_FILTER_ATTACH_PARAMETERS`. -/
structure AttachParameters where
  baseMiniportIfIndex : UInt32
  baseMiniportNetLuid : UInt64
  macAddressLength : ℕ
  currentMacAddress : Bytes 32
  baseMiniportInstanceName : NdisString
  baseMiniportName : NdisString
  filterModuleGuidName : NdisString
  miniportMediaType : NdisMedium

/-- A module setting of zeros after `InitModuleSetting`; `memory` is where its servers will be. -/
def initModuleSetting (memory : ServerTable) (parameters : AttachParameters) :
    LcxlModuleSettingInfo where
  miniportIfindex := parameters.baseMiniportIfIndex
  miniportNetLuid := parameters.baseMiniportNetLuid
  miniportFriendlyName := parameters.baseMiniportInstanceName
  miniportName := parameters.baseMiniportName
  filterModuleName := parameters.filterModuleGuidName
  macAddr := ⟨min 32 parameters.macAddressLength,
    (Bytes.zero 32).move
      (parameters.currentMacAddress.toList.take (min 32 parameters.macAddressLength))⟩
  lcxlRole := roleUnknown
  virtualAddr := ⟨0, .zero 4, 0, .zero 16, 0⟩
  performance := .zero 40
  serverList := memory
  routeTimeout := 1800
  serverCheck := ⟨10, 10, 2⟩
  routingAlgorithm := raLeastConnection

/-- A filter as `FilterAttach` has it when it links it. -/
def attachedFilter (memory : ServerTable) (ndisFilterHandle : ℕ) (parameters : AttachParameters) :
    LcxlFilter where
  filterHandle := ndisFilterHandle
  state := .paused
  outstandingSends := 0
  outstandingRcvs := 0
  trackReceives := true
  trackSends := true
  module := initModuleSetting { memory with lst := initLcxlList } parameters
  routeTable := ⟨[], 0, []⟩
  routingAlgorithmData := ⟨0⟩

/-- `p` is the address of the filter allocated, and `attributesSet` whether `NdisFSetAttributes`
succeeds. -/
def filterAttach (d : Driver) (p : FilterPtr) (ndisFilterHandle : ℕ)
    (parameters : AttachParameters) (attributesSet : Bool) : Driver :=
  if parameters.miniportMediaType = .other then d
  else if ¬ attributesSet then d
  else
    let f := attachedFilter (d.filter p).module.serverList ndisFilterHandle parameters
    { d.setFilter p f with gFilterList := addEntrytoLcxlList d.gFilterList p }

namespace LcxlFilter

def pause (f : LcxlFilter) : LcxlFilter := { { f with state := .pausing } with state := .paused }

def restart (f : LcxlFilter) : LcxlFilter := { f with state := .running }

/-- A router of which a server is to be checked at that time. -/
def Due (cfg : LcxlSetting) (f : LcxlFilter) (now : ℤ) : Prop :=
  f.module.lcxlRole = roleRouter ∧ ∃ q ∈ f.module.serverList.lst.list,
    (checkServer cfg f.module.serverCheck now (f.module.serverList.mem q)).2

end LcxlFilter

/-- The loop of `FilterDetach` over the routes. -/
def deleteRoutes : List RoutePtr → RouteTable → ServerTable → RouteTable × ServerTable
  | [], rt, t => (rt, t)
  | p :: ps, rt, t =>
    let (rt, t) := deleteRouteListEntry rt t p
    deleteRoutes ps rt t

/-- What `FilterDetach` does under the lock of the server list: the `if` is of the first server
only. -/
def releaseServers (t : ServerTable) : ServerTable :=
  let t := lockServerList t
  let t := match getLcxlListHead t.lst with
    | p :: _ => decRefListEntry t p
    | [] => t
  unlockServerList t

/-- What `FilterDetach` leaves of the module's lists. -/
def LcxlFilter.detach (f : LcxlFilter) : LcxlFilter :=
  let (rt, t) := deleteRoutes (f.routeTable.list.map (·.self)) f.routeTable f.module.serverList
  f.setRouting rt (releaseServers t)

def filterDetach (d : Driver) (p : FilterPtr) : Driver :=
  { d.setFilter p (d.filter p).detach with
    gFilterList := removeEntryfromLcxlList d.gFilterList p }

/-- The loop of `FilterWorkThread` over the filters, and what it sends for each. `now` is what each
check reads off the clock. -/
def workThreadLoop (cfg : LcxlSetting) (now : FilterPtr → ℤ) :
    List FilterPtr → Driver → Driver × List (FilterPtr × List Frame)
  | [], d => (d, [])
  | p :: ps, d =>
    let (f, frames) := workerTick cfg (d.filter p) (now p)
    let (d, sent) := workThreadLoop cfg now ps (d.setFilter p f)
    (d, (p, frames) :: sent)

/-- One time-out of `FilterWorkThread`. -/
def filterWorkThread (cfg : LcxlSetting) (now : FilterPtr → ℤ) (d : Driver) :
    Driver × List (FilterPtr × List Frame) :=
  let d := d.lock
  let (d, sent) := workThreadLoop cfg now (getLcxlListHead d.gFilterList) d
  (d.unlock, sent)

/-- What a call of the data path is made with. -/
structure DataPathCall where
  amb : NblPtr → Ambient
  left : NblPtr → Option NblPtr
  fuel : ℕ
  heap : NblHeap
  netBufferLists : Option NblPtr
  portNumber : UInt32
  numberOfNetBufferLists : UInt32
  flags : UInt32

inductive LifeEvent
  | attach (p : FilterPtr) (ndisFilterHandle : ℕ) (parameters : AttachParameters)
      (attributesSet : Bool)
  | restart (p : FilterPtr)
  | pause (p : FilterPtr)
  | detach (p : FilterPtr)
  | tick (now : FilterPtr → ℤ)
  | ioctl (past : ServerPtr → Bool) (now : ℤ) (irp : Irp)
  | send (p : FilterPtr) (c : DataPathCall)
  | receive (p : FilterPtr) (c : DataPathCall)

/-- The call puts NBLs on their way down or up. -/
def NdisRoutine.moves : NdisRoutine → Bool
  | .send _ | .indicateReceive _ _ => true
  | _ => false

namespace Driver

def send (cfg : LcxlSetting) (d : Driver) (p : FilterPtr) (c : DataPathCall) : DataPath :=
  filterSendNetBufferLists cfg c.amb c.fuel (d.filter p) c.heap c.netBufferLists c.portNumber
    c.flags

def receive (cfg : LcxlSetting) (d : Driver) (p : FilterPtr) (c : DataPathCall) : DataPath :=
  filterReceiveNetBufferLists cfg c.amb c.left c.fuel (d.filter p) c.heap c.netBufferLists
    c.portNumber c.numberOfNetBufferLists c.flags

def live (cfg : LcxlSetting) (d : Driver) : LifeEvent → Driver
  | .attach p handle parameters attributesSet => filterAttach d p handle parameters attributesSet
  | .restart p => d.setFilter p (d.filter p).restart
  | .pause p => d.setFilter p (d.filter p).pause
  | .detach p => filterDetach d p
  | .tick now => (filterWorkThread cfg now d).1
  | .ioctl past now irp => (filterDeviceIoControl past now d irp).1
  | .send p c => d.setFilter p (d.send cfg p c).filter
  | .receive p c => d.setFilter p (d.receive cfg p c).filter

/-- What a step calls of NDIS, and for which module. A check sends its requests in one call. -/
def ndisCalls (cfg : LcxlSetting) (d : Driver) : LifeEvent → List (FilterPtr × NdisRoutine)
  | .tick now => (filterWorkThread cfg now d).2.filterMap fun (p, frames) =>
      if frames = [] then none else some (p, .send 0)
  | .send p c => (d.send cfg p c).calls.map fun call => (p, call.routine)
  | .receive p c => (d.receive cfg p c).calls.map fun call => (p, call.routine)
  | _ => []

/-- NDIS attaches a module at an address that none has, and restarts and pauses it in turn. It
detaches it paused. -/
def NdisContract (d : Driver) : LifeEvent → Prop
  | .attach p _ _ _ => p ∉ d.gFilterList.list
  | .restart p | .detach p => p ∈ d.gFilterList.list ∧ (d.filter p).state = .paused
  | .pause p => p ∈ d.gFilterList.list ∧ (d.filter p).state = .running
  | .send p _ | .receive p _ => p ∈ d.gFilterList.list
  | _ => True

/-- The step sends and indicates nothing for a module that is not running. -/
def RunningOnly (cfg : LcxlSetting) (d : Driver) (e : LifeEvent) : Prop :=
  ∀ c ∈ d.ndisCalls cfg e, c.2.moves → (d.filter c.1).state = .running

/-- If the worker thread ticks, every router that has a server to be checked is running. -/
def DueRunning (cfg : LcxlSetting) (d : Driver) : LifeEvent → Prop
  | .tick now => ∀ p ∈ d.gFilterList.list,
      (d.filter p).Due cfg (now p) → (d.filter p).state = .running
  | _ => True

/-- No modules are attached yet. -/
def start (filter : FilterPtr → LcxlFilter) : Driver := ⟨initLcxlList, filter⟩

end Driver

namespace LcxlFilter

/-- `f'` is what is left of `f` when everything has been released once: each route freed, in the
order of the list, and each server handed to `DelServerCallBack`, with no reference to it left.
Counts only fall meanwhile, so that none of those changed was ever below the one it ends at. -/
structure Released (f f' : LcxlFilter) : Prop where
  routes : f'.routeTable.list = []
  freed : f'.routeTable.freed = f.routeTable.freed ++ f.routeTable.list
  servers : f'.module.serverList.lst.list = []
  count : f'.module.serverList.lst.listCount = 0
  once : f'.module.serverList.lst.delCalls.Perm
    (f.module.serverList.lst.delCalls ++ f.module.serverList.lst.list)
  zero : ∀ p ∈ f.module.serverList.lst.list, (f'.module.serverList.mem p).refCount = 0
  nonneg : ∀ p, (f'.module.serverList.mem p).refCount ≠ (f.module.serverList.mem p).refCount →
    0 ≤ (f'.module.serverList.mem p).refCount

/-- The linked servers that do not go with the last route to them. -/
def staying (f : LcxlFilter) : List ServerPtr :=
  f.module.serverList.lst.list.filter fun p =>
    f.routesTo p = 0 ∨ ¬ has (f.module.serverList.mem p).info.status ssDeleted

/-- No server waits to be added, and of those that outlive their routes none but the first holds a
reference of its own: the others wait to go. -/
def OneLeft (f : LcxlFilter) : Prop :=
  f.module.serverList.lst.toBeAddList = [] ∧
    match f.staying with
    | [] => True
    | p :: ps => ¬ has (f.module.serverList.mem p).info.status ssDeleted
        ∧ ∀ q ∈ ps, q ∈ f.module.serverList.lst.toBeDelList

/-- Where deletions have left the server list locked, a detach takes no server out, unless its own
lock brings `lockCount` back to zero: then it takes out the first. -/
def Releasable (f : LcxlFilter) : Prop :=
  if f.module.serverList.lst.lockCount = 0 then f.OneLeft
  else match f.module.serverList.lst.list with
    | [] => True
    | p :: ps => f.module.serverList.lst.lockCount = 255 ∧ ps = []
        ∧ ¬ has (f.module.serverList.mem p).info.status ssDeleted

end LcxlFilter

end LcxlNetLoader
