import LcxlNetLoader.Device

/-!
# What a request's status stands for

Six requests change a module's settings or servers. `Tells` is what their status is meant to say:
success that the request had its size, its module was found and what it asks for is in force there,
anything else that no module has been touched. `Reported` is which requests are answered so.
-/

namespace LcxlNetLoader

/-- The requests that change a module. -/
inductive ModuleRequest
  | setRole
  | setVirtualAddr
  | addServer
  | delServer
  | setServerCheck
  | setRoutingAlgorithm
deriving DecidableEq

/-- A linked server is compared with the address asked for as `FindServer` does. -/
def sameMac (past : ServerPtr → Bool) (t : ServerTable) (macAddr : IfPhysicalAddress)
    (p : ServerPtr) : Bool :=
  rtlEqualMemory (past p) (t.mem p).info.macAddr.address macAddr.address macAddr.length

/-- What `UnlockLcxlList` leaves linked, or waiting to be, once this request's lock is the last. -/
def ServerTable.staying (t : ServerTable) : List ServerPtr :=
  if t.lst.lockCount = 0 then t.lst.list.diff t.lst.toBeDelList ++ t.lst.toBeAddList
  else t.lst.list ++ t.lst.toBeAddList

namespace ModuleRequest

def ioControlCode : ModuleRequest → UInt32
  | setRole => ioctlSetRole
  | setVirtualAddr => ioctlSetVirtualAddr
  | addServer => ioctlRouterAddServer
  | delServer => ioctlRouterDelServer
  | setServerCheck => ioctlRouterSetServerCheck
  | setRoutingAlgorithm => ioctlRouterSetRoutingAlgorithm

def size : ModuleRequest → ℕ
  | setRole => sizeofAppSetRole
  | setVirtualAddr => sizeofAppSetVirtualAddr
  | addServer => sizeofAppAddServer
  | delServer => sizeofAppDelServer
  | setServerCheck => sizeofAppSetServerCheck
  | setRoutingAlgorithm => sizeofAppSetRoutingAlgorithm

/-- The module has what the request asks for. -/
def InForce (past : ServerPtr → Bool) (irp : Irp) (f : LcxlFilter) : ModuleRequest → Prop
  | setRole => f.module.lcxlRole = irp.int 8
  | setVirtualAddr => f.module.virtualAddr = irp.lcxlAddrInfo
  | addServer => ∃ q ∈ f.module.serverList.lst.list ++ f.module.serverList.lst.toBeAddList,
      (f.module.serverList.mem q).info = irp.lcxlServer
  | delServer => ∀ q ∈ f.module.serverList.lst.list,
      sameMac past f.module.serverList (irp.ifPhysicalAddress 8) q →
        has (f.module.serverList.mem q).info.status ssDeleted
  | setServerCheck => f.module.serverCheck = irp.lcxlServerCheck
  | setRoutingAlgorithm => f.module.routingAlgorithm = irp.int 8

end ModuleRequest

/-- The role, the virtual address, the servers, their check and the algorithm are the same. -/
structure LcxlFilter.SameModule (f f' : LcxlFilter) : Prop where
  lcxlRole : f'.module.lcxlRole = f.module.lcxlRole
  virtualAddr : f'.module.virtualAddr = f.module.virtualAddr
  list : f'.module.serverList.lst.list = f.module.serverList.lst.list
  toBeAddList : f'.module.serverList.lst.toBeAddList = f.module.serverList.lst.toBeAddList
  toBeDelList : f'.module.serverList.lst.toBeDelList = f.module.serverList.lst.toBeDelList
  mem : f'.module.serverList.mem = f.module.serverList.mem
  serverCheck : f'.module.serverCheck = f.module.serverCheck
  routingAlgorithm : f'.module.routingAlgorithm = f.module.routingAlgorithm

/-- The status tells the truth about what became of the driver. -/
structure Tells (past : ServerPtr → Bool) (d : Driver) (irp : Irp) (r : ModuleRequest)
    (res : Driver × Reply) : Prop where
  granted : res.2.status = .success → irp.inputBufferLength = r.size ∧
    ∃ p, findFilter d irp.miniportNetLuid = some p ∧ r.InForce past irp (res.1.filter p)
  unchanged : res.2.status ≠ .success → ∀ p, (d.filter p).SameModule (res.1.filter p)

/-- The server a request to add one finds stays, or another one stays that is as requested. -/
def AddStays (past : ServerPtr → Bool) (t : ServerTable) (server : LcxlServer) : Prop :=
  ∀ q, findServer past t server.macAddr = some q →
    ∃ q' ∈ t.staying, q' = q ∨ (t.mem q').info = server

/-- Where the server a request to delete one finds is not deleted yet, every other linked one of
that address is. -/
def DelsOnly (past : ServerPtr → Bool) (t : ServerTable) (macAddr : IfPhysicalAddress) : Prop :=
  ∀ p, findServer past t macAddr = some p → ¬ has (t.mem p).info.status ssDeleted →
    ∀ q ∈ t.lst.list, q ≠ p → sameMac past t macAddr q → has (t.mem q).info.status ssDeleted

/-- The requests with a file object whose status tells the truth. -/
def ModuleRequest.Honest (past : ServerPtr → Bool) (d : Driver) (irp : Irp) : ModuleRequest → Prop
  | setRole => irp.inputBufferLength = sizeofAppSetRole
  | setVirtualAddr => True
  | addServer => irp.inputBufferLength = sizeofAppAddServer →
      ∀ p, findFilter d irp.miniportNetLuid = some p →
        AddStays past (d.filter p).module.serverList irp.lcxlServer
  | delServer => irp.inputBufferLength = sizeofAppDelServer →
      ∀ p, findFilter d irp.miniportNetLuid = some p →
        DelsOnly past (d.filter p).module.serverList (irp.ifPhysicalAddress 8)
  | setServerCheck => irp.inputBufferLength = sizeofAppSetServerCheck
      ∧ (findFilter d irp.miniportNetLuid).isSome
  | setRoutingAlgorithm => irp.inputBufferLength = sizeofAppSetRoutingAlgorithm
      ∧ (findFilter d irp.miniportNetLuid).isSome

/-- The status is one that tells the truth. -/
def Reported (past : ServerPtr → Bool) (d : Driver) (irp : Irp) (r : ModuleRequest) : Prop :=
  irp.fileObject → r.Honest past d irp

end LcxlNetLoader
