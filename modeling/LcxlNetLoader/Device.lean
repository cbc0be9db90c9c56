import LcxlNetLoader.Module

/-!
# The control interface

`FilterDeviceIoControl`: the requests by which an application reads and changes the modules. A
request comes with one buffer for what it is given and what it answers; the answer is kept apart
here, as the records written there.
-/

namespace LcxlNetLoader

/-- The address of an `LCXL_FILTER`. -/
abbrev FilterPtr := ℕ

/-- `g_filter_list`, and the modules at the addresses of its entries. -/
structure Driver where
  gFilterList : LcxlList FilterPtr
  filter : FilterPtr → LcxlFilter

inductive NtStatus
  | success
  | unsuccessful
  | deviceDoesNotExist
  | notFound
  | invalidParameter
  | bufferTooSmall
  | infoLengthMismatch
  | fileDeleted
deriving DecidableEq

/-- A request: whether it has a file object, its code, and its buffer. -/
structure Irp where
  fileObject : Bool
  ioControlCode : UInt32
  systemBuffer : ℕ → UInt8
  inputBufferLength : ℕ
  outputBufferLength : ℕ

/-- `APP_MODULE`; of a name, the characters written with the terminating zero. -/
structure AppModule where
  miniportIfindex : UInt32
  miniportNetLuid : UInt64
  virtualAddr : LcxlAddrInfo
  macAddr : IfPhysicalAddress
  filterModuleName : List UInt16
  miniportFriendlyName : List UInt16
  miniportName : List UInt16
  lcxlRole : ℤ
  serverCount : ℤ
  routeTimeout : ℤ
  serverCheck : LcxlServerCheck
  routingAlgorithm : ℤ

/-- What a request has done besides changing the modules. -/
inductive Output
  | nothing
  | restarted (filterHandle : ℕ)
  | modules (buffer : List AppModule)
  | servers (buffer : List LcxlServer)

structure Reply where
  status : NtStatus
  information : ℕ
  output : Output

def Reply.ofStatus (status : NtStatus) : Reply := ⟨status, 0, .nothing⟩

/-- `CTL_CODE` for `FILE_DEVICE_PHYSICAL_NETCARD`, `METHOD_BUFFERED` and `FILE_ANY_ACCESS`. -/
def ndisControlCode (request : UInt32) : UInt32 := (0x17 : UInt32) <<< 16 ||| request <<< 2

def ioctlRestartModule : UInt32 := ndisControlCode 0x01
def ioctlSetRole : UInt32 := ndisControlCode 0x21
def ioctlGetModuleList : UInt32 := ndisControlCode 0x22
def ioctlSetVirtualAddr : UInt32 := ndisControlCode 0x23
def ioctlRouterGetServerList : UInt32 := ndisControlCode 0x24
def ioctlRouterAddServer : UInt32 := ndisControlCode 0x25
def ioctlRouterDelServer : UInt32 := ndisControlCode 0x26
def ioctlRouterSetServerCheck : UInt32 := ndisControlCode 0x27
def ioctlRouterSetRoutingAlgorithm : UInt32 := ndisControlCode 0x28

def sizeofNetLuid : ℕ := 8
def sizeofLcxlServer : ℕ := 36
def sizeofAppModule : ℕ := 1638
def sizeofAppSetRole : ℕ := 12
def sizeofAppSetVirtualAddr : ℕ := 36
def sizeofAppAddServer : ℕ := 44
def sizeofAppDelServer : ℕ := 42
def sizeofAppSetServerCheck : ℕ := 20
def sizeofAppSetRoutingAlgorithm : ℕ := 12

namespace Irp

variable (irp : Irp)

def bytes (off n : ℕ) : List UInt8 := (List.range n).map fun i => irp.systemBuffer (off + i)

def field (off n : ℕ) : Bytes n := ⟨irp.bytes off n, by simp [bytes]⟩

def int (off : ℕ) : ℤ := (BitVec.ofNat 32 (leNat (irp.bytes off 4))).toInt

/-- Every request that names a module begins with its `NET_LUID`. -/
def miniportNetLuid : UInt64 := UInt64.ofNat (leNat (irp.bytes 0 8))

def ifPhysicalAddress (off : ℕ) : IfPhysicalAddress where
  length := leNat (irp.bytes off 2)
  address := irp.field (off + 2) 32

def lcxlServer : LcxlServer where
  status := irp.systemBuffer 8
  ipStatus := irp.systemBuffer 9
  macAddr := irp.ifPhysicalAddress 10

def lcxlAddrInfo : LcxlAddrInfo where
  status := irp.systemBuffer 8
  ipv4 := irp.field 12 4
  ipv4OnlinkPrefixLength := irp.systemBuffer 16
  ipv6 := irp.field 18 16
  ipv6OnlinkPrefixLength := irp.systemBuffer 34

def lcxlServerCheck : LcxlServerCheck := ⟨irp.int 8, irp.int 12, irp.int 16⟩

end Irp

namespace Driver

def lock (d : Driver) : Driver := { d with gFilterList := lockLcxlList d.gFilterList }

def unlock (d : Driver) : Driver := { d with gFilterList := unlockLcxlList d.gFilterList }

def setFilter (d : Driver) (p : FilterPtr) (f : LcxlFilter) : Driver :=
  { d with filter := Function.update d.filter p f }

end Driver

def findFilter (d : Driver) (miniportNetLuid : UInt64) : Option FilterPtr :=
  (getLcxlListHead d.gFilterList).find? fun p =>
    (d.filter p).module.miniportNetLuid == miniportNetLuid

/-- What the requests about one module share: with `g_filter_list` locked, the module is found
and dealt with, or the reply is `missing`. -/
def withFilter (d : Driver) (irp : Irp) (missing : NtStatus)
    (found : LcxlFilter → LcxlFilter × Reply) : Driver × Reply :=
  let d := d.lock
  let (d, reply) := match findFilter d irp.miniportNetLuid with
    | some p => (d.setFilter p (found (d.filter p)).1, (found (d.filter p)).2)
    | none => (d, .ofStatus missing)
  (d.unlock, reply)

/-- A request whose input has not the size it should have is answered `otherwise`. -/
def ofSize (d : Driver) (irp : Irp) (size : ℕ) (otherwise : NtStatus)
    (act : Driver × Reply) : Driver × Reply :=
  if irp.inputBufferLength = size then act else (d, .ofStatus otherwise)

def restartModule (d : Driver) (irp : Irp) : Driver × Reply :=
  ofSize d irp sizeofNetLuid .success <| withFilter d irp .deviceDoesNotExist fun f =>
    (f, ⟨.success, 0, .restarted f.filterHandle⟩)

def setRole (d : Driver) (irp : Irp) : Driver × Reply :=
  ofSize d irp sizeofAppSetRole .success <| withFilter d irp .notFound fun f =>
    let lcxlRole := irp.int 8
    if lcxlRole ≠ f.module.lcxlRole then
      if (lcxlRole = roleRouter ∨ lcxlRole = roleServer) ∧ f.module.lcxlRole ≠ roleUnknown then
        (f, .ofStatus .invalidParameter)
      else ({ f with module := { f.module with lcxlRole := lcxlRole } }, .ofStatus .success)
    else (f, .ofStatus .success)

/-- The characters of a name of which `buflen` bytes are copied. -/
def NdisString.copied (s : NdisString) (buflen : ℕ) : List UInt16 :=
  (List.range (buflen / 2)).map s.buffer ++ [0]

/-- How many bytes are copied of each name, of an array of 512. For the friendly name it is the
size of a pointer, 8, that is compared, and for the miniport's a difference that is unsigned. -/
def filterModuleNameLength (s : NdisString) : ℕ := if 510 < s.length then 510 else s.length
def miniportFriendlyNameLength (s : NdisString) : ℕ := if 8 < s.length then 510 else s.length
def miniportNameLength (s : NdisString) : ℕ :=
  if s.length < 2 ∨ 512 < s.length - 2 then 510 else s.length

def appModule (f : LcxlFilter) (serverCount : ℤ) : AppModule where
  miniportIfindex := f.module.miniportIfindex
  miniportNetLuid := f.module.miniportNetLuid
  virtualAddr := f.module.virtualAddr
  macAddr := f.module.macAddr
  filterModuleName :=
    f.module.filterModuleName.copied (filterModuleNameLength f.module.filterModuleName)
  miniportFriendlyName :=
    f.module.miniportFriendlyName.copied (miniportFriendlyNameLength f.module.miniportFriendlyName)
  miniportName := f.module.miniportName.copied (miniportNameLength f.module.miniportName)
  lcxlRole := f.module.lcxlRole
  serverCount := serverCount
  routeTimeout := f.module.routeTimeout
  serverCheck := f.module.serverCheck
  routingAlgorithm := f.module.routingAlgorithm

/-- The loop of `IOCTL_GET_MODULE_LIST`. -/
def moduleListLoop : List FilterPtr → Driver → Driver × List AppModule
  | [], d => (d, [])
  | p :: ps, d =>
    let f := d.filter p
    let t := lockServerList f.module.serverList
    let curBuf := appModule f (getLcxlListCount t.lst)
    let (d, buffer) := moduleListLoop ps (d.setFilter p (f.setServers (unlockServerList t)))
    (d, curBuf :: buffer)

/-- Whether the output has room for `count` records of a size, a negative count being a huge one
where it is multiplied. -/
def Irp.hasRoom (irp : Irp) (count : ℤ) (size : ℕ) : Bool :=
  0 ≤ count ∧ count * size ≤ irp.outputBufferLength

def getModuleList (d : Driver) (irp : Irp) : Driver × Reply :=
  let d := d.lock
  if irp.hasRoom (getLcxlListCount d.gFilterList) sizeofAppModule then
    let (d, buffer) := moduleListLoop (getLcxlListHead d.gFilterList) d
    (d.unlock, ⟨.success, buffer.length * sizeofAppModule, .modules buffer⟩)
  else (d.unlock, .ofStatus .bufferTooSmall)

def setVirtualAddr (d : Driver) (irp : Irp) : Driver × Reply :=
  ofSize d irp sizeofAppSetVirtualAddr .infoLengthMismatch <| withFilter d irp .notFound fun f =>
    ({ f with module := { f.module with virtualAddr := irp.lcxlAddrInfo } }, .ofStatus .success)

/-- It is the number of modules that the room in the output is checked against. -/
def getServerList (d : Driver) (irp : Irp) : Driver × Reply :=
  ofSize d irp sizeofNetLuid .infoLengthMismatch <| withFilter d irp .notFound fun f =>
    let t := lockServerList f.module.serverList
    let f := f.setServers (unlockServerList t)
    if irp.hasRoom (getLcxlListCount d.gFilterList) sizeofLcxlServer then
      let buffer := (getLcxlListHead t.lst).map fun p => (t.mem p).info
      (f, ⟨.success, buffer.length * sizeofLcxlServer, .servers buffer⟩)
    else (f, .ofStatus .bufferTooSmall)

def addServer (past : ServerPtr → Bool) (now : ℤ) (d : Driver) (irp : Irp) : Driver × Reply :=
  ofSize d irp sizeofAppAddServer .infoLengthMismatch <| withFilter d irp .notFound fun f =>
    (f.setServers (routerAddServer past now f.module.serverList irp.lcxlServer),
      .ofStatus .success)

def delServer (past : ServerPtr → Bool) (d : Driver) (irp : Irp) : Driver × Reply :=
  ofSize d irp sizeofAppDelServer .infoLengthMismatch <| withFilter d irp .notFound fun f =>
    let (t, deleted) := routerDelServer past f.module.serverList (irp.ifPhysicalAddress 8)
    (f.setServers t, .ofStatus (if deleted then .fileDeleted else .success))

def setServerCheck (d : Driver) (irp : Irp) : Driver × Reply :=
  ofSize d irp sizeofAppSetServerCheck .success <| withFilter d irp .success fun f =>
    ({ f with module := { f.module with serverCheck := irp.lcxlServerCheck } },
      .ofStatus .success)

def setRoutingAlgorithm (d : Driver) (irp : Irp) : Driver × Reply :=
  ofSize d irp sizeofAppSetRoutingAlgorithm .success <| withFilter d irp .success fun f =>
    ({ f with module := { f.module with routingAlgorithm := irp.int 8 } }, .ofStatus .success)

/-- `past` and `now` are what a request to add or delete a server finds past the servers'
addresses, and on the clock. -/
def filterDeviceIoControl (past : ServerPtr → Bool) (now : ℤ) (d : Driver) (irp : Irp) :
    Driver × Reply :=
  if ¬ irp.fileObject then (d, .ofStatus .unsuccessful)
  else if irp.ioControlCode = ioctlRestartModule then restartModule d irp
  else if irp.ioControlCode = ioctlSetRole then setRole d irp
  else if irp.ioControlCode = ioctlGetModuleList then getModuleList d irp
  else if irp.ioControlCode = ioctlSetVirtualAddr then setVirtualAddr d irp
  else if irp.ioControlCode = ioctlRouterGetServerList then getServerList d irp
  else if irp.ioControlCode = ioctlRouterAddServer then addServer past now d irp
  else if irp.ioControlCode = ioctlRouterDelServer then delServer past d irp
  else if irp.ioControlCode = ioctlRouterSetServerCheck then setServerCheck d irp
  else if irp.ioControlCode = ioctlRouterSetRoutingAlgorithm then setRoutingAlgorithm d irp
  else (d, .ofStatus .invalidParameter)

/-- Which of the driver's lock lists: a module's `server_list`, or `g_filter_list`. -/
abbrev ListId := Option FilterPtr

namespace Driver

def lockList (d : Driver) : ListId → LcxlList ℕ
  | none => d.gFilterList
  | some p => (d.filter p).module.serverList.lst

/-- A call on one of the lists by another party. -/
def onList (d : Driver) (g : LcxlList ℕ → LcxlList ℕ) : ListId → Driver
  | none => { d with gFilterList := g d.gFilterList }
  | some p =>
    let t := (d.filter p).module.serverList
    d.setFilter p ((d.filter p).setServers { t with lst := g t.lst })

/-- Every list is locked as often as before. -/
def SameLocks (d d' : Driver) : Prop := ∀ l, (d'.lockList l).lockCount = (d.lockList l).lockCount

end Driver

/-- A request to delete a server that finds the module. -/
def LeavesLocked (d : Driver) (irp : Irp) : Prop :=
  irp.fileObject ∧ irp.ioControlCode = ioctlRouterDelServer
    ∧ irp.inputBufferLength = sizeofAppDelServer ∧ (findFilter d irp.miniportNetLuid).isSome

/-- What happens to the driver's lists: a request, or a call by another party. -/
inductive DeviceEvent
  | ioctl (past : ServerPtr → Bool) (now : ℤ) (irp : Irp)
  | lock (l : ListId)
  | unlock (l : ListId)
  | add (l : ListId) (e : ℕ)
  | remove (l : ListId) (e : ℕ)

/-- The driver, and how often the other parties hold each list. -/
structure Device where
  driver : Driver
  held : ListId → ℕ

namespace Device

def exec (s : Device) : DeviceEvent → Device
  | .ioctl past now irp => { s with driver := (filterDeviceIoControl past now s.driver irp).1 }
  | .lock l => ⟨s.driver.onList lockLcxlList l, Function.update s.held l (s.held l + 1)⟩
  | .unlock l => ⟨s.driver.onList unlockLcxlList l, Function.update s.held l (s.held l - 1)⟩
  | .add l e => { s with driver := s.driver.onList (addEntrytoLcxlList · e) l }
  | .remove l e => { s with driver := s.driver.onList (removeEntryfromLcxlList · e) l }

/-- A list is unlocked only by a party that holds it, and no request leaves one locked. -/
def Allowed (s : Device) : DeviceEvent → Prop
  | .ioctl _ _ irp => ¬ LeavesLocked s.driver irp
  | .unlock l => 0 < s.held l
  | _ => True

abbrev Step : Device → DeviceEvent → Device → Prop := Sys.Guarded Allowed exec

/-- A list is locked as often as the other parties hold it, and nothing waits on it when none
does. -/
structure Quiet (l : LcxlList ℕ) (held : ℕ) : Prop where
  lockCount : l.lockCount = UInt8.ofNat held
  settled : held = 0 → l.toBeAddList = [] ∧ l.toBeDelList = []

end Device

end LcxlNetLoader
