import LcxlNetLoader.Replay

/-!
# The caller's buffer

The bytes that a request for a list writes to the buffer it is given, record by record, and what
such a request owes its caller: the whole list if there is room for it, and otherwise to be told.
-/

namespace LcxlNetLoader

/-- Bytes written to the caller's buffer. -/
structure Write where
  offset : ℕ
  bytes : List UInt8

/-- The first `n` bytes of a name, or what follows it in memory. -/
def NdisString.bytes (s : NdisString) (n : ℕ) : List UInt8 :=
  ((List.range n).flatMap fun i => leBytes 2 (s.buffer i).toNat).take n

def LcxlServerCheck.bytes (c : LcxlServerCheck) : List UInt8 :=
  intBytes (.ofInt c.interval) ++ intBytes (.ofInt c.timeout) ++ intBytes (.ofInt c.retryNumber)

/-- `RtlCopyMemory` to the array of a name, and the zero put behind it. -/
def nameWrites (s : NdisString) (buflen name : ℕ) : List Write :=
  [⟨name, s.bytes buflen⟩, ⟨name + 2 * (buflen / 2), [0, 0]⟩]

/-- What the loop of `IOCTL_GET_MODULE_LIST` writes to the `APP_MODULE` at `curBuf`, in order. -/
def appModuleWrites (module : LcxlModuleSettingInfo) (curBuf : ℕ) : List Write :=
  [⟨curBuf, leBytes 4 module.miniportIfindex.toNat⟩,
    ⟨curBuf + 4, luidBytes module.miniportNetLuid⟩,
    ⟨curBuf + 40, module.macAddr.bytes⟩]
  ++ nameWrites module.filterModuleName (filterModuleNameLength module.filterModuleName)
    (curBuf + 74)
  ++ nameWrites module.miniportFriendlyName
    (miniportFriendlyNameLength module.miniportFriendlyName) (curBuf + 586)
  ++ nameWrites module.miniportName (miniportNameLength module.miniportName) (curBuf + 1098)
  ++ [⟨curBuf + 1610, intBytes (.ofInt module.lcxlRole)⟩,
    ⟨curBuf + 1618, intBytes (.ofInt module.routeTimeout)⟩,
    ⟨curBuf + 1634, intBytes (.ofInt module.routingAlgorithm)⟩,
    ⟨curBuf + 12, module.virtualAddr.bytes⟩,
    ⟨curBuf + 1622, module.serverCheck.bytes⟩,
    ⟨curBuf + 1614, intBytes (.ofInt (getLcxlListCount module.serverList.lst))⟩]

def moduleListWrites (d : Driver) : List FilterPtr → (curBuf : ℕ) → List Write
  | [], _ => []
  | p :: ps, curBuf =>
    appModuleWrites (d.filter p).module curBuf ++ moduleListWrites d ps (curBuf + sizeofAppModule)

def serverListWrites (t : ServerTable) : List ServerPtr → (curBuf : ℕ) → List Write
  | [], _ => []
  | p :: ps, curBuf =>
    ⟨curBuf, (t.mem p).info.bytes⟩ :: serverListWrites t ps (curBuf + sizeofLcxlServer)

/-- What `IOCTL_GET_MODULE_LIST` writes. -/
def getModuleListWrites (d : Driver) (irp : Irp) : List Write :=
  if irp.hasRoom (getLcxlListCount d.gFilterList) sizeofAppModule then
    moduleListWrites d (getLcxlListHead d.gFilterList) 0
  else []

/-- What `IOCTL_ROUTER_GET_SERVER_LIST` writes. -/
def getServerListWrites (d : Driver) (irp : Irp) : List Write :=
  if irp.inputBufferLength = sizeofNetLuid then
    match findFilter d irp.miniportNetLuid with
    | some p =>
      let t := (d.filter p).module.serverList
      if irp.hasRoom (getLcxlListCount d.gFilterList) sizeofLcxlServer then
        serverListWrites t (getLcxlListHead t.lst) 0
      else []
    | none => []
  else []

/-- A name begins with these characters, as far as its array holds them. -/
def NdisString.Begins (s : NdisString) (name : List UInt16) : Prop :=
  ∀ i < min (s.length / 2) 255, name[i]? = some (s.buffer i)

/-- The record tells what the module is. -/
structure AppModule.Describes (a : AppModule) (f : LcxlFilter) : Prop where
  miniportIfindex : a.miniportIfindex = f.module.miniportIfindex
  miniportNetLuid : a.miniportNetLuid = f.module.miniportNetLuid
  virtualAddr : a.virtualAddr = f.module.virtualAddr
  macAddr : a.macAddr = f.module.macAddr
  filterModuleName : f.module.filterModuleName.Begins a.filterModuleName
  miniportFriendlyName : f.module.miniportFriendlyName.Begins a.miniportFriendlyName
  miniportName : f.module.miniportName.Begins a.miniportName
  lcxlRole : a.lcxlRole = f.module.lcxlRole
  serverCount : a.serverCount = f.module.serverList.lst.list.length
  routeTimeout : a.routeTimeout = f.module.routeTimeout
  serverCheck : a.serverCheck = f.module.serverCheck
  routingAlgorithm : a.routingAlgorithm = f.module.routingAlgorithm

/-- A request for a list of `n` records, of this size each, writes no byte behind the buffer. The
caller has all of them if there is room, and is told otherwise. -/
structure ListAnswered (irp : Irp) (n size : ℕ) (reply : Reply) (writes : List Write)
    (Listed : Output → List Write → Prop) : Prop where
  inside : ∀ w ∈ writes, w.offset + w.bytes.length ≤ irp.outputBufferLength
  whole : n * size ≤ irp.outputBufferLength →
    reply.status = .success ∧ reply.information = n * size ∧ Listed reply.output writes
  short : irp.outputBufferLength < n * size →
    reply.status = .bufferTooSmall ∧ reply.information = 0

namespace Driver

/-- The records are of the driver's modules, each in its place. -/
def ModulesListed (d : Driver) (output : Output) (writes : List Write) : Prop :=
  ∃ buffer, output = .modules buffer
    ∧ List.Forall₂ AppModule.Describes buffer (d.gFilterList.list.map d.filter)
    ∧ writes = (d.gFilterList.list.mapIdx fun i p =>
      appModuleWrites (d.filter p).module (i * sizeofAppModule)).flatten

/-- The records are of the module's servers, each in its place. -/
def ServersListed (d : Driver) (p : FilterPtr) (output : Output) (writes : List Write) : Prop :=
  ∃ buffer, output = .servers buffer
    ∧ buffer = (d.filter p).module.serverList.lst.list.map
      (fun s => ((d.filter p).module.serverList.mem s).info)
    ∧ writes = buffer.mapIdx fun i s => ⟨i * sizeofLcxlServer, s.bytes⟩

end Driver

end LcxlNetLoader
