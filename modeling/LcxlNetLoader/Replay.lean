import LcxlNetLoader.Config
import LcxlNetLoader.Lifecycle

/-!
# The configuration replayed

`SetModuleInfo` pushes a module's configuration to the driver in one request after another, each of
them a call of `lnlDeviceIoControl` with a packed record of the module's LUID and what is to be set.
-/

namespace LcxlNetLoader

/-- The `n` bytes of a number in memory. -/
def leBytes : ℕ → ℕ → List UInt8
  | 0, _ => []
  | n + 1, v => UInt8.ofNat v :: leBytes n (v / 256)

def luidBytes (miniportNetLuid : UInt64) : List UInt8 := leBytes 8 miniportNetLuid.toNat

def intBytes (n : Int32) : List UInt8 := leBytes 4 n.toUInt32.toNat

def IfPhysicalAddress.bytes (a : IfPhysicalAddress) : List UInt8 :=
  leBytes 2 a.length ++ a.address.toList

def LcxlServer.bytes (s : LcxlServer) : List UInt8 := [s.status, s.ipStatus] ++ s.macAddr.bytes

/-- The addresses are aligned, the bytes between zero. -/
def LcxlAddrInfo.bytes (a : LcxlAddrInfo) : List UInt8 :=
  [a.status, 0, 0, 0] ++ a.ipv4.toList ++ [a.ipv4OnlinkPrefixLength, 0] ++ a.ipv6.toList
    ++ [a.ipv6OnlinkPrefixLength, 0]

def ConfigServerCheck.bytes (c : ConfigServerCheck) : List UInt8 :=
  intBytes c.interval ++ intBytes c.timeout ++ intBytes c.retryNumber

/-- The request that reaches the driver, which has one buffer for both directions. -/
def lnlDeviceIoControl (ioControlCode : UInt32) (inBuffer : List UInt8) (outBufferSize : ℕ) : Irp :=
  ⟨true, ioControlCode, fun i => inBuffer.getD i 0, inBuffer.length, outBufferSize⟩

section Requests

variable (miniportNetLuid : UInt64)

def lnlSetLcxlRole (lcxlRole : Int32) : Irp :=
  lnlDeviceIoControl ioctlSetRole (luidBytes miniportNetLuid ++ intBytes lcxlRole) 0

def lnlSetVirtualAddr (addr : LcxlAddrInfo) : Irp :=
  lnlDeviceIoControl ioctlSetVirtualAddr (luidBytes miniportNetLuid ++ addr.bytes) 0

def lnlAddServer (server : LcxlServer) : Irp :=
  lnlDeviceIoControl ioctlRouterAddServer (luidBytes miniportNetLuid ++ server.bytes) 0

def lnlSetServerCheck (serverCheck : ConfigServerCheck) : Irp :=
  lnlDeviceIoControl ioctlRouterSetServerCheck (luidBytes miniportNetLuid ++ serverCheck.bytes) 0

def lnlSetRoutingAlgorithm (routingAlgorithm : Int32) : Irp :=
  lnlDeviceIoControl ioctlRouterSetRoutingAlgorithm
    (luidBytes miniportNetLuid ++ intBytes routingAlgorithm) 0

end Requests

/-- `moduleListCount` is how many modules the caller has room for. -/
def lnlGetModuleList (moduleListCount : ℕ) : Irp :=
  lnlDeviceIoControl ioctlGetModuleList [] (moduleListCount * sizeofAppModule)

/-- What the driver is to be told of the servers. -/
def ConfigModule.servers (module : ConfigModule) : List LcxlServer :=
  module.serverList.map (·.server)

/-- The requests that `SetModuleInfo` makes of the driver. -/
def setModuleInfo (module : ConfigModule) : List Irp :=
  let miniportNetLuid := module.module.miniportNetLuid
  [lnlSetVirtualAddr miniportNetLuid module.module.virtualAddr,
    lnlSetLcxlRole miniportNetLuid module.module.lcxlRole] ++
  if module.module.lcxlRole.toInt = roleRouter then
    module.servers.map (lnlAddServer miniportNetLuid) ++
      [lnlSetServerCheck miniportNetLuid module.module.serverCheck,
        lnlSetRoutingAlgorithm miniportNetLuid module.module.routingAlgorithm]
  else []

namespace Driver

/-- The driver after the requests, the clock reading `now n` at the `n`-th. -/
def serve (past : ServerPtr → Bool) (now : ℕ → ℤ) : List Irp → Driver → Driver
  | [], d => d
  | irp :: irps, d =>
    serve past (fun n => now (n + 1)) irps (filterDeviceIoControl past (now 0) d irp).1

/-- The adapter of the configuration has just been attached: its module, at `p`, is the first of
that LUID and as `InitModuleSetting` leaves it, without servers, and no list is locked. -/
structure JustAttached (d : Driver) (p : FilterPtr) (module : ConfigModule) : Prop where
  found : findFilter d module.module.miniportNetLuid = some p
  setting : ∃ (memory : ServerTable) (parameters : AttachParameters),
    (d.filter p).module = initModuleSetting { memory with lst := initLcxlList } parameters
  unlocked : d.gFilterList.lockCount = 0
  settled : d.gFilterList.toBeAddList = [] ∧ d.gFilterList.toBeDelList = []

end Driver

/-- The servers of the configuration have addresses of six bytes, no two the same. -/
structure ConfigModule.DistinctServers (module : ConfigModule) : Prop where
  length : ∀ s ∈ module.servers, s.macAddr.length = 6
  nodup : (module.servers.map (·.macAddr.value)).Nodup

def ConfigServerCheck.toServerCheck (c : ConfigServerCheck) : LcxlServerCheck :=
  ⟨c.interval.toInt, c.timeout.toInt, c.retryNumber.toInt⟩

/-- The driver's record of a module reports the configuration. -/
structure ConfigModule.ReportedBy (module : ConfigModule) (m : AppModule) : Prop where
  lcxlRole : m.lcxlRole = module.module.lcxlRole.toInt
  virtualAddr : m.virtualAddr = module.module.virtualAddr
  routeTimeout : m.routeTimeout = module.module.routeTimeout.toInt
  serverCheck : m.serverCheck = module.module.serverCheck.toServerCheck
  routingAlgorithm : m.routingAlgorithm = module.module.routingAlgorithm.toInt
  serverCount : m.serverCount = module.servers.length

/-- The driver has the configuration in its module at `p`, and answers with it. -/
structure ConfigModule.Reproduced (module : ConfigModule) (d : Driver) (p : FilterPtr)
    (reply : Reply) : Prop where
  reported : ∃ buffer m, reply.output = .modules buffer
    ∧ buffer.find? (·.miniportNetLuid == module.module.miniportNetLuid) = some m
    ∧ module.ReportedBy m
  servers : ((d.filter p).module.serverList.lst.list.map
    fun q => ((d.filter p).module.serverList.mem q).info) = module.servers

end LcxlNetLoader
