import LcxlNetLoader.Net
import LcxlNetLoader.Route

/-!
# A filter module

`LCXL_FILTER` and the parts of it that answer for the module's connections and servers: routing
one TCP packet, the worker thread's check of the servers, and the requests that add and delete a
server. A filter's own spin lock is left out, each of these running by itself.
-/

namespace LcxlNetLoader

inductive FilterState
  | unspecified
  | initialized
  | pausing
  | paused
  | running
  | restarting
  | detaching
deriving DecidableEq

/-- `NDIS_STRING`: its length in bytes, and the characters at its buffer. -/
structure NdisString where
  length : ℕ
  buffer : ℕ → UInt16

/-- `LCXL_MODULE_SETTING_INFO`. -/
structure LcxlModuleSettingInfo where
  miniportIfindex : UInt32
  miniportNetLuid : UInt64
  miniportFriendlyName : NdisString
  miniportName : NdisString
  filterModuleName : NdisString
  macAddr : IfPhysicalAddress
  lcxlRole : ℤ
  virtualAddr : LcxlAddrInfo
  performance : LcxlServerPerformance
  serverList : ServerTable
  routeTimeout : ℤ
  serverCheck : LcxlServerCheck
  routingAlgorithm : ℤ

/-- `LCXL_FILTER`. -/
structure LcxlFilter where
  filterHandle : ℕ
  state : FilterState
  outstandingSends : UInt32
  outstandingRcvs : UInt32
  trackReceives : Bool
  trackSends : Bool
  module : LcxlModuleSettingInfo
  routeTable : RouteTable
  routingAlgorithmData : RoutingAlgorithmData

namespace LcxlFilter

def setServers (f : LcxlFilter) (t : ServerTable) : LcxlFilter :=
  { f with module := { f.module with serverList := t } }

def setRouting (f : LcxlFilter) (rt : RouteTable) (t : ServerTable) : LcxlFilter :=
  { f.setServers t with routeTable := rt }

end LcxlFilter

/-- Give back the reference of the server the entry goes to. -/
def dropRouteServer (rt : RouteTable) (t : ServerTable) (p : RoutePtr) : ServerTable :=
  match rt.find p with
  | some r => dropServer t r
  | none => t

/-- The status an entry takes from a packet that is not the first of a connection. -/
def nextStatus (status : RouteStatus) (thFlags : UInt8) : RouteStatus :=
  if has thFlags thAck ∧ status = .lastAck then .closed
  else if has thFlags thFin then .lastAck
  else if has thFlags thRst then .closed
  else status

/-- `now` is the clock as `GetRouteListEntry` reads it, `later` as `InitRouteListEntry` does. -/
def routeTCPNBL (cfg : LcxlSetting) (f : LcxlFilter) (pkt : TcpPacket) (now later : ℤ) :
    LcxlFilter × Option RoutePtr :=
  let (rt, t, routeInfo) := getRouteListEntry cfg f.routeTable f.module.routeTimeout
    f.module.serverList pkt now
  if pkt.thFlags = thSyn then
    let (t, ra, server) := selectBestServer t pkt.ipMode pkt.dstAddr f.module.routingAlgorithm
      f.routingAlgorithmData
    let f := { f with routingAlgorithmData := ra }
    match server with
    | none => (f.setRouting rt t, none)
    | some server =>
      match routeInfo with
      | none =>
        let (rt, p) := createRouteListEntry rt
        (f.setRouting (initRouteListEntry rt p pkt server later) t, some p)
      | some p =>
        let t := dropRouteServer rt t p
        (f.setRouting (initRouteListEntry rt p pkt server later) t, some p)
  else
    match routeInfo with
    | none => (f.setRouting rt t, none)
    | some p =>
      let rt := rt.modify p fun r => { r with status := nextStatus r.status pkt.thFlags }
      (f.setRouting rt t, some p)

/-- What one check at time `timestamp` makes of a server, and whether it is sent a request. -/
def checkServer (cfg : LcxlSetting) (check : LcxlServerCheck) (timestamp : ℤ)
    (s : ServerInfoListEntry) : ServerInfoListEntry × Bool :=
  let late := timestamp - s.timestamp > cfg.frequency * check.timeout * (s.currentRetryNumber + 1)
  if has s.info.status ssDeleted then (s, false)
  else if has s.info.status ssOnline then
    if has s.info.status ssChecking then
      if late then
        let s := { s with currentRetryNumber := s.currentRetryNumber + 1 }
        if s.currentRetryNumber ≥ check.retryNumber then
          ({ s with info := { s.info with status := s.info.status &&& ~~~ssOnline } }, true)
        else (s, true)
      else (s, false)
    else if timestamp - s.timestamp > cfg.frequency * check.interval then
      ({ s with
          currentRetryNumber := 0
          info := { s.info with status := s.info.status ||| ssChecking }
          timestamp := timestamp }, true)
    else (s, false)
  else if late then ({ s with currentRetryNumber := s.currentRetryNumber + 1 }, true)
  else (s, false)

def checkingCodeRequest : UInt16 := 0x01
def checkingCodeResponse : UInt16 := 0x02

/-- `ETHERNET_LCXL_CHECKING`, at offset 16 of which the compiler puts the checking header and at
offset 24 the performance. -/
@[simp] def sizeofEthernetLcxlChecking : ℕ := 64

@[simp] def sizeofLcxlCheckingHeader : ℕ := 48

/-- A checking frame from `sourceMac` to `destMac`. -/
def createCheckingNBL (sourceMac destMac : List UInt8) (code : UInt16)
    (performance : LcxlServerPerformance) : Frame :=
  let fr := Frame.zero (max sizeofEthernetLcxlChecking 64)
  let fr := fr.write 6 sourceMac
  let fr := fr.write 0 destMac
  let fr := fr.write 12 (u16Bytes (ntohs ethernetTypeLcxlChecking))
  (fr.write 16 (u16Bytes code)).write 24 performance.toList

/-- The first six bytes of an address, which is what is copied of it as a MAC address. -/
def IfPhysicalAddress.mac (a : IfPhysicalAddress) : List UInt8 := a.address.toList.take 6

/-- The loop of `CheckServerStatus`: each server is checked once, in list order, and the requests
are queued. -/
def checkServersLoop (cfg : LcxlSetting) (module : LcxlModuleSettingInfo) (timestamp : ℤ) :
    List ServerPtr → ServerTable → ServerTable × List Frame
  | [], t => (t, [])
  | p :: ps, t =>
    let (s, sendCheckNbl) := checkServer cfg module.serverCheck timestamp (t.mem p)
    let (t, sent) := checkServersLoop cfg module timestamp ps (t.modify p fun _ => s)
    if sendCheckNbl then
      (t, createCheckingNBL module.macAddr.mac s.info.macAddr.mac checkingCodeRequest (.zero 40)
        :: sent)
    else (t, sent)

/-- The check at time `timestamp` and the frames it sends. -/
def checkServerStatus (cfg : LcxlSetting) (f : LcxlFilter) (timestamp : ℤ) :
    LcxlFilter × List Frame :=
  let t := lockServerList f.module.serverList
  let (t, sent) := checkServersLoop cfg f.module timestamp (getLcxlListHead t.lst) t
  (f.setServers (unlockServerList t), sent)

/-- What the worker thread does with one filter at each tick. -/
def workerTick (cfg : LcxlSetting) (f : LcxlFilter) (timestamp : ℤ) : LcxlFilter × List Frame :=
  if f.module.lcxlRole = roleRouter then checkServerStatus cfg f timestamp else (f, [])

/-- `IOCTL_ROUTER_ADD_SERVER` once the module has been found: the server of that address is
overwritten, or a new one added, its clock reading `now`. -/
def routerAddServer (past : ServerPtr → Bool) (now : ℤ) (t : ServerTable) (server : LcxlServer) :
    ServerTable :=
  let t := lockServerList t
  let t := match findServer past t server.macAddr with
    | none =>
      let p := t.next
      { t with
        next := p + 1
        mem := Function.update t.mem p { allocServer now with info := server }
        lst := addEntrytoLcxlList t.lst p }
    | some p => t.modify p fun s => { s with info := server }
  unlockServerList t

/-- `IOCTL_ROUTER_DEL_SERVER` once the module has been found, and whether the server found was
already deleted. The list is locked and not let go. -/
def routerDelServer (past : ServerPtr → Bool) (t : ServerTable) (macAddr : IfPhysicalAddress) :
    ServerTable × Bool :=
  let t := lockServerList t
  match findServer past t macAddr with
  | none => (t, false)
  | some p =>
    if has (t.mem p).info.status ssDeleted then (t, true)
    else
      let t := t.modify p fun s =>
        { s with info := { s.info with status := s.info.status ||| ssDeleted } }
      (decRefListEntry t p, false)

end LcxlNetLoader
