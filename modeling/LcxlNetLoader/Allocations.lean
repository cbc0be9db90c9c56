import LcxlNetLoader.Lib.Alloc
import LcxlNetLoader.Lifecycle

/-!
# Allocations that fail

The handlers as `Allocating` has them ask for what they allocate, which the definitions of the same
names outside take for granted. `AllocRoute` and `AllocServer` answer with a NULL that their callers
use all the same; of the rest only what `NdisAllocateMdl` returns is passed on without being looked
into. Requests that allocate nothing are as they were.
-/

namespace LcxlNetLoader

/-- `AllocRoute`, `AllocServer`, an entry of `to_be_mem_mgr`, `FILTER_ALLOC_MEM`, `NdisAllocateMdl`
and `NdisAllocateNetBufferAndNetBufferList`. -/
inductive AllocKind
  | route
  | server
  | toBe
  | memory
  | mdl
  | netBufferList
deriving DecidableEq

def AllocKind.isMdl : AllocKind → Bool
  | .mdl => true
  | _ => false

abbrev Alloc := AllocM AllocKind

namespace Allocating

section Lists

variable {α : Type} [DecidableEq α]

omit [DecidableEq α] in
def addEntrytoLcxlList (l : LcxlList α) (e : α) : Alloc (LcxlList α) :=
  if 0 < l.lockCount then do
    AllocM.deref .toBe
    pure { l with toBeAddList := l.toBeAddList ++ [e] }
  else pure (linkEntry l e)

def removeEntryfromLcxlList (l : LcxlList α) (e : α) : Alloc (LcxlList α) :=
  if 0 < l.lockCount then do
    AllocM.deref .toBe
    pure { l with toBeDelList := l.toBeDelList ++ [e] }
  else pure (unlinkEntry l e)

end Lists

def decRefListEntry (t : ServerTable) (p : ServerPtr) : Alloc ServerTable :=
  let t := t.modify p fun s => { s with refCount := s.refCount - 1 }
  if (t.mem p).refCount ≤ 0 then do
    let lst ← removeEntryfromLcxlList t.lst p
    pure { t with lst := lst }
  else pure t

def dropServer (t : ServerTable) (r : LcxlRouteListEntry) : Alloc ServerTable :=
  match r.dstServer with
  | some p => decRefListEntry t p
  | none => pure t

def deleteRouteListEntry (rt : RouteTable) (t : ServerTable) (p : RoutePtr) :
    Alloc (RouteTable × ServerTable) :=
  match rt.find p with
  | some r => do
    let t ← dropServer t r
    pure ({ rt with list := rt.list.eraseP (·.self = p), freed := rt.freed ++ [r] }, t)
  | none => pure (rt, t)

def getRouteLoop (cfg : LcxlSetting) (routeTimeout now : ℤ) (pkt : TcpPacket) :
    List LcxlRouteListEntry → ServerTable →
      Alloc (List LcxlRouteListEntry × List LcxlRouteListEntry × ServerTable × Option RoutePtr)
  | [], t => pure ([], [], t, none)
  | r :: rs, t =>
    if r.matches pkt then pure ({ r with recvTimestamp := now } :: rs, [], t, some r.self)
    else if r.expired cfg routeTimeout now then do
      let t ← dropServer t r
      let (kept, gone, t, p) ← getRouteLoop cfg routeTimeout now pkt rs t
      pure (kept, r :: gone, t, p)
    else do
      let (kept, gone, t, p) ← getRouteLoop cfg routeTimeout now pkt rs t
      pure (r :: kept, gone, t, p)

def getRouteListEntry (cfg : LcxlSetting) (rt : RouteTable) (routeTimeout : ℤ)
    (t : ServerTable) (pkt : TcpPacket) (now : ℤ) :
    Alloc (RouteTable × ServerTable × Option RoutePtr) := do
  let (kept, gone, t, p) ← getRouteLoop cfg routeTimeout now pkt rt.list t
  pure ({ rt with list := kept, freed := rt.freed ++ gone }, t, p)

def dropRouteServer (rt : RouteTable) (t : ServerTable) (p : RoutePtr) : Alloc ServerTable :=
  match rt.find p with
  | some r => dropServer t r
  | none => pure t

def leastConnectionLoop (ipMode : IpMode) :
    List ServerPtr → ServerTable → Option ServerPtr → Alloc (ServerTable × Option ServerPtr)
  | [], t, bestServer => pure (t, bestServer)
  | p :: ps, t, bestServer =>
    if serverIsAvaliable (t.mem p) ipMode && betterServer t bestServer p then do
      let t ← match bestServer with
        | some b => decRefListEntry t b
        | none => pure t
      leastConnectionLoop ipMode ps (incRefListEntry t p) (some p)
    else leastConnectionLoop ipMode ps t bestServer

/-- Of the algorithms only `RA_LEAST_CONNECTION` gives references back. -/
def selectBestServer (t : ServerTable) (ipMode : IpMode) (dstAddr : List UInt8)
    (routingAlgorithm : ℤ) (ra : RoutingAlgorithmData) :
    Alloc (ServerTable × RoutingAlgorithmData × Option ServerPtr) :=
  let t' := lockServerList t
  if getLcxlListCount t'.lst > 0
      ∧ (routingAlgorithm = raFastResponse ∨ routingAlgorithm = raLeastConnection) then do
    let (t', bestServer) ← leastConnectionLoop ipMode (getLcxlListHead t'.lst) t' none
    pure (unlockServerList t', ra, bestServer)
  else pure (LcxlNetLoader.selectBestServer t ipMode dstAddr routingAlgorithm ra)

/-- The address returned is none where `AllocRoute` returns NULL. -/
def createRouteListEntry (rt : RouteTable) : Alloc (RouteTable × Option RoutePtr) := do
  if ← AllocM.request .route then
    let (rt, p) := LcxlNetLoader.createRouteListEntry rt
    pure (rt, some p)
  else pure (rt, none)

/-- The entry is written to, whether there is one or not. -/
def initRouteListEntry (rt : RouteTable) (p : Option RoutePtr) (pkt : TcpPacket)
    (server : ServerPtr) (now : ℤ) : Alloc RouteTable :=
  match p with
  | some p => pure (LcxlNetLoader.initRouteListEntry rt p pkt server now)
  | none => AllocM.crash

def routeTCPNBL (cfg : LcxlSetting) (f : LcxlFilter) (pkt : TcpPacket) (now later : ℤ) :
    Alloc (LcxlFilter × Option RoutePtr) := do
  let (rt, t, routeInfo) ← getRouteListEntry cfg f.routeTable f.module.routeTimeout
    f.module.serverList pkt now
  if pkt.thFlags = thSyn then
    let (t, ra, server) ← selectBestServer t pkt.ipMode pkt.dstAddr f.module.routingAlgorithm
      f.routingAlgorithmData
    let f := { f with routingAlgorithmData := ra }
    match server with
    | none => pure (f.setRouting rt t, none)
    | some server =>
      match routeInfo with
      | none =>
        let (rt, p) ← createRouteListEntry rt
        let rt ← initRouteListEntry rt p pkt server later
        pure (f.setRouting rt t, p)
      | some p =>
        let t ← dropRouteServer rt t p
        let rt ← initRouteListEntry rt (some p) pkt server later
        pure (f.setRouting rt t, some p)
  else
    match routeInfo with
    | none => pure (f.setRouting rt t, none)
    | some p =>
      let rt := rt.modify p fun r => { r with status := nextStatus r.status pkt.thFlags }
      pure (f.setRouting rt t, some p)

/-- `ProcessNBL` of a frame received. It comes to an allocation only in `RouteTCPNBL`, which it
calls for the packets of the virtual address. -/
def processNBL (cfg : LcxlSetting) (f : LcxlFilter) (fr : Frame) (amb : Ambient) :
    Alloc (LcxlFilter × ProcessNblResult) :=
  match vipPacket f fr with
  | some pkt => do
    let (f, route) ← routeTCPNBL cfg f pkt amb.now amb.later
    let result := { ProcessNblResult.zero with route := route }
    pure (f, if route.isSome then { result with code := .router } else result)
  | none => pure ((LcxlNetLoader.processNBL cfg f true fr.dataLength amb).val fr.byte)

def dropClosed (f : LcxlFilter) (p : RoutePtr) : Alloc LcxlFilter :=
  if (f.routeTable.find p).any (·.status = .closed) then do
    let (rt, t) ← deleteRouteListEntry f.routeTable f.module.serverList p
    pure (f.setRouting rt t)
  else pure f

/-- Whether the NBL created has an MDL, which it takes as `NdisAllocateMdl` returns it. -/
def createNBL : Alloc Bool := do
  let mapped ← AllocM.request .mdl
  AllocM.deref .netBufferList
  pure mapped

def createCheckingNBL (sourceMac destMac : List UInt8) (code : UInt16)
    (performance : LcxlServerPerformance) : Alloc (Frame × Bool) := do
  AllocM.deref .memory
  let mapped ← createNBL
  pure (LcxlNetLoader.createCheckingNBL sourceMac destMac code performance, mapped)

/-- One round of the loop of `FilterReceiveNetBufferLists`, without its queues, with whether the
NBL created has an MDL. -/
def receiveFrame (cfg : LcxlSetting) (f : LcxlFilter) (fr : Frame) (amb : Ambient) :
    Alloc (LcxlFilter × ProcessNblResultCode × Option (OwnNbl × Bool)) := do
  let (f, result) ← processNBL cfg f fr amb
  match result.code, result.route with
  | .router, some p =>
    AllocM.deref .memory
    let mapped ← createNBL
    let f' ← dropClosed f p
    pure (f', .router, some (.send (fr.routedTo (f.routeMac p) amb.heap), mapped))
  | .icmpv6Na, _ =>
    AllocM.deref .memory
    let mapped ← createNBL
    pure (f, .icmpv6Na,
      some (.recv ((fr.copy fr.dataLength amb.heap).write 0 f.module.macAddr.mac), mapped))
  | .checkingNbl, _ =>
    let (nbl, mapped) ← createCheckingNBL f.module.macAddr.mac (fr.slice 6 6)
      checkingCodeResponse f.module.performance
    pure (f, .checkingNbl, some (.send nbl, mapped))
  | code, _ => pure (f, code, none)

def receiveNbl (cfg : LcxlSetting) (amb : NblPtr → Ambient) (frame : NblPtr → Option Frame)
    (f : LcxlFilter) (x : NblPtr) :
    Alloc (LcxlFilter × ProcessNblResultCode × Option (OwnNbl × Bool)) :=
  match frame x with
  | some fr => receiveFrame cfg f fr (amb x)
  | none => pure (f, .pass, none)

/-- The NBL is queued as ever. Without an MDL no frame can be mapped of it. -/
def queueOwn (s : DataPath) : Option (OwnNbl × Bool) → DataPath
  | none => s
  | some (own, mapped) =>
    let s' := s.queueOwn (some own)
    if mapped then s'
    else
      { s' with heap :=
          { s'.heap with frame := Function.update s'.heap.frame s.heap.alloc none } }

/-- One round of the loop over the NBLs received. -/
def receiveStep (cfg : LcxlSetting) (amb : NblPtr → Ambient) (left : NblPtr → Option NblPtr)
    (portNumber receiveFlags : UInt32) (s : DataPath) (x : NblPtr) : Alloc DataPath := do
  let (f, code, own) ← receiveNbl cfg amb s.heap.frame s.filter x
  let s := { s with filter := f }
  let s := match code with
    | .drop | .router | .icmpv6Na => if cannotPend receiveFlags then s else s.queueDrop x
    | .checkingNbl | .pass =>
      if cannotPend receiveFlags then s.indicateAlone portNumber receiveFlags (left x) x
      else { s.queuePass x with numberOfPassNbl := s.numberOfPassNbl + 1 }
    | .modify | .icmpv6Ns => s
  pure (queueOwn s own)

/-- The loop over the NBLs received, of at most as many rounds as there is fuel. -/
def walk (step : DataPath → NblPtr → Alloc DataPath) :
    ℕ → Option NblPtr → DataPath → Alloc DataPath
  | 0, _, s => pure s
  | _ + 1, none, s => pure s
  | fuel + 1, some x, s => do
    let s ← step s x
    walk step fuel (s.links x) s

def filterReceiveNetBufferLists (cfg : LcxlSetting) (amb : NblPtr → Ambient)
    (left : NblPtr → Option NblPtr) (fuel : ℕ) (f : LcxlFilter) (h : NblHeap)
    (netBufferLists : Option NblPtr) (portNumber numberOfNetBufferLists receiveFlags : UInt32) :
    Alloc DataPath := do
  let s := DataPath.start f h
  if f.state ≠ .running then
    if cannotPend receiveFlags then pure s
    else pure (s.call .returnNetBufferLists netBufferLists (levelOf receiveFlags))
  else
    let s ← walk (receiveStep cfg amb left portNumber receiveFlags) fuel netBufferLists s
    pure (DataPath.receiveDone portNumber numberOfNetBufferLists receiveFlags s)

/-- The loop of `CheckServerStatus`, with whether each NBL it queues has an MDL. -/
def checkServersLoop (cfg : LcxlSetting) (module : LcxlModuleSettingInfo) (timestamp : ℤ) :
    List ServerPtr → ServerTable → Alloc (ServerTable × List (Frame × Bool))
  | [], t => pure (t, [])
  | p :: ps, t =>
    let (s, sendCheckNbl) := checkServer cfg module.serverCheck timestamp (t.mem p)
    let t := t.modify p fun _ => s
    if sendCheckNbl then do
      let nbl ← createCheckingNBL module.macAddr.mac s.info.macAddr.mac checkingCodeRequest
        (.zero 40)
      let (t, sent) ← checkServersLoop cfg module timestamp ps t
      pure (t, nbl :: sent)
    else checkServersLoop cfg module timestamp ps t

def checkServerStatus (cfg : LcxlSetting) (f : LcxlFilter) (timestamp : ℤ) :
    Alloc (LcxlFilter × List (Frame × Bool)) := do
  let t := lockServerList f.module.serverList
  let (t, sent) ← checkServersLoop cfg f.module timestamp (getLcxlListHead t.lst) t
  pure (f.setServers (unlockServerList t), sent)

def workerTick (cfg : LcxlSetting) (f : LcxlFilter) (timestamp : ℤ) :
    Alloc (LcxlFilter × List (Frame × Bool)) :=
  if f.module.lcxlRole = roleRouter then checkServerStatus cfg f timestamp else pure (f, [])

def workThreadLoop (cfg : LcxlSetting) (now : FilterPtr → ℤ) :
    List FilterPtr → Driver → Alloc (Driver × List (FilterPtr × List (Frame × Bool)))
  | [], d => pure (d, [])
  | p :: ps, d => do
    let (f, nbls) ← workerTick cfg (d.filter p) (now p)
    let (d, sent) ← workThreadLoop cfg now ps (d.setFilter p f)
    pure (d, (p, nbls) :: sent)

/-- One time-out of `FilterWorkThread`. -/
def filterWorkThread (cfg : LcxlSetting) (now : FilterPtr → ℤ) (d : Driver) :
    Alloc (Driver × List (FilterPtr × List (Frame × Bool))) := do
  let d := d.lock
  let (d, sent) ← workThreadLoop cfg now (getLcxlListHead d.gFilterList) d
  pure (d.unlock, sent)

/-- What `AllocServer` returns is written to, whether it is a server or NULL. -/
def routerAddServer (past : ServerPtr → Bool) (now : ℤ) (t : ServerTable) (server : LcxlServer) :
    Alloc ServerTable := do
  let t := lockServerList t
  let t ← match findServer past t server.macAddr with
    | none => do
      AllocM.deref .server
      let p := t.next
      let lst ← addEntrytoLcxlList t.lst p
      pure { t with
        next := p + 1
        mem := Function.update t.mem p { allocServer now with info := server }
        lst := lst }
    | some p => pure (t.modify p fun s => { s with info := server })
  pure (unlockServerList t)

def routerDelServer (past : ServerPtr → Bool) (t : ServerTable) (macAddr : IfPhysicalAddress) :
    Alloc (ServerTable × Bool) :=
  let t := lockServerList t
  match findServer past t macAddr with
  | none => pure (t, false)
  | some p =>
    if has (t.mem p).info.status ssDeleted then pure (t, true)
    else do
      let t ← decRefListEntry (t.modify p fun s =>
        { s with info := { s.info with status := s.info.status ||| ssDeleted } }) p
      pure (t, false)

def withFilter (d : Driver) (irp : Irp) (missing : NtStatus)
    (found : LcxlFilter → Alloc (LcxlFilter × Reply)) : Alloc (Driver × Reply) := do
  let d := d.lock
  let (d, reply) ← match findFilter d irp.miniportNetLuid with
    | some p => do
      let (f, reply) ← found (d.filter p)
      pure (d.setFilter p f, reply)
    | none => pure (d, .ofStatus missing)
  pure (d.unlock, reply)

def ofSize (d : Driver) (irp : Irp) (size : ℕ) (otherwise : NtStatus)
    (act : Alloc (Driver × Reply)) : Alloc (Driver × Reply) :=
  if irp.inputBufferLength = size then act else pure (d, .ofStatus otherwise)

def addServer (past : ServerPtr → Bool) (now : ℤ) (d : Driver) (irp : Irp) :
    Alloc (Driver × Reply) :=
  ofSize d irp sizeofAppAddServer .infoLengthMismatch <| withFilter d irp .notFound fun f => do
    let t ← routerAddServer past now f.module.serverList irp.lcxlServer
    pure (f.setServers t, .ofStatus .success)

def delServer (past : ServerPtr → Bool) (d : Driver) (irp : Irp) : Alloc (Driver × Reply) :=
  ofSize d irp sizeofAppDelServer .infoLengthMismatch <| withFilter d irp .notFound fun f => do
    let (t, deleted) ← routerDelServer past f.module.serverList (irp.ifPhysicalAddress 8)
    pure (f.setServers t, .ofStatus (if deleted then .fileDeleted else .success))

/-- Only these two requests allocate anything. -/
def filterDeviceIoControl (past : ServerPtr → Bool) (now : ℤ) (d : Driver) (irp : Irp) :
    Alloc (Driver × Reply) :=
  if irp.fileObject ∧ irp.ioControlCode = ioctlRouterAddServer then addServer past now d irp
  else if irp.fileObject ∧ irp.ioControlCode = ioctlRouterDelServer then delServer past d irp
  else pure (LcxlNetLoader.filterDeviceIoControl past now d irp)

end Allocating

namespace LcxlFilter

/-- `f` with the expired routes that a lookup of the packet's connection passes thrown out. -/
def purged (cfg : LcxlSetting) (f : LcxlFilter) (pkt : TcpPacket) (now : ℤ) : LcxlFilter :=
  let (rt, t, _) := getRouteListEntry cfg f.routeTable f.module.routeTimeout f.module.serverList
    pkt now
  f.setRouting rt t

/-- The routes, the reference counts, and the servers linked and pending are those of `f`. -/
structure SameRouting (f f' : LcxlFilter) : Prop where
  routes : f'.routeTable.list = f.routeTable.list
  refCount : ∀ p, (f'.module.serverList.mem p).refCount = (f.module.serverList.mem p).refCount
  linked : f'.module.serverList.lst.list = f.module.serverList.lst.list
  toBeAdd : f'.module.serverList.lst.toBeAddList = f.module.serverList.lst.toBeAddList
  toBeDel : f'.module.serverList.lst.toBeDelList = f.module.serverList.lst.toBeDelList

end LcxlFilter

/-- `AllocRoute` or `AllocServer`. -/
def AllocKind.isObject : AllocKind → Bool
  | .route | .server => true
  | _ => false

/-- The program dereferences nothing it was not given, and what it does if it was not given a route
or a server is `kept`. -/
def Survives {α : Type} (given : ℕ → Bool) (kept : α → Prop) (m : Alloc α) : Prop :=
  ∃ a, m.run given = some a ∧ ((∃ k, k.isObject ∧ (k, false) ∈ m.made given) → kept a)

/-- No allocation that the program makes fails but `NdisAllocateMdl`. -/
abbrev Suffices {α : Type} (given : ℕ → Bool) (m : Alloc α) : Prop :=
  m.Provided AllocKind.isMdl given

namespace Allocating

def receive (cfg : LcxlSetting) (f : LcxlFilter) (c : ReceiveCall) : Alloc DataPath :=
  filterReceiveNetBufferLists cfg c.amb c.left c.nbls.length f c.heap c.netBufferLists c.portNumber
    (UInt32.ofNat c.nbls.length) c.receiveFlags

end Allocating

end LcxlNetLoader
