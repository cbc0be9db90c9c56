import LcxlNetLoader.Allocations
import LcxlNetLoader.Proofs.Receive
import LcxlNetLoader.Proofs.Requests

/-!
# What an allocation that fails does

Where everything is given the handlers of `Allocating` are the handlers (`_ideal`). None of them
checks what it is given, an MDL apart (`_trusting`): each refusal is dereferenced in the function
that asked, or in its caller. So a handler comes through exactly if nothing else is refused it.
-/

namespace LcxlNetLoader

namespace Allocating

open AllocM

/-! ## With everything given -/

section Ideal

section Lists

variable {α : Type} [DecidableEq α] (l : LcxlList α) (e : α)

omit [DecidableEq α] in
@[simp] theorem addEntrytoLcxlList_ideal :
    (addEntrytoLcxlList l e).ideal = some (LcxlNetLoader.addEntrytoLcxlList l e) := by
  simp only [addEntrytoLcxlList, LcxlNetLoader.addEntrytoLcxlList, ideal_ite, ideal_bind,
    ideal_deref, Option.bind_some, ideal_pure]
  split_ifs <;> rfl

@[simp] theorem removeEntryfromLcxlList_ideal :
    (removeEntryfromLcxlList l e).ideal = some (LcxlNetLoader.removeEntryfromLcxlList l e) := by
  simp only [removeEntryfromLcxlList, LcxlNetLoader.removeEntryfromLcxlList, ideal_ite, ideal_bind,
    ideal_deref, Option.bind_some, ideal_pure]
  split_ifs <;> rfl

end Lists

variable (cfg : LcxlSetting) (f : LcxlFilter) (t : ServerTable) (rt : RouteTable)

@[simp] theorem decRefListEntry_ideal (p : ServerPtr) :
    (decRefListEntry t p).ideal = some (LcxlNetLoader.decRefListEntry t p) := by
  simp only [decRefListEntry, LcxlNetLoader.decRefListEntry, ideal_ite, ideal_bind,
    removeEntryfromLcxlList_ideal, Option.bind_some, ideal_pure]
  split_ifs <;> rfl

@[simp] theorem dropServer_ideal (r : LcxlRouteListEntry) :
    (dropServer t r).ideal = some (LcxlNetLoader.dropServer t r) := by
  unfold dropServer LcxlNetLoader.dropServer
  cases r.dstServer <;> simp

@[simp] theorem deleteRouteListEntry_ideal (p : RoutePtr) :
    (deleteRouteListEntry rt t p).ideal = some (LcxlNetLoader.deleteRouteListEntry rt t p) := by
  unfold deleteRouteListEntry LcxlNetLoader.deleteRouteListEntry
  cases rt.find p <;> simp

@[simp] theorem getRouteLoop_ideal (routeTimeout now : ℤ) (pkt : TcpPacket) :
    ∀ (rs : List LcxlRouteListEntry) (t : ServerTable),
      (getRouteLoop cfg routeTimeout now pkt rs t).ideal =
        some (LcxlNetLoader.getRouteLoop cfg routeTimeout now pkt rs t)
  | [], _ => rfl
  | r :: rs, t => by
    simp only [getRouteLoop, LcxlNetLoader.getRouteLoop, ideal_ite, ideal_bind, ideal_pure,
      dropServer_ideal, Option.bind_some, getRouteLoop_ideal routeTimeout now pkt rs]
    split_ifs <;> rfl

@[simp] theorem getRouteListEntry_ideal (routeTimeout : ℤ) (pkt : TcpPacket) (now : ℤ) :
    (getRouteListEntry cfg rt routeTimeout t pkt now).ideal =
      some (LcxlNetLoader.getRouteListEntry cfg rt routeTimeout t pkt now) := by
  simp [getRouteListEntry, LcxlNetLoader.getRouteListEntry]

@[simp] theorem dropRouteServer_ideal (p : RoutePtr) :
    (dropRouteServer rt t p).ideal = some (LcxlNetLoader.dropRouteServer rt t p) := by
  unfold dropRouteServer LcxlNetLoader.dropRouteServer
  cases rt.find p <;> simp

@[simp] theorem leastConnectionLoop_ideal (ipMode : IpMode) :
    ∀ (ps : List ServerPtr) (t : ServerTable) (bestServer : Option ServerPtr),
      (leastConnectionLoop ipMode ps t bestServer).ideal =
        some (LcxlNetLoader.leastConnectionLoop ipMode ps t bestServer)
  | [], _, _ => rfl
  | p :: ps, t, bestServer => by
    unfold leastConnectionLoop LcxlNetLoader.leastConnectionLoop
    cases bestServer <;>
      simp only [ideal_ite, ideal_bind, decRefListEntry_ideal, Option.bind_some,
        leastConnectionLoop_ideal ipMode ps, ret_bind] <;>
      split_ifs <;> rfl

@[simp] theorem selectBestServer_ideal (ipMode : IpMode) (dstAddr : List UInt8)
    (routingAlgorithm : ℤ) (ra : RoutingAlgorithmData) :
    (selectBestServer t ipMode dstAddr routingAlgorithm ra).ideal =
      some (LcxlNetLoader.selectBestServer t ipMode dstAddr routingAlgorithm ra) := by
  unfold selectBestServer
  simp only [ideal_ite, ideal_bind, leastConnectionLoop_ideal, Option.bind_some, ideal_pure]
  split_ifs with h
  · simp [LcxlNetLoader.selectBestServer, h.1, h.2]
  · rfl

theorem routeTCPNBL_ideal (pkt : TcpPacket) (now later : ℤ) :
    (routeTCPNBL cfg f pkt now later).ideal =
      some (LcxlNetLoader.routeTCPNBL cfg f pkt now later) := by
  unfold routeTCPNBL LcxlNetLoader.routeTCPNBL
  simp only [ideal_bind, getRouteListEntry_ideal, Option.bind_some, ideal_ite,
    selectBestServer_ideal]
  obtain ⟨rt, t, routeInfo⟩ := LcxlNetLoader.getRouteListEntry cfg f.routeTable
    f.module.routeTimeout f.module.serverList pkt now
  obtain ⟨t', ra, server⟩ := LcxlNetLoader.selectBestServer t pkt.ipMode pkt.dstAddr
    f.module.routingAlgorithm f.routingAlgorithmData
  cases server <;> cases routeInfo <;> split_ifs <;>
    simp [createRouteListEntry, initRouteListEntry]

@[simp] theorem processNBL_ideal (fr : Frame) (amb : Ambient) :
    (processNBL cfg f fr amb).ideal =
      some ((LcxlNetLoader.processNBL cfg f true fr.dataLength amb).val fr.byte) := by
  unfold processNBL
  rcases hv : vipPacket f fr with _ | pkt
  · rfl
  · rw [processNBL_vip hv]
    simp only [ideal_bind, routeTCPNBL_ideal, Option.bind_some, ideal_pure]
    split_ifs <;> rfl

@[simp] theorem dropClosed_ideal (p : RoutePtr) :
    (dropClosed f p).ideal = some (f.dropClosed p) := by
  simp only [dropClosed, LcxlFilter.dropClosed, ideal_ite, ideal_bind, deleteRouteListEntry_ideal,
    Option.bind_some, ideal_pure]
  split_ifs <;> rfl

@[simp] theorem createNBL_ideal : createNBL.ideal = some true := rfl

@[simp] theorem createCheckingNBL_ideal (sourceMac destMac : List UInt8) (code : UInt16)
    (performance : LcxlServerPerformance) :
    (createCheckingNBL sourceMac destMac code performance).ideal =
      some (LcxlNetLoader.createCheckingNBL sourceMac destMac code performance, true) := rfl

/-- A result of a round, the NBL created having its MDL. -/
def withMdl (r : LcxlFilter × ProcessNblResultCode × Option OwnNbl) :
    LcxlFilter × ProcessNblResultCode × Option (OwnNbl × Bool) :=
  (r.1, r.2.1, r.2.2.map fun own => (own, true))

@[simp] theorem receiveFrame_ideal (fr : Frame) (amb : Ambient) :
    (receiveFrame cfg f fr amb).ideal =
      some (withMdl (LcxlNetLoader.receiveFrame cfg f fr amb)) := by
  unfold receiveFrame LcxlNetLoader.receiveFrame
  rw [ideal_bind, processNBL_ideal, Option.bind_some]
  obtain ⟨f', code, route, modifyip⟩ :=
    (LcxlNetLoader.processNBL cfg f true fr.dataLength amb).val fr.byte
  cases code <;> cases route <;> simp [withMdl]

@[simp] theorem receiveStep_ideal (amb : NblPtr → Ambient) (left : NblPtr → Option NblPtr)
    (portNumber receiveFlags : UInt32) (s : DataPath) (x : NblPtr) :
    (receiveStep cfg amb left portNumber receiveFlags s x).ideal =
      some (s.receiveStep cfg amb left portNumber receiveFlags x) := by
  have h : (receiveNbl cfg amb s.heap.frame s.filter x).ideal =
      some (withMdl (LcxlNetLoader.receiveNbl cfg amb s.heap.frame s.filter x)) := by
    unfold receiveNbl LcxlNetLoader.receiveNbl
    cases s.heap.frame x <;> simp [withMdl]
  simp only [receiveStep, DataPath.receiveStep, ideal_bind, h, Option.bind_some, ideal_pure]
  obtain ⟨f', code, own⟩ := LcxlNetLoader.receiveNbl cfg amb s.heap.frame s.filter x
  cases own <;> rfl

@[simp] theorem walk_ideal {step : DataPath → NblPtr → Alloc DataPath}
    {step' : DataPath → NblPtr → DataPath} (hstep : ∀ s x, (step s x).ideal = some (step' s x)) :
    ∀ (fuel : ℕ) (x : Option NblPtr) (s : DataPath),
      (walk step fuel x s).ideal = some (Linked.walk DataPath.links step' fuel x s)
  | 0, _, _ => rfl
  | _ + 1, none, _ => rfl
  | fuel + 1, some x, s => by
    simp only [walk, Linked.walk, ideal_bind, hstep, Option.bind_some, walk_ideal hstep fuel]

theorem receive_ideal (c : ReceiveCall) : (receive cfg f c).ideal = some (c.result cfg f) := by
  unfold receive ReceiveCall.result filterReceiveNetBufferLists
    LcxlNetLoader.filterReceiveNetBufferLists
  simp only [ideal_ite, ideal_bind, ideal_pure, Option.bind_some,
    walk_ideal (receiveStep_ideal cfg c.amb c.left c.portNumber c.receiveFlags)]
  split_ifs <;> rfl

/-- The frames of the NBLs created, each having its MDL. -/
def mapped (sent : List Frame) : List (Frame × Bool) := sent.map fun fr => (fr, true)

@[simp] theorem checkServersLoop_ideal (module : LcxlModuleSettingInfo) (timestamp : ℤ) :
    ∀ (ps : List ServerPtr) (t : ServerTable),
      (checkServersLoop cfg module timestamp ps t).ideal =
        some ((LcxlNetLoader.checkServersLoop cfg module timestamp ps t).1,
          mapped (LcxlNetLoader.checkServersLoop cfg module timestamp ps t).2)
  | [], _ => rfl
  | p :: ps, t => by
    simp only [checkServersLoop, LcxlNetLoader.checkServersLoop, ideal_ite, ideal_bind, ideal_pure,
      createCheckingNBL_ideal, Option.bind_some, checkServersLoop_ideal module timestamp ps]
    split_ifs <;> rfl

@[simp] theorem workerTick_ideal (timestamp : ℤ) : (workerTick cfg f timestamp).ideal =
    some ((LcxlNetLoader.workerTick cfg f timestamp).1,
      mapped (LcxlNetLoader.workerTick cfg f timestamp).2) := by
  simp only [workerTick, LcxlNetLoader.workerTick, checkServerStatus,
    LcxlNetLoader.checkServerStatus, ideal_ite, ideal_bind, ideal_pure, Option.bind_some,
    checkServersLoop_ideal]
  split_ifs <;> rfl

@[simp] theorem workThreadLoop_ideal (now : FilterPtr → ℤ) : ∀ (ps : List FilterPtr) (d : Driver),
    (workThreadLoop cfg now ps d).ideal =
      some ((LcxlNetLoader.workThreadLoop cfg now ps d).1,
        (LcxlNetLoader.workThreadLoop cfg now ps d).2.map fun (p, sent) => (p, mapped sent))
  | [], _ => rfl
  | p :: ps, d => by
    simp only [workThreadLoop, LcxlNetLoader.workThreadLoop, ideal_bind, ideal_pure,
      workerTick_ideal, Option.bind_some, workThreadLoop_ideal now ps]
    rfl

theorem filterWorkThread_ideal (now : FilterPtr → ℤ) (d : Driver) :
    (filterWorkThread cfg now d).ideal =
      some ((LcxlNetLoader.filterWorkThread cfg now d).1,
        (LcxlNetLoader.filterWorkThread cfg now d).2.map fun (p, sent) => (p, mapped sent)) := by
  simp only [filterWorkThread, LcxlNetLoader.filterWorkThread, ideal_bind, ideal_pure,
    Option.bind_some, workThreadLoop_ideal]

@[simp] theorem routerAddServer_ideal (past : ServerPtr → Bool) (now : ℤ) (server : LcxlServer) :
    (routerAddServer past now t server).ideal =
      some (LcxlNetLoader.routerAddServer past now t server) := by
  unfold routerAddServer LcxlNetLoader.routerAddServer
  rcases hs : findServer past (lockServerList t) server.macAddr with _ | p <;> simp [hs]

@[simp] theorem routerDelServer_ideal (past : ServerPtr → Bool) (macAddr : IfPhysicalAddress) :
    (routerDelServer past t macAddr).ideal =
      some (LcxlNetLoader.routerDelServer past t macAddr) := by
  unfold routerDelServer LcxlNetLoader.routerDelServer
  rcases hs : findServer past (lockServerList t) macAddr with _ | p
  · simp [hs]
  · simp only [hs, ideal_ite, ideal_bind, ideal_pure, decRefListEntry_ideal, Option.bind_some]
    split_ifs <;> rfl

theorem withFilter_ideal {d : Driver} {irp : Irp} {missing : NtStatus}
    {found : LcxlFilter → Alloc (LcxlFilter × Reply)} {found' : LcxlFilter → LcxlFilter × Reply}
    (h : ∀ f, (found f).ideal = some (found' f)) :
    (withFilter d irp missing found).ideal =
      some (LcxlNetLoader.withFilter d irp missing found') := by
  unfold withFilter LcxlNetLoader.withFilter
  rcases hp : findFilter d.lock irp.miniportNetLuid with _ | p
  · simp [hp]
  · simp [hp, h]

theorem ofSize_ideal {d : Driver} {irp : Irp} {size : ℕ} {otherwise : NtStatus}
    {act : Alloc (Driver × Reply)} {act' : Driver × Reply} (h : act.ideal = some act') :
    (ofSize d irp size otherwise act).ideal =
      some (LcxlNetLoader.ofSize d irp size otherwise act') := by
  unfold ofSize LcxlNetLoader.ofSize
  rw [ideal_ite, h]
  split_ifs <;> rfl

theorem filterDeviceIoControl_ideal (past : ServerPtr → Bool) (now : ℤ) (d : Driver) (irp : Irp) :
    (filterDeviceIoControl past now d irp).ideal =
      some (LcxlNetLoader.filterDeviceIoControl past now d irp) := by
  unfold filterDeviceIoControl
  rw [ideal_ite, ideal_ite]
  split_ifs with ha hd
  · rw [filterDeviceIoControl_eq_handle (r := .addServer) ha.1 ha.2]
    refine ofSize_ideal (withFilter_ideal fun f => ?_)
    simp
  · rw [filterDeviceIoControl_eq_handle (r := .delServer) hd.1 hd.2]
    refine ofSize_ideal (withFilter_ideal fun f => ?_)
    simp
  · rfl

end Ideal

/-! ## Every refusal is dereferenced, or an MDL's -/

section Refused

/-- The program crashes on every refusal, an MDL's apart. -/
abbrev Trusting {α : Type} (m : Alloc α) : Prop := m.Unchecked AllocKind.isMdl

section Lists

variable {α : Type} [DecidableEq α] (l : LcxlList α) (e : α)

omit [DecidableEq α] in
theorem addEntrytoLcxlList_trusting : Trusting (addEntrytoLcxlList l e) :=
  .ite (.bind (unchecked_deref.2 rfl) fun _ => trivial) trivial

theorem removeEntryfromLcxlList_trusting : Trusting (removeEntryfromLcxlList l e) :=
  .ite (.bind (unchecked_deref.2 rfl) fun _ => trivial) trivial

end Lists

variable (cfg : LcxlSetting) (f : LcxlFilter) (t : ServerTable) (rt : RouteTable)

theorem decRefListEntry_trusting (p : ServerPtr) : Trusting (decRefListEntry t p) :=
  .ite (.bind (removeEntryfromLcxlList_trusting _ _) fun _ => trivial) trivial

theorem dropServer_trusting (r : LcxlRouteListEntry) : Trusting (dropServer t r) := by
  unfold dropServer
  rcases r.dstServer with _ | p
  · trivial
  · exact decRefListEntry_trusting t p

theorem deleteRouteListEntry_trusting (p : RoutePtr) :
    Trusting (deleteRouteListEntry rt t p) := by
  unfold deleteRouteListEntry
  rcases rt.find p with _ | r
  · trivial
  · exact (dropServer_trusting t r).bind fun _ => trivial

theorem getRouteLoop_trusting (routeTimeout now : ℤ) (pkt : TcpPacket) :
    ∀ (rs : List LcxlRouteListEntry) (t : ServerTable),
      Trusting (getRouteLoop cfg routeTimeout now pkt rs t)
  | [], _ => trivial
  | r :: rs, t => by
    refine .ite trivial (.ite ((dropServer_trusting t r).bind fun t => ?_) ?_)
    · exact (getRouteLoop_trusting routeTimeout now pkt rs t).bind fun _ => trivial
    · exact (getRouteLoop_trusting routeTimeout now pkt rs t).bind fun _ => trivial

theorem dropRouteServer_trusting (p : RoutePtr) : Trusting (dropRouteServer rt t p) := by
  unfold dropRouteServer
  rcases rt.find p with _ | r
  · trivial
  · exact dropServer_trusting t r

theorem leastConnectionLoop_trusting (ipMode : IpMode) :
    ∀ (ps : List ServerPtr) (t : ServerTable) (bestServer : Option ServerPtr),
      Trusting (leastConnectionLoop ipMode ps t bestServer)
  | [], _, _ => trivial
  | _ :: ps, t, none => .ite (leastConnectionLoop_trusting ipMode ps _ _)
      (leastConnectionLoop_trusting ipMode ps t none)
  | _ :: ps, t, some b => .ite
      ((decRefListEntry_trusting t b).bind fun _ => leastConnectionLoop_trusting ipMode ps _ _)
      (leastConnectionLoop_trusting ipMode ps t (some b))

theorem selectBestServer_trusting (ipMode : IpMode) (dstAddr : List UInt8) (routingAlgorithm : ℤ)
    (ra : RoutingAlgorithmData) :
    Trusting (selectBestServer t ipMode dstAddr routingAlgorithm ra) :=
  .ite ((leastConnectionLoop_trusting ipMode _ _ none).bind fun _ => trivial) trivial

theorem routeTCPNBL_trusting (pkt : TcpPacket) (now later : ℤ) :
    Trusting (routeTCPNBL cfg f pkt now later) := by
  refine .bind (.bind (getRouteLoop_trusting _ _ _ _ _ _) fun _ => trivial) ?_
  rintro ⟨rt, t, routeInfo⟩
  refine .ite (.bind (selectBestServer_trusting _ _ _ _ _) ?_) ?_
  · rintro ⟨t, ra, server⟩
    rcases server with _ | server
    · trivial
    · rcases routeInfo with _ | p
      -- `CreateRouteListEntry` checks what it gets, and `InitRouteListEntry` does not.
      · exact ⟨trivial, rfl⟩
      · exact (dropRouteServer_trusting t rt p).bind fun _ => trivial
  · rcases routeInfo with _ | p <;> trivial

theorem processNBL_trusting (fr : Frame) (amb : Ambient) :
    Trusting (processNBL cfg f fr amb) := by
  unfold processNBL
  rcases vipPacket f fr with _ | pkt
  · trivial
  · exact (routeTCPNBL_trusting cfg f pkt _ _).bind fun _ => trivial

theorem dropClosed_trusting (p : RoutePtr) : Trusting (dropClosed f p) :=
  .ite (.bind (deleteRouteListEntry_trusting _ _ _) fun _ => trivial) trivial

/-- The MDL may be missing. -/
theorem createNBL_trusting : Trusting createNBL := ⟨⟨trivial, rfl⟩, trivial, rfl⟩

theorem createCheckingNBL_trusting (sourceMac destMac : List UInt8) (code : UInt16)
    (performance : LcxlServerPerformance) :
    Trusting (createCheckingNBL sourceMac destMac code performance) := by
  refine .bind (unchecked_deref.2 rfl) fun _ => createNBL_trusting.bind fun mapped => ?_
  exact unchecked_pure

theorem receiveFrame_trusting (fr : Frame) (amb : Ambient) :
    Trusting (receiveFrame cfg f fr amb) := by
  refine (processNBL_trusting cfg f fr amb).bind ?_
  rintro ⟨f, code, route, modifyip⟩
  have hmem : Trusting (deref .memory) := unchecked_deref.2 rfl
  cases code with
  | router =>
    rcases route with _ | p
    · trivial
    · exact hmem.bind fun _ => createNBL_trusting.bind fun _ =>
        (dropClosed_trusting f p).bind fun _ => trivial
  | icmpv6Na => exact hmem.bind fun _ => createNBL_trusting.bind fun _ => trivial
  | checkingNbl => exact (createCheckingNBL_trusting _ _ _ _).bind fun _ => trivial
  | pass => trivial
  | drop => trivial
  | modify => trivial
  | icmpv6Ns => trivial

theorem receiveStep_trusting (amb : NblPtr → Ambient) (left : NblPtr → Option NblPtr)
    (portNumber receiveFlags : UInt32) (s : DataPath) (x : NblPtr) :
    Trusting (receiveStep cfg amb left portNumber receiveFlags s x) := by
  refine .bind ?_ fun _ => trivial
  unfold receiveNbl
  rcases s.heap.frame x with _ | fr
  · trivial
  · exact receiveFrame_trusting cfg _ fr _

theorem walk_trusting {step : DataPath → NblPtr → Alloc DataPath}
    (hstep : ∀ s x, Trusting (step s x)) :
    ∀ (fuel : ℕ) (x : Option NblPtr) (s : DataPath), Trusting (walk step fuel x s)
  | 0, _, _ => trivial
  | _ + 1, none, _ => trivial
  | fuel + 1, some x, s => (hstep s x).bind fun s => walk_trusting hstep fuel (s.links x) s

theorem receive_trusting (c : ReceiveCall) : Trusting (receive cfg f c) :=
  .ite (.ite trivial trivial)
    (.bind (walk_trusting (receiveStep_trusting cfg _ _ _ _) _ _ _) fun _ => trivial)

theorem checkServersLoop_trusting (module : LcxlModuleSettingInfo) (timestamp : ℤ) :
    ∀ (ps : List ServerPtr) (t : ServerTable),
      Trusting (checkServersLoop cfg module timestamp ps t)
  | [], _ => trivial
  | p :: ps, t => by
    refine .ite ((createCheckingNBL_trusting _ _ _ _).bind fun _ => ?_) ?_
    · exact (checkServersLoop_trusting module timestamp ps _).bind fun _ => trivial
    · exact checkServersLoop_trusting module timestamp ps _

theorem workerTick_trusting (timestamp : ℤ) : Trusting (workerTick cfg f timestamp) :=
  .ite (.bind (checkServersLoop_trusting cfg _ _ _ _) fun _ => trivial) trivial

theorem workThreadLoop_trusting (now : FilterPtr → ℤ) :
    ∀ (ps : List FilterPtr) (d : Driver), Trusting (workThreadLoop cfg now ps d)
  | [], _ => trivial
  | _ :: ps, _ => (workerTick_trusting cfg _ _).bind fun _ =>
      (workThreadLoop_trusting now ps _).bind fun _ => trivial

theorem filterWorkThread_trusting (now : FilterPtr → ℤ) (d : Driver) :
    Trusting (filterWorkThread cfg now d) :=
  (workThreadLoop_trusting cfg now _ _).bind fun _ => trivial

theorem routerAddServer_trusting (past : ServerPtr → Bool) (now : ℤ) (server : LcxlServer) :
    Trusting (routerAddServer past now t server) := by
  simp only [routerAddServer]
  rcases findServer past (lockServerList t) server.macAddr with _ | p
  · exact .bind (unchecked_deref.2 rfl) fun _ =>
      (addEntrytoLcxlList_trusting _ _).bind fun _ => trivial
  · trivial

theorem routerDelServer_trusting (past : ServerPtr → Bool) (macAddr : IfPhysicalAddress) :
    Trusting (routerDelServer past t macAddr) := by
  simp only [routerDelServer]
  rcases findServer past (lockServerList t) macAddr with _ | p
  · trivial
  · exact .ite trivial ((decRefListEntry_trusting _ p).bind fun _ => trivial)

theorem withFilter_trusting {d : Driver} {irp : Irp} {missing : NtStatus}
    {found : LcxlFilter → Alloc (LcxlFilter × Reply)} (h : ∀ f, Trusting (found f)) :
    Trusting (withFilter d irp missing found) := by
  simp only [withFilter]
  rcases findFilter d.lock irp.miniportNetLuid with _ | p
  · trivial
  · exact (h _).bind fun _ => trivial

theorem filterDeviceIoControl_trusting (past : ServerPtr → Bool) (now : ℤ) (d : Driver)
    (irp : Irp) : Trusting (filterDeviceIoControl past now d irp) := by
  refine .ite (.ite (withFilter_trusting fun f => ?_) trivial)
    (.ite (.ite (withFilter_trusting fun f => ?_) trivial) trivial)
  · exact (routerAddServer_trusting _ past now _).bind fun _ => trivial
  · exact (routerDelServer_trusting _ past _).bind fun _ => trivial

end Refused

theorem survives_iff_suffices {α : Type} {given : ℕ → Bool} {kept : α → Prop} {m : Alloc α}
    (h : Trusting m) : Survives given kept m ↔ Suffices given m := by
  rw [Suffices, ← h.run_isSome_iff, Option.isSome_iff_exists]
  refine ⟨fun ⟨a, ha, _⟩ => ⟨a, ha⟩, fun ⟨a, ha⟩ => ⟨a, ha, fun ⟨k, hk, hm⟩ => ?_⟩⟩
  -- Nothing was refused but MDLs, so no route and no server.
  have hp := h.run_isSome_iff.1 (Option.isSome_iff_exists.2 ⟨a, ha⟩)
  rcases hp _ hm with h' | h'
  · cases h'
  · cases k <;> simp [AllocKind.isObject, AllocKind.isMdl] at hk h'

/-- A failed allocation is survived exactly if it is `NdisAllocateMdl`'s. -/
theorem survives_iff_mdl (cfg : LcxlSetting) (given : ℕ → Bool) :
    (∀ f c, Survives given (fun _ => True) (receive cfg f c) ↔ Suffices given (receive cfg f c))
    ∧ (∀ now d, Survives given (fun _ => True) (filterWorkThread cfg now d) ↔
        Suffices given (filterWorkThread cfg now d))
    ∧ (∀ past now d irp,
        Survives given (fun r => ∀ p, (d.filter p).SameRouting (r.1.filter p))
          (filterDeviceIoControl past now d irp) ↔
        Suffices given (filterDeviceIoControl past now d irp))
    ∧ ∀ f pkt now later,
        Survives given (fun r => (f.purged cfg pkt now).SameRouting r.1)
          (routeTCPNBL cfg f pkt now later) ↔
        Suffices given (routeTCPNBL cfg f pkt now later) :=
  ⟨fun f c => survives_iff_suffices (receive_trusting cfg f c),
    fun now d => survives_iff_suffices (filterWorkThread_trusting cfg now d),
    fun past now d irp => survives_iff_suffices (filterDeviceIoControl_trusting past now d irp),
    fun f pkt now later => survives_iff_suffices (routeTCPNBL_trusting cfg f pkt now later)⟩

/-- A router with a server receives the first packet of a connection, and `AllocRoute` returns
NULL. -/
theorem not_survives_without_route :
    let f := Sample.router.exec Sample.setting Sample.addServer
    let given := fun n => decide (n ≠ 0)
    let m := receive Sample.setting f (Sample.receive (Sample.tcpFrame thSyn))
    m.made given = [(.route, false)] ∧ ¬ Survives given (fun _ => True) m := by
  refine ⟨by decide +kernel, fun ⟨a, ha, _⟩ => ?_⟩
  have h : ((receive Sample.setting (Sample.router.exec Sample.setting Sample.addServer)
      (Sample.receive (Sample.tcpFrame thSyn))).run fun n => decide (n ≠ 0)).isSome = false := by
    decide +kernel
  rw [ha] at h
  cases h

end Allocating

end LcxlNetLoader
