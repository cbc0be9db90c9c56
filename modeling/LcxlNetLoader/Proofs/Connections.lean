import LcxlNetLoader.Connections
import LcxlNetLoader.Proofs.RouteTable

/-!
# The route list over a run

Over any run the route list is the map its connection events make (`Tracks`), whatever happens to
the servers. So no two entries are of one connection, each goes to the server selected last for
its connection, and a packet that opens no connection is forwarded just when its connection has
such a server.
-/

namespace LcxlNetLoader

/-- The entry is of a connection that is up, or whose last acknowledgement is awaited. -/
def LcxlRouteListEntry.Live (r : LcxlRouteListEntry) : Prop :=
  r.status = .normal ∨ r.status = .lastAck

namespace RouteTable

/-- What a packet does to the table after its lookup, which stopped at `p`. -/
def packet (rt : RouteTable) (p : Option RoutePtr) (pkt : TcpPacket) (server : Option ServerPtr)
    (later : ℤ) : RouteTable × Option RoutePtr :=
  if pkt.thFlags = thSyn then
    match server, p with
    | none, _ => (rt, none)
    | some s, none =>
      (initRouteListEntry (createRouteListEntry rt).1 rt.next pkt s later, some rt.next)
    | some s, some p => (initRouteListEntry rt p pkt s later, some p)
  else
    match p with
    | none => (rt, none)
    | some p => (rt.modify p fun r => { r with status := nextStatus r.status pkt.thFlags }, some p)

def dropClosed (rt : RouteTable) (p : Option RoutePtr) : RouteTable :=
  match p.bind rt.find with
  | some r =>
    if r.status = .closed then
      { rt with list := rt.list.eraseP (·.self = r.self), freed := rt.freed ++ [r] }
    else rt
  | none => rt

end RouteTable

/-- The lookup a packet begins with. -/
def lookup (cfg : LcxlSetting) (f : LcxlFilter) (pkt : TcpPacket) (now : ℤ) :
    RouteTable × ServerTable × Option RoutePtr :=
  getRouteListEntry cfg f.routeTable f.module.routeTimeout f.module.serverList pkt now

/-- The server a packet has selected for it, if it is to open a connection. -/
def synServer (f : LcxlFilter) (t : ServerTable) (pkt : TcpPacket) : Option ServerPtr :=
  if pkt.thFlags = thSyn then
    (selectBestServer t pkt.ipMode pkt.dstAddr f.module.routingAlgorithm
      f.routingAlgorithmData).2.2
  else none

/-- What a packet does to the servers after its lookup, which left `l`. -/
def packetServers (f : LcxlFilter) (l : RouteTable × ServerTable × Option RoutePtr)
    (pkt : TcpPacket) : ServerTable :=
  if pkt.thFlags = thSyn then
    let t := (selectBestServer l.2.1 pkt.ipMode pkt.dstAddr f.module.routingAlgorithm
      f.routingAlgorithmData).1
    match synServer f l.2.1 pkt, l.2.2 with
    | some _, some p => dropRouteServer l.1 t p
    | _, _ => t
  else l.2.1

def packetData (f : LcxlFilter) (t : ServerTable) (pkt : TcpPacket) : RoutingAlgorithmData :=
  if pkt.thFlags = thSyn then
    (selectBestServer t pkt.ipMode pkt.dstAddr f.module.routingAlgorithm
      f.routingAlgorithmData).2.1
  else f.routingAlgorithmData

variable {cfg : LcxlSetting} {f : LcxlFilter} {pkt : TcpPacket} {amb : Ambient} {fr : Frame}

theorem routeTCPNBL_eq (cfg : LcxlSetting) (f : LcxlFilter) (pkt : TcpPacket) (now later : ℤ) :
    routeTCPNBL cfg f pkt now later =
      let l := lookup cfg f pkt now
      let out := l.1.packet l.2.2 pkt (synServer f l.2.1 pkt) later
      ({ f.setRouting out.1 (packetServers f l pkt) with
        routingAlgorithmData := packetData f l.2.1 pkt }, out.2) := by
  simp only [routeTCPNBL, lookup, synServer, RouteTable.packet, packetServers, packetData]
  generalize
    getRouteListEntry cfg f.routeTable f.module.routeTimeout f.module.serverList pkt now = l
  obtain ⟨rt, t, p⟩ := l
  split_ifs with hs
  · simp only
    generalize selectBestServer t pkt.ipMode pkt.dstAddr f.module.routingAlgorithm
      f.routingAlgorithmData = sel
    obtain ⟨t', ra, server⟩ := sel
    rcases server with _ | s
    · rfl
    · rcases p with _ | p <;> rfl
  · rcases p with _ | p <;> rfl

theorem routeTCPNBL_table (cfg : LcxlSetting) (f : LcxlFilter) (pkt : TcpPacket) (now later : ℤ) :
    ((routeTCPNBL cfg f pkt now later).1.routeTable, (routeTCPNBL cfg f pkt now later).2) =
      (lookup cfg f pkt now).1.packet (lookup cfg f pkt now).2.2 pkt
        (synServer f (lookup cfg f pkt now).2.1 pkt) later := by
  rw [routeTCPNBL_eq]
  rfl

theorem routeTCPNBL_serverList (cfg : LcxlSetting) (f : LcxlFilter) (pkt : TcpPacket)
    (now later : ℤ) : (routeTCPNBL cfg f pkt now later).1.module.serverList =
      packetServers f (lookup cfg f pkt now) pkt := by
  rw [routeTCPNBL_eq]
  rfl

theorem dropClosed_routeTable (f : LcxlFilter) (p : RoutePtr) :
    (f.dropClosed p).routeTable = f.routeTable.dropClosed (some p) := by
  simp only [LcxlFilter.dropClosed, RouteTable.dropClosed, Option.bind_some, deleteRouteListEntry]
  rcases hf : f.routeTable.find p with _ | r
  · rfl
  · have hp : r.self = p := by simpa using List.find?_some hf
    simp only [Option.any_some, decide_eq_true_eq]
    split_ifs
    · rw [hp]
      rfl
    · rfl

theorem routePacket_table (cfg : LcxlSetting) (f : LcxlFilter) (pkt : TcpPacket) (amb : Ambient) :
    (routePacket cfg f pkt amb).routeTable =
      let out := (lookup cfg f pkt amb.now).1.packet (lookup cfg f pkt amb.now).2.2 pkt
        (synServer f (lookup cfg f pkt amb.now).2.1 pkt) amb.later
      out.1.dropClosed out.2 := by
  rw [← routeTCPNBL_table]
  simp only [routePacket]
  rcases (routeTCPNBL cfg f pkt amb.now amb.later).2 with _ | p
  · rfl
  · exact dropClosed_routeTable _ p

theorem lookup_walk (cfg : LcxlSetting) (f : LcxlFilter) (pkt : TcpPacket) (now : ℤ) :
    ∃ gone, Walk (·.expired cfg f.module.routeTimeout now) pkt now f.routeTable.list
        (lookup cfg f pkt now).1.list gone (lookup cfg f pkt now).2.2
      ∧ (lookup cfg f pkt now).1.freed = f.routeTable.freed ++ gone
      ∧ (lookup cfg f pkt now).1.next = f.routeTable.next
      ∧ (lookup cfg f pkt now).2.1 = gone.foldl dropServer f.module.serverList := by
  obtain ⟨hw, ht⟩ := getRouteLoop_walk cfg f.module.routeTimeout now pkt f.routeTable.list
    f.module.serverList
  exact ⟨_, hw, rfl, rfl, ht⟩

namespace RouteTable

/-- A table at rest. -/
structure Rest (rt : RouteTable) : Prop extends Ok rt where
  live : ∀ r ∈ rt.list, r.Live

/-- A table between a packet and the deletion of its route: only the packet's own entry, to which
`p` points, can be closed. -/
structure Busy (rt : RouteTable) (key : ConnKey) (p : Option RoutePtr) : Prop extends Ok rt where
  live : ∀ r ∈ rt.list, r.Live ∨ r.status = .closed ∧ some r.self = p
  entry : ∀ q ∈ p, ∃ r ∈ rt.list, r.self = q ∧ r.key = key

theorem nextStatus_live {st : RouteStatus} (flags : UInt8) (h : st = .normal ∨ st = .lastAck) :
    nextStatus st flags = .normal ∨ nextStatus st flags = .lastAck
      ∨ nextStatus st flags = .closed := by
  unfold nextStatus
  split_ifs <;> tauto

variable {rt : RouteTable} {p : Option RoutePtr}

/-- An entry of a table at rest is written to by a packet of its own connection. -/
theorem Rest.modify {g : LcxlRouteListEntry → LcxlRouteListEntry} {r : LcxlRouteListEntry}
    (h : rt.Rest) (hr : r ∈ rt.list) (hs : (g r).self = r.self) (hk : (g r).key = r.key)
    (hd : ∃ s, (g r).dstServer = some s) (hl : (g r).Live ∨ (g r).status = .closed) :
    (rt.modify r.self g).Busy r.key (some r.self) := by
  refine ⟨h.toOk.modify hr hs hk hd, fun x hx => ?_, fun q hq => ?_⟩
  · obtain ⟨y, hy, rfl⟩ := List.mem_map.1 hx
    split_ifs with hyr
    · rw [h.toOk.eq_of_self hy hr hyr]
      exact hl.imp_right fun hc => ⟨hc, congrArg some hs⟩
    · exact .inl (h.live y hy)
  · simp only [Option.mem_def, Option.some.injEq] at hq
    exact ⟨_, List.mem_map.2 ⟨r, hr, if_pos rfl⟩, hs.trans hq, hk⟩

/-- What a packet does to the table, the lookup before it having stopped at `p`. -/
theorem Rest.packet (h : rt.Rest) (server : Option ServerPtr) (later : ℤ)
    (hp : ∀ q ∈ p, ∃ r ∈ rt.list, r.self = q ∧ r.key = pkt.key)
    (hn : p = none → ∀ r ∈ rt.list, r.key ≠ pkt.key) (hs : pkt.thFlags ≠ thSyn → server = none) :
    (rt.packet p pkt server later).1.Busy pkt.key (rt.packet p pkt server later).2
      ∧ serverOf (rt.packet p pkt server later).1.list
        = (server.elim (serverOf rt.list) fun s =>
          Function.update (serverOf rt.list) pkt.key (some s))
      ∧ (rt.packet p pkt server later).1.freed = rt.freed
      ∧ ((rt.packet p pkt server later).2 =
        if pkt.thFlags = thSyn then server.map fun _ => p.getD rt.next else p) := by
  have hrest : ∀ {q}, rt.Busy pkt.key q ↔ ∀ q' ∈ q, ∃ r ∈ rt.list, r.self = q' ∧ r.key = pkt.key :=
    fun {q} => ⟨fun hb => hb.entry, fun he => ⟨h.toOk, fun r hr => .inl (h.live r hr), he⟩⟩
  unfold RouteTable.packet
  split_ifs with hf
  · rcases server with _ | s
    · exact ⟨hrest.2 (by simp), rfl, rfl, rfl⟩
    rcases p with _ | q
    · refine ⟨⟨h.toOk.create_init (hn rfl) s later, ?_, ?_⟩,
        serverOf_create_init h.toOk pkt s later, rfl, rfl⟩
      · intro r hr
        rw [create_init_list h.toOk] at hr
        rcases List.mem_cons.1 hr with rfl | hr
        · exact .inl (.inl rfl)
        · exact .inl (h.live r hr)
      · intro q hq
        rw [create_init_list h.toOk]
        exact ⟨_, List.mem_cons_self, by simpa using hq, rfl⟩
    · obtain ⟨r, hr, rfl, hk⟩ := hp q rfl
      have hkey : ∀ {r' : LcxlRouteListEntry}, r'.srcIp = ⟨some pkt.ipMode, pkt.srcAddr⟩ →
          r'.srcPort = pkt.thSport → r'.dstPort = pkt.thDport → r'.key = r.key := by
        intro r' h1 h2 h3
        rw [hk]
        simp only [LcxlRouteListEntry.key, TcpPacket.key, h1, h2, h3]
      rw [← hk]
      refine ⟨h.modify hr rfl (hkey rfl rfl rfl) ⟨s, rfl⟩ (.inl (.inl rfl)), ?_, rfl, rfl⟩
      exact h.toOk.serverOf_modify hr rfl (hkey rfl rfl rfl) ⟨s, rfl⟩
  · rw [hs hf]
    rcases p with _ | q
    · exact ⟨hrest.2 (by simp), rfl, rfl, rfl⟩
    · obtain ⟨r, hr, rfl, hk⟩ := hp q rfl
      rw [← hk]
      refine ⟨h.modify hr rfl rfl (h.served r hr) ?_, ?_, rfl, rfl⟩
      · exact or_assoc.2 (nextStatus_live pkt.thFlags (h.live r hr))
      · refine (h.toOk.serverOf_modify hr rfl rfl (h.served r hr)).trans ?_
        rw [Option.elim_none]
        exact Function.update_eq_self_iff.2 (serverOf_of_mem h.keys hr).symm

/-- The packet's route is deleted if it was closed. -/
theorem Busy.dropClosed {key : ConnKey} (h : rt.Busy key p) :
    (rt.dropClosed p).Rest ∧ ∃ gone : List LcxlRouteListEntry,
      (rt.dropClosed p).freed = rt.freed ++ gone ∧ (∀ r ∈ gone, r.key = key)
        ∧ serverOf (rt.dropClosed p).list
          = fun k => if k ∈ gone.map (·.key) then none else serverOf rt.list k := by
  have hlive : ∀ {rt' : RouteTable}, rt'.Ok → (∀ r ∈ rt'.list, r ∈ rt.list ∧
      ¬ (r.status = .closed ∧ some r.self = p)) → rt'.Rest := fun hok hr =>
    ⟨hok, fun r hr' => (h.live r (hr r hr').1).resolve_right (hr r hr').2⟩
  rcases p with _ | q
  · refine ⟨hlive h.toOk fun r hr => ⟨hr, by simp⟩, [], ?_⟩
    simp [RouteTable.dropClosed]
  · obtain ⟨r, hr, rfl, hk⟩ := h.entry q rfl
    simp only [RouteTable.dropClosed, Option.bind_some, h.toOk.find hr]
    split_ifs with hc
    · refine ⟨hlive (h.toOk.erase _ _) fun x hx => ?_, [r], rfl, by simpa using hk, ?_⟩
      · have hx' : x ∈ rt.list := List.eraseP_sublist.subset hx
        refine ⟨hx', fun ⟨_, hs⟩ => ?_⟩
        have hxr : x = r := h.toOk.eq_of_self hx' hr (Option.some.inj hs)
        subst hxr
        obtain ⟨s, hs⟩ := h.served x hx'
        have h1 := serverOf_of_mem (h.toOk.erase x.self rt.freed).keys hx
        have h2 : serverOf (rt.list.eraseP (·.self = x.self)) x.key = none := by
          rw [serverOf_erase h.selfs h.keys hr, if_pos rfl]
        rw [hs] at h1
        exact absurd (h1.symm.trans h2) (by simp)
      · funext k
        simp only [serverOf_erase h.selfs h.keys hr, List.map_cons, List.map_nil,
          List.mem_singleton]
    · refine ⟨hlive h.toOk fun x hx => ⟨hx, fun ⟨hst, hs⟩ => hc ?_⟩, [], by simp, by simp, by simp⟩
      rw [← h.toOk.eq_of_self hx hr (Option.some.inj hs), hst]

end RouteTable

/-- What an event makes of its connection's server. -/
def ConnEvent.write : ConnEvent → ConnKey × Option ServerPtr
  | .selected key server _ => (key, some server)
  | .purged key => (key, none)
  | .closed key => (key, none)

theorem ConnEvent.write_fst (e : ConnEvent) : e.write.1 = e.key := by
  cases e <;> rfl

variable (cfg amb) in
theorem routeEvents_vip (hv : vipPacket f fr = some pkt) : routeEvents cfg f fr amb =
    ((lookup cfg f pkt amb.now).1.freed.drop f.routeTable.freed.length).map (.purged ·.key)
      ++ (synServer f (lookup cfg f pkt amb.now).2.1 pkt).toList.map
        (fun p => .selected pkt.key p ((lookup cfg f pkt amb.now).2.1.mem p))
      ++ ((receiveFrame cfg f fr amb).1.routeTable.freed.drop
        (lookup cfg f pkt amb.now).1.freed.length).map (.closed ·.key) := by
  rw [routeEvents, hv]
  rfl

theorem lookup_rest {gone : List LcxlRouteListEntry} {q : Option RoutePtr} {now : ℤ}
    {old : LcxlRouteListEntry → Bool} {rt rt' : RouteTable} (h : rt.Rest)
    (hw : Walk old pkt now rt.list rt'.list gone q) (hn : rt'.next = rt.next) : rt'.Rest := by
  refine ⟨h.toOk.walk hw hn, fun r' hr' => ?_⟩
  obtain ⟨r, hr, ts, rfl⟩ := hw.mem_kept r' hr'
  exact h.live r hr

theorem synServer_syn {t : ServerTable} (h : pkt.thFlags ≠ thSyn) : synServer f t pkt = none :=
  if_neg h

theorem synServer_avaliable {t : ServerTable} {s : ServerPtr} (h : synServer f t pkt = some s) :
    serverIsAvaliable (t.mem s) pkt.ipMode := by
  unfold synServer at h
  split_ifs at h
  exact (selectBestServer_spec t pkt.ipMode pkt.dstAddr _ _).avaliable s h

theorem routeTCPNBL_busy (h : f.routeTable.Rest) (cfg : LcxlSetting) (pkt : TcpPacket)
    (now later : ℤ) : (routeTCPNBL cfg f pkt now later).1.routeTable.Busy pkt.key
      (routeTCPNBL cfg f pkt now later).2 := by
  obtain ⟨gone, hw, -, hnext, -⟩ := lookup_walk cfg f pkt now
  have hbusy := ((lookup_rest h hw hnext).packet (synServer f (lookup cfg f pkt now).2.1 pkt) later
    hw.stop.1 hw.stop.2 synServer_syn).1
  obtain ⟨h1, h2⟩ := Prod.ext_iff.1 (routeTCPNBL_table cfg f pkt now later)
  simp only at h1 h2
  rw [h1, h2]
  exact hbusy

variable (cfg amb) in
/-- A packet makes of the route list what its events make of the map. -/
theorem receive_vip (h : f.routeTable.Rest) (hv : vipPacket f fr = some pkt) :
    (receiveFrame cfg f fr amb).1.routeTable.Rest
      ∧ serverOf (receiveFrame cfg f fr amb).1.routeTable.list
        = (routeEvents cfg f fr amb).foldl (LastWrite.apply ConnEvent.write)
          (serverOf f.routeTable.list)
      ∧ ∀ k p info, .selected k p info ∈ routeEvents cfg f fr amb →
        ∃ m, k.ipMode = some m ∧ serverIsAvaliable info m := by
  obtain ⟨gone, hw, hfreed, hnext, -⟩ := lookup_walk cfg f pkt amb.now
  have h1 := lookup_rest h hw hnext
  obtain ⟨hbusy, hmap, hfr, -⟩ := h1.packet
    (synServer f (lookup cfg f pkt amb.now).2.1 pkt) amb.later hw.stop.1 hw.stop.2 synServer_syn
  obtain ⟨hrest, closed, hcf, -, hcm⟩ := hbusy.dropClosed
  have hevents := routeEvents_vip cfg amb hv
  rw [receiveFrame_vip hv, routePacket_table] at hevents ⊢
  rw [hcf, hfr, hfreed, List.drop_left, List.drop_left] at hevents
  refine ⟨hrest, ?_, fun k p info hk => ?_⟩
  · rw [hevents, hcm, hmap]
    have hclear : ∀ (c : ConnKey → ConnEvent) (rs : List LcxlRouteListEntry) (m),
        (∀ k, (c k).write = (k, none)) → (rs.map fun r => c r.key).foldl
          (LastWrite.apply ConnEvent.write) m
            = fun k => if k ∈ rs.map (·.key) then none else m k := by
      intro c rs m hc
      funext k
      rw [LastWrite.foldl_apply_clear (by simp [hc]), List.map_map]
      simp only [Function.comp_def, hc]
    have hkept : serverOf (lookup cfg f pkt amb.now).1.list = fun k =>
        if k ∈ gone.map (·.key) then none else serverOf f.routeTable.list k :=
      funext fun k => hw.serverOf_kept h.keys k
    rw [List.foldl_append, List.foldl_append, hclear .closed _ _ fun _ => rfl,
      hclear .purged _ _ fun _ => rfl, ← hkept]
    rcases synServer f (lookup cfg f pkt amb.now).2.1 pkt with _ | s <;> rfl
  · rw [hevents] at hk
    simp only [List.mem_append, List.mem_map, Option.mem_toList, reduceCtorEq, and_false,
      exists_false, or_false, false_or, ConnEvent.selected.injEq] at hk
    obtain ⟨s, hs, rfl, rfl, rfl⟩ := hk
    exact ⟨pkt.ipMode, rfl, synServer_avaliable hs⟩

variable (cfg amb) in
theorem receive_not_vip (hv : vipPacket f fr = none) :
    (receiveFrame cfg f fr amb).1.routeTable = f.routeTable ∧ routeEvents cfg f fr amb = [] := by
  refine ⟨?_, by rw [routeEvents, hv]⟩
  rcases hc : checkingSource f fr with _ | mac
  · rw [receiveFrame_other hv hc]
  · obtain ⟨t, h, -⟩ := receiveFrame_checking cfg amb hc
    rw [h]
    rfl

theorem workerTick_routeTable (now : ℤ) : (workerTick cfg f now).1.routeTable = f.routeTable := by
  unfold workerTick
  split_ifs <;> rfl

theorem RefOnly.dropServer (t : ServerTable) (r : LcxlRouteListEntry) :
    RefOnly t (dropServer t r) := by
  unfold LcxlNetLoader.dropServer
  split
  · exact RefOnly.dec
  · exact RefOnly.refl t

theorem RefOnly.dropServers : ∀ (rs : List LcxlRouteListEntry) (t : ServerTable),
    RefOnly t (rs.foldl LcxlNetLoader.dropServer t)
  | [], t => RefOnly.refl t
  | r :: rs, t => (RefOnly.dropServer t r).trans (RefOnly.dropServers rs _)

theorem RefOnly.dropRouteServer (rt : RouteTable) (t : ServerTable) (p : RoutePtr) :
    RefOnly t (dropRouteServer rt t p) := by
  unfold LcxlNetLoader.dropRouteServer
  split
  · exact RefOnly.dropServer _ _
  · exact RefOnly.refl _

theorem RefOnly.deleteRoute (rt : RouteTable) (t : ServerTable) (p : RoutePtr) :
    RefOnly t (deleteRouteListEntry rt t p).2 := by
  unfold deleteRouteListEntry
  split
  · exact RefOnly.dropServer _ _
  · exact RefOnly.refl _

/-- Of the servers, routing changes only the reference counts, and of the rest of the module only
the routes and the selection's own state. -/
structure RoutesOnly (f f' : LcxlFilter) : Prop where
  eq : f' = { f.setRouting f'.routeTable f'.module.serverList with
    routingAlgorithmData := f'.routingAlgorithmData }
  servers : RefOnly f.module.serverList f'.module.serverList

theorem RoutesOnly.trans {f f' f'' : LcxlFilter} (h : RoutesOnly f f') (h' : RoutesOnly f' f'') :
    RoutesOnly f f'' := by
  refine ⟨h'.eq.trans ?_, h.servers.trans h'.servers⟩
  exact congrArg (fun x : LcxlFilter => { x.setRouting f''.routeTable f''.module.serverList with
    routingAlgorithmData := f''.routingAlgorithmData }) h.eq

theorem RefOnly.packetServers (f : LcxlFilter)
    (l : RouteTable × ServerTable × Option RoutePtr) (pkt : TcpPacket) :
    RefOnly l.2.1 (packetServers f l pkt) := by
  have hsel := (selectBestServer_spec l.2.1 pkt.ipMode pkt.dstAddr f.module.routingAlgorithm
    f.routingAlgorithmData).refOnly
  unfold LcxlNetLoader.packetServers
  split_ifs
  · rcases synServer f l.2.1 pkt with _ | s
    · exact hsel
    rcases l.2.2 with _ | p
    · exact hsel
    · exact hsel.trans (RefOnly.dropRouteServer l.1 _ p)
  · exact RefOnly.refl _

theorem routeTCPNBL_routesOnly (cfg : LcxlSetting) (f : LcxlFilter) (pkt : TcpPacket)
    (now later : ℤ) : RoutesOnly f (routeTCPNBL cfg f pkt now later).1 := by
  obtain ⟨gone, -, -, -, ht⟩ := lookup_walk cfg f pkt now
  refine ⟨by rw [routeTCPNBL_eq]; rfl, ?_⟩
  rw [routeTCPNBL_serverList]
  exact (ht ▸ RefOnly.dropServers gone _).trans (RefOnly.packetServers f _ pkt)

theorem dropClosed_routesOnly (f : LcxlFilter) (p : RoutePtr) : RoutesOnly f (f.dropClosed p) := by
  unfold LcxlFilter.dropClosed
  split_ifs
  · exact ⟨rfl, RefOnly.deleteRoute _ _ p⟩
  · exact ⟨rfl, RefOnly.refl _⟩

theorem routePacket_routesOnly (cfg : LcxlSetting) (f : LcxlFilter) (pkt : TcpPacket)
    (amb : Ambient) : RoutesOnly f (routePacket cfg f pkt amb) := by
  have h := routeTCPNBL_routesOnly cfg f pkt amb.now amb.later
  unfold routePacket
  split
  · exact h.trans (dropClosed_routesOnly _ _)
  · exact h

/-- A packet that has a route is forwarded to the server of that. -/
theorem forwardedTo_of_route {q : RoutePtr} {r : LcxlRouteListEntry} {p : ServerPtr}
    (hv : vipPacket f fr = some pkt) (hq : (routeTCPNBL cfg f pkt amb.now amb.later).2 = some q)
    (hok : (routeTCPNBL cfg f pkt amb.now amb.later).1.routeTable.Ok)
    (hr : r ∈ (routeTCPNBL cfg f pkt amb.now amb.later).1.routeTable.list) (hrq : r.self = q)
    (hp : r.dstServer = some p) : ForwardedTo cfg f fr amb p := by
  have hmac : (routeTCPNBL cfg f pkt amb.now amb.later).1.routeMac q
      = (f.module.serverList.mem p).info.macAddr.mac := by
    rw [← hrq]
    simp only [LcxlFilter.routeMac, hok.find hr, Option.bind_some, hp,
      (routeTCPNBL_routesOnly cfg f pkt amb.now amb.later).servers.info]
  refine ⟨?_, ?_, q, r, ?_, ?_, hrq, hp⟩
  · rw [receiveFrame_vip_router hv, hq]
  · rw [receiveFrame_vip_router hv, hq]
    simp only [hmac]
  · rw [processNBL_vip hv, hq]
  · rw [processNBL_vip hv]
    exact hr

variable (cfg amb) in
/-- A packet that opens no connection is forwarded to the server its connection has. -/
theorem receive_forwardedTo (h : f.routeTable.Rest) (hv : vipPacket f fr = some pkt)
    (hs : pkt.thFlags ≠ thSyn) :
    ((receiveFrame cfg f fr amb).2.1 = .router → ∃ p, serverOf f.routeTable.list pkt.key = some p)
      ∧ ∀ p, serverOf f.routeTable.list pkt.key = some p → ForwardedTo cfg f fr amb p := by
  obtain ⟨gone, hw, hfreed, hnext, -⟩ := lookup_walk cfg f pkt amb.now
  have h1 := lookup_rest h hw hnext
  obtain ⟨hbusy, hmap, -, hp⟩ := h1.packet
    (synServer f (lookup cfg f pkt amb.now).2.1 pkt) amb.later hw.stop.1 hw.stop.2 synServer_syn
  have hkept : serverOf (lookup cfg f pkt amb.now).1.list pkt.key
      = serverOf f.routeTable.list pkt.key := by
    rw [hw.serverOf_kept h.keys, if_neg]
    intro hm
    obtain ⟨r, hr, hk⟩ := List.mem_map.1 hm
    exact hw.gone_key r hr hk
  obtain ⟨htable, hroute⟩ := Prod.ext_iff.1
    (routeTCPNBL_table cfg f pkt amb.now amb.later)
  simp only at htable hroute
  rw [synServer_syn hs] at hbusy hp hmap htable hroute
  rw [if_neg hs] at hp
  rw [Option.elim_none] at hmap
  rw [hp] at hroute hbusy
  rw [← htable] at hmap hbusy
  have hmap' := congrFun hmap pkt.key
  rw [hkept] at hmap'
  rcases hq : (lookup cfg f pkt amb.now).2.2 with _ | q
  · rw [hq] at hroute
    have hnone : serverOf f.routeTable.list pkt.key = none := by
      rw [← hkept]
      refine serverOf_of_notMem fun hm => ?_
      obtain ⟨r, hr, hk⟩ := List.mem_map.1 hm
      exact hw.stop.2 hq r hr hk
    refine ⟨fun hc => ?_, fun p hp => by simp [hnone] at hp⟩
    rw [receiveFrame_vip_router hv, hroute] at hc
    simp at hc
  · rw [hq] at hroute hbusy
    obtain ⟨r, hr, hrq, hk⟩ := hbusy.entry q rfl
    have hserver : serverOf f.routeTable.list pkt.key = r.dstServer := by
      rw [← hmap', ← hk, serverOf_of_mem hbusy.keys hr]
    refine ⟨fun _ => hserver ▸ hbusy.served r hr, fun p hp => ?_⟩
    exact forwardedTo_of_route hv hroute hbusy.toOk hr hrq (hserver ▸ hp)

namespace Traced

variable {s s' : Traced} {tr : List Event}

/-- The route list is the map its events make. -/
structure Tracks (s : Traced) : Prop where
  rest : s.filter.routeTable.Rest
  map : serverOf s.filter.routeTable.list = LastWrite.after ConnEvent.write s.log
  avaliable : ∀ k p info, .selected k p info ∈ s.log →
    ∃ m, k.ipMode = some m ∧ serverIsAvaliable info m

theorem Tracks.start (f : LcxlFilter) : (start f).Tracks := by
  refine ⟨⟨⟨?_, ?_, ?_, ?_⟩, ?_⟩, rfl, ?_⟩ <;> simp [Traced.start]

theorem Tracks.of_same (h : s.Tracks) (hr : s'.filter.routeTable = s.filter.routeTable)
    (hl : s'.log = s.log) : s'.Tracks :=
  ⟨hr ▸ h.rest, by rw [hr, hl, h.map], hl ▸ h.avaliable⟩

theorem Tracks.step {e : Event} (h : s.Tracks) (hs : Step cfg s e s') : s'.Tracks := by
  obtain ⟨hk, rfl⟩ := hs
  cases e with
  | recv fr amb =>
    rcases hv : vipPacket s.filter fr with _ | pkt
    · obtain ⟨h1, h2⟩ := receive_not_vip cfg amb hv
      exact h.of_same h1 (by simp [exec, h2])
    · obtain ⟨h1, h2, h3⟩ := receive_vip cfg amb h.rest hv
      refine ⟨h1, ?_, fun k p info hk => ?_⟩
      · simp only [exec, LcxlFilter.exec]
        rw [LastWrite.after_append, ← h.map, ← h2]
      · rcases List.mem_append.1 hk with hk | hk
        · exact h.avaliable k p info hk
        · exact h3 k p info hk
  | tick now => exact h.of_same (workerTick_routeTable now) rfl
  | addServer past now server => exact h.of_same rfl rfl
  | delServer past macAddr => exact h.of_same rfl rfl
  | other f => exact h.of_same hk rfl

theorem tracks {f : LcxlFilter} (h : Sys.Run (Step cfg) (start f) tr s) : s.Tracks :=
  h.preserves (fun h hs => h.step hs) (.start f)

/-- The map's server of a connection is the one assigned to it. -/
theorem Tracks.serverOf_iff (h : s.Tracks) {k : ConnKey} {p : ServerPtr} :
    serverOf s.filter.routeTable.list k = some p ↔ ∃ info, s.Assigned k p info := by
  rw [h.map, LastWrite.after_eq_some_iff]
  refine ⟨?_, ?_⟩
  · rintro ⟨l₁, e, l₂, hl, he, hl₂⟩
    cases e with
    | selected key server info =>
      simp only [ConnEvent.write, Prod.mk.injEq, Option.some.injEq] at he
      obtain ⟨rfl, rfl⟩ := he
      exact ⟨info, l₁, l₂, hl, fun e' he' => e'.write_fst ▸ hl₂ e' he'⟩
    | purged key => simp [ConnEvent.write] at he
    | closed key => simp [ConnEvent.write] at he
  · rintro ⟨info, l₁, l₂, hl, hl₂⟩
    exact ⟨l₁, _, l₂, hl, rfl, fun e' he' => e'.write_fst ▸ hl₂ e' he'⟩

/-- In every state of a run: no two entries are of one connection, and each is up or awaits its
last acknowledgement, and goes to the server last selected for its connection, which was then
available for its address family. -/
theorem route_list_ok {f : LcxlFilter} (h : Sys.Run (Step cfg) (start f) tr s) :
    (s.filter.routeTable.list.map (·.key)).Nodup
      ∧ ∀ r ∈ s.filter.routeTable.list, (r.status = .normal ∨ r.status = .lastAck)
        ∧ ∃ server info m, r.dstServer = some server ∧ s.Assigned r.key server info
          ∧ r.srcIp.ipMode = some m ∧ serverIsAvaliable info m := by
  have ht := tracks h
  refine ⟨ht.rest.keys, fun r hr => ⟨ht.rest.live r hr, ?_⟩⟩
  obtain ⟨p, hp⟩ := ht.rest.served r hr
  obtain ⟨info, ha⟩ := ht.serverOf_iff.1 ((serverOf_of_mem ht.rest.keys hr).trans hp)
  have ⟨l₁, l₂, hl, _⟩ := ha
  obtain ⟨m, hm, hav⟩ := ht.avaliable r.key p info (by simp [hl])
  exact ⟨p, info, m, hp, ha, hm, hav⟩

/-- A server is added, and a packet opens a connection to it. -/
def opening : List Event :=
  [Sample.addServer, .recv (Sample.tcpFrame thSyn) (Sample.ambient 1)]

def opened : Traced := opening.foldl (exec Sample.setting) (start Sample.router)

theorem opened_run : Sys.Run (Step Sample.setting) (start Sample.router) opening opened :=
  (Sys.Run.nil.snoc ⟨trivial, rfl⟩).snoc ⟨trivial, rfl⟩

theorem route_list_ok_opened : opened.filter.routeTable.list.length = 1
    ∧ (opened.filter.routeTable.list.map (·.key)).Nodup
    ∧ ∀ r ∈ opened.filter.routeTable.list, (r.status = .normal ∨ r.status = .lastAck)
      ∧ ∃ server info m, r.dstServer = some server ∧ opened.Assigned r.key server info
        ∧ r.srcIp.ipMode = some m ∧ serverIsAvaliable info m :=
  ⟨by decide +kernel, route_list_ok opened_run⟩

/-- In every state of a run, a packet to the virtual address that opens no connection is forwarded
just when a server is assigned to its connection, and then to that server. -/
theorem forwarded_iff_assigned {f : LcxlFilter} (h : Sys.Run (Step cfg) (start f) tr s)
    (hv : vipPacket s.filter fr = some pkt) (hs : pkt.thFlags ≠ thSyn) :
    ((receiveFrame cfg s.filter fr amb).2.1 = .router ↔
        ∃ server info, s.Assigned pkt.key server info)
      ∧ ∀ server info, s.Assigned pkt.key server info →
        ForwardedTo cfg s.filter fr amb server := by
  have ht := tracks h
  obtain ⟨h1, h2⟩ := receive_forwardedTo cfg amb ht.rest hv hs
  have hto : ∀ server info, s.Assigned pkt.key server info →
      ForwardedTo cfg s.filter fr amb server :=
    fun server info ha => h2 server (ht.serverOf_iff.2 ⟨info, ha⟩)
  refine ⟨⟨fun hc => ?_, fun ⟨server, info, ha⟩ => (hto server info ha).code⟩, hto⟩
  obtain ⟨p, hp⟩ := h1 hc
  obtain ⟨info, ha⟩ := ht.serverOf_iff.1 hp
  exact ⟨p, info, ha⟩

/-- The acknowledgement that follows is forwarded to the server. -/
theorem forwarded_iff_assigned_opened :
    ForwardedTo Sample.setting opened.filter (Sample.tcpFrame thAck) (Sample.ambient 2) 0 := by
  have hv : vipPacket opened.filter (Sample.tcpFrame thAck)
      = some ⟨.ipv4, [10, 0, 0, 9], [10, 0, 0, 1], 0x901F, 0x5000, thAck⟩ := by decide +kernel
  exact (forwarded_iff_assigned opened_run hv (by decide)).2 0 _ ⟨[], [], rfl, by simp⟩

end Traced

end LcxlNetLoader
