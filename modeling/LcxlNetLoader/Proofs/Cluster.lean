import LcxlNetLoader.Cluster
import LcxlNetLoader.Proofs.Families
import LcxlNetLoader.Proofs.Health
import LcxlNetLoader.Proofs.NetBuffers
import LcxlNetLoader.Proofs.SharedServers

/-!
# The cluster dispatches connections to machines

Over any run a server's address is the one it was added with (`Grows`), so the machine a connection
goes to changes only where the route list does. Each step of the cluster is then some acts of a
dispatcher.
-/

namespace LcxlNetLoader

open Linked

/-! ## Servers keep their addresses -/

/-- Servers keep their MAC addresses, and those that are new lie behind them. -/
structure ServerTable.Grows (t t' : ServerTable) : Prop where
  mac : ∀ p < t.next, t'.mac p = t.mac p
  known : ∀ p ∈ t'.known, p ∈ t.known ∨ t.next ≤ p ∧ p < t'.next
  next : t.next ≤ t'.next

namespace ServerTable

variable {t t' t'' : ServerTable} {p : ServerPtr}

theorem Grows.trans (h : t.Grows t') (h' : t'.Grows t'') : t.Grows t'' := by
  refine ⟨fun p hp => ?_, fun p hp => ?_, h.next.trans h'.next⟩
  · rw [h'.mac p (hp.trans_le h.next), h.mac p hp]
  · rcases h'.known p hp with hp | ⟨hle, hlt⟩
    · rcases h.known p hp with hp | ⟨hle, hlt⟩
      · exact .inl hp
      · exact .inr ⟨hle, hlt.trans_le h'.next⟩
    · exact .inr ⟨h.next.trans hle, hlt⟩

theorem Shrinks.grows (h : Shrinks t t') : t.Grows t' :=
  ⟨fun p _ => h.mac p, fun _ hp => .inl (h.known.subset hp), h.next.ge⟩

/-! ### What routing does to the servers -/

theorem shrinks_incRefOption (t : ServerTable) (server : Option ServerPtr) :
    Shrinks t (incRefOption t server) := by
  rcases server with _ | p
  · exact .refl t
  · exact shrinks_modify (g := fun s => { s with refCount := s.refCount + 1 }) rfl

theorem shrinks_findFromIndex (t : ServerTable) (m : IpMode) (index : ℤ) :
    Shrinks t (findFromIndex t m index).1 := by
  unfold findFromIndex
  split
  · rw [findAvaliable_eq]
    exact ((shrinks_lock t).trans (shrinks_incRefOption _ _)).trans (shrinks_unlock _)
  · exact .refl t

theorem shrinks_leastConnectionLoop (m : IpMode) : ∀ (ps : List ServerPtr) (t : ServerTable)
    (best : Option ServerPtr), Shrinks t (leastConnectionLoop m ps t best).1
  | [], t, _ => .refl t
  | p :: ps, t, best => by
    simp only [leastConnectionLoop]
    split_ifs
    · refine Shrinks.trans ?_ (shrinks_leastConnectionLoop m ps _ (some p))
      rcases best with _ | b
      · exact shrinks_modify rfl
      · exact (shrinks_decRef t b).trans (shrinks_modify rfl)
    · exact shrinks_leastConnectionLoop m ps t best

theorem shrinks_selectBestServer (t : ServerTable) (m : IpMode) (dstAddr : List UInt8) (alg : ℤ)
    (ra : RoutingAlgorithmData) : Shrinks t (selectBestServer t m dstAddr alg ra).1 := by
  have hunlock {t' : ServerTable} (h : Shrinks (lockServerList t) t') :
      Shrinks t (unlockServerList t') := ((shrinks_lock t).trans h).trans (shrinks_unlock t')
  simp only [selectBestServer]
  split_ifs
  · exact hunlock (shrinks_leastConnectionLoop m _ _ none)
  · exact hunlock (shrinks_findFromIndex _ m _)
  · exact hunlock (shrinks_findFromIndex _ m _)
  · exact hunlock (shrinks_findFromIndex _ m _)
  · exact hunlock (.refl _)
  · exact hunlock (.refl _)
  · exact hunlock (.refl _)

theorem shrinks_dropServer (t : ServerTable) (r : LcxlRouteListEntry) :
    Shrinks t (dropServer t r) := by
  unfold dropServer
  split
  · exact shrinks_decRef t _
  · exact .refl t

theorem shrinks_dropServers : ∀ (rs : List LcxlRouteListEntry) (t : ServerTable),
    Shrinks t (rs.foldl dropServer t)
  | [], t => .refl t
  | r :: rs, t => (shrinks_dropServer t r).trans (shrinks_dropServers rs _)

end ServerTable

section Router

open ServerTable

variable {cfg : LcxlSetting} {f : LcxlFilter} {fr : Frame} {amb : Ambient} {pkt : TcpPacket}

theorem lookup_shrinks (cfg : LcxlSetting) (f : LcxlFilter) (pkt : TcpPacket) (now : ℤ) :
    Shrinks f.module.serverList (lookup cfg f pkt now).2.1 := by
  obtain ⟨gone, -, -, -, ht⟩ := lookup_walk cfg f pkt now
  rw [ht]
  exact shrinks_dropServers gone _

theorem packetServers_shrinks (f : LcxlFilter) (l : RouteTable × ServerTable × Option RoutePtr)
    (pkt : TcpPacket) : Shrinks l.2.1 (packetServers f l pkt) := by
  have hsel := shrinks_selectBestServer l.2.1 pkt.ipMode pkt.dstAddr f.module.routingAlgorithm
    f.routingAlgorithmData
  unfold packetServers
  split_ifs
  · simp only
    split
    · unfold dropRouteServer
      split
      · exact hsel.trans (shrinks_dropServer _ _)
      · exact hsel
    · exact hsel
  · exact .refl _

theorem routePacket_grows (cfg : LcxlSetting) (f : LcxlFilter) (pkt : TcpPacket) (amb : Ambient) :
    f.module.serverList.Grows (routePacket cfg f pkt amb).module.serverList := by
  refine Shrinks.grows ?_
  have hroute : Shrinks f.module.serverList
      (routeTCPNBL cfg f pkt amb.now amb.later).1.module.serverList := by
    rw [routeTCPNBL_serverList]
    exact (lookup_shrinks cfg f pkt amb.now).trans (packetServers_shrinks f _ pkt)
  unfold routePacket
  split
  · refine hroute.trans ?_
    unfold LcxlFilter.dropClosed
    split_ifs
    · simp only [deleteRouteListEntry]
      split
      · exact shrinks_dropServer _ _
      · exact .refl _
    · exact .refl _
  · exact hroute

theorem respondedTable_grows {mac : List UInt8} {now : ℤ} {t t' : ServerTable}
    (h : RespondedTable mac now t t') : t.Grows t' := by
  unfold RespondedTable at h
  split at h
  · rw [h]
    exact ((shrinks_lock t).trans (shrinks_unlock _)).grows
  · obtain ⟨g, hg, rfl⟩ := h
    refine (((shrinks_lock t).trans (shrinks_modify ?_)).trans (shrinks_unlock _)).grows
    rw [(hg _).info]

theorem receiveFrame_grows (cfg : LcxlSetting) (f : LcxlFilter) (fr : Frame) (amb : Ambient) :
    f.module.serverList.Grows (receiveFrame cfg f fr amb).1.module.serverList := by
  rcases hv : vipPacket f fr with _ | pkt
  · rcases hc : checkingSource f fr with _ | mac
    · rw [receiveFrame_other hv hc]
      exact (Shrinks.refl _).grows
    · obtain ⟨t, h, ht⟩ := receiveFrame_checking cfg amb hc
      rw [h]
      exact respondedTable_grows ht
  · rw [receiveFrame_vip hv]
    exact routePacket_grows cfg f pkt amb

theorem checkServersLoop_shrinks (cfg : LcxlSetting) (module : LcxlModuleSettingInfo) (now : ℤ) :
    ∀ (ps : List ServerPtr) (t : ServerTable), Shrinks t (checkServersLoop cfg module now ps t).1
  | [], t => .refl t
  | p :: ps, t => by
    have h : Shrinks t
        (t.modify p fun _ => (checkServer cfg module.serverCheck now (t.mem p)).1) :=
      shrinks_modify (by rw [checkServer_macAddr])
    simp only [checkServersLoop]
    split_ifs
    · exact h.trans (checkServersLoop_shrinks cfg module now ps _)
    · exact h.trans (checkServersLoop_shrinks cfg module now ps _)

theorem workerTick_grows (cfg : LcxlSetting) (f : LcxlFilter) (now : ℤ) :
    f.module.serverList.Grows (workerTick cfg f now).1.module.serverList := by
  refine Shrinks.grows ?_
  unfold workerTick
  split_ifs
  · exact ((shrinks_lock _).trans (checkServersLoop_shrinks cfg f.module now _ _)).trans
      (shrinks_unlock _)
  · exact .refl _

theorem routerAddServer_grows {past : ServerPtr → Bool} {now : ℤ} {server : LcxlServer}
    (t : ServerTable) (hs : server.macAddr.length = 6) :
    t.Grows (routerAddServer past now t server) := by
  unfold routerAddServer
  simp only
  split
  · refine ServerTable.Grows.trans ⟨fun p hp => ?_, fun p hp => ?_, Nat.le_succ _⟩
      (shrinks_unlock _).grows
    · have hne : p ≠ t.next := Nat.ne_of_lt hp
      show (Function.update t.mem t.next _ p).info.macAddr.mac = _
      rw [Function.update_of_ne hne]
      rfl
    · rcases List.mem_cons.1 ((LcxlList.known_add (lockLcxlList t.lst) t.next).subset hp) with
        rfl | hp
      · exact .inr ⟨le_rfl, Nat.lt_succ_self _⟩
      · exact .inl hp
  · rename_i p hp
    refine (((shrinks_lock t).trans (shrinks_modify ?_)).trans (shrinks_unlock _)).grows
    exact (mac_of_found hs hp).symm

theorem routerDelServer_grows (past : ServerPtr → Bool) (t : ServerTable)
    (macAddr : IfPhysicalAddress) : t.Grows (routerDelServer past t macAddr).1 := by
  refine Shrinks.grows ?_
  unfold routerDelServer
  simp only
  split
  · exact shrinks_lock t
  · split_ifs
    · exact shrinks_lock t
    · exact ((shrinks_lock t).trans (shrinks_modify rfl)).trans (shrinks_decRef _ _)

end Router

/-! ## What a packet does to connections -/

/-- The MAC addresses the connections go to. -/
def LcxlFilter.owner (f : LcxlFilter) (key : ConnKey) : Option (List UInt8) :=
  (serverOf f.routeTable.list key).map fun p => (f.module.serverList.mem p).info.macAddr.mac

def Frame.addressed (fr : Frame) : List UInt8 × List UInt8 := (fr.destination, fr.payload)

section Packet

variable {cfg : LcxlSetting} {f : LcxlFilter} {fr fr' : Frame} {amb : Ambient} {pkt : TcpPacket}
  {key : ConnKey}

/-- What a packet does to connections before it is sent on. -/
def opens (cfg : LcxlSetting) (f : LcxlFilter) (fr : Frame) (amb : Ambient) : List ConnEvent :=
  (routeEvents cfg f fr amb).filter (!·.isClosed)

/-- And what after. -/
def closes (cfg : LcxlSetting) (f : LcxlFilter) (fr : Frame) (amb : Ambient) : List ConnEvent :=
  (routeEvents cfg f fr amb).filter (·.isClosed)

variable (cfg amb) in
theorem opens_eq (hv : vipPacket f fr = some pkt) : opens cfg f fr amb =
    ((lookup cfg f pkt amb.now).1.freed.drop f.routeTable.freed.length).map (.purged ·.key)
      ++ (synServer f (lookup cfg f pkt amb.now).2.1 pkt).toList.map
        (fun p => .selected pkt.key p ((lookup cfg f pkt amb.now).2.1.mem p)) := by
  rw [opens, routeEvents_vip cfg amb hv]
  simp only [List.filter_append, List.filter_map, Function.comp_def, ConnEvent.isClosed,
    Bool.not_false, Bool.not_true, List.filter_true, List.filter_false, List.map_nil,
    List.append_nil]

variable (cfg amb) in
theorem routeEvents_eq (hv : vipPacket f fr = some pkt) :
    routeEvents cfg f fr amb = opens cfg f fr amb ++ closes cfg f fr amb := by
  rw [opens_eq cfg amb hv, closes, routeEvents_vip cfg amb hv]
  simp only [List.filter_append, List.filter_map, Function.comp_def, ConnEvent.isClosed,
    List.filter_true, List.filter_false, List.map_nil, List.nil_append]

variable (cfg amb) in
/-- The route list while the packet is sent on. -/
theorem serverOf_routed (h : f.routeTable.Rest) (hv : vipPacket f fr = some pkt) :
    serverOf (routeTCPNBL cfg f pkt amb.now amb.later).1.routeTable.list
      = (opens cfg f fr amb).foldl (LastWrite.apply ConnEvent.write)
        (serverOf f.routeTable.list) := by
  obtain ⟨gone, hw, hfreed, hnext, -⟩ := lookup_walk cfg f pkt amb.now
  obtain ⟨-, hmap, -, -⟩ := (lookup_rest h hw hnext).packet
    (synServer f (lookup cfg f pkt amb.now).2.1 pkt) amb.later hw.stop.1 hw.stop.2 synServer_syn
  have htable := (Prod.ext_iff.1 (routeTCPNBL_table cfg f pkt amb.now amb.later)).1
  have hpurged : (gone.map fun r => ConnEvent.purged r.key).foldl (LastWrite.apply ConnEvent.write)
      (serverOf f.routeTable.list) = serverOf (lookup cfg f pkt amb.now).1.list := by
    funext k
    rw [LastWrite.foldl_apply_clear (by simp [ConnEvent.write]), List.map_map,
      hw.serverOf_kept h.keys k]
    rfl
  simp only at htable
  rw [htable, hmap, opens_eq cfg amb hv, hfreed, List.drop_left, List.foldl_append, hpurged]
  rcases synServer f (lookup cfg f pkt amb.now).2.1 pkt with _ | s <;> rfl

/-- What is sent on of a packet goes to the server that its connection has then. -/
theorem forwarded_owner (h : f.routeTable.Rest) (hv : vipPacket f fr = some pkt)
    (hf : forwarded cfg f fr amb = some (key, fr')) : key = pkt.key ∧
      ∃ p, (opens cfg f fr amb).foldl (LastWrite.apply ConnEvent.write)
          (serverOf f.routeTable.list) key = some p
        ∧ fr' = fr.routedTo (f.module.serverList.mem p).info.macAddr.mac amb.heap := by
  have hbusy := routeTCPNBL_busy h cfg pkt amb.now amb.later
  unfold forwarded at hf
  rw [hv] at hf
  rcases hq : (routeTCPNBL cfg f pkt amb.now amb.later).2 with _ | q
  · rw [receiveFrame_vip_router hv, hq] at hf
    cases hf
  rw [hq] at hbusy
  obtain ⟨r, hr, hrq, hk⟩ := hbusy.entry q rfl
  obtain ⟨p, hp⟩ := hbusy.served r hr
  have hto := forwardedTo_of_route hv hq hbusy.toOk hr hrq hp
  rw [hto.sent] at hf
  obtain ⟨rfl, rfl⟩ := Prod.mk.inj (Option.some.inj hf)
  refine ⟨rfl, p, ?_, rfl⟩
  rw [← serverOf_routed cfg amb h hv, ← hk, serverOf_of_mem hbusy.keys hr, hp]

variable (cfg amb) in
/-- A server that is selected has the address it had before. -/
theorem machine_eq (hv : vipPacket f fr = some pkt) : ∀ e ∈ routeEvents cfg f fr amb,
    e.machine = (e.write.1,
      e.write.2.map fun p => (f.module.serverList.mem p).info.macAddr.mac) := by
  obtain ⟨gone, -, -, -, ht⟩ := lookup_walk cfg f pkt amb.now
  have hrefs : RefOnly f.module.serverList (lookup cfg f pkt amb.now).2.1 :=
    ht ▸ RefOnly.dropServers gone _
  intro e he
  rw [routeEvents_vip cfg amb hv] at he
  simp only [List.mem_append, List.mem_map] at he
  rcases he with (⟨r, -, rfl⟩ | ⟨p, -, rfl⟩) | ⟨r, -, rfl⟩
  · rfl
  · simp only [ConnEvent.machine, ConnEvent.write, Option.map_some, hrefs.info]
  · rfl

/-- The acts of events are changes, one after the other. -/
theorem run_acts (es : List ConnEvent) (s : Dispatcher.State ConnKey (List UInt8) (List UInt8)) :
    Sys.Run Dispatcher.Step s (es.map (·.act))
      { s with owner := es.foldl (LastWrite.apply ConnEvent.machine) s.owner } := by
  have h := Dispatcher.run_changes (es.map ConnEvent.machine) s
  rw [List.map_map, List.foldl_map] at h
  exact h

/-- What is sent on is sent to the connection's owner. -/
theorem run_forwarded (h : f.routeTable.Rest) (hv : vipPacket f fr = some pkt)
    (s : Dispatcher.State ConnKey (List UInt8) (List UInt8))
    (hs : s.owner = fun k => ((opens cfg f fr amb).foldl (LastWrite.apply ConnEvent.write)
      (serverOf f.routeTable.list) k).map fun p => (f.module.serverList.mem p).info.macAddr.mac) :
    Sys.Run Dispatcher.Step s
      ((forwarded cfg f fr amb).toList.map fun x => .forward x.1 x.2.payload)
      { s with wire := ((forwarded cfg f fr amb).map (·.2.addressed)).toList + s.wire } := by
  rcases hf : forwarded cfg f fr amb with _ | ⟨key, fr'⟩
  · have hwire : { s with wire := 0 + s.wire } = s := by rw [zero_add]
    simp only [Option.toList_none, List.map_nil, Option.map_none, Multiset.coe_nil]
    rw [hwire]
    exact .nil
  · obtain ⟨-, p, hp, rfl⟩ := forwarded_owner h hv hf
    have hdest : (fr.routedTo (f.module.serverList.mem p).info.macAddr.mac amb.heap).destination
        = (f.module.serverList.mem p).info.macAddr.mac := Frame.routedTo_destination (length_mac _)
    have howner : s.owner key = some (f.module.serverList.mem p).info.macAddr.mac := by
      simp only [hs, hp, Option.map_some]
    simp only [Option.toList_some, List.map_cons, List.map_nil, Option.map_some,
      Multiset.coe_singleton, Multiset.singleton_add, Frame.addressed, hdest]
    exact Sys.Run.nil.snoc (.forward _ howner)

variable (cfg amb) in
/-- The acts of a packet. -/
theorem run_receiveActs (h : f.routeTable.Rest) (hv : vipPacket f fr = some pkt)
    (s : Dispatcher.State ConnKey (List UInt8) (List UInt8)) (hs : s.owner = f.owner) :
    Sys.Run Dispatcher.Step s (receiveActs cfg f fr amb)
      { s with
        owner := (receiveFrame cfg f fr amb).1.owner
        wire := ((forwarded cfg f fr amb).map (·.2.addressed)).toList + s.wire } := by
  have hevents := routeEvents_eq cfg amb hv
  have hmachine := machine_eq cfg amb hv
  rw [hevents] at hmachine
  obtain ⟨-, hafter, -⟩ := receive_vip cfg amb h hv
  have hrefs : RefOnly f.module.serverList (receiveFrame cfg f fr amb).1.module.serverList :=
    receiveFrame_vip hv ▸ (routePacket_routesOnly cfg f pkt amb).servers
  have hopen : (opens cfg f fr amb).foldl (LastWrite.apply ConnEvent.machine) s.owner = fun k =>
      ((opens cfg f fr amb).foldl (LastWrite.apply ConnEvent.write)
        (serverOf f.routeTable.list) k).map fun p =>
          (f.module.serverList.mem p).info.macAddr.mac := by
    rw [LastWrite.map_foldl_apply fun e he => hmachine e (List.mem_append_left _ he), hs]
    rfl
  have hclose : (closes cfg f fr amb).foldl (LastWrite.apply ConnEvent.machine)
      ((opens cfg f fr amb).foldl (LastWrite.apply ConnEvent.machine) s.owner)
        = (receiveFrame cfg f fr amb).1.owner := by
    rw [hopen, ← LastWrite.map_foldl_apply fun e he => hmachine e (List.mem_append_right _ he),
      ← List.foldl_append, ← hevents, ← hafter]
    funext k
    simp only [LcxlFilter.owner, hrefs.info]
  have hrun := ((run_acts (opens cfg f fr amb) s).append
    (run_forwarded h hv _ hopen)).append (run_acts (closes cfg f fr amb) _)
  simp only [hclose] at hrun
  exact hrun

end Packet

/-! ## What a machine does with what it is sent -/

namespace Frame

variable {cfg : LcxlSetting} {f : LcxlFilter} {fr fr' : Frame} {amb : Ambient} {pkt : TcpPacket}
  {mac : List UInt8} {heap : ℕ → UInt8}

/-- The frame has a TCP packet of either family. -/
def IsTcp (fr : Frame) : Prop :=
  ∃ ty data len m protocol size, (getEthernetData fr.dataLength).val fr.byte = some (ty, data, len)
    ∧ ipModeOf ty = some (m, protocol, size) ∧ size ≤ len ∧ fr.byte (data + protocol) = 0x06

theorem isTcp_of_vip (hv : vipPacket f fr = some pkt) : fr.IsTcp := by
  obtain ⟨ty, data, len, m, protocol, size, hd, hm, ⟨-, hl, -, hp, -⟩, -⟩ := vipPacket_eq_some.1 hv
  exact ⟨ty, data, len, m, protocol, size, hd, hm, hl, hp⟩

/-- The type and data of a frame are read behind the MAC addresses. -/
theorem getEthernetData_congr {n : ℕ} {mem mem' : ℕ → UInt8}
    (h : ∀ i, 12 ≤ i → i < n → mem' i = mem i) :
    (getEthernetData n).val mem' = (getEthernetData n).val mem := by
  have hread : ∀ off, 12 ≤ off → off + 2 ≤ n → (readU16 off).val mem' = (readU16 off).val mem := by
    intro off hoff hn
    show u16OfBytes (mem' off) (mem' (off + 1)) = u16OfBytes (mem off) (mem (off + 1))
    rw [h off hoff (by omega), h (off + 1) (by omega) (by omega)]
  unfold getEthernetData sizeofEthernetHeader
  by_cases hn : n < 14
  · rw [if_pos hn]
    rfl
  rw [if_neg hn, ReadLog.val_bind, ReadLog.val_bind, hread 12 le_rfl (by omega)]
  simp only [ReadLog.val_ite, ReadLog.val_bind, ReadLog.val_pure]
  split_ifs
  · rw [hread 16 (by omega) (by omega)]
  · rfl
  · rfl

theorem IsTcp.routedTo (h : fr.IsTcp) (hmac : mac.length = 6) : (fr.routedTo mac heap).IsTcp := by
  obtain ⟨ty, data, len, m, protocol, size, hd, hm, hl, hp⟩ := h
  obtain ⟨hdata, hlen⟩ := getEthernetData_eq_some hd
  refine ⟨ty, data, len, m, protocol, size, ?_, hm, hl, ?_⟩
  · rw [← hd]
    exact getEthernetData_congr fun i hi hlt => routedTo_byte hmac hi hlt
  · have hin : data + protocol < fr.dataLength := by
      rcases ipModeOf_eq_some.1 hm with ⟨-, -, rfl, rfl⟩ | ⟨-, -, rfl, rfl⟩ <;>
        simp only [sizeofIpv4Header, sizeofIpv6Header] at hl <;> omega
    rw [routedTo_byte hmac (by omega) hin, hp]

/-- A TCP packet sent to a machine that does not route is passed. -/
theorem IsTcp.processed (h : fr.IsTcp) (hr : f.module.lcxlRole ≠ roleRouter)
    (hmac : fr.destination = f.module.macAddr.mac) :
    (fr.processed cfg f true amb).1 = f ∧ (fr.processed cfg f true amb).2.code = .pass := by
  obtain ⟨ty, data, len, m, protocol, size, hd, hm, hl, hp⟩ := h
  have hcheck : (checkTCPNBLMacAddr f.module.macAddr true).val fr.byte :=
    checkTCPNBLMacAddr_recv.2 (.inl hmac)
  have hframe : ∀ m : IpMode,
      ((processTCPFrame cfg f true data m f.module.virtualAddr amb .zero).val fr.byte).1 = f ∧
        ((processTCPFrame cfg f true data m f.module.virtualAddr amb .zero).val fr.byte).2.code
          = .pass := by
    intro m
    refine ⟨(processTCPFrame_kept fun hk => hr hk.1).1, ?_⟩
    rw [processTCPFrame_code hr, if_pos hcheck, if_neg fun hs => hs.2.1 rfl]
  rcases ipModeOf_eq_some.1 hm with ⟨rfl, rfl, rfl, rfl⟩ | ⟨rfl, rfl, rfl, rfl⟩
  · rw [processed_of_ipv4 hd, if_pos hp]
    split_ifs
    · exact hframe .ipv4
    · exact ⟨rfl, rfl⟩
  · have hicmp : fr.byte (data + 6) ≠ 0x3A := by
      rw [hp]
      decide
    rw [processed_of_ipv6 hd, if_neg hicmp, if_pos hp]
    split_ifs
    · exact hframe .ipv6
    · exact ⟨rfl, rfl⟩

theorem receiveFrame_of_pass (h : (fr.processed cfg f true amb).2.code = .pass) :
    receiveFrame cfg f fr amb = ((fr.processed cfg f true amb).1, .pass, none) := by
  unfold Frame.processed at h ⊢
  unfold receiveFrame
  generalize (processNBL cfg f true fr.dataLength amb).val fr.byte = r at h
  obtain ⟨f', code, route, modifyip⟩ := r
  obtain rfl : code = .pass := h
  rfl

/-- A machine that does not route hands up each TCP packet that is sent to it. -/
theorem IsTcp.receiveFrame (h : fr.IsTcp) (hr : f.module.lcxlRole ≠ roleRouter)
    (hmac : fr.destination = f.module.macAddr.mac) :
    receiveFrame cfg f fr amb = (f, .pass, none) := by
  obtain ⟨hf, hcode⟩ : (fr.processed cfg f true amb).1 = f
      ∧ (fr.processed cfg f true amb).2.code = .pass := h.processed hr hmac
  rw [receiveFrame_of_pass hcode, hf]

end Frame

/-! ## The refinement -/

/-- The route list is at rest, and its servers and those listed have been added. -/
structure LcxlFilter.RoutesKnown (f : LcxlFilter) : Prop where
  rest : f.routeTable.Rest
  known : ∀ p ∈ f.module.serverList.known, p < f.module.serverList.next
  owned : ∀ k p, serverOf f.routeTable.list k = some p → p < f.module.serverList.next

namespace LcxlFilter.RoutesKnown

variable {cfg : LcxlSetting} {f f' : LcxlFilter} {fr : Frame} {amb : Ambient} {pkt : TcpPacket}

theorem known_of_grows (h : f.RoutesKnown)
    (hg : f.module.serverList.Grows f'.module.serverList) :
    ∀ p ∈ f'.module.serverList.known, p < f'.module.serverList.next := by
  intro p hp
  rcases hg.known p hp with hp | ⟨-, hlt⟩
  · exact (h.known p hp).trans_le hg.next
  · exact hlt

/-- Where the routes stay, the connections go where they went. -/
theorem of_grows (h : f.RoutesKnown) (hr : f'.routeTable = f.routeTable)
    (hg : f.module.serverList.Grows f'.module.serverList) :
    f'.RoutesKnown ∧ f'.owner = f.owner := by
  refine ⟨⟨hr ▸ h.rest, h.known_of_grows hg, fun k p hk => ?_⟩, ?_⟩
  · rw [hr] at hk
    exact (h.owned k p hk).trans_le hg.next
  · funext k
    unfold LcxlFilter.owner
    rw [hr]
    rcases hk : serverOf f.routeTable.list k with _ | p
    · rfl
    · exact congrArg some (hg.mac p (h.owned k p hk))

theorem receive (h : f.RoutesKnown) (hv : vipPacket f fr = some pkt) :
    (receiveFrame cfg f fr amb).1.RoutesKnown := by
  obtain ⟨hrest, hafter, -⟩ := receive_vip cfg amb h.rest hv
  have hg := receiveFrame_grows cfg f fr amb
  refine ⟨hrest, h.known_of_grows hg, fun k p hk => lt_of_lt_of_le ?_ hg.next⟩
  rw [hafter] at hk
  rcases LastWrite.foldl_apply_eq_some hk with hk | ⟨e, he, hw⟩
  · exact h.owned k p hk
  · rw [routeEvents_vip cfg amb hv] at he
    simp only [List.mem_append, List.mem_map, Option.mem_toList] at he
    rcases he with (⟨r, -, rfl⟩ | ⟨q, hq, rfl⟩) | ⟨r, -, rfl⟩
    · cases hw
    · obtain rfl := Option.some.inj (Prod.mk.inj hw).2
      unfold synServer at hq
      split_ifs at hq
      have hlinked := (selectBestServer_spec (lookup cfg f pkt amb.now).2.1 pkt.ipMode pkt.dstAddr
        f.module.routingAlgorithm f.routingAlgorithmData).linked q hq
      have hknown := (lookup_shrinks cfg f pkt amb.now).known
      exact h.known q (hknown.subset (List.mem_append_left _ hlinked))
    · cases hw

end LcxlFilter.RoutesKnown

namespace Cluster

variable {ι : Type*} [DecidableEq ι] {cfg : LcxlSetting} {c c' : Cluster ι} {e : ClusterEvent ι}

/-- The dispatcher that the cluster is. -/
def dispatch (c : Cluster ι) : Dispatcher.State ConnKey (List UInt8) (List UInt8) where
  owner := c.router.owner
  wire := c.flight.map Frame.addressed
  arrived := c.stack.map fun x => x.2.addressed

/-- What every step keeps: between the modules there are TCP packets, for machines that do not
route. -/
structure Inv (c : Cluster ι) : Prop where
  router : c.router.RoutesKnown
  flight : ∀ fr ∈ c.flight, fr.IsTcp
  machine : ∀ i, (c.machine i).module.lcxlRole ≠ roleRouter
  stack : ∀ x ∈ c.stack, x.2.destination = (c.machine x.1).module.macAddr.mac

/-- The step is some acts of the dispatcher. -/
def Acts (c c' : Cluster ι) : Prop :=
  ∃ acts, c'.log = c.log ++ acts ∧ Sys.Run Dispatcher.Step c.dispatch acts c'.dispatch

omit [DecidableEq ι] in
/-- What a step of the router's that leaves the routes alone does to the dispatcher. -/
theorem Inv.of_grows (h : c.Inv) {f : LcxlFilter} (hr : f.routeTable = c.router.routeTable)
    (hg : c.router.module.serverList.Grows f.module.serverList) :
    Inv { c with router := f } ∧ c.Acts { c with router := f } := by
  obtain ⟨hknown, howner⟩ := h.router.of_grows hr hg
  refine ⟨⟨hknown, h.flight, h.machine, h.stack⟩, [], (List.append_nil _).symm, ?_⟩
  unfold dispatch
  rw [howner]
  exact .nil

omit [DecidableEq ι] in
theorem Inv.receive (h : c.Inv) (fr : Frame) (amb : Ambient) {c' : Cluster ι} (hc : c' = { c with
      router := (receiveFrame cfg c.router fr amb).1
      flight := ((forwarded cfg c.router fr amb).map (·.2)).toList ++ c.flight
      log := c.log ++ receiveActs cfg c.router fr amb }) : c'.Inv ∧ c.Acts c' := by
  subst hc
  rcases hv : vipPacket c.router fr with _ | pkt
  · obtain ⟨hroutes, hevents⟩ := receive_not_vip cfg amb hv
    have hforward : forwarded cfg c.router fr amb = none := by
      unfold forwarded
      rw [hv]
    have hacts : receiveActs cfg c.router fr amb = [] := by
      unfold receiveActs
      rw [hevents, hforward]
      rfl
    rw [hforward, hacts, List.append_nil]
    exact h.of_grows hroutes (receiveFrame_grows cfg c.router fr amb)
  · refine ⟨⟨h.router.receive hv, fun x hx => ?_, h.machine, h.stack⟩, _, rfl, ?_⟩
    · rcases List.mem_append.1 hx with hx | hx
      · obtain ⟨⟨key, fr'⟩, hf, rfl⟩ := Option.map_eq_some_iff.1 (Option.mem_toList.1 hx)
        obtain ⟨-, p, -, rfl⟩ := forwarded_owner h.router.rest hv hf
        exact (Frame.isTcp_of_vip hv).routedTo (length_mac _)
      · exact h.flight x hx
    · have hrun := run_receiveActs cfg amb h.router.rest hv c.dispatch rfl
      convert hrun using 1
      unfold dispatch
      simp only
      rw [List.map_append, ← Multiset.coe_add]
      rcases forwarded cfg c.router fr amb with _ | x <;> rfl

theorem Inv.deliver (h : c.Inv) {i : ι} {fr : Frame} {rest : List Frame} (amb : Ambient)
    (hf : c.flight.Perm (fr :: rest)) (hd : fr.destination = (c.machine i).module.macAddr.mac) :
    c.exec cfg (.deliver i fr amb rest) =
      if (c.machine i).state = .running then { c with
        flight := rest
        stack := c.stack ++ [(i, fr)]
        log := c.log ++ [.arrive fr.destination fr.payload] }
      else { c with flight := rest, log := c.log ++ [.lose fr.destination fr.payload] } := by
  have htcp : fr.IsTcp := h.flight fr (hf.mem_iff.2 List.mem_cons_self)
  have hreceive : receiveFrame cfg (c.machine i) fr amb = (c.machine i, .pass, none) :=
    htcp.receiveFrame (h.machine i) hd
  simp only [exec, hreceive, passesUp, and_true, ite_self, Function.update_eq_self]

omit [DecidableEq ι] in
theorem wire_of_perm {fr : Frame} {rest : List Frame} (hf : c.flight.Perm (fr :: rest)) :
    c.dispatch.wire = fr.addressed ::ₘ (rest.map Frame.addressed : List _) :=
  Multiset.coe_eq_coe.2 (hf.map Frame.addressed)

/-- Each step keeps the invariant, and is acts of the dispatcher. -/
theorem Inv.step (h : c.Inv) (hs : Step cfg c e c') : c'.Inv ∧ c.Acts c' := by
  obtain ⟨ha, rfl⟩ := hs
  have hsub : ∀ {fr rest}, c.flight.Perm (fr :: rest) → ∀ x ∈ rest, x.IsTcp := fun hf x hx =>
    h.flight x (hf.mem_iff.2 (List.mem_cons_of_mem _ hx))
  cases e with
  | router e =>
    cases e with
    | recv fr amb =>
      simp only [exec]
      split_ifs
      · exact h.receive fr amb rfl
      · exact ⟨h, [], (List.append_nil _).symm, .nil⟩
    | tick now => exact h.of_grows (workerTick_routeTable now) (workerTick_grows cfg _ now)
    | addServer past now server => exact h.of_grows rfl (routerAddServer_grows _ ha)
    | delServer past macAddr => exact h.of_grows rfl (routerDelServer_grows past _ macAddr)
    | other f => exact h.of_grows ha.1 (ha.2 ▸ (ServerTable.Shrinks.refl _).grows)
  | deliver i fr amb rest =>
    rw [h.deliver amb ha.1 ha.2]
    split_ifs
    · refine ⟨⟨h.router, hsub ha.1, h.machine, fun x hx => ?_⟩, _, rfl, ?_⟩
      · rcases List.mem_append.1 hx with hx | hx
        · exact h.stack x hx
        · rw [List.mem_singleton.1 hx]
          exact ha.2
      · have hstep := Dispatcher.Step.arrive (wire_of_perm ha.1)
        unfold dispatch
        rw [List.map_append]
        exact Sys.Run.nil.snoc hstep
    · exact ⟨⟨h.router, hsub ha.1, h.machine, h.stack⟩, _, rfl,
        Sys.Run.nil.snoc (.lose (wire_of_perm ha.1))⟩
  | double fr =>
    refine ⟨⟨h.router, fun x hx => ?_, h.machine, h.stack⟩, _, rfl, ?_⟩
    · rcases List.mem_cons.1 hx with rfl | hx
      · exact h.flight x ha
      · exact h.flight x hx
    · have hm : fr.addressed ∈ c.dispatch.wire := Multiset.mem_coe.2 (List.mem_map_of_mem ha)
      exact Sys.Run.nil.snoc (.double hm)
  | lose fr rest =>
    exact ⟨⟨h.router, hsub ha, h.machine, h.stack⟩, _, rfl,
      Sys.Run.nil.snoc (.lose (wire_of_perm ha))⟩
  | other i f =>
    refine ⟨⟨h.router, h.flight, fun j => ?_, fun x hx => (h.stack x hx).trans ?_⟩, [],
      (List.append_nil _).symm, .nil⟩
    · simp only [exec]
      rw [Function.update_apply]
      split_ifs
      · exact ha.2
      · exact h.machine j
    · simp only [exec]
      rw [Function.update_apply]
      split_ifs with hx
      · rw [ha.1, hx]
      · rfl

omit [DecidableEq ι] in
theorem Inv.start (f : LcxlFilter) {machine : ι → LcxlFilter}
    (hm : ∀ i, (machine i).module.lcxlRole ≠ roleRouter) : (start f machine).Inv := by
  refine ⟨⟨⟨⟨?_, ?_, ?_, ?_⟩, ?_⟩, ?_, ?_⟩, ?_, hm, ?_⟩ <;>
    simp [Cluster.start, LcxlFilter.setRouting, LcxlFilter.setServers, initLcxlList,
      ServerTable.known, serverOf]

section Runs

variable {f : LcxlFilter} {machine : ι → LcxlFilter} {tr : List (ClusterEvent ι)}

theorem inv_of_run (hm : ∀ i, (machine i).module.lcxlRole ≠ roleRouter)
    (h : Sys.Run (Step cfg) (start f machine) tr c) :
    c.Inv ∧ Sys.Run Dispatcher.Step Dispatcher.start c.log c.dispatch := by
  refine h.preserves (I := fun c => c.Inv ∧ Sys.Run Dispatcher.Step Dispatcher.start c.log
    c.dispatch) ?_ ⟨.start f hm, .nil⟩
  rintro c₁ e c₂ ⟨hinv, hrun⟩ hs
  obtain ⟨hinv', acts, hlog, hacts⟩ := hinv.step hs
  exact ⟨hinv', hlog ▸ hrun.append hacts⟩

/-- The frame is one that the router has received, sent on to some server. -/
def SentOn (tr : List (ClusterEvent ι)) (fr : Frame) : Prop :=
  ∃ fr₀ amb mac, .router (.recv fr₀ amb) ∈ tr ∧ mac.length = 6 ∧ fr = fr₀.routedTo mac amb.heap

theorem sentOn_of_run (hm : ∀ i, (machine i).module.lcxlRole ≠ roleRouter)
    (h : Sys.Run (Step cfg) (start f machine) tr c) :
    (∀ fr ∈ c.flight, SentOn tr fr) ∧ ∀ x ∈ c.stack, SentOn tr x.2 := by
  refine h.induct (I := fun tr c => (∀ fr ∈ c.flight, SentOn tr fr) ∧ ∀ x ∈ c.stack, SentOn tr x.2)
    ⟨fun _ hx => absurd hx List.not_mem_nil, fun _ hx => absurd hx List.not_mem_nil⟩ ?_
  rintro tr c₁ e c₂ hrun ⟨hflight, hstack⟩ ⟨ha, rfl⟩
  have hinv := (inv_of_run hm hrun).1
  have hmono : ∀ {fr}, SentOn tr fr → SentOn (tr ++ [e]) fr := by
    rintro _ ⟨fr₀, amb, mac, hmem, hmac⟩
    exact ⟨fr₀, amb, mac, List.mem_append_left _ hmem, hmac⟩
  have hrest : ∀ {fr rest}, c₁.flight.Perm (fr :: rest) → ∀ x ∈ rest, SentOn (tr ++ [e]) x :=
    fun hf x hx => hmono (hflight x (hf.mem_iff.2 (List.mem_cons_of_mem _ hx)))
  have hstack' : ∀ x ∈ c₁.stack, SentOn (tr ++ [e]) x.2 := fun x hx => hmono (hstack x hx)
  have hflight' : ∀ fr ∈ c₁.flight, SentOn (tr ++ [e]) fr := fun x hx => hmono (hflight x hx)
  cases e with
  | router e =>
    cases e with
    | recv fr amb =>
      simp only [exec]
      split_ifs
      · refine ⟨fun x hx => ?_, hstack'⟩
        rcases List.mem_append.1 hx with hx | hx
        · obtain ⟨⟨key, fr'⟩, hf, rfl⟩ := Option.map_eq_some_iff.1 (Option.mem_toList.1 hx)
          rcases hv : vipPacket c₁.router fr with _ | pkt
          · rw [forwarded, hv] at hf
            cases hf
          · obtain ⟨-, p, -, rfl⟩ := forwarded_owner hinv.router.rest hv hf
            exact ⟨fr, amb, _, List.mem_append_right _ List.mem_cons_self, length_mac _, rfl⟩
        · exact hflight' x hx
      · exact ⟨hflight', hstack'⟩
    | _ => exact ⟨hflight', hstack'⟩
  | deliver i fr amb rest =>
    rw [hinv.deliver amb ha.1 ha.2]
    split_ifs
    · refine ⟨hrest ha.1, fun x hx => ?_⟩
      rcases List.mem_append.1 hx with hx | hx
      · exact hstack' x hx
      · rw [List.mem_singleton.1 hx]
        exact hflight' fr (ha.1.mem_iff.2 List.mem_cons_self)
    · exact ⟨hrest ha.1, hstack'⟩
  | double fr =>
    refine ⟨fun x hx => ?_, hstack'⟩
    rcases List.mem_cons.1 hx with rfl | hx
    · exact hflight' x ha
    · exact hflight' x hx
  | lose fr rest => exact ⟨hrest ha, hstack'⟩
  | other i f => exact ⟨hflight', hstack'⟩

/-- Over any run the cluster is a dispatcher, whose owners are the machines the route list has;
there are as many frames on their way as were sent on and doubled and have not been lost or arrived;
and a running machine hands up each frame that reaches it. -/
theorem dispatches (cfg : LcxlSetting) (f : LcxlFilter) (machine : ι → LcxlFilter)
    (hm : ∀ i, (machine i).module.lcxlRole ≠ roleRouter) {tr : List (ClusterEvent ι)}
    (h : Sys.Run (Step cfg) (start f machine) tr c) :
    Sys.Run Dispatcher.Step Dispatcher.start c.log c.dispatch ∧
      c.log.countP Dispatcher.Act.puts = c.flight.length + c.log.countP Dispatcher.Act.takes ∧
      ∀ i fr amb rest, c.Proper (.deliver i fr amb rest) → (c.machine i).state = .running →
        (c.exec cfg (.deliver i fr amb rest)).stack = c.stack ++ [(i, fr)] := by
  obtain ⟨hinv, hrun⟩ := inv_of_run hm h
  refine ⟨hrun, ?_, fun i fr amb rest hp hs => ?_⟩
  · have hbalance := (Dispatcher.inv_of_run hrun).balance
    rwa [dispatch, Multiset.coe_card, List.length_map] at hbalance
  · rw [hinv.deliver amb hp.1 hp.2, if_pos hs]

/-- What a machine's stack is handed is a frame that the router has received, with the machine's
address, of a connection that went to the machine when it was sent on; and what is sent on of a
connection, while that goes where it did, goes to one machine. -/
theorem stack_owned (cfg : LcxlSetting) (f : LcxlFilter) (machine : ι → LcxlFilter)
    (hm : ∀ i, (machine i).module.lcxlRole ≠ roleRouter) {tr : List (ClusterEvent ι)}
    (h : Sys.Run (Step cfg) (start f machine) tr c) :
    (∀ i fr, (i, fr) ∈ c.stack →
      (∃ fr₀ amb, .router (.recv fr₀ amb) ∈ tr ∧
        fr = fr₀.routedTo (c.machine i).module.macAddr.mac amb.heap) ∧
      Dispatcher.Forwarded c.log (c.machine i).module.macAddr.mac fr.payload) ∧
    ∀ l₁ l₂ l₃ key p q, c.log = l₁ ++ .forward key p :: l₂ ++ .forward key q :: l₃ →
      (∀ a ∈ l₂, ∀ o, a.changed ≠ some (key, o)) → ∃ mac,
        Dispatcher.owners l₁ key = some mac ∧
          Dispatcher.owners (l₁ ++ .forward key p :: l₂) key = some mac := by
  obtain ⟨hinv, hrun⟩ := inv_of_run hm h
  refine ⟨fun i fr hx => ?_, fun l₁ l₂ l₃ key p q hlog hn => ?_⟩
  · have hdest := hinv.stack _ hx
    have harrived : fr.addressed ∈ c.dispatch.arrived := List.mem_map_of_mem hx
    refine ⟨?_, hdest ▸ Dispatcher.forwarded_of_arrived hrun harrived⟩
    obtain ⟨fr₀, amb, mac, hmem, hmac, rfl⟩ := (sentOn_of_run hm h).2 _ hx
    have hto : (fr₀.routedTo mac amb.heap).destination = mac := Frame.routedTo_destination hmac
    exact ⟨fr₀, amb, hmem, by rw [← hdest, hto]⟩
  · exact Dispatcher.same_owner (hlog ▸ hrun) hn

/-- The machine of the server's address. -/
def serverMachine : LcxlFilter := { Sample.router with
  module := { Sample.router.module with lcxlRole := roleServer, macAddr := Sample.serverMac } }

/-- A server is added, and a packet opens a connection to it. -/
def handshake : List (ClusterEvent Unit) :=
  [.router Sample.addServer, .router (.recv (Sample.tcpFrame thSyn) (Sample.ambient 1))]

def shaken : Cluster Unit :=
  handshake.foldl (exec Sample.setting) (start Sample.router fun _ => serverMachine)

/-- The packet sent on. -/
def opener : Frame := shaken.flight.headD (Sample.tcpFrame thSyn)

theorem shaken_flight : shaken.flight = [opener] := by
  obtain ⟨fr, hfr⟩ := List.length_eq_one_iff.1 (by decide +kernel : shaken.flight.length = 1)
  rw [opener, hfr]
  rfl

def handedUp : Cluster Unit :=
  shaken.exec Sample.setting (.deliver () opener (Sample.ambient 2) [])

theorem handedUp_run : Sys.Run (Step Sample.setting) (start Sample.router fun _ => serverMachine)
    (handshake ++ [.deliver () opener (Sample.ambient 2) []]) handedUp :=
  ((Sys.Run.nil.snoc ⟨rfl, rfl⟩).snoc ⟨trivial, rfl⟩).snoc
    ⟨⟨shaken_flight ▸ .refl _, by decide +kernel⟩, rfl⟩

theorem serverMachine_role : ∀ _ : Unit, serverMachine.module.lcxlRole ≠ roleRouter :=
  fun _ => by decide

theorem dispatches_handedUp :
    Sys.Run Dispatcher.Step Dispatcher.start handedUp.log handedUp.dispatch ∧
      handedUp.log.countP Dispatcher.Act.puts
        = handedUp.flight.length + handedUp.log.countP Dispatcher.Act.takes ∧
      ∀ i fr amb rest, handedUp.Proper (.deliver i fr amb rest) →
        (handedUp.machine i).state = .running →
        (handedUp.exec Sample.setting (.deliver i fr amb rest)).stack
          = handedUp.stack ++ [(i, fr)] :=
  dispatches Sample.setting Sample.router (fun _ => serverMachine) serverMachine_role handedUp_run

theorem stack_owned_handedUp : handedUp.stack.length = 1 ∧
    (∀ i fr, (i, fr) ∈ handedUp.stack →
      (∃ fr₀ amb,
        .router (.recv fr₀ amb) ∈ handshake ++ [.deliver () opener (Sample.ambient 2) []] ∧
        fr = fr₀.routedTo (handedUp.machine i).module.macAddr.mac amb.heap) ∧
      Dispatcher.Forwarded handedUp.log (handedUp.machine i).module.macAddr.mac fr.payload) ∧
    ∀ l₁ l₂ l₃ key p q, handedUp.log = l₁ ++ .forward key p :: l₂ ++ .forward key q :: l₃ →
      (∀ a ∈ l₂, ∀ o, a.changed ≠ some (key, o)) → ∃ mac,
        Dispatcher.owners l₁ key = some mac ∧
          Dispatcher.owners (l₁ ++ .forward key p :: l₂) key = some mac :=
  ⟨by decide +kernel, stack_owned Sample.setting Sample.router (fun _ => serverMachine)
    serverMachine_role handedUp_run⟩

end Runs

end Cluster

end LcxlNetLoader
