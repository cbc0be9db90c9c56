import LcxlNetLoader.Proofs.Accounting
import LcxlNetLoader.Proofs.References

/-!
# One packet's references balance

The routes in front of the connection's own are purged or stay, its own is changed in place or
closed, and the routes behind are not looked at (`RouteSplit`). So the counts and the routes to
each server change by the packet's effect alike.
-/

namespace LcxlNetLoader

section After

variable (r : LcxlRouteListEntry) (pkt : TcpPacket) (server : Option ServerPtr) (now later : ℤ)

@[simp] theorem after_self : (r.after pkt server now later).self = r.self := by
  cases server <;> rfl

theorem after_dstServer :
    (r.after pkt server now later).dstServer = (server <|> r.dstServer) := by
  cases server <;> rfl

end After

namespace RouteTable

variable {rt : RouteTable} {r : LcxlRouteListEntry} {own : Option LcxlRouteListEntry}
  {before behind : List LcxlRouteListEntry} {pkt : TcpPacket} {server : Option ServerPtr}
  {now later : ℤ}

theorem Ok.others (h : rt.Ok) (hl : rt.list = before ++ r :: behind) :
    ∀ x ∈ before ++ behind, x.self ≠ r.self := by
  have hn := h.selfs
  rw [hl, List.map_append, List.map_cons, List.nodup_middle, List.nodup_cons,
    ← List.map_append] at hn
  intro x hx hxr
  exact hn.1 (hxr ▸ List.mem_map_of_mem (f := (·.self)) hx)

theorem Ok.modify_list (h : rt.Ok) (hl : rt.list = before ++ r :: behind)
    (g : LcxlRouteListEntry → LcxlRouteListEntry) :
    (rt.modify r.self g).list = before ++ g r :: behind := by
  have hne := h.others hl
  have hsame : ∀ xs : List LcxlRouteListEntry, (∀ x ∈ xs, x ∈ before ++ behind) →
      (xs.map fun x => if x.self = r.self then g x else x) = xs := fun xs hxs =>
    (List.map_congr_left fun x hx => if_neg (hne x (hxs x hx))).trans (List.map_id _)
  simp only [RouteTable.modify, hl, List.map_append, List.map_cons, if_true]
  rw [hsame before fun x hx => List.mem_append_left _ hx,
    hsame behind fun x hx => List.mem_append_right _ hx]

theorem dropClosed_list (rt : RouteTable) (p : Option RoutePtr) : (rt.dropClosed p).list =
    match (p.bind rt.find).filter (·.status = .closed) with
    | some r => rt.list.eraseP (·.self = r.self)
    | none => rt.list := by
  unfold RouteTable.dropClosed
  rcases p.bind rt.find with _ | r
  · rfl
  · by_cases hc : r.status = .closed
    · simp [Option.filter, hc]
    · simp [Option.filter, hc]

/-- What a packet does to the table after its lookup, which stopped at `p`. -/
theorem Ok.packet {p : Option RoutePtr} (h : rt.Ok)
    (hp : ∀ q ∈ p, ∃ r ∈ rt.list, r.self = q ∧ r.key = pkt.key)
    (hn : p = none → ∀ r ∈ rt.list, r.key ≠ pkt.key) : (rt.packet p pkt server later).1.Ok := by
  unfold RouteTable.packet
  split_ifs
  · rcases server with _ | s
    · exact h
    rcases p with _ | q
    · exact h.create_init (hn rfl) s later
    · obtain ⟨r, hr, rfl, hk⟩ := hp q rfl
      exact h.modify hr rfl hk.symm ⟨s, rfl⟩
  · rcases p with _ | q
    · exact h
    · obtain ⟨r, hr, rfl, -⟩ := hp q rfl
      exact h.modify hr rfl rfl (h.served r hr)

theorem Ok.dropClosed (h : rt.Ok) (p : Option RoutePtr) : (rt.dropClosed p).Ok := by
  unfold RouteTable.dropClosed
  rcases p.bind rt.find with _ | r
  · exact h
  · simp only
    split_ifs
    · exact h.erase r.self _
    · exact h

/-- A route initialised again for its own connection. -/
theorem init_eq_after (hk : r.key = pkt.key) (s : ServerPtr) :
    ({ r with
        recvTimestamp := later
        srcIp := ⟨some pkt.ipMode, pkt.srcAddr⟩
        status := .normal
        dstServer := some s
        dstPort := pkt.thDport
        srcPort := pkt.thSport } : LcxlRouteListEntry) = r.after pkt (some s) now later := by
  obtain ⟨self, status, ⟨ipMode, addr⟩, srcPort, dstPort, dstServer, ts⟩ := r
  simp only [LcxlRouteListEntry.key, TcpPacket.key, ConnKey.mk.injEq] at hk
  obtain ⟨rfl, rfl, rfl, rfl⟩ := hk
  rfl

variable (later) in
/-- A packet whose connection has no route creates one in front if a server is selected. -/
theorem packet_absent (h : rt.Ok) (hs : pkt.thFlags ≠ thSyn → server = none) :
    (rt.packet none pkt server later).1.list =
        (server.map (newRoute rt.next pkt · later)).toList ++ rt.list
      ∧ ((rt.packet none pkt server later).2.bind (rt.packet none pkt server later).1.find).filter
        (·.status = .closed) = none := by
  by_cases hf : pkt.thFlags = thSyn
  · simp only [RouteTable.packet, hf, if_true]
    rcases server with _ | s
    · exact ⟨rfl, rfl⟩
    · refine ⟨?_, ?_⟩
      · simp [create_init_list h, newRoute]
      · simp [RouteTable.find, create_init_list h]
  · simp only [RouteTable.packet, hf, if_false, hs hf]
    exact ⟨rfl, rfl⟩

variable (later) in
/-- A packet whose connection has a route changes it in place, and can close it unless it is to
open a connection. -/
theorem packet_present (h : rt.Ok)
    (hl : rt.list = before ++ { r with recvTimestamp := now } :: behind) (hk : r.key = pkt.key)
    (hs : pkt.thFlags ≠ thSyn → server = none) :
    (rt.packet (some r.self) pkt server later).1.list =
        before ++ r.after pkt server now later :: behind
      ∧ ((rt.packet (some r.self) pkt server later).2.bind
          (rt.packet (some r.self) pkt server later).1.find).filter (·.status = .closed) =
        (if pkt.thFlags = thSyn then none
          else (some r).filter (nextStatus ·.status pkt.thFlags = .closed)).map
            (·.after pkt server now later) := by
  have hset : ∀ g : LcxlRouteListEntry → LcxlRouteListEntry,
      g { r with recvTimestamp := now } = r.after pkt server now later →
      (rt.modify r.self g).list = before ++ r.after pkt server now later :: behind
        ∧ (rt.modify r.self g).find r.self = some (r.after pkt server now later) := by
    intro g hg
    have hlist := h.modify_list hl g
    rw [hg] at hlist
    refine ⟨hlist, ?_⟩
    have hbefore : before.find? (·.self = r.self) = none :=
      List.find?_eq_none.2 fun x hx => by simpa using h.others hl x (List.mem_append_left _ hx)
    rw [RouteTable.find, hlist, List.find?_append, hbefore, Option.none_or,
      List.find?_cons_of_pos (by simp)]
  by_cases hf : pkt.thFlags = thSyn
  · simp only [RouteTable.packet, hf, if_true]
    rcases server with _ | s
    · refine ⟨?_, rfl⟩
      simp [hl, LcxlRouteListEntry.after, hf]
    · obtain ⟨hlist, hfind⟩ := hset (fun x => { x with
        recvTimestamp := later
        srcIp := ⟨some pkt.ipMode, pkt.srcAddr⟩
        status := .normal
        dstServer := some s
        dstPort := pkt.thDport
        srcPort := pkt.thSport }) (init_eq_after hk s)
      refine ⟨hlist, ?_⟩
      simp only [initRouteListEntry, Option.bind_some, hfind]
      rfl
  · rw [hs hf] at hset ⊢
    simp only [RouteTable.packet, hf, if_false]
    obtain ⟨hlist, hfind⟩ := hset (fun x => { x with status := nextStatus x.status pkt.thFlags })
      (by simp [LcxlRouteListEntry.after, hf])
    refine ⟨hlist, ?_⟩
    rw [Option.bind_some, hfind]
    simp only [Option.filter, LcxlRouteListEntry.after, hf, if_false]
    split_ifs <;> rfl

end RouteTable

variable {cfg : LcxlSetting} {f : LcxlFilter} {pkt : TcpPacket} {amb : Ambient}

namespace LcxlFilter

theorem Balanced.ok (h : f.Balanced) : f.routeTable.Ok := by
  refine ⟨h.selfs, h.fresh, h.keys, fun r hr => ?_⟩
  obtain ⟨p, -, hp⟩ := h.linked r hr
  exact ⟨p, hp⟩

theorem routeEffect_selected (cfg : LcxlSetting) (f : LcxlFilter) (pkt : TcpPacket) (now : ℤ) :
    (f.routeEffect cfg pkt now).selected = synServer f (lookup cfg f pkt now).2.1 pkt := rfl

theorem lookup_servers (cfg : LcxlSetting) (f : LcxlFilter) (pkt : TcpPacket) (now : ℤ) :
    (lookup cfg f pkt now).2.1 =
      (f.routeEffect cfg pkt now).purged.foldl dropServer f.module.serverList := by
  obtain ⟨gone, hw, -, -, ht⟩ := lookup_walk cfg f pkt now
  obtain ⟨-, -, hgone, -, -⟩ := hw.split
  rw [ht, hgone]
  rfl

/-- The server selected is linked once the expired routes are gone. -/
theorem selected_linked {now : ℤ} {p : ServerPtr}
    (hp : (f.routeEffect cfg pkt now).selected = some p) :
    p ∈ ((f.routeEffect cfg pkt now).purged.foldl dropServer f.module.serverList).lst.list := by
  rw [routeEffect_selected, synServer] at hp
  split_ifs at hp
  rw [← lookup_servers]
  exact (selectBestServer_spec _ pkt.ipMode pkt.dstAddr _ _).linked p hp

/-- No packet both opens a connection and closes one. -/
theorem selected_of_closed {r : LcxlRouteListEntry} {now : ℤ}
    (h : (f.routeEffect cfg pkt now).closed = some r) :
    (f.routeEffect cfg pkt now).selected = none := by
  simp only [routeEffect] at h ⊢
  split_ifs at h ⊢
  rfl

theorem mem_closed {r : LcxlRouteListEntry} {now : ℤ}
    (h : (f.routeEffect cfg pkt now).closed = some r) : f.ownRoute pkt = some r := by
  simp only [routeEffect] at h
  split_ifs at h
  exact (Option.filter_eq_some_iff.1 h).1

theorem ownRoute_key {r : LcxlRouteListEntry} (h : f.ownRoute pkt = some r) : r.key = pkt.key := by
  simpa using List.find?_some h

/-- The routes in front of the one of the packet's connection, and those behind it. -/
structure RouteSplit (f : LcxlFilter) (pkt : TcpPacket) (before behind : List LcxlRouteListEntry) :
    Prop where
  passed : before = f.routeTable.list.takeWhile (·.key ≠ pkt.key)
  list : f.routeTable.list = before ++ ((f.ownRoute pkt).toList ++ behind)

namespace RouteSplit

variable {before behind : List LcxlRouteListEntry}

theorem purged (h : RouteSplit f pkt before behind) (cfg : LcxlSetting) (now : ℤ) :
    (f.routeEffect cfg pkt now).purged =
      before.filter (·.expired cfg f.module.routeTimeout now) := by
  rw [h.passed]
  rfl

theorem before_key (h : RouteSplit f pkt before behind) : ∀ r ∈ before, r.key ≠ pkt.key := by
  intro r hr
  rw [h.passed] at hr
  simpa using List.mem_takeWhile_imp hr

theorem before_self (h : RouteSplit f pkt before behind) (hok : f.routeTable.Ok)
    {r : LcxlRouteListEntry} (hown : f.ownRoute pkt = some r) : ∀ x ∈ before, x.self ≠ r.self := by
  have hl := h.list
  rw [hown] at hl
  exact fun x hx => hok.others hl x (List.mem_append_left _ hx)

theorem disjoint (h : RouteSplit f pkt before behind)
    (hn : (f.routeTable.list.map (·.key)).Nodup) : ∀ r ∈ behind, r ∉ before := by
  rw [h.list, List.map_append, List.map_append] at hn
  exact fun r hr hr' => (List.nodup_append'.1 hn).2.2 (List.mem_map_of_mem hr')
    (List.mem_append_right _ (List.mem_map_of_mem hr))

theorem behind_key (h : RouteSplit f pkt before behind)
    (hn : (f.routeTable.list.map (·.key)).Nodup) : ∀ r ∈ behind, r.key ≠ pkt.key := by
  intro r hr hk
  rcases hown : f.ownRoute pkt with _ | r'
  · have hmem : r ∈ f.routeTable.list :=
      h.list ▸ List.mem_append_right _ (List.mem_append_right _ hr)
    simpa [hk] using List.find?_eq_none.1 hown r hmem
  · rw [h.list, hown, List.map_append, List.map_append] at hn
    refine (List.nodup_append'.1 (List.nodup_append'.1 hn).2.1).2.2
      (List.mem_map_of_mem (List.mem_singleton_self r')) ?_
    rw [ownRoute_key hown, ← hk]
    exact List.mem_map_of_mem hr

end RouteSplit

/-- What is left of the route of the packet's connection. -/
def ownAfter (cfg : LcxlSetting) (f : LcxlFilter) (pkt : TcpPacket) (amb : Ambient) :
    Option LcxlRouteListEntry :=
  if (f.routeEffect cfg pkt amb.now).closed = none then
    (f.ownRoute pkt).map
      (·.after pkt (f.routeEffect cfg pkt amb.now).selected amb.now amb.later)
  else none

variable (cfg pkt amb) in
/-- What a packet leaves of the routes before the one it may close is deleted, and that one. -/
theorem routeTCPNBL_routes (h : f.routeTable.Ok) : ∃ before behind,
    RouteSplit f pkt before behind
      ∧ (routeTCPNBL cfg f pkt amb.now amb.later).1.routeTable.list =
        (f.inserted cfg pkt amb).toList
          ++ (before.filter (!·.expired cfg f.module.routeTimeout amb.now)
            ++ (((f.ownRoute pkt).map
                (·.after pkt (f.routeEffect cfg pkt amb.now).selected amb.now amb.later)).toList
              ++ behind))
      ∧ ((routeTCPNBL cfg f pkt amb.now amb.later).2.bind
          (routeTCPNBL cfg f pkt amb.now amb.later).1.routeTable.find).filter
            (·.status = .closed) =
        (f.routeEffect cfg pkt amb.now).closed.map
          (·.after pkt (f.routeEffect cfg pkt amb.now).selected amb.now amb.later) := by
  obtain ⟨gone, hw, -, hnext, -⟩ := lookup_walk cfg f pkt amb.now
  have hok := h.walk hw hnext
  obtain ⟨behind, hxs, -, hkept, hp⟩ := hw.split
  obtain ⟨htable, hroute⟩ := Prod.ext_iff.1 (routeTCPNBL_table cfg f pkt amb.now amb.later)
  simp only at htable hroute
  have hs := fun hf : pkt.thFlags ≠ thSyn =>
    synServer_syn (f := f) (t := (lookup cfg f pkt amb.now).2.1) hf
  refine ⟨_, behind, ⟨rfl, hxs⟩, ?_⟩
  rw [htable, hroute, hp, routeEffect_selected]
  rcases hown : f.ownRoute pkt with _ | r
  · have hfind : f.routeTable.list.find? (·.key = pkt.key) = none := hown
    obtain ⟨hlist, hclosed⟩ := RouteTable.packet_absent amb.later hok hs
    rw [hfind] at hkept ⊢
    refine ⟨?_, ?_⟩
    · rw [Option.map_none, hlist, hkept, hnext, inserted, if_pos hown]
      rfl
    · rw [Option.map_none, hclosed, routeEffect, hown]
      simp
  · have hfind : f.routeTable.list.find? (·.key = pkt.key) = some r := hown
    rw [hfind] at hkept ⊢
    obtain ⟨hlist, hclosed⟩ :=
      RouteTable.packet_present amb.later hok hkept (ownRoute_key hown) hs
    refine ⟨?_, ?_⟩
    · rw [Option.map_some, hlist, inserted, hown, if_neg (Option.some_ne_none r)]
      rfl
    · rw [Option.map_some, hclosed, routeEffect, hown]

theorem routePacket_routeTable (cfg : LcxlSetting) (f : LcxlFilter) (pkt : TcpPacket)
    (amb : Ambient) : (routePacket cfg f pkt amb).routeTable =
      (routeTCPNBL cfg f pkt amb.now amb.later).1.routeTable.dropClosed
        (routeTCPNBL cfg f pkt amb.now amb.later).2 := by
  unfold routePacket
  rcases (routeTCPNBL cfg f pkt amb.now amb.later).2 with _ | p
  · rfl
  · exact dropClosed_routeTable _ p

variable (cfg pkt amb) in
/-- The routes after a packet, in their places. -/
theorem routePacket_list (h : f.routeTable.Ok) : ∃ before behind,
    RouteSplit f pkt before behind
      ∧ (routePacket cfg f pkt amb).routeTable.list = (f.inserted cfg pkt amb).toList
        ++ (before.filter (!·.expired cfg f.module.routeTimeout amb.now)
          ++ ((f.ownAfter cfg pkt amb).toList ++ behind)) := by
  obtain ⟨before, behind, hsplit, hlist, hclosed⟩ := routeTCPNBL_routes cfg pkt amb h
  refine ⟨before, behind, hsplit, ?_⟩
  rw [routePacket_routeTable, RouteTable.dropClosed_list, hclosed, hlist, ownAfter]
  rcases hc : (f.routeEffect cfg pkt amb.now).closed with _ | r
  · rfl
  · have hown := mem_closed hc
    have hne : ∀ x ∈ before.filter (!·.expired cfg f.module.routeTimeout amb.now),
        x.self ≠ r.self := fun x hx => hsplit.before_self h hown x (List.mem_of_mem_filter hx)
    simp only [Option.map_some, after_self, inserted, hown, if_neg (Option.some_ne_none r)]
    rw [Option.toList_none, List.nil_append, List.nil_append,
      List.eraseP_append_right _ (by simpa using hne), Option.toList_some,
      List.cons_append, List.eraseP_cons_of_pos (by simp)]

/-- The routes that stay, one by one. -/
theorem routesAfter_eq {before behind : List LcxlRouteListEntry}
    (h : RouteSplit f pkt before behind) (hn : (f.routeTable.list.map (·.key)).Nodup) :
    f.routesAfter cfg pkt amb = (f.inserted cfg pkt amb).toList
      ++ (before.filter (!·.expired cfg f.module.routeTimeout amb.now)
        ++ ((f.ownAfter cfg pkt amb).toList ++ behind)) := by
  have hpurged := h.purged cfg amb.now
  have hmap : ∀ xs : List LcxlRouteListEntry, (∀ r ∈ xs, r.key ≠ pkt.key) →
      (xs.map fun r => if r.key = pkt.key then
        r.after pkt (f.routeEffect cfg pkt amb.now).selected amb.now amb.later else r) = xs :=
    fun xs hxs => (List.map_congr_left fun r hr => if_neg (hxs r hr)).trans (List.map_id _)
  have hclosed : ∀ r, r.key ≠ pkt.key → r ∉ (f.routeEffect cfg pkt amb.now).closed.toList :=
    fun r hr hc => hr (ownRoute_key (mem_closed (Option.mem_toList.1 hc)))
  have hbefore : before.filter (· ∉ (f.routeEffect cfg pkt amb.now).removed) =
      before.filter (!·.expired cfg f.module.routeTimeout amb.now) := by
    refine List.filter_congr fun r hr => ?_
    simp [RouteEffect.removed, hpurged, hr, hclosed r (h.before_key r hr)]
  have hbehind : behind.filter (· ∉ (f.routeEffect cfg pkt amb.now).removed) = behind := by
    refine List.filter_eq_self.2 fun r hr => ?_
    simp [RouteEffect.removed, hpurged, h.disjoint hn r hr, hclosed r (h.behind_key hn r hr)]
  have hown : ((f.ownRoute pkt).toList.filter
      (· ∉ (f.routeEffect cfg pkt amb.now).removed)).map (fun r => if r.key = pkt.key then
        r.after pkt (f.routeEffect cfg pkt amb.now).selected amb.now amb.later else r) =
      (f.ownAfter cfg pkt amb).toList := by
    unfold ownAfter
    rcases ho : f.ownRoute pkt with _ | r
    · simp
    have hr : r ∉ before := fun hr => h.before_key r hr (ownRoute_key ho)
    rcases hc : (f.routeEffect cfg pkt amb.now).closed with _ | r'
    · simp [RouteEffect.removed, hpurged, hr, hc, ownRoute_key ho]
    · obtain rfl : r' = r := Option.some.inj ((mem_closed hc).symm.trans ho)
      simp [RouteEffect.removed, hc]
  rw [routesAfter, h.list, List.filter_append, List.filter_append, List.map_append,
    List.map_append, hbefore, hbehind, hown, hmap behind (h.behind_key hn),
    hmap _ fun r hr => h.before_key r (List.mem_of_mem_filter hr)]

theorem dropClosed_servers (f : LcxlFilter) (p : RoutePtr) :
    (f.dropClosed p).module.serverList = ((f.routeTable.find p).filter
      (·.status = .closed)).toList.foldl dropServer f.module.serverList := by
  simp only [LcxlFilter.dropClosed, deleteRouteListEntry]
  rcases f.routeTable.find p with _ | r
  · rfl
  · by_cases hc : r.status = .closed
    · simp [hc, Option.filter, setRouting, setServers]
    · simp [hc, Option.filter]

/-- The references of a packet, before the route it may close is deleted. -/
theorem routeTCPNBL_servers (h : f.Balanced) (now later : ℤ) :
    (routeTCPNBL cfg f pkt now later).1.module.serverList =
      (f.routeEffect cfg pkt now).reused.toList.foldl dropServer
        (incRefOption ((f.routeEffect cfg pkt now).purged.foldl dropServer f.module.serverList)
          (f.routeEffect cfg pkt now).selected) := by
  obtain ⟨gone, hw, -, hnext, -⟩ := lookup_walk cfg f pkt now
  have hok := h.ok.walk hw hnext
  obtain ⟨behind, -, -, hkept, hp⟩ := hw.split
  have hsteady : (lookup cfg f pkt now).2.1.Steady := lookup_servers cfg f pkt now ▸
    (ServerTable.Moved.dropServers h.steady _ h.steady.moved).steady h.steady
  have hreused : (f.routeEffect cfg pkt now).reused =
      (f.routeEffect cfg pkt now).selected.bind fun _ => f.ownRoute pkt := rfl
  rw [hreused, ← lookup_servers, routeEffect_selected, routeTCPNBL_serverList]
  unfold packetServers
  split_ifs with hf
  · have hsel : synServer f (lookup cfg f pkt now).2.1 pkt = _ := if_pos hf
    rw [selectBestServer_fst hsteady.settled hsteady.settled_lock
      fun p hp _ => hsteady.referenced p hp, ← hsel]
    rcases synServer f (lookup cfg f pkt now).2.1 pkt with _ | s
    · rfl
    have hown : (lookup cfg f pkt now).2.2 = (f.ownRoute pkt).map (·.self) := hp
    rcases hr : f.ownRoute pkt with _ | r <;> rw [hr] at hown
    · rw [hown]
      rfl
    · have hr' : f.routeTable.list.find? (·.key = pkt.key) = some r := hr
      rw [hr'] at hkept
      have hfind : (lookup cfg f pkt now).1.find r.self = _ :=
        hok.find (r := { r with recvTimestamp := now }) (by simp [hkept])
      rw [hown]
      simp only [Option.map_some, dropRouteServer, hfind]
      rfl
  · rw [synServer_syn hf]
    rfl

theorem routePacket_servers (h : f.Balanced) :
    (routePacket cfg f pkt amb).module.serverList =
      (f.routeEffect cfg pkt amb.now).closed.toList.foldl dropServer
        ((f.routeEffect cfg pkt amb.now).reused.toList.foldl dropServer
          (incRefOption
            ((f.routeEffect cfg pkt amb.now).purged.foldl dropServer f.module.serverList)
            (f.routeEffect cfg pkt amb.now).selected)) := by
  obtain ⟨-, -, -, -, hclosed⟩ := routeTCPNBL_routes cfg pkt amb h.ok
  rw [← routeTCPNBL_servers h]
  have hdrop : ∀ t, ((f.routeEffect cfg pkt amb.now).closed.map (·.after pkt
      (f.routeEffect cfg pkt amb.now).selected amb.now amb.later)).toList.foldl dropServer t =
        (f.routeEffect cfg pkt amb.now).closed.toList.foldl dropServer t := by
    intro t
    rcases hc : (f.routeEffect cfg pkt amb.now).closed with _ | r
    · rfl
    · rw [selected_of_closed hc]
      rfl
  rw [← hdrop, ← hclosed]
  unfold routePacket
  rcases (routeTCPNBL cfg f pkt amb.now amb.later).2 with _ | p
  · rfl
  · exact dropClosed_servers _ p

variable (cfg pkt amb) in
/-- The counts after a packet, and what is linked. -/
theorem routePacket_moved (h : f.Balanced) :
    f.module.serverList.Moved (routePacket cfg f pkt amb).module.serverList
      (f.routeEffect cfg pkt amb.now).refChange := by
  have hpurged := ServerTable.Moved.dropServers h.steady (f.routeEffect cfg pkt amb.now).purged
    h.steady.moved
  have hselected := hpurged.incRefOption fun p hp => selected_linked hp
  have hreused := ServerTable.Moved.dropServers h.steady
    (f.routeEffect cfg pkt amb.now).reused.toList hselected
  have hclosed := ServerTable.Moved.dropServers h.steady
    (f.routeEffect cfg pkt amb.now).closed.toList hreused
  rw [routePacket_servers h]
  refine hclosed.of_eq fun p => ?_
  simp only [RouteEffect.refChange, RouteEffect.removed, List.countP_append, Pi.zero_apply]
  push_cast
  ring

/-- What becomes of the connection's own route, counted. -/
theorem own_count (cfg : LcxlSetting) (f : LcxlFilter) (pkt : TcpPacket) (amb : Ambient)
    (p : ServerPtr) :
    ((f.inserted cfg pkt amb).toList.countP (·.dstServer = some p) : ℤ)
        + (f.ownAfter cfg pkt amb).toList.countP (·.dstServer = some p) =
      (f.ownRoute pkt).toList.countP (·.dstServer = some p)
        + (f.routeEffect cfg pkt amb.now).selected.toList.count p
        - (f.routeEffect cfg pkt amb.now).closed.toList.countP (·.dstServer = some p)
        - (f.routeEffect cfg pkt amb.now).reused.toList.countP (·.dstServer = some p) := by
  have hreused : (f.routeEffect cfg pkt amb.now).reused =
      (f.routeEffect cfg pkt amb.now).selected.bind fun _ => f.ownRoute pkt := rfl
  rw [hreused, inserted, ownAfter]
  rcases hc : (f.routeEffect cfg pkt amb.now).closed with _ | r'
  · rcases hs : (f.routeEffect cfg pkt amb.now).selected with _ | s <;>
      rcases ho : f.ownRoute pkt with _ | r
    · rfl
    · simp [after_dstServer]
    · simp [newRoute, List.count_singleton]
    · simp [after_dstServer, List.count_singleton]
  · have hs := selected_of_closed hc
    simp [hs, mem_closed hc]

/-- The routes to each server change as its count does. -/
theorem routePacket_routesTo (h : f.routeTable.Ok) (p : ServerPtr) :
    ((routePacket cfg f pkt amb).routesTo p : ℤ) =
      f.routesTo p + (f.routeEffect cfg pkt amb.now).refChange p := by
  obtain ⟨before, behind, hsplit, hlist⟩ := routePacket_list cfg pkt amb h
  have hown := own_count cfg f pkt amb p
  have hpurged := before.countP_eq_countP_filter_add (·.dstServer = some p)
    (·.expired cfg f.module.routeTimeout amb.now)
  rw [← hsplit.purged cfg amb.now] at hpurged
  rw [routesTo, routesTo, hlist, hsplit.list]
  simp only [RouteEffect.refChange, RouteEffect.removed, List.countP_append]
  push_cast
  omega

variable (cfg pkt amb) in
theorem routePacket_ok (h : f.routeTable.Ok) : (routePacket cfg f pkt amb).routeTable.Ok := by
  obtain ⟨gone, hw, -, hnext, -⟩ := lookup_walk cfg f pkt amb.now
  rw [routePacket_table]
  exact ((h.walk hw hnext).packet hw.stop.1 hw.stop.2).dropClosed _

/-- Every route still goes to a server that was linked before the packet. -/
theorem routesAfter_linked (h : f.Balanced) : ∀ r ∈ f.routesAfter cfg pkt amb,
    ∃ p ∈ f.module.serverList.lst.list, r.dstServer = some p := by
  have hselected : ∀ s, (f.routeEffect cfg pkt amb.now).selected = some s →
      s ∈ f.module.serverList.lst.list := by
    intro s hs
    have hmem := selected_linked hs
    rw [(ServerTable.Moved.dropServers h.steady _ h.steady.moved).list] at hmem
    exact List.mem_of_mem_filter hmem
  intro r hr
  rcases List.mem_append.1 hr with hr | hr
  · simp only [inserted, Option.mem_toList] at hr
    split_ifs at hr
    obtain ⟨s, hs, rfl⟩ := Option.map_eq_some_iff.1 hr
    exact ⟨s, hselected s hs, rfl⟩
  · obtain ⟨r₀, hr₀, rfl⟩ := List.mem_map.1 hr
    have hlinked := h.linked r₀ (List.mem_of_mem_filter hr₀)
    split_ifs
    · rcases hs : (f.routeEffect cfg pkt amb.now).selected with _ | s
      · exact hlinked
      · exact ⟨s, hselected s hs, rfl⟩
    · exact hlinked

/-- Purging any routes, selecting, re-using, creating and closing one: whatever a packet does, the
counts change by its effect alone, and still balance. -/
theorem routePacket_routedExactly (h : f.Balanced) :
    f.RoutedExactly cfg pkt amb (routePacket cfg f pkt amb) := by
  have hmoved := routePacket_moved cfg pkt amb h
  have hroutes : (routePacket cfg f pkt amb).routeTable.list = f.routesAfter cfg pkt amb := by
    obtain ⟨before, behind, hsplit, hlist⟩ := routePacket_list cfg pkt amb h.ok
    rw [hlist, routesAfter_eq hsplit h.keys]
  have hcount : ∀ p ∈ f.module.serverList.lst.list,
      ((routePacket cfg f pkt amb).module.serverList.mem p).refCount =
        (routePacket cfg f pkt amb).routesTo p
          + if has ((routePacket cfg f pkt amb).module.serverList.mem p).info.status ssDeleted
            then 0 else 1 := by
    intro p hp
    have hbefore := h.accounted p hp
    rw [routePacket_routesTo h.ok, hmoved.mem p]
    simp only
    omega
  have hok := routePacket_ok cfg pkt amb h.ok
  refine ⟨fun p => ?_, hroutes, ?_, fun p hp hp' => ?_, hmoved.steady h.steady, fun p hp => ?_,
    fun r hr => ?_, hok.keys, hok.selfs, hok.fresh⟩
  · rw [hmoved.mem p]
  · refine hmoved.list.trans (List.filter_congr fun p hp => ?_)
    have := hcount p hp
    simp only [decide_eq_decide]
    split_ifs at this <;> omega
  · rw [hmoved.list, List.mem_filter, decide_eq_true_eq, not_and] at hp'
    have := hcount p hp
    have := hp' hp
    split_ifs at * <;> omega
  · rw [hmoved.list] at hp
    exact hcount p (List.mem_of_mem_filter hp)
  · obtain ⟨p, hp, hr'⟩ := routesAfter_linked h r (hroutes ▸ hr)
    refine ⟨p, ?_, hr'⟩
    have hpos : 0 < (routePacket cfg f pkt amb).routesTo p :=
      List.countP_pos_iff.2 ⟨r, hr, by simpa using hr'⟩
    rw [hmoved.list, List.mem_filter, decide_eq_true_eq]
    have := hcount p hp
    refine ⟨hp, ?_⟩
    split_ifs at this <;> omega

section Runs

/-- A deleted server with one route, had the request let go of the list it locked. -/
def lastRoute : LcxlFilter := deleted.setServers (unlockServerList deleted.module.serverList)

theorem balanced_lastRoute : lastRoute.Balanced := by
  refine ⟨⟨?_, ?_, ?_, ?_, ?_⟩, ?_, ?_, ?_, ?_, ?_⟩
  case refine_6 =>
    unfold Accounted
    decide +kernel
  all_goals decide +kernel

/-- A reset closes the last route to a deleted server, which is unlinked. -/
theorem routePacket_routedExactly_last :
    let pkt : TcpPacket := ⟨.ipv4, [10, 0, 0, 9], [10, 0, 0, 1], 0x901F, 0x5000, thRst⟩
    let f := routePacket Sample.setting lastRoute pkt (Sample.ambient 2)
    lastRoute.module.serverList.lst.list = [0] ∧ f.module.serverList.lst.list = []
      ∧ lastRoute.RoutedExactly Sample.setting pkt (Sample.ambient 2) f :=
  ⟨by decide +kernel, by decide +kernel, routePacket_routedExactly balanced_lastRoute⟩

end Runs

end LcxlFilter

end LcxlNetLoader
