import LcxlNetLoader.Opening
import LcxlNetLoader.Proofs.Balance
import LcxlNetLoader.Proofs.Selection

/-!
# Which packets open a connection

The lookup leaves the servers that outlast the expired routes it throws out (`dropServers_listed`),
and the selection finds one of these if any is available. But only a packet with `TH_SYN` alone has
one selected (`getsRoute_iff`).
-/

namespace LcxlNetLoader

variable {t : ServerTable} {p q : ServerPtr}

section Purge

/-- A reference given back unlinks the server if it was the last, unless the list is locked. -/
theorem decRefListEntry_listed (h : t.Listed) (hp : p ∈ t.lst.list) :
    (decRefListEntry t p).Listed ∧ ∀ q, q ∈ (decRefListEntry t p).lst.list ↔
      q ∈ t.lst.list ∧ (q = p → t.lst.lockCount ≠ 0 ∨ 1 < (t.mem p).refCount) := by
  by_cases hlock : t.lst.lockCount = 0
  · have hlst := ServerTable.decRefListEntry_lst hlock p
    by_cases hlast : (t.mem p).refCount ≤ 1
    · rw [if_pos hlast] at hlst
      refine ⟨⟨?_, ?_⟩, fun q => ?_⟩
      · rw [hlst]
        exact h.nodup.erase p
      · rw [hlst, unlinkEntry]
        dsimp only
        rw [h.listCount, List.length_erase_of_mem hp]
        have := List.length_pos_of_mem hp
        omega
      · rw [hlst, unlinkEntry, h.nodup.mem_erase_iff]
        have : ¬ 1 < (t.mem p).refCount := not_lt.2 hlast
        simp only [hlock, ne_eq, not_true_eq_false, this, or_self, imp_false]
        exact and_comm
    · rw [if_neg hlast] at hlst
      refine ⟨⟨hlst ▸ h.nodup, hlst ▸ h.listCount⟩, fun q => ?_⟩
      rw [hlst]
      exact (and_iff_left fun _ => .inr (not_le.1 hlast)).symm
  · have hlst : (decRefListEntry t p).lst.list = t.lst.list
        ∧ (decRefListEntry t p).lst.listCount = t.lst.listCount := by
      have hwaits : removeEntryfromLcxlList t.lst p =
          { t.lst with toBeDelList := t.lst.toBeDelList ++ [p] } :=
        if_pos (UInt8.pos_iff_ne_zero.2 hlock)
      simp only [decRefListEntry, ServerTable.modify_lst, hwaits]
      split_ifs
      · exact ⟨rfl, rfl⟩
      · exact ⟨rfl, rfl⟩
    refine ⟨⟨hlst.1 ▸ h.nodup, ?_⟩, fun q => ?_⟩
    · rw [hlst.1, hlst.2, h.listCount]
    · rw [hlst.1]
      exact (and_iff_left fun _ => .inl hlock).symm

/-- Routes that hold references to linked servers are deleted, and those servers are linked still
that have another reference. -/
theorem dropServers_listed : ∀ (rs : List LcxlRouteListEntry) (t : ServerTable), t.Listed →
    (∀ r ∈ rs, ∃ p ∈ t.lst.list, r.dstServer = some p) →
    (∀ p ∈ t.lst.list, (rs.countP (·.dstServer = some p) : ℤ) ≤ (t.mem p).refCount) →
      (rs.foldl dropServer t).Listed ∧ ∀ p, p ∈ (rs.foldl dropServer t).lst.list ↔
        p ∈ t.lst.list ∧ (t.lst.lockCount ≠ 0 ∨ rs.countP (·.dstServer = some p) = 0
          ∨ (rs.countP (·.dstServer = some p) : ℤ) < (t.mem p).refCount)
  | [], t, h, _, _ => ⟨h, by simp⟩
  | r :: rs, t, h, hlinked, hheld => by
    rw [List.forall_mem_cons] at hlinked
    obtain ⟨⟨s, hs, hr⟩, hlinked⟩ := hlinked
    have hcount : ∀ p, (r :: rs).countP (·.dstServer = some p) =
        rs.countP (·.dstServer = some p) + if p = s then 1 else 0 := fun p => by
      simp [List.countP_cons, hr, eq_comm]
    obtain ⟨h', hmem⟩ := decRefListEntry_listed h hs
    have href : ∀ p, ((decRefListEntry t s).mem p).refCount =
        (t.mem p).refCount - if p = s then 1 else 0 := fun p => by
      rw [ServerTable.decRefListEntry_mem]
      split_ifs <;> simp
    have hdrop : dropServer t r = decRefListEntry t s := by rw [dropServer, hr]
    rw [List.foldl_cons, hdrop]
    have ih := dropServers_listed rs (decRefListEntry t s) h' (fun x hx => ?_) fun p hp => ?_
    · refine ⟨ih.1, fun p => ?_⟩
      rw [ih.2, hmem, hcount, href, decRefListEntry_lockCount, and_assoc]
      refine and_congr_right fun _ => ?_
      generalize rs.countP (·.dstServer = some p) = n
      by_cases hlock : t.lst.lockCount = 0
      · by_cases hps : p = s
        · subst hps
          simp only [hlock, ne_eq, not_true_eq_false, false_or, if_true, true_imp_iff]
          omega
        · simp [hlock, hps]
      · simp [hlock]
    · obtain ⟨q, hq, hxq⟩ := hlinked x hx
      refine ⟨q, (hmem q).2 ⟨hq, ?_⟩, hxq⟩
      rintro rfl
      have hpos : 0 < rs.countP (·.dstServer = some q) :=
        List.countP_pos_iff.2 ⟨x, hx, by simp [hxq]⟩
      have := hheld q hs
      rw [hcount, if_pos rfl] at this
      exact .inr (by push_cast at this; omega)
    · have := hheld p ((hmem p).1 hp).1
      rw [hcount] at this
      rw [href]
      split_ifs at this ⊢
      · push_cast at this
        omega
      · simpa using this

end Purge

namespace RouteTable

variable {rt : RouteTable} {pkt : TcpPacket} {p : Option RoutePtr} {later : ℤ}

theorem find_modify (rt : RouteTable) (q : RoutePtr)
    {g : LcxlRouteListEntry → LcxlRouteListEntry} (hg : ∀ r, (g r).self = r.self) :
    (rt.modify q g).find q = (rt.find q).map g := by
  have hself : ((fun r : LcxlRouteListEntry => decide (r.self = q)) ∘
      fun r => if r.self = q then g r else r) = fun r => decide (r.self = q) := by
    funext r
    simp only [Function.comp]
    split_ifs
    · rw [hg]
    · rfl
  rw [RouteTable.find, RouteTable.modify, List.find?_map, hself]
  change (rt.find q).map _ = _
  rcases hr : rt.find q with _ | r
  · rfl
  · have hrq : r.self = q := by simpa using List.find?_some hr
    rw [Option.map_some, Option.map_some, if_pos hrq]

variable (later) in
/-- The route a packet with `TH_SYN` alone has with the server selected for it. -/
theorem packet_syn (hf : pkt.thFlags = thSyn) (hp : ∀ q ∈ p, ∃ r ∈ rt.list, r.self = q)
    (s : ServerPtr) : ∃ q r, (rt.packet p pkt (some s) later).2 = some q
      ∧ (rt.packet p pkt (some s) later).1.find q = some r ∧ r.key = pkt.key ∧ r.status = .normal
      ∧ r.recvTimestamp = later ∧ r.dstServer = some s := by
  have hinit : ∀ (rt : RouteTable) (q : RoutePtr) (r : LcxlRouteListEntry), rt.find q = some r →
      ∃ r', (initRouteListEntry rt q pkt s later).find q = some r' ∧ r'.key = pkt.key
        ∧ r'.status = .normal ∧ r'.recvTimestamp = later ∧ r'.dstServer = some s := by
    intro rt q r hr
    have hfind := find_modify rt q (g := fun r => { r with
      recvTimestamp := later
      srcIp := ⟨some pkt.ipMode, pkt.srcAddr⟩
      status := .normal
      dstServer := some s
      dstPort := pkt.thDport
      srcPort := pkt.thSport }) fun _ => rfl
    rw [hr] at hfind
    exact ⟨_, hfind, rfl, rfl, rfl, rfl⟩
  simp only [RouteTable.packet, if_pos hf]
  rcases p with _ | q
  · obtain ⟨r, hr⟩ := hinit (createRouteListEntry rt).1 rt.next (allocRoute rt.next)
      (by simp [RouteTable.find, createRouteListEntry, allocRoute])
    exact ⟨rt.next, r, rfl, hr⟩
  · obtain ⟨r, hr, hself⟩ := hp q rfl
    obtain ⟨r', hr'⟩ := exists_find hr
    obtain ⟨r'', h⟩ := hinit rt q r' (hself ▸ hr')
    exact ⟨q, r'', rfl, h⟩

end RouteTable

namespace LcxlFilter

variable {cfg : LcxlSetting} {f : LcxlFilter} {pkt : TcpPacket} {now later : ℤ}

/-- After the lookup the servers that outlast it are linked, and no others. -/
theorem Referenced.lookup_listed (h : f.Referenced) (cfg : LcxlSetting) (pkt : TcpPacket)
    (now : ℤ) : (lookup cfg f pkt now).2.1.Listed ∧ ∀ p, p ∈ (lookup cfg f pkt now).2.1.lst.list ↔
      p ∈ f.module.serverList.lst.list ∧ f.Outlasts cfg pkt now p := by
  obtain ⟨gone, hw, -, -, ht⟩ := lookup_walk cfg f pkt now
  obtain ⟨behind, -, hgone, -, -⟩ := hw.split
  have hlinked : ∀ r ∈ gone, ∃ p ∈ f.module.serverList.lst.list, r.dstServer = some p :=
    fun r hr => h.linked r (hw.gone_sublist.subset hr)
  have hheld : ∀ p ∈ f.module.serverList.lst.list,
      (gone.countP (·.dstServer = some p) : ℤ) ≤ (f.module.serverList.mem p).refCount := by
    intro p hp
    have hle : gone.countP (·.dstServer = some p) ≤ f.routesTo p := hw.gone_sublist.countP_le
    have := h.held p hp
    omega
  obtain ⟨hlisted, hmem⟩ := dropServers_listed gone f.module.serverList h.listed hlinked hheld
  rw [ht]
  refine ⟨hlisted, fun p => ?_⟩
  rw [hmem, hgone]
  rfl

variable (pkt) in
/-- The connection's route after the lookup. -/
theorem lookup_own (hn : (f.routeTable.list.map (·.self)).Nodup) (cfg : LcxlSetting) (now : ℤ) :
    (lookup cfg f pkt now).2.2 = (f.ownRoute pkt).map (·.self)
      ∧ ∀ r ∈ f.ownRoute pkt,
        (lookup cfg f pkt now).1.find r.self = some { r with recvTimestamp := now } := by
  obtain ⟨gone, hw, -, -, -⟩ := lookup_walk cfg f pkt now
  obtain ⟨behind, -, -, hkept, hp⟩ := hw.split
  refine ⟨hp, fun r hr => ?_⟩
  have hown : f.routeTable.list.find? (·.key = pkt.key) = some r := hr
  have hmem : { r with recvTimestamp := now } ∈ (lookup cfg f pkt now).1.list := by
    rw [hkept, hown]
    simp
  exact RouteTable.find_of_mem (hn.sublist hw.selfs_sublist) hmem

/-- A packet of other flags than `TH_SYN` alone has no server selected, and changes a route its
connection has by none but `TH_ACK`, `TH_FIN` and `TH_RST`. -/
theorem routeTCPNBL_other (hn : (f.routeTable.list.map (·.self)).Nodup) (cfg : LcxlSetting)
    (now later : ℤ) (hf : pkt.thFlags ≠ thSyn) (hack : has pkt.thFlags thAck = false)
    (hfin : has pkt.thFlags thFin = false) (hrst : has pkt.thFlags thRst = false) :
    (routeTCPNBL cfg f pkt now later).2 = (f.ownRoute pkt).map (·.self)
      ∧ ∀ r ∈ f.ownRoute pkt, (routeTCPNBL cfg f pkt now later).1.routeTable.find r.self =
        some { r with recvTimestamp := now } := by
  obtain ⟨htable, hroute⟩ := Prod.ext_iff.1 (routeTCPNBL_table cfg f pkt now later)
  obtain ⟨hp, hfind⟩ := lookup_own pkt hn cfg now
  have hsame : ∀ status, nextStatus status pkt.thFlags = status := fun status => by
    simp [nextStatus, hack, hfin, hrst]
  simp only at htable hroute
  rw [htable, hroute, hp]
  simp only [RouteTable.packet, if_neg hf, hsame]
  rcases hown : f.ownRoute pkt with _ | r
  · exact ⟨rfl, by simp⟩
  · refine ⟨rfl, fun r' hr' => ?_⟩
    obtain rfl : r = r' := by simpa using hr'
    have := RouteTable.find_modify (lookup cfg f pkt now).1 r.self (g := fun x => x) fun _ => rfl
    exact this.trans (by rw [hfind r hown]; rfl)

/-- A server is selected for a packet with `TH_SYN` alone if one is left that is available. -/
theorem Referenced.synServer (h : f.Referenced) (cfg : LcxlSetting) (now : ℤ)
    (halg : f.module.routingAlgorithm = raLeastConnection
      ∨ f.module.routingAlgorithm = raFastResponse ∨ f.module.routingAlgorithm = raPoll)
    (hf : pkt.thFlags = thSyn) :
    (∀ s ∈ synServer f (lookup cfg f pkt now).2.1 pkt, f.Serves pkt s ∧ f.Outlasts cfg pkt now s)
      ∧ (synServer f (lookup cfg f pkt now).2.1 pkt = none →
        ∀ s, f.Serves pkt s → ¬ f.Outlasts cfg pkt now s) := by
  obtain ⟨hlisted, hmem⟩ := h.lookup_listed cfg pkt now
  have hinfo : RefOnly f.module.serverList (lookup cfg f pkt now).2.1 := by
    obtain ⟨gone, -, -, -, ht⟩ := lookup_walk cfg f pkt now
    exact ht ▸ RefOnly.dropServers gone _
  have hsearches : (lookup cfg f pkt now).2.1.Searches pkt.ipMode pkt.dstAddr
      f.module.routingAlgorithm := by
    rcases halg with halg | halg | halg
    · exact .inr (.inl halg)
    · exact .inl halg
    · exact .inr (.inr (.inl halg))
  have hnone := selectBestServer_of_searches hlisted hsearches f.routingAlgorithmData
  have hspec := selectBestServer_spec (lookup cfg f pkt now).2.1 pkt.ipMode pkt.dstAddr
    f.module.routingAlgorithm f.routingAlgorithmData
  rw [LcxlNetLoader.synServer, if_pos hf]
  refine ⟨fun s hs => ?_, fun hs s hserves houtlasts => ?_⟩
  · obtain ⟨hlinked, houtlasts⟩ := (hmem s).1 (hspec.linked s hs)
    exact ⟨⟨hlinked, (hinfo.avaliable s pkt.ipMode).symm.trans (hspec.avaliable s hs)⟩, houtlasts⟩
  · have hav := hnone.1 hs s ((hmem s).2 ⟨hserves.1, houtlasts⟩)
    have : f.module.serverList.avaliable pkt.ipMode s = false :=
      (hinfo.avaliable s pkt.ipMode).symm.trans hav
    exact Bool.false_ne_true (this.symm.trans hserves.2)

/-- Of the packets that are to open a connection, one with `TH_SYN` alone gets a route if there is
a server for it after the lookup, and one with more flags if its connection is open already. -/
theorem getsRoute_iff (h : f.Referenced) (cfg : LcxlSetting) (now later : ℤ)
    (halg : f.module.routingAlgorithm = raLeastConnection
      ∨ f.module.routingAlgorithm = raFastResponse ∨ f.module.routingAlgorithm = raPoll)
    (hack : has pkt.thFlags thAck = false) (hfin : has pkt.thFlags thFin = false)
    (hrst : has pkt.thFlags thRst = false) :
    f.GetsRoute cfg pkt now later ↔ f.OpensRoute cfg pkt now := by
  unfold GetsRoute OpensRoute
  by_cases hf : pkt.thFlags = thSyn
  · rw [if_pos hf]
    obtain ⟨hserver, hnone⟩ := h.synServer cfg now halg hf
    obtain ⟨gone, hw, -⟩ := lookup_walk cfg f pkt now
    obtain ⟨htable, hroute⟩ := Prod.ext_iff.1 (routeTCPNBL_table cfg f pkt now later)
    simp only at htable hroute
    rw [htable, hroute]
    rcases hs : synServer f (lookup cfg f pkt now).2.1 pkt with _ | s
    · refine iff_of_false ?_ ?_
      · rintro ⟨p, r, s, hp, -⟩
        simp only [RouteTable.packet, if_pos hf, reduceCtorEq] at hp
      · rintro ⟨s, hserves, houtlasts⟩
        exact hnone hs s hserves houtlasts
    · obtain ⟨hserves, houtlasts⟩ := hserver s hs
      have hstop : ∀ q ∈ (lookup cfg f pkt now).2.2,
          ∃ r ∈ (lookup cfg f pkt now).1.list, r.self = q := by
        intro q hq
        obtain ⟨r, hr, hself, -⟩ := hw.stop.1 q hq
        exact ⟨r, hr, hself⟩
      obtain ⟨q, r, hq, hr, hkey, hnormal, htime, hdst⟩ :=
        RouteTable.packet_syn later hf hstop s
      exact iff_of_true ⟨q, r, s, hq, hr, hkey, hnormal, .inr htime, hdst, hserves⟩
        ⟨s, hserves, houtlasts⟩
  · rw [if_neg hf]
    obtain ⟨hroute, hfind⟩ := routeTCPNBL_other h.selfs cfg now later hf hack hfin hrst
    constructor
    · rintro ⟨p, r, s, hp, hr, -, hnormal, -, hdst, hserves⟩
      rw [hroute, Option.map_eq_some_iff] at hp
      obtain ⟨r', hown, rfl⟩ := hp
      rw [hfind r' hown, Option.some_inj] at hr
      subst hr
      exact ⟨r', s, hown, hnormal, hdst, hserves⟩
    · rintro ⟨r, s, hown, hnormal, hdst, hserves⟩
      have hkey : r.key = pkt.key := ownRoute_key hown
      refine ⟨r.self, _, s, ?_, hfind r hown, hkey, hnormal, .inl rfl, hdst, hserves⟩
      rw [hroute, hown, Option.map_some]

/-- A router of least connections with one server, which is online, and no routes. -/
def sampleOpening : LcxlFilter := Sample.router.setServers (sampleServers [(ssOnline, 1)])

def sampleOpeningPacket (thFlags : UInt8) : TcpPacket :=
  ⟨.ipv4, [10, 0, 0, 9], [10, 0, 0, 1], 0x901F, 0x5000, thFlags⟩

/-- `SYN` with `ECE` and `CWR` set, as a client asks for congestion notification. -/
theorem not_getsRoute : has 0xC2 thSyn ∧ sampleOpening.Serves (sampleOpeningPacket 0xC2) 1
    ∧ ¬ sampleOpening.GetsRoute Sample.setting (sampleOpeningPacket 0xC2) 0 1 := by
  refine ⟨by decide, ⟨by decide, by decide⟩, ?_⟩
  rintro ⟨p, r, s, hp, -⟩
  have hnone : (routeTCPNBL Sample.setting sampleOpening (sampleOpeningPacket 0xC2) 0 1).2 =
      none := by decide
  rw [hnone] at hp
  cases hp

theorem getsRoute_iff_syn :
    sampleOpening.GetsRoute Sample.setting (sampleOpeningPacket thSyn) 0 1 := by
  have hreferenced : sampleOpening.Referenced :=
    ⟨⟨by decide, rfl⟩, by decide, by decide, by decide⟩
  refine (getsRoute_iff hreferenced Sample.setting 0 1 (.inl rfl) (by decide) (by decide)
    (by decide)).2 ?_
  rw [OpensRoute, if_pos (by rfl)]
  exact ⟨1, ⟨by decide, by decide⟩, .inr (.inl rfl)⟩

/-- A module in which every count is that of its routes, and one more if the server is not
deleted, has no available server that does not outlast the routes to it. -/
theorem Balanced.outlasts (h : f.Balanced) (cfg : LcxlSetting) (now : ℤ) {p : ServerPtr}
    (hp : f.Serves pkt p) : f.Outlasts cfg pkt now p := by
  have hcount := h.accounted p hp.1
  rw [Counted.not_deleted_of_avaliable hp.2] at hcount
  have hle : f.expiredTo cfg pkt now p ≤ f.routesTo p :=
    (List.filter_sublist.trans (List.takeWhile_sublist _)).countP_le
  refine .inr (.inr ?_)
  simp only [Bool.false_eq_true, if_false] at hcount
  omega

end LcxlFilter

end LcxlNetLoader
