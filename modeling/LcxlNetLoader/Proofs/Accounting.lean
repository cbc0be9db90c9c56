import LcxlNetLoader.Accounting
import LcxlNetLoader.Proofs.Connections
import LcxlNetLoader.Proofs.RefCount

/-!
# Servers and the routes to them

The references held are those of the routes (`holds`). Every event of a module keeps the count,
but for a request to add a server that writes the deleted mark of the server it finds: the mark
changes and the count does not.
-/

namespace LcxlNetLoader

/-- The servers the routes hold a reference to. -/
def holds (rs : List LcxlRouteListEntry) : Multiset ServerPtr := rs.filterMap (·.dstServer)

theorem holds_cons (r : LcxlRouteListEntry) (rs : List LcxlRouteListEntry) :
    holds (r :: rs) = Counted.chosen r.dstServer (holds rs) := by
  unfold holds Counted.chosen
  rcases hd : r.dstServer with _ | s
  · rw [List.filterMap_cons_none hd]
    rfl
  · rw [List.filterMap_cons_some hd]
    rfl

theorem chosen_add (o : Option ServerPtr) (a b : Multiset ServerPtr) :
    Counted.chosen o (a + b) = Counted.chosen o a + b := by
  rcases o with _ | s
  · rfl
  · exact (Multiset.cons_add s a b).symm

theorem chosen_comm (o o' : Option ServerPtr) (held : Multiset ServerPtr) :
    Counted.chosen o (Counted.chosen o' held) = Counted.chosen o' (Counted.chosen o held) := by
  rcases o with _ | s <;> rcases o' with _ | s' <;> simp [Counted.chosen, Multiset.cons_swap]

theorem count_holds (p : ServerPtr) : ∀ rs : List LcxlRouteListEntry,
    (holds rs).count p = rs.countP (·.dstServer = some p)
  | [] => rfl
  | r :: rs => by
    rw [holds_cons, List.countP_cons, ← count_holds p rs]
    unfold Counted.chosen
    rcases hd : r.dstServer with _ | s
    · simp
    · rw [Option.elim_some, Multiset.count_cons]
      by_cases hs : p = s
      · simp [hs]
      · simp [hs, Ne.symm hs]

theorem mem_holds {p : ServerPtr} {rs : List LcxlRouteListEntry} :
    p ∈ holds rs ↔ ∃ r ∈ rs, r.dstServer = some p := by
  simp [holds, List.mem_filterMap]

theorem Walk.holds {old : LcxlRouteListEntry → Bool} {pkt : TcpPacket} {now : ℤ}
    {xs kept gone : List LcxlRouteListEntry} {p : Option RoutePtr}
    (h : Walk old pkt now xs kept gone p) :
    LcxlNetLoader.holds xs = LcxlNetLoader.holds gone + LcxlNetLoader.holds kept := by
  induction h with
  | nil => rfl
  | found => exact (zero_add _).symm
  | purge _ _ _ ih => rw [holds_cons, holds_cons, ih, chosen_add]
  | keep _ _ _ ih => rw [holds_cons, holds_cons, ih, add_comm, chosen_add, add_comm]

/-- Changing where one entry goes changes the reference it holds. -/
theorem holds_map {p : RoutePtr} {g : LcxlRouteListEntry → LcxlRouteListEntry}
    {r : LcxlRouteListEntry} : ∀ {rs : List LcxlRouteListEntry}, (rs.map (·.self)).Nodup → r ∈ rs →
      r.self = p → ∃ rest, holds rs = Counted.chosen r.dstServer rest
        ∧ holds (rs.map fun x => if x.self = p then g x else x)
          = Counted.chosen (g r).dstServer rest
  | x :: xs, hn, hr, hp => by
    simp only [List.map_cons, List.nodup_cons] at hn
    rw [List.map_cons, holds_cons, holds_cons]
    rcases List.mem_cons.1 hr with rfl | hr
    · refine ⟨holds xs, rfl, ?_⟩
      rw [if_pos hp]
      congr 2
      refine (List.map_congr_left fun y hy => if_neg ?_).trans (List.map_id _)
      rintro rfl
      exact hn.1 (hp ▸ List.mem_map_of_mem (f := (·.self)) hy)
    · obtain ⟨rest, h1, h2⟩ := holds_map (g := g) hn.2 hr hp
      have hx : x.self ≠ p := fun hx =>
        hn.1 (hx.trans hp.symm ▸ List.mem_map_of_mem (f := (·.self)) hr)
      refine ⟨Counted.chosen x.dstServer rest, ?_, ?_⟩
      · rw [h1, chosen_comm]
      · rw [if_neg hx, h2, chosen_comm]

theorem holds_erase {r : LcxlRouteListEntry} : ∀ {rs : List LcxlRouteListEntry},
    (rs.map (·.self)).Nodup → r ∈ rs →
      holds rs = Counted.chosen r.dstServer (holds (rs.eraseP (·.self = r.self)))
  | x :: xs, hn, hr => by
    simp only [List.map_cons, List.nodup_cons] at hn
    by_cases hx : x.self = r.self
    · have hxr : r = x := by
        rcases List.mem_cons.1 hr with hr | hr
        · exact hr
        · exact absurd (hx ▸ List.mem_map_of_mem (f := (·.self)) hr) hn.1
      subst hxr
      rw [List.eraseP_cons_of_pos (by simp), holds_cons]
    · have hr' : r ∈ xs := by
        rcases List.mem_cons.1 hr with hr | hr
        · exact absurd (congrArg _ hr.symm) hx
        · exact hr
      rw [List.eraseP_cons_of_neg (by simpa using hx), holds_cons, holds_cons,
        holds_erase hn.2 hr', chosen_comm]

namespace Counted

variable {t : ServerTable} {held : Multiset ServerPtr}

theorem dropServer {r : LcxlRouteListEntry} (h : Counted t (chosen r.dstServer held)) :
    Counted (dropServer t r) held := by
  unfold LcxlNetLoader.dropServer
  rcases hd : r.dstServer with _ | s <;> rw [hd] at h
  · exact h
  · exact h.dec

theorem dropServers : ∀ {rs : List LcxlRouteListEntry} {t : ServerTable},
    Counted t (holds rs + held) → Counted (rs.foldl LcxlNetLoader.dropServer t) held
  | [], _, h => by simpa [holds] using h
  | r :: rs, t, h => by
    rw [holds_cons, ← chosen_add] at h
    rw [List.foldl_cons]
    exact dropServers h.dropServer

end Counted

variable {cfg : LcxlSetting} {f f' : LcxlFilter} {pkt : TcpPacket} {amb : Ambient} {fr : Frame}

/-- The module's servers are counted, and its routes at rest. -/
structure CountedFilter (f : LcxlFilter) : Prop where
  counted : Counted f.module.serverList (holds f.routeTable.list)
  rest : f.routeTable.Rest

variable (cfg pkt) in
theorem CountedFilter.lookup (h : CountedFilter f) (now : ℤ) :
    Counted (lookup cfg f pkt now).2.1 (holds (lookup cfg f pkt now).1.list) := by
  obtain ⟨gone, hw, -, -, ht⟩ := lookup_walk cfg f pkt now
  rw [ht]
  have hc := h.counted
  rw [hw.holds] at hc
  exact hc.dropServers

theorem holds_create_init {rt : RouteTable} (h : rt.Ok) (pkt : TcpPacket) (s : ServerPtr)
    (now : ℤ) : holds (initRouteListEntry (createRouteListEntry rt).1 rt.next pkt s now).list
      = s ::ₘ holds rt.list := by
  rw [RouteTable.create_init_list h, holds_cons]
  rfl

/-- A route given another server, the reference to the old one having been given back. -/
theorem Counted.reuse {rt : RouteTable} {t : ServerTable} {s : ServerPtr} (h : rt.Ok)
    {r : LcxlRouteListEntry} (hr : r ∈ rt.list) (hc : Counted t (s ::ₘ holds rt.list))
    (now : ℤ) : Counted (dropRouteServer rt t r.self)
      (holds (initRouteListEntry rt r.self pkt s now).list) := by
  obtain ⟨rest, h1, h2⟩ := holds_map h.selfs hr rfl (g := fun r => { r with
    recvTimestamp := now
    srcIp := ⟨some pkt.ipMode, pkt.srcAddr⟩
    status := .normal
    dstServer := some s
    dstPort := pkt.thDport
    srcPort := pkt.thSport })
  simp only [dropRouteServer, h.find hr]
  refine Counted.dropServer ?_
  rw [initRouteListEntry, RouteTable.modify, h2]
  rw [h1] at hc
  exact (chosen_comm (some s) r.dstServer rest) ▸ hc

variable (cfg pkt) in
/-- Between a packet and the deletion of its route. -/
theorem CountedFilter.routed (h : CountedFilter f) (now later : ℤ) :
    Counted (routeTCPNBL cfg f pkt now later).1.module.serverList
      (holds (routeTCPNBL cfg f pkt now later).1.routeTable.list) := by
  have h1 := h.lookup cfg pkt now
  obtain ⟨gone, hw, -, hnext, -⟩ := lookup_walk cfg f pkt now
  have hok := (lookup_rest h.rest hw hnext).toOk
  have hstop := hw.stop.1
  rw [routeTCPNBL_eq]
  simp only [LcxlFilter.setRouting, LcxlFilter.setServers]
  unfold packetServers RouteTable.packet
  split_ifs with hs
  · have h2 := h1.selectBestServer pkt.ipMode pkt.dstAddr f.module.routingAlgorithm
      f.routingAlgorithmData
    have hsel : synServer f (LcxlNetLoader.lookup cfg f pkt now).2.1 pkt = _ := if_pos hs
    rw [← hsel] at h2
    rcases hserver : synServer f (LcxlNetLoader.lookup cfg f pkt now).2.1 pkt with _ | s <;>
      rw [hserver] at h2
    · exact h2
    rcases hp : (LcxlNetLoader.lookup cfg f pkt now).2.2 with _ | p
    · exact (holds_create_init hok pkt s later).symm ▸ h2
    · obtain ⟨r, hr, rfl, -⟩ := hstop p hp
      exact Counted.reuse hok hr h2 later
  · rcases hp : (LcxlNetLoader.lookup cfg f pkt now).2.2 with _ | p
    · exact h1
    · obtain ⟨r, hr, rfl, -⟩ := hstop p hp
      obtain ⟨rest, h2, h3⟩ := holds_map hok.selfs hr rfl
        (g := fun r => { r with status := nextStatus r.status pkt.thFlags })
      exact (h2.trans h3.symm) ▸ h1

theorem CountedFilter.dropClosed (h : f.routeTable.Ok)
    (hc : Counted f.module.serverList (holds f.routeTable.list)) (p : RoutePtr) :
    Counted (f.dropClosed p).module.serverList (holds (f.dropClosed p).routeTable.list) := by
  unfold LcxlFilter.dropClosed deleteRouteListEntry
  rcases hf : f.routeTable.find p with _ | r
  · exact hc
  · have hr := List.mem_of_find?_eq_some hf
    have hp : r.self = p := by simpa using List.find?_some hf
    split_ifs
    · rw [holds_erase h.selfs hr, hp] at hc
      exact hc.dropServer
    · exact hc

variable (cfg amb) in
theorem CountedFilter.receive_vip (h : CountedFilter f) (hv : vipPacket f fr = some pkt) :
    CountedFilter (receiveFrame cfg f fr amb).1 := by
  refine ⟨?_, (LcxlNetLoader.receive_vip cfg amb h.rest hv).1⟩
  rw [receiveFrame_vip hv]
  have h1 := h.routed cfg pkt amb.now amb.later
  have hok := (routeTCPNBL_busy h.rest cfg pkt amb.now amb.later).toOk
  unfold routePacket
  split
  · exact CountedFilter.dropClosed hok h1 _
  · exact h1

theorem responded_deleted {now : ℤ} {s s' : ServerInfoListEntry} (h : Responded now s s') :
    has s'.info.status ssDeleted = has s.info.status ssDeleted := by
  rw [h.info]
  simp only
  rw [has_and_of_keep (by decide), has_or, show has ssOnline ssDeleted = false by decide,
    Bool.or_false]

theorem Counted.responded {t t' : ServerTable} {held : Multiset ServerPtr} {mac : List UInt8}
    {now : ℤ} (h : Counted t held) (ht : RespondedTable mac now t t') : Counted t' held := by
  unfold RespondedTable at ht
  split at ht
  · exact ht ▸ h.lock.unlock
  · rename_i p _
    obtain ⟨g, hg, rfl⟩ := ht
    have h1 : Counted ((lockServerList t).modify p g) held := by
      refine h.lock.of_mem rfl rfl fun q => ?_
      rw [ServerTable.modify_mem]
      split_ifs
      · exact ⟨(hg _).refCount, responded_deleted (hg _)⟩
      · exact ⟨rfl, rfl⟩
    exact h1.unlock

theorem CountedFilter.receive (h : CountedFilter f) (fr : Frame) (amb : Ambient) :
    CountedFilter (receiveFrame cfg f fr amb).1 := by
  rcases hv : vipPacket f fr with _ | pkt
  · rcases hc : checkingSource f fr with _ | mac
    · rw [receiveFrame_other hv hc]
      exact h
    · obtain ⟨t, hf, ht⟩ := receiveFrame_checking cfg amb hc
      rw [hf]
      exact ⟨h.counted.responded ht, h.rest⟩
  · exact h.receive_vip cfg amb hv

/-- A check keeps a server's count and its deleted mark. -/
theorem checkServer_counted (cfg : LcxlSetting) (check : LcxlServerCheck) (now : ℤ)
    (s : ServerInfoListEntry) : (checkServer cfg check now s).1.refCount = s.refCount
      ∧ has (checkServer cfg check now s).1.info.status ssDeleted
        = has s.info.status ssDeleted := by
  simp only [checkServer]
  split_ifs
  · exact ⟨rfl, rfl⟩
  · refine ⟨rfl, ?_⟩
    simp only
    rw [has_and_of_keep (by decide)]
  · exact ⟨rfl, rfl⟩
  · exact ⟨rfl, rfl⟩
  · refine ⟨rfl, ?_⟩
    simp only
    rw [has_or, show has ssChecking ssDeleted = false by decide, Bool.or_false]
  · exact ⟨rfl, rfl⟩
  · exact ⟨rfl, rfl⟩
  · exact ⟨rfl, rfl⟩

theorem Counted.checkServers {module : LcxlModuleSettingInfo} {now : ℤ}
    {held : Multiset ServerPtr} : ∀ (ps : List ServerPtr) {t : ServerTable}, Counted t held →
      Counted (checkServersLoop cfg module now ps t).1 held
  | [], _, h => h
  | p :: ps, t, h => by
    have h1 : Counted (t.modify p fun _ => (checkServer cfg module.serverCheck now (t.mem p)).1)
        held := by
      refine h.of_mem rfl rfl fun q => ?_
      rw [ServerTable.modify_mem]
      split_ifs with hq
      · rw [hq]
        exact checkServer_counted cfg module.serverCheck now (t.mem p)
      · exact ⟨rfl, rfl⟩
    simp only [checkServersLoop]
    split_ifs
    · exact checkServers ps h1
    · exact checkServers ps h1

theorem CountedFilter.tick (h : CountedFilter f) (now : ℤ) :
    CountedFilter (workerTick cfg f now).1 := by
  unfold workerTick
  split_ifs
  · exact ⟨(h.counted.lock.checkServers _).unlock, h.rest⟩
  · exact h

/-- A server marked deleted is counted as if one more reference were held. -/
theorem Counted.mark {t : ServerTable} {held : Multiset ServerPtr} {p : ServerPtr}
    (h : Counted t held) (hp : p ∈ t.lst.list) (hd : has (t.mem p).info.status ssDeleted = false) :
    Counted (t.modify p fun s =>
      { s with info := { s.info with status := s.info.status ||| ssDeleted } }) (p ::ₘ held) := by
  have hc := h.count p hp
  rw [hd] at hc
  simp only [Bool.false_eq_true, if_false] at hc
  have hnew : ∀ q ∈ t.lst.toBeAddList, q ≠ p := fun q hq hqp => h.ok.disjoint p hp (hqp ▸ hq)
  have hgoing : ∀ q ∈ t.lst.toBeDelList, q ≠ p := by
    rintro q hq rfl
    rw [h.going q hq] at hc
    omega
  refine ⟨h.ok, h.fresh, fun q hq => ?_, fun q hq => ?_, fun q hq => ?_, fun q hq => ?_, h.gone⟩
  · by_cases hqp : q = p
    · subst hqp
      have hmark : has ((t.mem q).info.status ||| ssDeleted) ssDeleted = true := by
        rw [has_or, show has ssDeleted ssDeleted = true by decide, Bool.or_true]
      simp only [ServerTable.modify_mem_same, Multiset.count_cons_self, hmark, if_true, hc]
      omega
    · rw [ServerTable.modify_mem_of_ne hqp, Multiset.count_cons_of_ne hqp]
      exact h.count q hq
  · rcases Multiset.mem_cons.1 hq with rfl | hq
    · exact hp
    · exact h.linked q hq
  · rw [ServerTable.modify_mem_of_ne (hnew q hq)]
    exact h.new q hq
  · rw [ServerTable.modify_mem_of_ne (hgoing q hq)]
    exact h.going q hq

theorem Counted.routerDelServer {t : ServerTable} {held : Multiset ServerPtr} (h : Counted t held)
    (past : ServerPtr → Bool) (macAddr : IfPhysicalAddress) :
    Counted (routerDelServer past t macAddr).1 held := by
  unfold LcxlNetLoader.routerDelServer
  simp only
  split
  · exact h.lock
  · rename_i p hp
    split_ifs with hd
    · exact h.lock
    · exact (h.lock.mark (List.mem_of_find?_eq_some hp) (by simpa using hd)).dec

/-- The memory of a new server is none that is in use. -/
theorem Counted.grow {t : ServerTable} {held : Multiset ServerPtr} (h : Counted t held)
    (s : ServerInfoListEntry) :
    Counted { t with next := t.next + 1, mem := Function.update t.mem t.next s } held := by
  have hmem : ∀ q, q ∈ t.lst.list ∨ q ∈ t.lst.toBeAddList ∨ q ∈ t.lst.delCalls →
      Function.update t.mem t.next s q = t.mem q :=
    fun q hq => Function.update_of_ne (h.fresh q hq).ne _ _
  refine ⟨h.ok, fun q hq => Nat.lt_succ_of_lt (h.fresh q hq), fun q hq => ?_, h.linked,
    fun q hq => ?_, fun q hq => ?_, h.gone⟩
  · simp only [hmem q (.inl hq)]
    exact h.count q hq
  · simp only [hmem q (.inr (.inl hq))]
    exact h.new q hq
  · simp only [hmem q (.inl (h.ok.linked q hq))]
    exact h.going q hq

/-- A server that no list has had, held by nothing but the list. -/
theorem Counted.add {t : ServerTable} {held : Multiset ServerPtr} {p : ServerPtr}
    (h : Counted t held) (hlt : p < t.next)
    (hp : ¬ (p ∈ t.lst.list ∨ p ∈ t.lst.toBeAddList ∨ p ∈ t.lst.delCalls))
    (hr : (t.mem p).refCount = 1) (hd : has (t.mem p).info.status ssDeleted = false) :
    Counted { t with lst := addEntrytoLcxlList t.lst p } held := by
  rw [not_or, not_or] at hp
  obtain ⟨hl, ha, hg⟩ := hp
  have hz : held.count p = 0 := Multiset.count_eq_zero.2 fun hm => hl (h.linked _ hm)
  have hok := h.ok.add hl ha
  unfold addEntrytoLcxlList at hok ⊢
  split_ifs at hok ⊢
  · refine ⟨hok, fun q hq => ?_, h.count, h.linked, fun q hq => ?_, h.going, fun q hq => ?_⟩
    · simp only [List.mem_append, List.mem_singleton] at hq
      rcases hq with hq | (hq | rfl) | hq
      · exact h.fresh q (.inl hq)
      · exact h.fresh q (.inr (.inl hq))
      · exact hlt
      · exact h.fresh q (.inr (.inr hq))
    · rcases List.mem_append.1 hq with hq | hq
      · exact h.new q hq
      · rw [List.mem_singleton.1 hq]
        exact ⟨hr, hd⟩
    · refine ⟨(h.gone q hq).1, fun hm => ?_⟩
      rcases List.mem_append.1 hm with hm | hm
      · exact (h.gone q hq).2 hm
      · exact hg (List.mem_singleton.1 hm ▸ hq)
  · refine ⟨hok, fun q hq => ?_, fun q hq => ?_, fun q hq => ?_, h.new, h.going, fun q hq => ?_⟩
    · simp only [linkEntry, List.mem_append, List.mem_singleton] at hq
      rcases hq with (hq | rfl) | hq | hq
      · exact h.fresh q (.inl hq)
      · exact hlt
      · exact h.fresh q (.inr (.inl hq))
      · exact h.fresh q (.inr (.inr hq))
    · rcases List.mem_append.1 hq with hq | hq
      · exact h.count q hq
      · rw [List.mem_singleton.1 hq]
        simp [hr, hd, hz]
    · exact List.mem_append_left _ (h.linked q hq)
    · refine ⟨fun hm => ?_, (h.gone q hq).2⟩
      rcases List.mem_append.1 hm with hm | hm
      · exact (h.gone q hq).1 hm
      · exact hg (List.mem_singleton.1 hm ▸ hq)

theorem Counted.alloc {t : ServerTable} {held : Multiset ServerPtr} (h : Counted t held)
    {s : ServerInfoListEntry} (hr : s.refCount = 1) (hd : has s.info.status ssDeleted = false) :
    Counted { t with
      next := t.next + 1
      mem := Function.update t.mem t.next s
      lst := addEntrytoLcxlList t.lst t.next } held := by
  refine (h.grow s).add (Nat.lt_succ_self _) (fun hm => (h.fresh _ hm).ne rfl) ?_ ?_
  · simp only [Function.update_self, hr]
  · simp only [Function.update_self, hd]

theorem Counted.routerAddServer {t : ServerTable} {held : Multiset ServerPtr} (h : Counted t held)
    {past : ServerPtr → Bool} {now : ℤ} {server : LcxlServer}
    (hd : has server.status ssDeleted = match findServer past t server.macAddr with
      | some p => has (t.mem p).info.status ssDeleted
      | none => false) : Counted (routerAddServer past now t server) held := by
  have hfind : findServer past (lockServerList t) server.macAddr
      = findServer past t server.macAddr := rfl
  simp only [LcxlNetLoader.routerAddServer, hfind]
  rcases hf : findServer past t server.macAddr with _ | p <;> rw [hf] at hd
  · exact (h.lock.alloc rfl hd).unlock
  · have h1 : Counted ((lockServerList t).modify p fun s => { s with info := server }) held := by
      refine h.lock.of_mem rfl rfl fun q => ?_
      rw [ServerTable.modify_mem]
      split_ifs with hq
      · exact ⟨rfl, hq ▸ hd⟩
      · exact ⟨rfl, rfl⟩
    exact h1.unlock

theorem CountedFilter.accounted (h : CountedFilter f) : f.Accounted := by
  intro p hp
  rw [h.counted.count p hp, count_holds]
  rfl

theorem CountedFilter.noneDangling (h : CountedFilter f) : f.NoneDangling := by
  refine ⟨fun p hp => ?_, fun r hr p hd => ?_⟩
  · rw [h.counted.count p hp]
    split_ifs <;> omega
  · have hm : p ∈ holds f.routeTable.list := mem_holds.2 ⟨r, hr, hd⟩
    have hl := h.counted.linked p hm
    exact ⟨hl, h.counted.not_going hm, fun hg => (h.counted.gone p hg).1 hl⟩

namespace LcxlFilter

variable {tr : List Event}

theorem countedFilter_fresh (f : LcxlFilter) : CountedFilter f.fresh := by
  refine ⟨⟨.init, ?_, ?_, ?_, ?_, ?_, ?_⟩, ⟨⟨?_, ?_, ?_, ?_⟩, ?_⟩⟩ <;>
    simp [fresh, setRouting, setServers, initLcxlList, holds]

theorem countedFilter_step {e : Event} (h : CountedFilter f) (hs : KeepsDeletedStep cfg f e f') :
    CountedFilter f' := by
  obtain ⟨hk, rfl⟩ := hs
  cases e with
  | recv fr amb => exact h.receive fr amb
  | tick now => exact h.tick now
  | addServer past now server => exact ⟨h.counted.routerAddServer hk, h.rest⟩
  | delServer past macAddr => exact ⟨h.counted.routerDelServer past macAddr, h.rest⟩
  | other f => exact hk.elim

/-- Over any run from empty lists in which no request to add a server writes a found server's
deleted mark, every server is accounted for and no route dangles. -/
theorem accounted_of_keepsDeleted (h : Sys.Run (KeepsDeletedStep cfg) f.fresh tr f') :
    f'.Accounted ∧ f'.NoneDangling := by
  have hc := h.preserves (I := CountedFilter) (fun h hs => countedFilter_step h hs)
    (countedFilter_fresh f)
  exact ⟨hc.accounted, hc.noneDangling⟩

/-- A server is added, a connection opened to it, and the server deleted. -/
def deleting : List Event :=
  [Sample.addServer, .recv (Sample.tcpFrame thSyn) (Sample.ambient 1),
    .delServer (fun _ => false) Sample.serverMac]

def deleted : LcxlFilter := deleting.foldl (exec Sample.setting) Sample.router.fresh

theorem deleting_run : Sys.Run (KeepsDeletedStep Sample.setting) Sample.router.fresh deleting
    deleted :=
  ((Sys.Run.nil.snoc ⟨rfl, rfl⟩).snoc ⟨trivial, rfl⟩).snoc ⟨trivial, rfl⟩

theorem accounted_deleted : deleted.routesTo 0 = 1 ∧ deleted.Accounted ∧ deleted.NoneDangling :=
  ⟨by decide +kernel, accounted_of_keepsDeleted deleting_run⟩

/-- Adding the deleted server again takes its mark off, while only its route is counted. -/
theorem not_accounted_of_added_again : ¬ ∀ (cfg : LcxlSetting) (f f' : LcxlFilter)
    (tr : List Event), Sys.Run (ModuleStep cfg) f.fresh tr f' → f'.Accounted := by
  intro h
  have hrun : Sys.Run (ModuleStep Sample.setting) Sample.router.fresh
      (deleting ++ [Sample.addServer]) (deleted.exec Sample.setting Sample.addServer) :=
    (((Sys.Run.nil.snoc ⟨trivial, rfl⟩).snoc ⟨trivial, rfl⟩).snoc ⟨trivial, rfl⟩).snoc
      ⟨trivial, rfl⟩
  have h0 := h _ _ _ _ hrun 0 (by decide +kernel)
  exact absurd h0 (by decide +kernel)

end LcxlFilter

end LcxlNetLoader
