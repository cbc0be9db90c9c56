import LcxlNetLoader.Proofs.References
import LcxlNetLoader.Proofs.RouteTable
import LcxlNetLoader.RouteMemory

/-!
# Looking up a route in memory

The walk over the ring does to it what the lookup does to the list of its entries, and never comes
to an entry it has freed: the link to the next entry is read before this one is deleted
(`getRouteLoop_eq`).
-/

namespace LcxlNetLoader

namespace RouteMemory

variable {cfg : LcxlSetting} {routeTimeout now : ℤ} {pkt : TcpPacket} {head : RoutePtr}
  {m m' : RouteMemory} {r : LcxlRouteListEntry} {as bs rs : List LcxlRouteListEntry}

namespace Holds

theorem nodup (h : m.Holds head rs) : (rs.map (·.self)).Nodup :=
  (List.nodup_cons.1 h.ring.nodup).2

theorem read (h : m.Holds head rs) (hr : r ∈ rs) : m.read r.self = some r := by
  have hsome := h.ring.isSome (List.mem_cons_of_mem head (List.mem_map_of_mem hr))
  obtain ⟨x, hx⟩ := Option.isSome_iff_exists.1 hsome
  rw [RouteMemory.read, hx, Option.map_some, h.entry r hr]

/-- The link from an entry leads to the next one, or to the head. -/
theorem flink (h : m.Holds head (as ++ r :: bs)) :
    Ring.flink m.links r.self = some ((bs.map (·.self)).headD head) :=
  h.ring.flink_eq (head :: as.map (·.self)) (by simp)

theorem ne_head (h : m.Holds head rs) (hr : r ∈ rs) : r.self ≠ head := by
  rintro rfl
  exact (List.nodup_cons.1 h.ring.nodup).1 (List.mem_map_of_mem hr)

/-- No other entry has the address of this one. -/
theorem self_ne (h : m.Holds head (as ++ r :: bs)) : ∀ x ∈ as ++ bs, x.self ≠ r.self := by
  have hn := h.nodup
  rw [List.map_append, List.map_cons, List.nodup_middle, List.nodup_cons, ← List.map_append] at hn
  intro x hx hxr
  exact hn.1 (hxr ▸ List.mem_map_of_mem (f := (·.self)) hx)

theorem write {r' : LcxlRouteListEntry} (h : m.Holds head (as ++ r :: bs))
    (hr : r'.self = r.self) :
    Holds { m with entry := Function.update m.entry r.self r' } head (as ++ r' :: bs) := by
  refine ⟨by simpa [hr] using h.ring, fun x hx => ?_⟩
  rcases List.mem_cons.1 (List.perm_middle.mem_iff.1 hx) with rfl | hx
  · rw [hr]
    exact Function.update_self _ _ _
  · refine (Function.update_of_ne (h.self_ne x hx) _ _).trans (h.entry x ?_)
    exact List.perm_middle.mem_iff.2 (List.mem_cons_of_mem r hx)

end Holds

/-- From `m` to `m'` these entries were freed, each giving up its server, and nothing allocated. -/
structure Freed (m m' : RouteMemory) (gone : List LcxlRouteListEntry) : Prop where
  servers : m'.servers = gone.foldl dropServer m.servers
  freed : m'.freed = m.freed ++ gone.map (·.self)
  unallocated : ∀ r ∈ gone, m'.links r.self = none
  kept : ∀ p, m.links p = none → m'.links p = none

theorem Freed.nil (hs : m'.servers = m.servers) (hf : m'.freed = m.freed)
    (hl : m'.links = m.links) : Freed m m' [] :=
  ⟨hs, by simp [hf], by simp, fun p hp => by rw [hl, hp]⟩

theorem Freed.cons {m₁ : RouteMemory} {gone : List LcxlRouteListEntry} (h : Freed m m₁ [r])
    (h' : Freed m₁ m' gone) : Freed m m' (r :: gone) := by
  refine ⟨?_, ?_, List.forall_mem_cons.2 ⟨?_, h'.unallocated⟩, fun p hp => h'.kept p (h.kept p hp)⟩
  · rw [h'.servers, h.servers]
    rfl
  · rw [h'.freed, h.freed]
    simp
  · exact h'.kept _ (h.unallocated r (by simp))

/-- The entry is taken out of the ring and freed, and its server loses a reference. -/
theorem Holds.delete (h : m.Holds head (as ++ r :: bs)) (hr : r.dstServer.isSome) :
    ∃ m', m.deleteRouteListEntry r.self = some m' ∧ m'.Holds head (as ++ bs)
      ∧ Freed m m' [r] := by
  obtain ⟨s, hs⟩ := Option.isSome_iff_exists.1 hr
  have hmem : r ∈ as ++ r :: bs := by simp
  have hring := h.ring
  rw [List.map_append, List.map_cons] at hring
  obtain ⟨l, hl, hring', hlr, hlnone⟩ := hring.removeEntry
  have hread := h.read hmem
  obtain ⟨x, hx, -⟩ := Option.map_eq_some_iff.1 hread
  refine ⟨⟨Function.update l r.self none, m.entry, decRefListEntry m.servers s,
    m.freed ++ [r.self]⟩, ?_, ⟨?_, fun x hx => h.entry x ?_⟩, ⟨?_, rfl, ?_, fun p hp => ?_⟩⟩
  · simp [deleteRouteListEntry, hread, hl, Ring.free, hlr, hx, hs]
  · rw [List.map_append]
    refine hring'.free fun hm => ?_
    rw [← List.map_append] at hm
    rcases List.mem_cons.1 hm with hm | hm
    · exact h.ne_head hmem hm
    · obtain ⟨x, hx, hxr⟩ := List.mem_map.1 hm
      exact h.self_ne x hx hxr
  · exact List.perm_middle.mem_iff.2 (List.mem_cons_of_mem r hx)
  · simp [dropServer, hs]
  · simp
  · dsimp only
    by_cases hpr : p = r.self
    · rw [hpr, Function.update_self]
    · rw [Function.update_of_ne hpr, hlnone p hp]

/-- From any entry on, the walk does to the ring what the lookup does to the list. -/
theorem getRouteLoop_eq : ∀ (bs as : List LcxlRouteListEntry) (m : RouteMemory) (fuel : ℕ),
    bs.length < fuel → m.Holds head (as ++ bs) → (∀ r ∈ bs, r.dstServer.isSome) →
    let l := LcxlNetLoader.getRouteLoop cfg routeTimeout now pkt bs m.servers
    ∃ m', getRouteLoop cfg routeTimeout now pkt head fuel ((bs.map (·.self)).headD head) m
        = some (m', l.2.2.2)
      ∧ m'.Holds head (as ++ l.1) ∧ Freed m m' l.2.1
  | [], as, m, fuel + 1, _, h, _ =>
    ⟨m, by simp [getRouteLoop, LcxlNetLoader.getRouteLoop], h, .nil rfl rfl rfl⟩
  | r :: bs, as, m, fuel + 1, hf, h, hs => by
    have hmem : r ∈ as ++ r :: bs := by simp
    have hread := h.read hmem
    rw [List.forall_mem_cons] at hs
    rw [List.length_cons, Nat.add_lt_add_iff_right] at hf
    simp only [getRouteLoop, LcxlNetLoader.getRouteLoop, List.map_cons, List.headD_cons,
      if_neg (h.ne_head hmem), hread, h.flink]
    dsimp only [bind, Option.bind]
    split_ifs with hm he
    · exact ⟨_, rfl, h.write rfl, .nil rfl rfl rfl⟩
    · -- The link to the next entry was read before this one is freed.
      obtain ⟨m₁, hdel, h₁, hfreed⟩ := h.delete hs.1
      obtain ⟨m', hrun, h', hfreed'⟩ := getRouteLoop_eq bs as m₁ fuel hf h₁ hs.2
      rw [hfreed.servers] at hrun h' hfreed'
      refine ⟨m', ?_, h', hfreed.cons hfreed'⟩
      rw [hdel]
      exact hrun
    · rw [List.append_cons] at h
      obtain ⟨m', hrun, h', hfreed⟩ := getRouteLoop_eq bs (as ++ [r]) m fuel hf h hs.2
      exact ⟨m', hrun, by simpa using h', hfreed⟩

theorem matches_eq (r : LcxlRouteListEntry) (pkt : TcpPacket) :
    r.matches pkt = decide (r.key = pkt.key) := by
  rw [Bool.eq_iff_iff, matches_iff, decide_eq_true_eq]

variable (cfg routeTimeout now pkt) in
theorem getRouteListEntry_eq (h : m.Holds head rs) (hs : ∀ r ∈ rs, r.dstServer.isSome)
    {fuel : ℕ} (hf : rs.length < fuel) :
    let l := LcxlNetLoader.getRouteLoop cfg routeTimeout now pkt rs m.servers
    ∃ m', getRouteListEntry cfg m head routeTimeout pkt now fuel = some (m', l.2.2.2)
      ∧ m'.Holds head l.1 ∧ Freed m m' l.2.1 := by
  obtain ⟨m', hrun, h', hfreed⟩ := getRouteLoop_eq rs [] m fuel hf h hs
  refine ⟨m', ?_, h', hfreed⟩
  rw [getRouteListEntry, h.ring.flink_eq [] rfl]
  exact hrun

/-- The lookup in memory is the lookup in the list of the entries. -/
theorem getRouteListEntry_refines {rt : RouteTable} (h : m.Holds head rt.list)
    (hs : ∀ r ∈ rt.list, r.dstServer.isSome) {fuel : ℕ} (hf : rt.list.length < fuel) :
    let l := LcxlNetLoader.getRouteListEntry cfg rt routeTimeout m.servers pkt now
    ∃ m', getRouteListEntry cfg m head routeTimeout pkt now fuel = some (m', l.2.2)
      ∧ m'.Holds head l.1.list ∧ m'.servers = l.2.1 := by
  obtain ⟨m', hrun, h', hfreed⟩ := getRouteListEntry_eq cfg routeTimeout now pkt h hs hf
  refine ⟨m', hrun, h', ?_⟩
  rw [hfreed.servers]
  exact (getRouteLoop_walk cfg routeTimeout now pkt rt.list m.servers).2.symm

/-- A lookup returns the entry of the packet's connection, used now, and throws out what has not
been used for too long in front of it. -/
theorem getRouteListEntry_lookedUp (h : m.Holds head rs) (hs : ∀ r ∈ rs, r.dstServer.isSome)
    {fuel : ℕ} (hf : rs.length < fuel) :
    ∃ m' p, getRouteListEntry cfg m head routeTimeout pkt now fuel = some (m', p)
      ∧ LookedUp cfg routeTimeout now pkt rs head m m' p := by
  obtain ⟨m', hrun, h', hfreed⟩ := getRouteListEntry_eq cfg routeTimeout now pkt h hs hf
  obtain ⟨behind, hrs, hgone, hkept, hp⟩ :=
    (getRouteLoop_walk cfg routeTimeout now pkt rs m.servers).1.split
  have hbefore : before pkt rs = rs.takeWhile (·.key ≠ pkt.key) := by
    simp only [before, matches_eq, decide_not]
  have hown : rs.find? (·.matches pkt) = rs.find? (·.key = pkt.key) := by
    simp only [matches_eq]
  have hfrom : fromOwn pkt rs = (rs.find? (·.key = pkt.key)).toList ++ behind := by
    refine (List.append_right_inj (before pkt rs)).1 ?_
    rw [before, fromOwn, List.takeWhile_append_dropWhile]
    rw [← before, hbefore]
    exact hrs
  refine ⟨m', _, hrun, ?_, ?_, ?_, ?_, ?_, ?_⟩
  · rw [hp, hown]
  · rw [hkept] at h'
    rw [hbefore, hfrom]
    rcases hr : rs.find? (·.key = pkt.key) with _ | r
    · -- Without an entry of its own the packet has all of them in front.
      have hall : rs.takeWhile (·.key ≠ pkt.key) = rs := by
        simpa [List.takeWhile_eq_self_iff] using hr
      have hbehind : behind = [] := by
        rw [hall, hr, Option.toList_none, List.nil_append] at hrs
        exact List.self_eq_append_right.1 hrs
      subst hbehind
      simpa [hr] using h'
    · simpa [hr] using h'
  · rw [hfreed.freed, hgone, gone, hbefore]
  · rw [gone]
    exact h.nodup.sublist ((List.filter_sublist.trans (List.takeWhile_sublist _)).map _)
  · rw [gone, hbefore, ← hgone]
    exact hfreed.unallocated
  · intro s
    rw [gone, hbefore, ← hgone, hfreed.servers]
    exact ServerTable.refCount_dropServers s _ _

/-- Two routes, the first of them last used at time 0. -/
def sample : RouteMemory where
  links
    | 0 => some ⟨1, 2⟩
    | 1 => some ⟨2, 0⟩
    | 2 => some ⟨0, 1⟩
    | _ => none
  entry p := ⟨p, .normal, ⟨some .ipv4, [10, 0, 0, 9]⟩, UInt16.ofNat p, 80, some 0, 10 * p - 10⟩
  servers := ⟨⟨[0], 1, [], [], 0, []⟩, fun _ => { allocServer 0 with refCount := 3 }, 1⟩
  freed := []

def samplePacket : TcpPacket := ⟨.ipv4, [10, 0, 0, 9], [10, 0, 0, 1], 2, 80, thAck⟩

theorem sample_holds : sample.Holds 0 [sample.entry 1, sample.entry 2] := by
  refine ⟨⟨by decide, ?_⟩, by simp [sample]⟩
  simp [sample, Ring.Joined, Ring.flink, Ring.blink]

/-- The first route is thrown out on the way to the second. -/
theorem getRouteListEntry_lookedUp_two :
    ∃ m' p, getRouteListEntry ⟨1, false⟩ sample 0 5 samplePacket 10 3 = some (m', p)
      ∧ LookedUp ⟨1, false⟩ 5 10 samplePacket [sample.entry 1, sample.entry 2] 0 sample m' p :=
  getRouteListEntry_lookedUp sample_holds (by simp [sample]) (by decide)

end RouteMemory

end LcxlNetLoader
