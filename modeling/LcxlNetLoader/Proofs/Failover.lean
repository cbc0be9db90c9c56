import LcxlNetLoader.Proofs.Health
import LcxlNetLoader.Proofs.Opening

/-!
# Connections leave a server that has fallen silent

While a server is selected it is online, so it was last heard of not longer ago than one interval
and all retries take and a tick for each (`Prompt.bound`). A packet later than that, with the worker
thread in time, goes to another server if there is one.
-/

namespace LcxlNetLoader

open Sys

/-- The longest a server stays online unheard of, with ticks at most `g` apart. -/
def LcxlServerCheck.patience (cfg : LcxlSetting) (check : LcxlServerCheck) (g : ℤ) : ℤ :=
  cfg.frequency * (check.interval + check.retryNumber * check.timeout)
    + (check.retryNumber + 1) * g

section Selected

variable {cfg : LcxlSetting} {f : LcxlFilter} {fr : Frame} {amb : Ambient} {pkt : TcpPacket}
  {key : ConnKey} {p : ServerPtr} {x : ServerInfoListEntry}

theorem lookup_refOnly (cfg : LcxlSetting) (f : LcxlFilter) (pkt : TcpPacket) (now : ℤ) :
    RefOnly f.module.serverList (lookup cfg f pkt now).2.1 := by
  obtain ⟨gone, -, -, -, ht⟩ := lookup_walk cfg f pkt now
  rw [ht]
  exact RefOnly.dropServers gone _

/-- A server that is selected is online as the frame comes. -/
theorem online_of_selected (h : .selected key p x ∈ routeEvents cfg f fr amb) :
    has (f.module.serverList.mem p).info.status ssOnline := by
  rcases hv : vipPacket f fr with _ | pkt
  · rw [routeEvents, hv] at h
    exact absurd h List.not_mem_nil
  · rw [routeEvents_vip cfg amb hv] at h
    simp only [List.mem_append, List.mem_map, Option.mem_toList] at h
    rcases h with (⟨r, -, hr⟩ | ⟨q, hq, hr⟩) | ⟨r, -, hr⟩
    · cases hr
    · cases hr
      have hav := synServer_avaliable hq
      rw [show serverIsAvaliable ((lookup cfg f pkt amb.now).2.1.mem p) pkt.ipMode
        = serverIsAvaliable (f.module.serverList.mem p) pkt.ipMode from
          (lookup_refOnly cfg f pkt amb.now).avaliable p pkt.ipMode] at hav
      simp only [serverIsAvaliable, Bool.and_eq_true] at hav
      exact hav.1.1
    · cases hr

/-- A packet with `TH_SYN` alone goes to the server that is selected for it. -/
theorem forwardedTo_of_synServer (h : f.routeTable.Rest) (hv : vipPacket f fr = some pkt)
    (hf : pkt.thFlags = thSyn) (hs : synServer f (lookup cfg f pkt amb.now).2.1 pkt = some p) :
    ForwardedTo cfg f fr amb p := by
  obtain ⟨gone, hw, -⟩ := lookup_walk cfg f pkt amb.now
  obtain ⟨htable, hroute⟩ := Prod.ext_iff.1 (routeTCPNBL_table cfg f pkt amb.now amb.later)
  simp only [hs] at htable hroute
  have hstop : ∀ q ∈ (lookup cfg f pkt amb.now).2.2,
      ∃ r ∈ (lookup cfg f pkt amb.now).1.list, r.self = q := by
    intro q hq
    obtain ⟨r, hr, hself, -⟩ := hw.stop.1 q hq
    exact ⟨r, hr, hself⟩
  obtain ⟨q, r, hq, hr, -, -, -, hdst⟩ := RouteTable.packet_syn amb.later hf hstop p
  rw [← htable] at hr
  rw [← hroute] at hq
  have hrq : r.self = q := by simpa using List.find?_some hr
  exact forwardedTo_of_route hv hq (routeTCPNBL_busy h cfg pkt amb.now amb.later).toOk
    (List.mem_of_find?_eq_some hr) hrq hdst

end Selected

namespace Watched

variable {cfg : LcxlSetting} {f : LcxlFilter} {past : ServerPtr → Bool} {now g : ℤ}
  {server : LcxlServer} {p : ServerPtr} {mac : List UInt8} {tr : List Event} {s : Watched}

/-- Right after a server was added it has been heard of. -/
theorem Prompted.start (hp : p = added past f.module.serverList server)
    (hpast : ∀ q ∈ findServer past (lockServerList f.module.serverList) server.macAddr,
      (f.module.serverList.mem q).timestamp ≤ now)
    (hc : has server.status ssChecking = false) (hd : has server.status ssDeleted = false)
    (hi : 0 ≤ f.module.serverCheck.interval) :
    Prompted cfg f.module.serverCheck g p (start cfg f past now server) := by
  have hinfo := start_info cfg f past now server
  have htime := start_timestamp_le cfg hpast
  rw [← hp] at hinfo htime
  refine ⟨rfl, le_rfl, le_rfl, by rw [hinfo, hd], fun _ _ => ⟨htime, ?_⟩, fun _ h => ?_⟩
  · have : 0 ≤ cfg.frequency * f.module.serverCheck.interval := by positivity
    simpa [Watched.start] using this
  · simp [hinfo, hc] at h

/-- In every timely run: a frame that comes before the next tick is late, but longer after the
server was last heard of than it stays online, selects the server for no connection; and a packet
that opens one goes to another server if there is one for it. -/
theorem failover (h : Run (TimelyStep cfg p mac g) (start cfg f past now server) tr s)
    (hp : p = added past f.module.serverList server)
    (hpast : ∀ q ∈ findServer past (lockServerList f.module.serverList) server.macAddr,
      (f.module.serverList.mem q).timestamp ≤ now)
    (hc : has server.status ssChecking = false) (hd : has server.status ssDeleted = false)
    (hi : 0 ≤ f.module.serverCheck.interval) (ht : 0 ≤ f.module.serverCheck.timeout)
    (hr : 1 ≤ f.module.serverCheck.retryNumber) {fr : Frame} {amb : Ambient}
    (hclock : s.clock ≤ amb.now) (hmark : amb.now - s.mark ≤ g)
    (hsilent : f.module.serverCheck.patience cfg g + g < amb.now - s.lastSeen) :
    (∀ key x, .selected key p x ∉ routeEvents cfg s.filter fr amb) ∧
      ∀ pkt, vipPacket s.filter fr = some pkt → pkt.thFlags = thSyn →
        s.filter.Referenced → s.filter.routeTable.Rest →
        (s.filter.module.routingAlgorithm = raLeastConnection
          ∨ s.filter.module.routingAlgorithm = raFastResponse
          ∨ s.filter.module.routingAlgorithm = raPoll) →
        (∃ q, s.filter.Serves pkt q ∧ s.filter.Outlasts cfg pkt amb.now q) →
        ∃ q, q ≠ p ∧ s.filter.Serves pkt q ∧ ForwardedTo cfg s.filter fr amb q := by
  have hprompted : Prompted cfg f.module.serverCheck g p s :=
    h.preserves (fun h hs => h.step hi ht hr hs) (.start hp hpast hc hd hi)
  have hoffline : ¬ has (s.filter.module.serverList.mem p).info.status ssOnline := by
    intro hon
    have hg : 0 ≤ g := by
      have := hprompted.mark_le
      omega
    have hbound := hprompted.server.bound ht hr hg hon
    rw [LcxlServerCheck.patience] at hsilent
    omega
  refine ⟨fun key x hx => hoffline (online_of_selected hx), fun pkt hv hf href hrest halg hq => ?_⟩
  obtain ⟨hserver, hnone⟩ := href.synServer cfg amb.now halg hf
  rcases hs : synServer s.filter (lookup cfg s.filter pkt amb.now).2.1 pkt with _ | q
  · obtain ⟨q, hserves, houtlasts⟩ := hq
    exact absurd houtlasts (hnone hs q hserves)
  · have hserves := (hserver q hs).1
    refine ⟨q, ?_, hserves, forwardedTo_of_synServer hrest hv hf hs⟩
    rintro rfl
    have hav := hserves.2
    simp only [ServerTable.avaliable, serverIsAvaliable, Bool.and_eq_true] at hav
    exact hoffline hav.1.1

theorem TimelyStep.tick {t : ℤ} (h : s.filter.HasServer p mac) (hc : s.clock ≤ t)
    (hg : t - s.mark ≤ g) :
    TimelyStep cfg p mac g s (.tick t) (s.exec cfg mac (.tick t)) := by
  refine ⟨⟨⟨h, hc⟩, rfl⟩, fun t' ht' => ?_⟩
  cases ht'
  exact hg

/-- A second server, of another address. -/
def standby : LcxlServer := { Sample.server with
  macAddr := ⟨6, (Bytes.zero 32).move [2, 0, 0, 0, 0, 8]⟩ }

/-- Ticks that ask the first server in vain, and the second one added after them. -/
def lapse : List Event :=
  [.tick 31, .tick 62, .tick 93, .tick 124, .addServer (fun _ => false) 150 standby]

def lapsed : Watched :=
  lapse.foldl (exec Sample.setting Sample.server.macAddr.mac)
    (start Sample.setting Sample.router (fun _ => false) 0 Sample.server)

theorem lapse_run : Run (TimelyStep Sample.setting 0 Sample.server.macAddr.mac 31)
    (start Sample.setting Sample.router (fun _ => false) 0 Sample.server) lapse lapsed := by
  refine ((((Run.nil.snoc (.tick ⟨rfl, ?_⟩ ?_ ?_)).snoc (.tick ⟨rfl, ?_⟩ ?_ ?_)).snoc
    (.tick ⟨rfl, ?_⟩ ?_ ?_)).snoc (.tick ⟨rfl, ?_⟩ ?_ ?_)).snoc
      ⟨⟨⟨⟨1, rfl⟩, rfl⟩, rfl⟩, fun t ht => by cases ht⟩ <;> decide +kernel

theorem failover_standby :
    (∀ key x, .selected key 0 x ∉
      routeEvents Sample.setting lapsed.filter (Sample.tcpFrame thSyn) (Sample.ambient 155)) ∧
      ∃ q, q ≠ 0 ∧ ForwardedTo Sample.setting lapsed.filter (Sample.tcpFrame thSyn)
        (Sample.ambient 155) q := by
  have hpacket : (vipPacket lapsed.filter (Sample.tcpFrame thSyn)).map
      (fun pkt => (pkt.thFlags, pkt.ipMode)) = some (thSyn, .ipv4) := by decide +kernel
  obtain ⟨pkt, hv, hpkt⟩ := Option.map_eq_some_iff.1 hpacket
  obtain ⟨hflags, hmode⟩ := Prod.mk.inj hpkt
  have hlist : 1 ∈ lapsed.filter.module.serverList.lst.list := by decide +kernel
  have hroutes : lapsed.filter.routeTable.list = [] := by decide +kernel
  have hreferenced : lapsed.filter.Referenced := by
    refine ⟨⟨by decide +kernel, by decide +kernel⟩, ?_, ?_, by decide +kernel⟩
    · simp [hroutes]
    · simp [hroutes]
  have hrest : lapsed.filter.routeTable.Rest := by
    refine ⟨⟨?_, ?_, ?_, ?_⟩, ?_⟩ <;> simp [hroutes]
  have houtlasts : lapsed.filter.expiredTo Sample.setting pkt 155 1 = 0 := by
    simp [LcxlFilter.expiredTo, hroutes]
  obtain ⟨hselects, hforwards⟩ := @failover _ _ _ _ _ _ _ _ _ _ lapse_run rfl (by decide +kernel)
    (by decide) (by decide) (by decide) (by decide) (by decide) (Sample.tcpFrame thSyn)
    (Sample.ambient 155) (by decide) (by decide) (by decide +kernel)
  obtain ⟨q, hne, -, hq⟩ := hforwards pkt hv hflags hreferenced hrest (.inl rfl)
    ⟨1, ⟨hlist, by rw [hmode]; decide +kernel⟩, .inr (.inl houtlasts)⟩
  exact ⟨hselects, q, hne, hq⟩

end Watched

end LcxlNetLoader
