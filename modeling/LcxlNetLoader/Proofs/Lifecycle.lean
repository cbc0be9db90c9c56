import LcxlNetLoader.Lifecycle
import LcxlNetLoader.Proofs.Device

/-!
# Sending only while running

The handlers of the data path look at the state first, so whatever they call in another one
completes or returns. The worker thread does not: a tick sends for every router that has a server
to be checked (`checkServersLoop_sent`), and leaves the others as they are.
-/

namespace LcxlNetLoader

open Linked DataPath

variable {cfg : LcxlSetting} {d : Driver}

theorem send_not_running {p : FilterPtr} (c : DataPathCall) (h : (d.filter p).state ≠ .running) :
    ∀ call ∈ (d.send cfg p c).calls, call.routine = .sendComplete := by
  have hcalls : (walk links pauseStep c.fuel c.netBufferLists
      (DataPath.start (d.filter p) c.heap)).calls = [] := by
    refine walk_keeps (I := fun s : DataPath => s.calls = []) ?_ _ _ _ rfl
    exact fun _ _ hs => hs
  unfold Driver.send filterSendNetBufferLists
  simp only
  rw [if_pos h]
  intro call hc
  simp only [DataPath.call, hcalls, List.nil_append, List.mem_singleton] at hc
  rw [hc]

theorem receive_not_running {p : FilterPtr} (c : DataPathCall)
    (h : (d.filter p).state ≠ .running) :
    ∀ call ∈ (d.receive cfg p c).calls, call.routine = .returnNetBufferLists := by
  unfold Driver.receive filterReceiveNetBufferLists
  simp only
  rw [if_pos h]
  intro call hc
  split_ifs at hc
  · cases hc
  · simp only [DataPath.call, DataPath.start, List.nil_append, List.mem_singleton] at hc
    rw [hc]

/-- A server that is not to be checked is left as it is. -/
theorem checkServer_idle {check : LcxlServerCheck} {now : ℤ} {s : ServerInfoListEntry}
    (h : ¬ (checkServer cfg check now s).2) : (checkServer cfg check now s).1 = s := by
  unfold checkServer at h ⊢
  simp only at h ⊢
  split_ifs at h ⊢ <;> first | rfl | exact absurd rfl h

/-- A check sends something exactly where one of the servers is to be checked, and otherwise
changes none. -/
theorem checkServersLoop_sent (module : LcxlModuleSettingInfo) (now : ℤ) :
    ∀ (ps : List ServerPtr) (t : ServerTable),
      ((checkServersLoop cfg module now ps t).2 ≠ [] ↔
        ∃ q ∈ ps, (checkServer cfg module.serverCheck now (t.mem q)).2) ∧
      ((checkServersLoop cfg module now ps t).2 = [] →
        (checkServersLoop cfg module now ps t).1 = t)
  | [], t => by simp [checkServersLoop]
  | q :: ps, t => by
    by_cases hq : (checkServer cfg module.serverCheck now (t.mem q)).2
    · simp only [checkServersLoop]
      rw [if_pos hq]
      refine ⟨⟨fun _ => ⟨q, List.mem_cons_self, hq⟩, fun _ => List.cons_ne_nil _ _⟩, fun h => ?_⟩
      cases h
    · have hid :
          (t.modify q fun _ => (checkServer cfg module.serverCheck now (t.mem q)).1) = t := by
        rw [checkServer_idle hq]
        simp [ServerTable.modify]
      have ih := checkServersLoop_sent module now ps t
      simp only [checkServersLoop]
      rw [if_neg hq, hid]
      refine ⟨ih.1.trans ⟨?_, ?_⟩, ih.2⟩
      · rintro ⟨q', hq', h⟩
        exact ⟨q', List.mem_cons_of_mem _ hq', h⟩
      · rintro ⟨q', hq', h⟩
        rcases List.mem_cons.1 hq' with rfl | hq'
        · exact absurd h hq
        · exact ⟨q', hq', h⟩

theorem workerTick_sent (f : LcxlFilter) (now : ℤ) :
    (workerTick cfg f now).2 ≠ [] ↔ f.Due cfg now := by
  unfold workerTick LcxlFilter.Due checkServerStatus
  split_ifs with h
  · simp only
    rw [(checkServersLoop_sent f.module now _ _).1]
    exact ⟨fun hq => ⟨h, hq⟩, fun hq => hq.2⟩
  · exact ⟨fun hn => absurd rfl hn, fun hd => absurd hd.1 h⟩

/-- The worker thread visits each module once, as the modules before it have left it. -/
theorem workThreadLoop_sent (now : FilterPtr → ℤ) :
    ∀ (ps : List FilterPtr) (d : Driver), ps.Nodup →
      ∀ p, (∃ frames, frames ≠ [] ∧ (p, frames) ∈ (workThreadLoop cfg now ps d).2) ↔
        p ∈ ps ∧ (d.filter p).Due cfg (now p)
  | [], d, _, p => by simp [workThreadLoop]
  | q :: ps, d, hn, p => by
    obtain ⟨hq, hn⟩ := List.nodup_cons.1 hn
    have ih := workThreadLoop_sent now ps
      (d.setFilter q (workerTick cfg (d.filter q) (now q)).1) hn p
    simp only [workThreadLoop, List.mem_cons, Prod.mk.injEq]
    constructor
    · rintro ⟨frames, hne, ⟨rfl, rfl⟩ | hm⟩
      · exact ⟨.inl rfl, (workerTick_sent _ _).1 hne⟩
      · obtain ⟨hp, hd⟩ := ih.1 ⟨frames, hne, hm⟩
        have hpq : p ≠ q := fun h => hq (h ▸ hp)
        simp only [Driver.setFilter, Function.update_of_ne hpq] at hd
        exact ⟨.inr hp, hd⟩
    · rintro ⟨rfl | hp, hd⟩
      · exact ⟨_, (workerTick_sent _ _).2 hd, .inl ⟨rfl, rfl⟩⟩
      · have hpq : p ≠ q := fun h => hq (h ▸ hp)
        have hd' : ((d.setFilter q (workerTick cfg (d.filter q) (now q)).1).filter p).Due cfg
            (now p) := by
          simp only [Driver.setFilter, Function.update_of_ne hpq]
          exact hd
        obtain ⟨frames, hne, hm⟩ := ih.2 ⟨hp, hd'⟩
        exact ⟨frames, hne, .inr hm⟩

theorem workThreadLoop_gFilterList (now : FilterPtr → ℤ) :
    ∀ (ps : List FilterPtr) (d : Driver),
      (workThreadLoop cfg now ps d).1.gFilterList = d.gFilterList
  | [], _ => rfl
  | _ :: ps, _ => workThreadLoop_gFilterList now ps _

/-- A lock of a list nobody holds, let go again, leaves it as it was. -/
theorem LcxlList.unlock_lock {α : Type*} [DecidableEq α] {l : LcxlList α} (h0 : l.lockCount = 0)
    (ha : l.toBeAddList = []) (hd : l.toBeDelList = []) :
    unlockLcxlList (lockLcxlList l) = l := by
  obtain ⟨list, listCount, toBeAddList, toBeDelList, lockCount, delCalls⟩ := l
  simp only at h0 ha hd
  subst h0 ha hd
  simp [unlockLcxlList, lockLcxlList, applyToBe]

namespace Driver

variable {irp : Irp} {e : LifeEvent} {tr : List LifeEvent}

/-- Nobody holds `g_filter_list`, nothing waits on it, and no module is linked twice. -/
structure Orderly (d : Driver) : Prop where
  lockCount : d.gFilterList.lockCount = 0
  toBeAddList : d.gFilterList.toBeAddList = []
  toBeDelList : d.gFilterList.toBeDelList = []
  nodup : d.gFilterList.list.Nodup

theorem Orderly.of_eq {d' : Driver} (h : d.Orderly) (hd : d'.gFilterList = d.gFilterList) :
    d'.Orderly :=
  ⟨hd ▸ h.1, hd ▸ h.2, hd ▸ h.3, hd ▸ h.4⟩

theorem Orderly.unlock_lock (h : d.Orderly) :
    unlockLcxlList (lockLcxlList d.gFilterList) = d.gFilterList :=
  LcxlList.unlock_lock h.lockCount h.toBeAddList h.toBeDelList

/-- A request touches `g_filter_list` by a lock that it lets go at most. -/
def Around (d d' : Driver) : Prop :=
  d'.gFilterList = d.gFilterList ∨ d'.gFilterList = unlockLcxlList (lockLcxlList d.gFilterList)

theorem around_withFilter (missing : NtStatus) (found : LcxlFilter → LcxlFilter × Reply) :
    d.Around (withFilter d irp missing found).1 := by
  unfold withFilter
  simp only
  split <;> exact .inr rfl

theorem around_ofSize {size : ℕ} {otherwise : NtStatus} {act : Driver × Reply}
    (h : d.Around act.1) : d.Around (ofSize d irp size otherwise act).1 := by
  unfold ofSize
  split_ifs
  · exact h
  · exact .inl rfl

theorem moduleListLoop_gFilterList : ∀ (ps : List FilterPtr) (d : Driver),
    (moduleListLoop ps d).1.gFilterList = d.gFilterList
  | [], _ => rfl
  | _ :: ps, _ => moduleListLoop_gFilterList ps _

theorem around_getModuleList : d.Around (getModuleList d irp).1 := by
  unfold getModuleList
  simp only
  split_ifs
  · refine .inr ?_
    simp only [unlock, moduleListLoop_gFilterList]
    rfl
  · exact .inr rfl

theorem around_ite {c : Prop} [Decidable c] {r r' : Driver × Reply} (h : d.Around r.1)
    (h' : d.Around r'.1) : d.Around (if c then r else r').1 := by
  split_ifs
  · exact h
  · exact h'

theorem around_ioctl (past : ServerPtr → Bool) (now : ℤ) :
    d.Around (filterDeviceIoControl past now d irp).1 := by
  unfold filterDeviceIoControl
  refine around_ite (.inl rfl) <| around_ite ?_ <| around_ite ?_ <|
    around_ite around_getModuleList <| around_ite ?_ <| around_ite ?_ <| around_ite ?_ <|
    around_ite ?_ <| around_ite ?_ <| around_ite ?_ (.inl rfl)
  all_goals exact around_ofSize (around_withFilter _ _)

/-- What NDIS does keeps `g_filter_list` orderly. -/
theorem Orderly.live (h : d.Orderly) (hc : d.NdisContract e) : (d.live cfg e).Orderly := by
  cases e with
  | attach p handle parameters attributesSet =>
    simp only [Driver.live, filterAttach]
    split_ifs
    · exact h
    · have hadd : addEntrytoLcxlList d.gFilterList p = linkEntry d.gFilterList p := by
        unfold addEntrytoLcxlList
        rw [h.lockCount]
        rfl
      refine ⟨?_, ?_, ?_, ?_⟩ <;> simp only [hadd, linkEntry]
      · exact h.lockCount
      · exact h.toBeAddList
      · exact h.toBeDelList
      · simpa using List.Nodup.concat hc h.nodup
    · exact h
  | restart p => exact h.of_eq rfl
  | pause p => exact h.of_eq rfl
  | detach p =>
    have hrem : removeEntryfromLcxlList d.gFilterList p = unlinkEntry d.gFilterList p := by
      unfold removeEntryfromLcxlList
      rw [h.lockCount]
      rfl
    refine ⟨?_, ?_, ?_, ?_⟩ <;> simp only [Driver.live, filterDetach, hrem, unlinkEntry]
    · exact h.lockCount
    · exact h.toBeAddList
    · exact h.toBeDelList
    · exact h.nodup.erase p
  | tick now =>
    refine h.of_eq ?_
    simp only [Driver.live, filterWorkThread, unlock, workThreadLoop_gFilterList]
    exact h.unlock_lock
  | ioctl past now irp =>
    rcases around_ioctl past now with hd | hd
    · exact h.of_eq hd
    · exact h.of_eq (hd.trans h.unlock_lock)
  | send p c => exact h.of_eq rfl
  | receive p c => exact h.of_eq rfl

/-- A step sends and indicates only for running modules exactly where no tick checks a server of a
router that is not running. -/
theorem runningOnly_iff_dueRunning (h : d.Orderly) :
    d.RunningOnly cfg e ↔ d.DueRunning cfg e := by
  cases e with
  | tick now =>
    have hsent := @workThreadLoop_sent cfg now d.gFilterList.list d.lock h.nodup
    simp only [RunningOnly, DueRunning, ndisCalls, filterWorkThread, List.mem_filterMap]
    constructor
    · intro hr p hp hd
      obtain ⟨frames, hne, hm⟩ := (hsent p).2 ⟨hp, hd⟩
      exact hr (p, .send 0) ⟨(p, frames), hm, if_neg hne⟩ rfl
    · rintro hr c ⟨⟨p, frames⟩, hm, hc⟩ -
      simp only at hc
      split_ifs at hc with hne
      cases hc
      obtain ⟨hp, hd⟩ := (hsent p).1 ⟨frames, hne, hm⟩
      exact hr p hp hd
  | send p c =>
    refine ⟨fun _ => trivial, fun _ call hc hm => ?_⟩
    simp only [ndisCalls, List.mem_map] at hc
    obtain ⟨call, hcall, rfl⟩ := hc
    by_contra hs
    rw [send_not_running c hs call hcall] at hm
    cases hm
  | receive p c =>
    refine ⟨fun _ => trivial, fun _ call hc hm => ?_⟩
    simp only [ndisCalls, List.mem_map] at hc
    obtain ⟨call, hcall, rfl⟩ := hc
    by_contra hs
    rw [receive_not_running c hs call hcall] at hm
    cases hm
  | attach | restart | pause | detach | ioctl =>
    exact ⟨fun _ => trivial, fun _ call hc => absurd hc List.not_mem_nil⟩

theorem orderly_start (filter : FilterPtr → LcxlFilter) : (start filter).Orderly :=
  ⟨rfl, rfl, rfl, .nil⟩

/-- From a driver without modules on, whatever NDIS, the worker thread and the applications do,
every step sends and indicates only for modules that are running exactly where no tick of the
worker thread finds a router that is not running and has a server to be checked. -/
theorem sends_only_running_iff (cfg : LcxlSetting) (filter : FilterPtr → LcxlFilter)
    (tr : List LifeEvent) (h : Sys.Allowed NdisContract (live cfg) (start filter) tr) :
    Sys.Allowed (RunningOnly cfg) (live cfg) (start filter) tr ↔
      Sys.Allowed (DueRunning cfg) (live cfg) (start filter) tr :=
  Sys.allowed_iff_of_inv (I := Orderly) (fun _ _ h hc _ => h.live hc)
    (fun _ _ h _ => runningOnly_iff_dueRunning h) (orderly_start filter) h

/-- An Ethernet module of LUID 1. -/
def ethernet : AttachParameters where
  baseMiniportIfIndex := 1
  baseMiniportNetLuid := 1
  macAddressLength := 6
  currentMacAddress := .zero 32
  baseMiniportInstanceName := ⟨0, fun _ => 0⟩
  baseMiniportName := ⟨0, fun _ => 0⟩
  filterModuleGuidName := ⟨0, fun _ => 0⟩
  miniportMediaType := .medium802_3

/-- A request about module 1 whose ninth byte is one: to make it a router, or to add a server that
is online. -/
def ninthByte (ioControlCode : UInt32) (size : ℕ) : LifeEvent :=
  .ioctl (fun _ => false) 0 ⟨true, ioControlCode, fun i => if i = 0 ∨ i = 8 then 1 else 0, size, 0⟩

/-- A module is attached and made a router with one server. -/
def attaching : List LifeEvent :=
  [.attach 0 1 ethernet true, ninthByte ioctlSetRole sizeofAppSetRole,
    ninthByte ioctlRouterAddServer sizeofAppAddServer]

theorem attaching_allowed : Sys.Allowed NdisContract (live Sample.setting)
    (start fun _ => Sample.router) (attaching ++ [.restart 0, .tick fun _ => 11]) :=
  ⟨List.not_mem_nil, trivial, trivial, ⟨by decide +kernel, by decide +kernel⟩, trivial, trivial⟩

/-- The check is sent once the module has been restarted. -/
theorem sends_only_running_iff_restarted :
    Sys.Allowed (RunningOnly Sample.setting) (live Sample.setting) (start fun _ => Sample.router)
      (attaching ++ [.restart 0, .tick fun _ => 11]) := by
  refine (sends_only_running_iff _ _ _ attaching_allowed).2 ?_
  refine ⟨trivial, trivial, trivial, trivial, fun p hp _ => ?_, trivial⟩
  have hlist : ((attaching ++ [LifeEvent.restart 0]).foldl (live Sample.setting)
      (start fun _ => Sample.router)).gFilterList.list = [0] := by decide +kernel
  have hp' : p ∈ [0] := by
    rw [← hlist]
    exact hp
  rw [List.mem_singleton.1 hp']
  decide +kernel

/-- Attached and never restarted, the module sends its check paused. -/
theorem not_running_of_paused : ¬ ∀ (cfg : LcxlSetting) (filter : FilterPtr → LcxlFilter)
    (tr : List LifeEvent), Sys.Allowed NdisContract (live cfg) (start filter) tr →
      Sys.Allowed (RunningOnly cfg) (live cfg) (start filter) tr := by
  intro h
  have ha : Sys.Allowed NdisContract (live Sample.setting) (start fun _ => Sample.router)
      (attaching ++ [.tick fun _ => 11]) := ⟨List.not_mem_nil, trivial, trivial, trivial, trivial⟩
  have hr := (h _ _ _ ha).2.2.2.1 (0, .send 0) (by decide +kernel) rfl
  revert hr
  decide +kernel

end Driver

end LcxlNetLoader
