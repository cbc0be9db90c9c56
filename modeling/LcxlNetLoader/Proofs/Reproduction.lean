import LcxlNetLoader.Proofs.Buffers
import LcxlNetLoader.Proofs.Replay
import LcxlNetLoader.Proofs.Startup

/-!
# What the driver has after a start

Replaying one module changes only the adapter it is of, so the other adapters are still as they were
attached when their turn comes. So after a start every adapter is set as its module is configured,
and those that were not configured are as they were attached.
-/

namespace LcxlNetLoader

variable {P : FileLib} {env : Surroundings} {d : Driver} {p q : FilterPtr}
  {config saved : ServiceConfig} {file : XmlFile}

/-! ## The modules the driver reports -/

theorem unlock_lock_serverList {t : ServerTable} (h : t.lst = initLcxlList) :
    unlockServerList (lockServerList t) = t := by
  have hlst : unlockLcxlList (lockLcxlList t.lst) = t.lst := by
    rw [h]
    exact LcxlList.unlock_lock rfl rfl rfl
  simp only [unlockServerList, lockServerList, hlst]

theorem LcxlFilter.setServers_eq_self (f : LcxlFilter) : f.setServers f.module.serverList = f := rfl

/-- Modules without servers are reported as they are, and left as they are. -/
theorem moduleListLoop_of_init : ∀ (ps : List FilterPtr) (d : Driver),
    (∀ p ∈ ps, (d.filter p).module.serverList.lst = initLcxlList) →
    moduleListLoop ps d = (d, ps.map fun p => appModule (d.filter p) 0)
  | [], _, _ => rfl
  | p :: ps, d, h => by
    have hp := h p List.mem_cons_self
    have hself : d.setFilter p ((d.filter p).setServers (unlockServerList
        (lockServerList (d.filter p).module.serverList))) = d := by
      rw [unlock_lock_serverList hp, LcxlFilter.setServers_eq_self, Driver.setFilter_eq_self]
    have hcount : getLcxlListCount (lockServerList (d.filter p).module.serverList).lst = 0 := by
      simp [lockServerList, hp, getLcxlListCount, lockLcxlList, initLcxlList]
    rw [moduleListLoop]
    simp only [hself, hcount]
    rw [moduleListLoop_of_init ps d fun q hq => h q (List.mem_cons_of_mem p hq)]
    rfl

theorem takeWhile_append_zero : ∀ chars : List UInt16,
    (chars ++ [0]).takeWhile (fun c => c ≠ 0) = chars.takeWhile fun c => c ≠ 0
  | [] => rfl
  | c :: chars => by
    simp only [List.cons_append, List.takeWhile_cons, takeWhile_append_zero chars]

/-- A name of which no more than 510 bytes are copied ends in its field. -/
theorem wideOf_copied_fits (s : NdisString) {buflen : ℕ} (h : buflen < 512) :
    (wideOf (s.copied buflen)).Fits := by
  have hle : ((List.range (buflen / 2)).map s.buffer).length < 256 := by
    simp only [List.length_map, List.length_range]
    omega
  rw [WideText.Fits, wideOf, NdisString.copied]
  simp only [takeWhile_append_zero]
  exact (List.takeWhile_prefix _).length_le.trans_lt hle

theorem received_namesFit {f : LcxlFilter} (h : f.module.miniportName.length < 512) (n : ℤ) :
    (appModule f n).received.NamesFit := by
  refine ⟨wideOf_copied_fits _ ?_, wideOf_copied_fits _ ?_, wideOf_copied_fits _ ?_⟩
  · unfold filterModuleNameLength
    split_ifs <;> omega
  · unfold miniportFriendlyNameLength
    split_ifs <;> omega
  · unfold miniportNameLength
    split_ifs <;> omega

namespace Driver.Booted

theorem serverList (h : d.Booted) (hp : p ∈ d.gFilterList.list) :
    (d.filter p).module.serverList.lst = initLcxlList := by
  obtain ⟨memory, parameters, hset, -⟩ := h.setting p hp
  rw [hset]
  rfl

/-- A module of a LUID is found. -/
theorem found (h : d.Booted) (hp : p ∈ d.gFilterList.list) :
    findFilter d (d.filter p).module.miniportNetLuid = some p := by
  rcases hfind : findFilter d (d.filter p).module.miniportNetLuid with _ | q
  · have := List.find?_eq_none.1 hfind p hp
    simp at this
  · have hq : q ∈ d.gFilterList.list := List.mem_of_find?_eq_some hfind
    have hluid : (d.filter q).module.miniportNetLuid = (d.filter p).module.miniportNetLuid := by
      simpa using List.find?_some hfind
    rw [List.inj_on_of_nodup_map h.luids hq hp hluid]

/-- All modules are reported. -/
theorem lnlGetModuleList (h : d.Booted) : env.lnlGetModuleList d =
    (d, some (d.gFilterList.list.map fun p => (appModule (d.filter p) 0).received)) := by
  have hloop := moduleListLoop_of_init d.gFilterList.list d.lock fun p hp => h.serverList hp
  have hroom : (LcxlNetLoader.lnlGetModuleList 20).hasRoom (getLcxlListCount d.lock.gFilterList)
      sizeofAppModule = true := by
    refine (hasRoom_iff h.count _).2 ?_
    have hlength : (LcxlNetLoader.lnlGetModuleList 20).outputBufferLength
        = 20 * sizeofAppModule := rfl
    rw [hlength]
    exact Nat.mul_le_mul_right _ h.room
  have hunlock : d.lock.unlock = d := by
    have := LcxlList.unlock_lock h.unlocked h.settled.1 h.settled.2
    simp only [Driver.unlock, Driver.lock, this]
  have hget : filterDeviceIoControl env.past (env.now 0) d (LcxlNetLoader.lnlGetModuleList 20) =
      (d, ⟨.success, d.gFilterList.list.length * sizeofAppModule,
        .modules (d.gFilterList.list.map fun p => appModule (d.filter p) 0)⟩) := by
    have hmodules : filterDeviceIoControl env.past (env.now 0) d
        (LcxlNetLoader.lnlGetModuleList 20) =
        getModuleList d (LcxlNetLoader.lnlGetModuleList 20) := rfl
    rw [hmodules, getModuleList]
    simp only [hroom, if_true]
    have hhead : getLcxlListHead d.lock.gFilterList = d.gFilterList.list := rfl
    rw [hhead, hloop]
    simp only [hunlock, List.length_map]
    rfl
  have htake : ∀ l : List AppModule, l.length = d.gFilterList.list.length →
      l.take (d.gFilterList.list.length * sizeofAppModule / sizeofAppModule) = l := by
    intro l hl
    rw [Nat.mul_div_cancel _ (by norm_num [sizeofAppModule]), ← hl, List.take_length]
  simp only [Surroundings.lnlGetModuleList, hget]
  rw [htake _ (List.length_map _), List.map_map]
  rfl

/-- What is reported is proper, and of no role. -/
theorem proper (h : d.Booted) (hp : p ∈ d.gFilterList.list) :
    (appModule (d.filter p) 0).received.Proper ∧
      (appModule (d.filter p) 0).received.lcxlRole = LcxlConfig.roleUnknown := by
  obtain ⟨memory, parameters, hset, hmac, hluid, hname⟩ := h.setting p hp
  have hrole : (appModule (d.filter p) 0).received.lcxlRole = LcxlConfig.roleUnknown := by
    simp only [AppModule.received, appModule, hset]
    rfl
  refine ⟨⟨.inl hrole, ?_, ?_, received_namesFit ?_ 0⟩, hrole⟩
  · simp only [AppModule.received, appModule, hset]
    exact hluid
  · simp only [AppModule.received, appModule, hset, initModuleSetting, hmac]
    norm_num
  · rw [hset]
    exact hname

theorem reports (h : d.Booted) (config : ServiceConfig) : env.Reports d config := by
  intro moduleList hlist ait hait
  rw [h.lnlGetModuleList] at hlist
  cases hlist
  obtain ⟨p, hp, rfl⟩ := List.mem_map.1 hait
  obtain ⟨hproper, hrole⟩ := h.proper hp
  exact ⟨hproper, fun m hm hluid hne => absurd hrole hne⟩

end Driver.Booted

/-! ## One module replayed -/

namespace Driver

variable (past : ServerPtr → Bool) (now : ℕ → ℤ) {m m' : ConfigModule}

/-- What is sent of a module that is no router. -/
theorem JustAttached.replayed_other (h : d.JustAttached p m)
    (hr : m.module.lcxlRole.toInt ≠ roleRouter) :
    ∃ f, d.serve past now (setModuleInfo m) = d.setFilter p f ∧ f.module =
      { (d.filter p).module with
        virtualAddr := m.module.virtualAddr
        lcxlRole := m.module.lcxlRole.toInt } := by
  obtain ⟨memory, parameters, hset⟩ := h.setting
  have h0 : d.Finds m.module.miniportNetLuid p := ⟨h.found, h.unlocked, h.settled⟩
  have h1 := h0.setVirtualAddr past (now 0) m.module.virtualAddr
  set f1 := { d.filter p with
    module := { (d.filter p).module with virtualAddr := m.module.virtualAddr } } with hf1
  have hrole : ((d.setFilter p f1).filter p).module.lcxlRole = roleUnknown := by
    rw [setFilter_filter, hf1]
    simp only [hset]
    rfl
  have h2 := (h0.setFilter (f := f1) rfl).setRole past (now 1) hrole m.module.lcxlRole
  rw [setFilter_filter, setFilter_setFilter] at h2
  have hinfo : setModuleInfo m =
      [lnlSetVirtualAddr m.module.miniportNetLuid m.module.virtualAddr,
        lnlSetLcxlRole m.module.miniportNetLuid m.module.lcxlRole] := by
    simp only [setModuleInfo, if_neg hr, List.append_nil]
  rw [hinfo, serve, h1, serve, h2]
  exact ⟨_, rfl, rfl⟩

/-- A module is in force where it was replayed, and nothing else changes. -/
theorem JustAttached.inForce (h : d.JustAttached p m) (hs : m.DistinctServers) :
    ∃ f, d.serve past now (setModuleInfo m) = d.setFilter p f ∧ m.InForce f
      ∧ f.module.miniportNetLuid = (d.filter p).module.miniportNetLuid := by
  obtain ⟨memory, parameters, hset⟩ := h.setting
  by_cases hr : m.module.lcxlRole.toInt = roleRouter
  · obtain ⟨f, t, heq, ht, hf⟩ := h.replayed past now hr hs
    refine ⟨f, heq, ⟨by rw [hf], by rw [hf], ?_, fun _ => ?_, fun hne => absurd hr hne⟩, by rw [hf]⟩
    · rw [hf]
      simp only [hset]
      rfl
    · rw [hf]
      exact ⟨ht.infos, rfl, rfl⟩
  · obtain ⟨f, heq, hf⟩ := h.replayed_other past now hr
    refine ⟨f, heq, ⟨by rw [hf], by rw [hf], ?_, fun he => absurd he hr, fun _ => ?_⟩, by rw [hf]⟩
    · rw [hf]
      simp only [hset]
      rfl
    · rw [hf]
      simp only [hset]
      exact ⟨rfl, rfl, rfl⟩

/-! ## All of them -/

/-- The adapter of another module is still as it was attached. -/
theorem JustAttached.setFilter (h : d.JustAttached q m') {f : LcxlFilter} (hne : q ≠ p)
    (hf : f.module.miniportNetLuid = (d.filter p).module.miniportNetLuid) :
    (d.setFilter p f).JustAttached q m' := by
  refine ⟨(findFilter_setFilter _ hf).trans h.found, ?_, h.unlocked, h.settled⟩
  have : (d.setFilter p f).filter q = d.filter q := Function.update_of_ne hne _ _
  rw [this]
  exact h.setting

theorem luid_of_findFilter {l : UInt64} (h : findFilter d l = some p) :
    (d.filter p).module.miniportNetLuid = l := by
  simpa using List.find?_some h

/-- Modules of different LUIDs are all in force after they were replayed one after another, each in
the adapter it is of, and the adapters of other modules are as they were. -/
theorem serve_inForce : ∀ (ms : List ConfigModule) (now : ℕ → ℤ) (d : Driver),
    (ms.map (·.module.miniportNetLuid)).Nodup →
    (∀ m ∈ ms, m.DistinctServers ∧ ∃ p, d.JustAttached p m) →
    (∀ m ∈ ms, ∀ p, d.JustAttached p m →
      m.InForce ((d.serve past now (ms.flatMap setModuleInfo)).filter p)) ∧
    ∀ p, (∀ m ∈ ms, ¬ d.JustAttached p m) →
      (d.serve past now (ms.flatMap setModuleInfo)).filter p = d.filter p
  | [], _, _, _, _ => ⟨fun _ hm => absurd hm List.not_mem_nil, fun _ _ => rfl⟩
  | m :: ms, now, d, hnd, hms => by
    obtain ⟨hdistinct, p, hp⟩ := hms m List.mem_cons_self
    obtain ⟨f, hserve, hforce, hluid⟩ := hp.inForce past now hdistinct
    obtain ⟨hnotMem, hnd'⟩ := List.nodup_cons.1 hnd
    have hother : ∀ m' ∈ ms, ∀ q, d.JustAttached q m' → q ≠ p := by
      rintro m' hm' q hq rfl
      have heq : m'.module.miniportNetLuid = m.module.miniportNetLuid :=
        (luid_of_findFilter hq.found).symm.trans (luid_of_findFilter hp.found)
      exact hnotMem (List.mem_map.2 ⟨m', hm', heq⟩)
    have hback : ∀ m' ∈ ms, ∀ q, (d.setFilter p f).JustAttached q m' → d.JustAttached q m' := by
      intro m' hm' q hq
      obtain ⟨q', hq'⟩ := (hms m' (List.mem_cons_of_mem m hm')).2
      have hsame : q = q' := Option.some.inj
        (hq.found.symm.trans ((findFilter_setFilter _ hluid).trans hq'.found))
      exact hsame ▸ hq'
    obtain ⟨ih, ih'⟩ := serve_inForce ms (fun n => now (n + (setModuleInfo m).length))
      (d.setFilter p f) hnd' fun m' hm' => by
        obtain ⟨hdistinct', q, hq⟩ := hms m' (List.mem_cons_of_mem m hm')
        exact ⟨hdistinct', q, hq.setFilter (hother m' hm' q hq) hluid⟩
    rw [List.flatMap_cons, serve_append, hserve]
    refine ⟨fun m' hm' q hq => ?_, fun q hq => ?_⟩
    · rcases List.mem_cons.1 hm' with rfl | hm'
      · obtain rfl : q = p := Option.some.inj (hq.found.symm.trans hp.found)
        rw [ih' q fun m' hm' hq' => hother m' hm' q (hback m' hm' q hq') rfl, setFilter_filter]
        exact hforce
      · exact ih m' hm' q (hq.setFilter (hother m' hm' q hq) hluid)
    · have hne : q ≠ p := by
        rintro rfl
        exact hq m List.mem_cons_self hp
      rw [ih' q fun m' hm' hq' => hq m' (List.mem_cons_of_mem m hm') (hback m' hm' q hq')]
      exact Function.update_of_ne hne _ _

theorem Booted.justAttached (h : d.Booted) (hp : p ∈ d.gFilterList.list)
    (hm : m.module.miniportNetLuid = (d.filter p).module.miniportNetLuid) : d.JustAttached p m := by
  obtain ⟨memory, parameters, hset, -⟩ := h.setting p hp
  exact ⟨hm ▸ h.found hp, ⟨memory, parameters, hset⟩, h.unlocked, h.settled⟩

end Driver

/-- After a start with a file that holds a sound configuration and with adapters just attached, each
adapter has a module, which is in force there; and the modules of the file are as they were set. -/
theorem preSerRun_inForce (P : FileLib) (env : Surroundings) (d : Driver) (file : XmlFile)
    (saved : ServiceConfig) (hs : saved.Sound) (hfile : file.Holds P saved) (h : d.Booted) :
    ∃ r, preSerRun P env d file = some r ∧ r.ready = env.notified ∧ saved.Extends r.config ∧
      ∀ p ∈ d.gFilterList.list, ∃ m ∈ r.config.moduleList, m.isexist ∧
        m.module.miniportNetLuid = (d.filter p).module.miniportNetLuid ∧
        m.toConfigModule.InForce (r.driver.filter p) := by
  obtain ⟨config, hload, hsound, hextends⟩ := hfile.loads hs env.active
  set reported := d.gFilterList.list.map fun p => (appModule (d.filter p) 0).received with hreported
  have hlist : env.lnlGetModuleList d = (d, some reported) := h.lnlGetModuleList
  obtain ⟨moduleList, hmerge, hsound', hextends'⟩ :=
    LcxlConfig.updateModuleList_keeps hsound (h.reports config reported (by rw [hlist]))
  have hmerged := LcxlConfig.updateModuleList_merged hmerge
  have hupdate : env.updateModuleList d config = some (d, ⟨config.port, moduleList⟩) := by
    simp [Surroundings.updateModuleList, hlist, hmerge]
  set config' : ServiceConfig := ⟨config.port, moduleList⟩ with hconfig'
  refine ⟨_, preSerRun_eq hload hupdate, rfl, (hextends.trans hextends').trans
    (.of_map_eq rfl (Surroundings.map_setModules _ d config')), fun p hp => ?_⟩
  -- The modules that are replayed are those of an adapter.
  set present := (moduleList.filter (·.isexist)).map (·.toConfigModule) with hpresent
  have hserve : (env.setModules d config').1 =
      d.serve env.past (fun n => env.now (n + 1)) (present.flatMap setModuleInfo) := by
    rw [hpresent, List.flatMap_map]
    rfl
  have hattached : ∀ m ∈ present, m.DistinctServers ∧ ∃ p, d.JustAttached p m := by
    intro m hm
    obtain ⟨c, hc, rfl⟩ := List.mem_map.1 hm
    obtain ⟨hc, hexists⟩ := List.mem_filter.1 hc
    obtain ⟨ait, hait, hluid⟩ := (hmerged.isexist c hc).1 hexists
    obtain ⟨q, hq, rfl⟩ := List.mem_map.1 hait
    exact ⟨(hsound'.modules c hc).servers, q, h.justAttached hq hluid.symm⟩
  have hluids : (present.map (·.module.miniportNetLuid)).Nodup := by
    rw [hpresent, List.map_map]
    exact hsound'.luids.sublist ((List.filter_sublist).map _)
  obtain ⟨hforce, -⟩ := Driver.serve_inForce env.past present (fun n => env.now (n + 1)) d hluids
    hattached
  -- The adapter's own module is one of them.
  obtain ⟨m, hm, hluid⟩ := hmerged.covered _ (List.mem_map_of_mem hp)
  have hexists : m.isexist = true := (hmerged.isexist m hm).2
    ⟨_, List.mem_map_of_mem hp, hluid.symm⟩
  have hin : m.toConfigModule ∈ present :=
    List.mem_map_of_mem (List.mem_filter.2 ⟨hm, hexists⟩)
  have hthread : (env.startThread m).toConfigModule = m.toConfigModule :=
    Surroundings.startThread_toConfigModule m
  refine ⟨env.startThread m, List.mem_map.2 ⟨m, hm, if_pos hexists⟩, ?_, ?_, ?_⟩
  · rw [hthread]
    exact hexists
  · rw [hthread]
    exact hluid
  · rw [hthread, hserve]
    exact hforce _ hin p (h.justAttached hp hluid)

section Runs

/-- The file of a service that has configured one router. -/
def oneRouter : ServiceConfig := ⟨32112, [(timingOut 1800).threadless]⟩

theorem oneRouter_sound : oneRouter.Sound where
  port := by decide
  modules := by
    refine List.forall_mem_singleton.2 ⟨⟨.inr (.inl rfl), ?_, rfl, ?_, ?_⟩, ?_, ?_⟩
    · show (1 : UInt64).toNat < 2 ^ 63
      decide
    · show 4 < 256
      norm_num
    · exact List.forall_mem_singleton.2 ⟨rfl, show 3 < 256 by norm_num⟩
    · exact List.forall_mem_singleton.2 rfl
    · exact List.nodup_singleton _
  luids := List.nodup_singleton _

theorem oneRouter_returnFree : oneRouter.ReturnFree :=
  List.forall_mem_singleton.2 ⟨by decide, by decide⟩

theorem justAttached_booted : justAttached.Booted where
  unlocked := rfl
  settled := ⟨rfl, rfl⟩
  count := rfl
  room := by
    show 1 ≤ 20
    norm_num
  setting := List.forall_mem_singleton.2 ⟨_, Driver.ethernet, rfl, rfl, by decide, by decide⟩
  luids := List.nodup_singleton _

theorem preSerRun_inForce_oneRouter :
    ∃ r, preSerRun plainFile quiet justAttached (plainFile.saveXMLFile oneRouter) = some r ∧
      r.ready = true ∧ oneRouter.Extends r.config ∧
      ∀ p ∈ [0], ∃ m ∈ r.config.moduleList, m.isexist ∧
        m.module.miniportNetLuid = (justAttached.filter p).module.miniportNetLuid ∧
        m.toConfigModule.InForce (r.driver.filter p) :=
  preSerRun_inForce plainFile quiet justAttached (plainFile.saveXMLFile oneRouter) oneRouter
    oneRouter_sound (holds_saveXMLFile plainFile_faithful oneRouter_sound oneRouter_returnFree)
    justAttached_booted

end Runs

end LcxlNetLoader
