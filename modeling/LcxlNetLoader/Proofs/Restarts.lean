import LcxlNetLoader.Proofs.Commands
import LcxlNetLoader.Proofs.Reproduction

/-!
# From start to start

A client's message leaves the modules sound and in their places, and either saves them or leaves
them as they are; a change of the interfaces only adds modules without servers. So whatever the file
holds is there in memory as it was set (`Host.Inv`), and a start brings it back.
-/

namespace LcxlNetLoader

open Json
open LcxlConfig (forall₂_exists_left)

/-! ## Messages -/

/-- The module is the same one, and still sound and without carriage returns. -/
structure ConfigModule.KeepsSound (m m' : ConfigModule) : Prop where
  miniportNetLuid : m'.module.miniportNetLuid = m.module.miniportNetLuid
  sound : m.Sound → m'.Sound
  returnFree : m.ReturnFree → m'.ReturnFree

theorem ConfigModule.KeepsSound.refl (m : ConfigModule) : m.KeepsSound m := ⟨rfl, id, id⟩

namespace LcxlConfig

variable {moduleList : List ConfigModule} {serverList : List ConfigServer} {m : ConfigModule}
  {server : ConfigServer} {macAddr : IfPhysicalAddress}

theorem mem_updateServer {s : ConfigServer} (h : s ∈ updateServer serverList server) :
    s ∈ serverList ∨ s = server := by
  unfold updateServer at h
  split at h
  · exact List.mem_or_eq_of_mem_set h
  · simpa using h

theorem removeServer_sublist (serverList : List ConfigServer) (macAddr : IfPhysicalAddress) :
    ((removeServer serverList macAddr).1).Sublist serverList := by
  unfold removeServer
  split
  · exact List.eraseIdx_sublist ..
  · exact .refl _

/-- A server that survives is stored in the place of the one with its address. -/
theorem sound_updateServer (hs : server.Survives) (h : m.Sound) :
    ConfigModule.Sound { m with serverList := updateServer m.serverList server } := by
  have hlength : ∀ s ∈ m.serverList, s.server.macAddr.length = 6 := fun s hs =>
    h.servers.length _ (List.mem_map_of_mem hs)
  have hmem : ∀ s ∈ updateServer m.serverList server, s.Survives := by
    intro s hs'
    rcases mem_updateServer hs' with hs' | rfl
    · exact h.survives.serverList s hs'
    · exact hs
  refine ⟨⟨h.survives.lcxlRole, h.survives.miniportNetLuid, h.survives.macAddr,
    h.survives.miniportFriendlyName, hmem⟩, fun s hs' => ?_, ?_⟩
  · obtain ⟨c, hc, rfl⟩ := List.mem_map.1 hs'
    exact (hmem c hc).1
  · have hmacs : (macs m.serverList).Nodup := by
      have hnodup := h.servers.nodup
      rwa [ConfigModule.servers, List.map_map] at hnodup
    have hshort : Short m.serverList := fun s hs' => (hlength s hs').trans_le (by norm_num)
    rw [ConfigModule.servers, List.map_map]
    show (macs (updateServer m.serverList server)).Nodup
    rw [macs_updateServer hshort (hs.1.trans_le (by norm_num))]
    split_ifs with hin
    · exact hmacs
    · rw [List.nodup_append]
      refine ⟨hmacs, List.nodup_singleton _, ?_⟩
      rintro a ha b hb rfl
      exact hin (List.mem_singleton.1 hb ▸ ha)

theorem sound_removeServer (h : m.Sound) :
    ConfigModule.Sound { m with serverList := (removeServer m.serverList macAddr).1 } := by
  have hsub := removeServer_sublist m.serverList macAddr
  refine ⟨⟨h.survives.lcxlRole, h.survives.miniportNetLuid, h.survives.macAddr,
    h.survives.miniportFriendlyName, fun s hs => h.survives.serverList s (hsub.subset hs)⟩,
    fun s hs => h.servers.length s ((hsub.map _).subset hs), ?_⟩
  exact h.servers.nodup.sublist ((hsub.map _).map _)

theorem keepsSound_updateServer (hs : server.Survives) (hc : server.comment.ReturnFree) :
    m.KeepsSound { m with serverList := updateServer m.serverList server } where
  miniportNetLuid := rfl
  sound h := sound_updateServer hs h
  returnFree h := by
    refine ⟨h.miniportFriendlyName, fun s hs' => ?_⟩
    rcases mem_updateServer hs' with hs' | rfl
    · exact h.serverList s hs'
    · exact hc

theorem keepsSound_removeServer :
    m.KeepsSound { m with serverList := (removeServer m.serverList macAddr).1 } where
  miniportNetLuid := rfl
  sound h := sound_removeServer h
  returnFree h := ⟨h.miniportFriendlyName, fun s hs =>
    h.serverList s ((removeServer_sublist m.serverList macAddr).subset hs)⟩

theorem forall₂_updateModule {f : ConfigModule → ConfigModule} (luid : UInt64)
    (hf : ∀ m : ConfigModule, m.KeepsSound (f m)) :
    List.Forall₂ ConfigModule.KeepsSound moduleList (updateModule moduleList luid f) := by
  unfold updateModule
  split
  · refine List.forall₂_iff_get.2 ⟨by simp, fun i hi hi' => ?_⟩
    simp only [List.get_eq_getElem, List.getElem_modify]
    split_ifs
    · exact hf _
    · exact .refl _
  · exact List.forall₂_same.2 fun m _ => .refl m

end LcxlConfig

namespace ServiceLib

variable {E : ServiceLib} {moduleList : List ConfigModule} {root : Value} {outcome : Outcome}

/-- What a command does to the modules. -/
def Keeps (moduleList : List ConfigModule) (outcome : Outcome) : Prop :=
  List.Forall₂ ConfigModule.KeepsSound moduleList outcome.1 ∧
    (outcome.2.2 = jsSuccess ∨ outcome.1 = moduleList)

theorem keeps_unchanged (moduleList : List ConfigModule) (data : List (String × Value))
    (status : ℤ) : Keeps moduleList (moduleList, data, status) :=
  ⟨List.forall₂_same.2 fun m _ => .refl m, .inr rfl⟩

theorem keeps_changed {luid : UInt64} {f : ConfigModule → ConfigModule}
    (hf : ∀ m : ConfigModule, m.KeepsSound (f m)) :
    Keeps moduleList (LcxlConfig.updateModule moduleList luid f, [], jsSuccess) :=
  ⟨LcxlConfig.forall₂_updateModule luid hf, .inl rfl⟩

theorem keeps_jcSetVirtualAddr (h : E.jcSetVirtualAddr moduleList root = some outcome) :
    Keeps moduleList outcome := by
  simp only [jcSetVirtualAddr, Option.bind_eq_bind, Option.bind_eq_some_iff] at h
  obtain ⟨virtualAddr, -, -, -, luid, -, -, -, status, -, v4, -, text4, -, h⟩ := h
  split at h
  · exact Option.some.inj h ▸ keeps_unchanged ..
  simp only [Option.bind_eq_some_iff] at h
  obtain ⟨v6, -, text6, -, h⟩ := h
  split at h
  · exact Option.some.inj h ▸ keeps_unchanged ..
  simp only [Option.bind_eq_some_iff] at h
  obtain ⟨-, -, prefix4, -, -, -, prefix6, -, h⟩ := h
  split_ifs at h
  · rw [← Option.some.inj h]
    refine keeps_changed fun m =>
      ⟨rfl, fun hm => ⟨⟨?_, ?_, ?_, ?_, ?_⟩, hm.servers.1, hm.servers.2⟩,
        fun hm => ⟨hm.miniportFriendlyName, hm.serverList⟩⟩
    · exact hm.survives.lcxlRole
    · exact hm.survives.miniportNetLuid
    · exact hm.survives.macAddr
    · exact hm.survives.miniportFriendlyName
    · exact hm.survives.serverList
  · exact Option.some.inj h ▸ keeps_unchanged ..

theorem keeps_jcServerList (h : E.jcServerList moduleList root = some outcome) :
    Keeps moduleList outcome := by
  simp only [jcServerList, Option.bind_eq_bind, Option.bind_eq_some_iff] at h
  obtain ⟨-, -, luid, -, h⟩ := h
  split_ifs at h
  · exact Option.some.inj h ▸ keeps_unchanged ..
  split at h
  · exact Option.some.inj h ▸ keeps_unchanged ..
  · exact Option.some.inj h ▸ keeps_unchanged ..

theorem keeps_jcAddServer (hcomment : E.server.comment.Fits ∧ E.server.comment.ReturnFree)
    (hlength : ∀ luid server, E.lnlAddServer luid server → server.macAddr.length = 6)
    (h : E.jcAddServer moduleList root = some outcome) : Keeps moduleList outcome := by
  simp only [jcAddServer, Option.bind_eq_bind, Option.bind_eq_some_iff] at h
  obtain ⟨-, -, luid, -, serverJson, -, -, -, ipStatus, -, -, -, text, -, -, -, status, -, h⟩ := h
  split_ifs at h with hadded
  · rw [← Option.some.inj h]
    exact keeps_changed fun m =>
      LcxlConfig.keepsSound_updateServer ⟨hlength _ _ hadded, hcomment.1⟩ hcomment.2
  · exact Option.some.inj h ▸ keeps_unchanged ..

theorem keeps_jcDelServer (h : E.jcDelServer moduleList root = some outcome) :
    Keeps moduleList outcome := by
  simp only [jcDelServer, Option.bind_eq_bind, Option.bind_eq_some_iff] at h
  obtain ⟨-, -, luid, -, -, -, text, -, h⟩ := h
  split_ifs at h
  · rw [← Option.some.inj h]
    exact keeps_changed fun m => LcxlConfig.keepsSound_removeServer
  · exact Option.some.inj h ▸ keeps_unchanged ..

theorem keeps_command (hcomment : E.server.comment.Fits ∧ E.server.comment.ReturnFree)
    (hlength : ∀ luid server, E.lnlAddServer luid server → server.macAddr.length = 6) {code : ℤ}
    (h : E.command moduleList root code = some outcome) : Keeps moduleList outcome := by
  unfold command at h
  split at h
  · exact Option.some.inj h ▸ keeps_unchanged ..
  · exact keeps_jcSetVirtualAddr h
  · exact keeps_jcServerList h
  · exact keeps_jcAddServer hcomment hlength h
  · exact keeps_jcDelServer h
  · exact Option.some.inj h ▸ keeps_unchanged ..
  · exact Option.some.inj h ▸ keeps_unchanged ..

/-- A message saves the modules or leaves them as they are. -/
theorem recvEvent_keeps {S : SocketLib} {data : List UInt8} {r : Received}
    (hcomment : E.server.comment.Fits ∧ E.server.comment.ReturnFree)
    (hlength : ∀ luid server, E.lnlAddServer luid server → server.macAddr.length = 6)
    (h : E.recvEvent S moduleList data = some r) :
    List.Forall₂ ConfigModule.KeepsSound moduleList r.moduleList ∧
      (r.saved ∨ r.moduleList = moduleList) := by
  rw [recvEvent] at h
  split at h
  · obtain ⟨⟨moduleList', ret, saved⟩, hret, h⟩ := Option.bind_eq_some_iff.1 h
    rw [← Option.some.inj h]
    simp only [processJsonData, Option.bind_eq_bind, Option.bind_eq_some_iff] at hret
    obtain ⟨-, -, code, -, ⟨moduleList₁, data, status⟩, houtcome, hret⟩ := hret
    have heq : answer code (moduleList₁, data, status) = (moduleList', ret, saved) :=
      Option.some.inj hret
    cases heq
    obtain ⟨hkeeps, hsaved⟩ := keeps_command hcomment hlength houtcome
    exact ⟨hkeeps, hsaved.imp_left fun h => decide_eq_true h⟩
  · rw [← Option.some.inj h]
    exact ⟨List.forall₂_same.2 fun m _ => .refl m, .inr rfl⟩

end ServiceLib

/-! ## The host -/

variable {P : FileLib} {env : Surroundings} {d d' : Driver} {config config' saved : ServiceConfig}
  {s s' : Host} {a : HostStep}

theorem ServiceConfig.map_withModules (config : ServiceConfig) {moduleList : List ConfigModule}
    (h : config.moduleList.length = moduleList.length) :
    (config.withModules moduleList).moduleList.map (·.toConfigModule) = moduleList := by
  refine List.ext_getElem (by simp [withModules, h]) fun i hi hi' => ?_
  simp [withModules]

/-- What a message leaves of a sound configuration is sound. -/
theorem ServiceConfig.sound_withModules (hs : config.Sound) {moduleList : List ConfigModule}
    (h : List.Forall₂ ConfigModule.KeepsSound (config.moduleList.map (·.toConfigModule))
      moduleList) : (config.withModules moduleList).Sound := by
  have hlength : config.moduleList.length = moduleList.length := by simpa using h.length_eq
  have hmap := config.map_withModules hlength
  refine ⟨hs.port, fun m hm => ?_, ?_⟩
  · have hm' : m.toConfigModule ∈ moduleList := hmap ▸ List.mem_map_of_mem hm
    obtain ⟨m₀, hm₀, hkeeps⟩ := forall₂_exists_left h hm'
    obtain ⟨c, hc, rfl⟩ := List.mem_map.1 hm₀
    exact hkeeps.sound (hs.modules c hc)
  · have hluids := forall₂_map_eq (f := fun m : ConfigModule => m.module.miniportNetLuid)
      (g := fun m : ConfigModule => m.module.miniportNetLuid) (fun _ _ h => h.miniportNetLuid) h
    rw [← hmap, List.map_map, List.map_map] at hluids
    exact hluids ▸ hs.luids

theorem ServiceConfig.returnFree_withModules (hc : config.ReturnFree)
    {moduleList : List ConfigModule}
    (h : List.Forall₂ ConfigModule.KeepsSound (config.moduleList.map (·.toConfigModule))
      moduleList) : (config.withModules moduleList).ReturnFree := by
  have hlength : config.moduleList.length = moduleList.length := by simpa using h.length_eq
  intro m hm
  have hm' : m.toConfigModule ∈ moduleList :=
    config.map_withModules hlength ▸ List.mem_map_of_mem hm
  obtain ⟨m₀, hm₀, hkeeps⟩ := forall₂_exists_left h hm'
  obtain ⟨c, hcm, rfl⟩ := List.mem_map.1 hm₀
  exact hkeeps.returnFree (hc c hcm)

/-- The modules change one by one, and each is the same to the driver's clients. -/
theorem ipInterfaceChangeEvent_keeps (hs : config.Sound) (h : env.Reports d config)
    (added : Option UInt64) : ∃ d' config', ipInterfaceChangeEvent env d added config
      = some (d', config') ∧ config'.Sound ∧ config.Extends config'
      ∧ (env.ReturnFree d → config.ReturnFree → config'.ReturnFree) := by
  obtain ⟨d', config', hupdate, hsound, hextends⟩ := Surroundings.updateModuleList_keeps hs h
  have hfree : env.ReturnFree d → config.ReturnFree → config'.ReturnFree :=
    Surroundings.updateModuleList_returnFree hupdate
  have hmap : ∀ i, ((config'.moduleList.modify i env.startThread).map (·.toConfigModule))
      = config'.moduleList.map (·.toConfigModule) := by
    intro i
    refine List.ext_getElem (by simp) fun j hj hj' => ?_
    simp only [List.getElem_map, List.getElem_modify]
    split_ifs
    · exact Surroundings.startThread_toConfigModule _
    · rfl
  simp only [ipInterfaceChangeEvent, hupdate, Option.bind_eq_bind, Option.bind_some]
  split
  · exact ⟨_, _, rfl, hsound, hextends, hfree⟩
  split
  · exact ⟨_, _, rfl, hsound, hextends, hfree⟩
  · split_ifs
    · exact ⟨_, _, rfl, hsound.of_map_eq rfl (hmap _), hextends.trans (.of_map_eq rfl (hmap _)),
        fun hd hc => (hfree hd hc).of_map_eq (hmap _)⟩
    · exact ⟨_, _, rfl, hsound, hextends, hfree⟩

namespace Host

/-- What is in memory is what the file holds, and modules without servers. -/
structure Keeps (P : FileLib) (s : Host) (saved : ServiceConfig) : Prop where
  sound : saved.Sound
  returnFree : saved.ReturnFree
  holds : s.file.Holds P saved
  running : ∀ config, s.running = some config →
    config.Sound ∧ config.ReturnFree ∧ saved.Extends config

theorem Keeps.stopped (h : s.Keeps P saved) : Keeps P { s with running := none } saved :=
  ⟨h.sound, h.returnFree, h.holds, fun _ h => by cases h⟩

/-- A configuration just saved. -/
theorem keeps_saved (hP : P.Faithful) (hs : config.Sound) (hc : config.ReturnFree) :
    Keeps P ⟨P.saveXMLFile config, some config⟩ config :=
  ⟨hs, hc, holds_saveXMLFile hP hs hc, fun _ h => by
    cases h
    exact ⟨hs, hc, .of_map_eq rfl rfl⟩⟩

theorem Keeps.start (hP : P.Faithful) (h : s.Keeps P saved) (ha : s.Proper P (.start env d)) :
    ∃ saved', (s.exec P (.start env d)).Keeps P saved' := by
  obtain ⟨-, hd, hreports⟩ := ha
  obtain ⟨r, hr, hready, hsound, hextends, hfile, hfree⟩ :=
    preSerRun_keeps h.sound h.holds hreports
  simp only [exec, hr, hready, hfile]
  rcases Bool.eq_false_or_eq_true env.notified with hn | hn
  · simp only [hn, if_true]
    exact ⟨_, keeps_saved hP hsound (hfree h.returnFree hd)⟩
  · simp only [hn, Bool.false_eq_true, if_false]
    exact ⟨saved, h.stopped⟩

theorem Keeps.message (hP : P.Faithful) (h : s.Keeps P saved) {S : SocketLib} {E : ServiceLib}
    {data : List UInt8} (ha : s.Proper P (.message S E data)) :
    ∃ saved', (s.exec P (.message S E data)).Keeps P saved' := by
  obtain ⟨hfits, hcomment, hlength⟩ := ha
  rcases hrunning : s.running with _ | config
  · simp only [exec, go, hrunning, Option.bind_none]
    exact ⟨saved, h.stopped⟩
  obtain ⟨hsound, hc, hextends⟩ := h.running config hrunning
  rcases hr : E.recvEvent S (config.moduleList.map (·.toConfigModule)) data with _ | r
  · simp only [exec, go, hrunning, Option.bind_some, hr, Option.bind_eq_bind, Option.bind_none]
    exact ⟨saved, h.stopped⟩
  obtain ⟨hkeeps, hsaved⟩ := ServiceLib.recvEvent_keeps ⟨hfits, hcomment⟩ hlength hr
  have hsound' := ServiceConfig.sound_withModules hsound hkeeps
  have hc' := ServiceConfig.returnFree_withModules hc hkeeps
  simp only [exec, go, hrunning, Option.bind_some, hr, Option.bind_eq_bind, Option.pure_def]
  rcases Bool.eq_false_or_eq_true r.saved with hs | hs
  · simp only [hs, if_true]
    exact ⟨_, keeps_saved hP hsound' hc'⟩
  · simp only [hs, Bool.false_eq_true, if_false]
    have hsame : r.moduleList = config.moduleList.map (·.toConfigModule) :=
      hsaved.resolve_left (by simp [hs])
    refine ⟨saved, h.sound, h.returnFree, h.holds, fun config' hconfig' => ?_⟩
    cases hconfig'
    refine ⟨hsound', hc', hextends.trans (.of_map_eq rfl ?_)⟩
    rw [config.map_withModules (by simp [hsame]), hsame]

theorem Keeps.interfaceChange (h : s.Keeps P saved) {added : Option UInt64}
    (ha : s.Proper P (.interfaceChange env d added)) :
    (s.exec P (.interfaceChange env d added)).Keeps P saved := by
  rcases hrunning : s.running with _ | config
  · simp only [exec, go, hrunning, Option.bind_none]
    exact h.stopped
  obtain ⟨hsound, hc, hextends⟩ := h.running config hrunning
  obtain ⟨d', config', hchange, hsound', hextends', hfree⟩ :=
    ipInterfaceChangeEvent_keeps hsound (ha.2 config hrunning) added
  simp only [exec, go, hrunning, Option.bind_some, hchange, Option.bind_eq_bind, Option.pure_def]
  refine ⟨h.sound, h.returnFree, h.holds, fun config hconfig => ?_⟩
  cases hconfig
  exact ⟨hsound', hfree ha.1 hc, hextends.trans hextends'⟩

theorem Keeps.step (hP : P.Faithful) (h : s.Keeps P saved) (ha : s.Proper P a) :
    ∃ saved', (s.exec P a).Keeps P saved' := by
  cases a with
  | start env d => exact h.start hP ha
  | message S E data => exact h.message hP ha
  | interfaceChange env d added => exact ⟨saved, h.interfaceChange ha⟩
  | stop => exact ⟨saved, h.stopped⟩

theorem run_keeps (hP : P.Faithful) {tr : List HostStep} (h : s.Keeps P saved)
    (hrun : Sys.Run (Sys.Guarded (Proper P) (exec P)) s tr s') : ∃ saved', s'.Keeps P saved' := by
  refine hrun.preserves (I := fun s => ∃ saved, s.Keeps P saved) ?_ ⟨saved, h⟩
  rintro s a s' ⟨saved, h⟩ ⟨ha, rfl⟩
  exact h.step hP ha

section Runs

/-- What the service is sent asks it to add a server. -/
def askedToAdd : SocketLib where
  wstringToString _ := ""
  parse _ := some (Web.addServer 1 sentServer)
  write _ := ""
  stringToWstring _ := []

/-- The driver takes servers of addresses of six bytes. -/
def careful : ServiceLib :=
  { obeying .empty with lnlAddServer := fun _ server => server.macAddr.length = 6 }

/-- The service starts, takes a message, sees the interfaces change, ends, and starts again. -/
def restarting : List HostStep :=
  [.start quiet justAttached, .message askedToAdd careful [],
    .interfaceChange quiet justAttached none, .stop, .start quiet justAttached]

def restarted : Host :=
  restarting.foldl (exec plainFile) ⟨plainFile.saveXMLFile oneRouter, none⟩

theorem justAttached_returnFree : quiet.ReturnFree justAttached := by
  intro moduleList hlist ait hait
  rw [justAttached_booted.lnlGetModuleList] at hlist
  cases hlist
  obtain ⟨p, hp, rfl⟩ := List.mem_map.1 hait
  obtain rfl := List.mem_singleton.1 hp
  decide

theorem proper_start (h : s.running = none) : s.Proper plainFile (.start quiet justAttached) :=
  ⟨h, justAttached_returnFree, fun _ config _ => justAttached_booted.reports config⟩

theorem proper_message : s.Proper plainFile (.message askedToAdd careful []) :=
  ⟨show 0 < 256 by norm_num, by decide, fun _ _ h => by simpa [careful] using h⟩

theorem proper_interfaceChange :
    s.Proper plainFile (.interfaceChange quiet justAttached none) :=
  ⟨justAttached_returnFree, fun config _ => justAttached_booted.reports config⟩

theorem restarting_run : Sys.Run (Sys.Guarded (Proper plainFile) (exec plainFile))
    ⟨plainFile.saveXMLFile oneRouter, none⟩ restarting restarted :=
  Sys.Allowed.run ⟨proper_start rfl, proper_message, proper_interfaceChange, trivial,
    proper_start rfl, trivial⟩

end Runs

end Host

end LcxlNetLoader
