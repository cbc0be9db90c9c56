import LcxlNetLoader.Lib.XmlText
import LcxlNetLoader.Proofs.Config
import LcxlNetLoader.Proofs.Merging
import LcxlNetLoader.Startup

/-!
# What a start makes of the file

A sound configuration is read of the file it is saved in (`holds_saveXMLFile`), and bringing it up
to the driver's modules leaves it sound and its modules as they were set (`updateModuleList_keeps`).
So a start that comes to its end has the saved modules before those that only the driver has
(`preSerRun_keeps`).
-/

namespace LcxlNetLoader

open Xml
open LcxlConfig (forall₂_exists_left)

variable {P : FileLib} {env : Surroundings} {d d' : Driver} {config config' saved : ServiceConfig}
  {file : XmlFile}

/-- Relations of lists whose elements are related one by one compose as those of the elements do. -/
theorem forall₂_comp {α β γ : Type} {R : α → β → Prop} {S : β → γ → Prop} {T : α → γ → Prop}
    (hT : ∀ a b c, R a b → S b c → T a c) : ∀ {l : List α} {l' : List β} {l'' : List γ},
    List.Forall₂ R l l' → List.Forall₂ S l' l'' → List.Forall₂ T l l''
  | _, _, _, .nil, .nil => .nil
  | _, _, _, .cons h hl, .cons h' hl' => .cons (hT _ _ _ h h') (forall₂_comp hT hl hl')

theorem forall₂_map_eq {α β γ : Type} {R : α → β → Prop} {f : α → γ} {g : β → γ}
    (hR : ∀ a b, R a b → g b = f a) : ∀ {l : List α} {l' : List β},
    List.Forall₂ R l l' → l'.map g = l.map f
  | _, _, .nil => rfl
  | _, _, .cons hr h => by rw [List.map_cons, List.map_cons, hR _ _ hr, forall₂_map_eq hR h]

/-! ## Settings -/

namespace ConfigServer

variable {s s' s'' : ConfigServer}

theorem Same.refl (s : ConfigServer) : s.Same s := ⟨rfl, rfl, rfl, rfl, rfl⟩

theorem Same.trans (h : s.Same s') (h' : s'.Same s'') : s.Same s'' :=
  ⟨h'.status.trans h.status, h'.ipStatus.trans h.ipStatus, h'.comment.trans h.comment,
    h'.length.trans h.length, h'.value.trans h.value⟩

theorem Same.survives (h : s.Same s') (hs : s.Survives) : s'.Survives :=
  ⟨h.length.trans hs.1, h.comment ▸ hs.2⟩

end ConfigServer

namespace ConfigModule

variable {m m' m'' : ConfigModule}

theorem Settings.refl (m : ConfigModule) : m.Settings m :=
  ⟨rfl, rfl, rfl, List.forall₂_same.2 fun s _ => .refl s, rfl, rfl, rfl⟩

theorem Settings.trans (h : m.Settings m') (h' : m'.Settings m'') : m.Settings m'' :=
  ⟨h'.miniportNetLuid.trans h.miniportNetLuid, h'.lcxlRole.trans h.lcxlRole,
    h'.virtualAddr.trans h.virtualAddr,
    forall₂_comp (fun _ _ _ => .trans) h.serverList h'.serverList,
    h'.routeTimeout.trans h.routeTimeout, h'.serverCheck.trans h.serverCheck,
    h'.routingAlgorithm.trans h.routingAlgorithm⟩

theorem Same.settings (h : m.Same m') : m.Settings m' :=
  ⟨h.miniportNetLuid, h.lcxlRole, h.virtualAddr, h.serverList, h.routeTimeout, h.serverCheck,
    h.routingAlgorithm⟩

/-- Servers that are the same have the same addresses. -/
theorem DistinctServers.of_same (hs : List.Forall₂ ConfigServer.Same m.serverList m'.serverList)
    (h : m.DistinctServers) : m'.DistinctServers := by
  refine ⟨fun s hs' => ?_, ?_⟩
  · obtain ⟨c', hc', rfl⟩ := List.mem_map.1 hs'
    obtain ⟨c, hc, hsame⟩ := forall₂_exists_left hs hc'
    exact hsame.length.trans (h.length _ (List.mem_map_of_mem hc))
  · have hvalues : (m'.servers.map (·.macAddr.value)) = m.servers.map (·.macAddr.value) := by
      rw [servers, servers, List.map_map, List.map_map]
      exact forall₂_map_eq (fun _ _ hsame => hsame.value) hs
    rw [hvalues]
    exact h.nodup

theorem Sound.of_same (hm : m.Same m') (h : m.Sound) : m'.Sound := by
  refine ⟨⟨?_, ?_, hm.length.trans h.survives.macAddr, ?_, fun s hs => ?_⟩,
    .of_same hm.serverList h.servers⟩
  · rw [hm.lcxlRole]
    exact h.survives.lcxlRole
  · rw [hm.miniportNetLuid]
    exact h.survives.miniportNetLuid
  · rw [hm.miniportFriendlyName]
    exact h.survives.miniportFriendlyName
  · obtain ⟨c, hc, hsame⟩ := forall₂_exists_left hm.serverList hs
    exact hsame.survives (h.survives.serverList c hc)

theorem ReturnFree.of_same (hm : m.Same m') (h : m.ReturnFree) : m'.ReturnFree := by
  refine ⟨?_, fun s hs => ?_⟩
  · rw [hm.miniportFriendlyName]
    exact h.miniportFriendlyName
  · obtain ⟨c, hc, hsame⟩ := forall₂_exists_left hm.serverList hs
    rw [hsame.comment]
    exact h.serverList c hc

end ConfigModule

namespace ServiceConfig

theorem Extends.trans (h : saved.Extends config) (h' : config.Extends config') :
    saved.Extends config' := by
  obtain ⟨old, new, hsplit, hold, hempty⟩ := h.modules
  obtain ⟨old', new', hsplit', hold', hempty'⟩ := h'.modules
  rw [hsplit] at hold'
  refine ⟨h'.port.trans h.port, old'.take old.length, old'.drop old.length ++ new', ?_, ?_, ?_⟩
  · rw [hsplit', ← List.append_assoc, List.take_append_drop]
  · exact forall₂_comp (fun _ _ _ => .trans) hold
      (by simpa using List.forall₂_take old.length hold')
  · intro m hm
    rcases List.mem_append.1 hm with hm | hm
    · have hdrop : List.Forall₂ (fun m m' => m.toConfigModule.Settings m'.toConfigModule) new
          (old'.drop old.length) := by simpa using List.forall₂_drop old.length hold'
      obtain ⟨m₀, hm₀, hsame⟩ := forall₂_exists_left hdrop hm
      have hnil := hsame.serverList
      rwa [hempty m₀ hm₀, List.forall₂_nil_left_iff] at hnil
    · exact hempty' m hm

/-- A configuration whose modules are all there still, and no other. -/
theorem Extends.of_forall₂ (hport : config'.port = config.port)
    (h : List.Forall₂ (fun m m' => m.toConfigModule.Settings m'.toConfigModule) config.moduleList
      config'.moduleList) : config.Extends config' :=
  ⟨hport, config'.moduleList, [], (List.append_nil _).symm, h,
    fun _ hm => absurd hm List.not_mem_nil⟩

/-- Only what is configured of the modules counts, not their threads. -/
theorem Extends.of_map_eq (hport : config'.port = config.port)
    (h : config'.moduleList.map (·.toConfigModule) = config.moduleList.map (·.toConfigModule)) :
    config.Extends config' := by
  refine .of_forall₂ hport ?_
  have hsame : List.Forall₂ ConfigModule.Settings (config.moduleList.map (·.toConfigModule))
      (config'.moduleList.map (·.toConfigModule)) := by
    rw [h]
    exact List.forall₂_same.2 fun m _ => .refl m
  rwa [List.forall₂_map_left_iff, List.forall₂_map_right_iff] at hsame

theorem Sound.of_map_eq (hs : config.Sound) (hport : config'.port = config.port)
    (h : config'.moduleList.map (·.toConfigModule) = config.moduleList.map (·.toConfigModule)) :
    config'.Sound := by
  refine ⟨hport ▸ hs.port, fun m hm => ?_, ?_⟩
  · obtain ⟨m₀, hm₀, heq⟩ := List.mem_map.1 (h ▸ List.mem_map_of_mem hm)
    rw [← heq]
    exact hs.modules m₀ hm₀
  · have hluids := congrArg (List.map (·.module.miniportNetLuid)) h
    rw [List.map_map, List.map_map] at hluids
    exact hluids ▸ hs.luids

theorem ReturnFree.of_map_eq (hc : config.ReturnFree)
    (h : config'.moduleList.map (·.toConfigModule) = config.moduleList.map (·.toConfigModule)) :
    config'.ReturnFree := by
  intro m hm
  obtain ⟨m₀, hm₀, heq⟩ := List.mem_map.1 (h ▸ List.mem_map_of_mem hm)
  rw [← heq]
  exact hc m₀ hm₀

end ServiceConfig

/-! ## The file -/

section Writing

variable {e : Element} {name text : String} {n : ℕ}

/-- A text without control characters. -/
theorem isText_of_ge (h : ∀ c ∈ text.toList, 32 ≤ c.toNat) : IsText text :=
  ⟨fun hm => absurd (h _ hm) (by decide), fun hm => absurd (h _ hm) (by decide)⟩

theorem isText_roleToStr (role : Int32) : IsText (roleToStr role) := by
  unfold roleToStr
  split_ifs <;> exact ⟨by decide, by decide⟩

theorem writable_setChind (he : e.Writable (n + 2)) (hn : isName name) (ht : IsText text) :
    (setChind e name text).Writable (n + 2) :=
  he.updateChild hn fun _ hc => hc.setAttribute (by decide) ht

variable (hP : P.Faithful)
include hP

theorem writable_writeAddrInfo (he : e.Writable (n + 2)) (addr : LcxlAddrInfo) :
    (LcxlConfig.writeAddrInfo P.toTextLib e addr).Writable (n + 2) := by
  refine writable_setChind (writable_setChind (writable_setChind (writable_setChind
    (writable_setChind he ?_ ?_) ?_ ?_) ?_ ?_) ?_ ?_) ?_ ?_
  all_goals first
    | exact hP.intText _
    | exact hP.inetNtop4 _
    | exact hP.inetNtop6 _
    | decide

theorem writable_writeServerCheck (he : e.Writable (n + 2)) (serverCheck : ConfigServerCheck) :
    (LcxlConfig.writeServerCheck P.toTextLib e serverCheck).Writable (n + 2) :=
  writable_setChind (writable_setChind (writable_setChind he (by decide) (hP.intText _))
    (by decide) (hP.intText _)) (by decide) (hP.intText _)

theorem writable_writeServer (he : e.Writable (n + 2)) {server : ConfigServer}
    (hs : server.comment.ReturnFree) :
    (LcxlConfig.writeServer P.toTextLib e server).Writable (n + 2) :=
  writable_setChind (writable_setChind (writable_setChind (writable_setChind he (by decide)
    (hP.intText _)) (by decide) (hP.intText _)) (by decide) (hP.wide _ hs)) (by decide)
    (isText_of_ge (macText_ge _))

theorem writable_writeServerList : ∀ (servers : List ConfigServer) {e : Element},
    e.Writable (n + 3) → (∀ s ∈ servers, s.comment.ReturnFree) →
    (LcxlConfig.writeServerList P.toTextLib e servers).Writable (n + 3)
  | [], _, he, _ => he
  | server :: servers, e, he, hs => by
    obtain ⟨hserver, hservers⟩ := List.forall_mem_cons.1 hs
    have hnew : (newElement "server").Writable (n + 2) :=
      Element.writable_newElement (by decide)
    exact writable_writeServerList servers
      (he.insertEndChild (writable_writeServer hP hnew hserver)) hservers

theorem writable_writeModule (he : e.Writable (n + 4)) {module : ConfigModule}
    (hm : module.ReturnFree) : (LcxlConfig.writeModule P.toTextLib e module).Writable (n + 4) := by
  have haddr : (newElement "virtual_addr").Writable (n + 3) :=
    Element.writable_newElement (by decide)
  have hservers : (newElement "server_list").Writable (n + 3) :=
    Element.writable_newElement (by decide)
  have hcheck : (newElement "server_check").Writable (n + 3) :=
    Element.writable_newElement (by decide)
  have hrole := isText_roleToStr module.module.lcxlRole
  have hluid := isText_of_ge (natText_ge module.module.miniportNetLuid.toNat)
  have hmac := isText_of_ge (macText_ge module.module.macAddr)
  refine writable_setChind (writable_setChind (Element.Writable.insertEndChild
    (writable_setChind ?_ (by decide) (hP.intText _))
    (writable_writeServerCheck hP hcheck module.module.serverCheck)) (by decide) (hP.intText _))
    (by decide) (hP.wide _ hm.miniportFriendlyName)
  refine Element.Writable.insertEndChild (Element.Writable.insertEndChild ?_
    (writable_writeAddrInfo hP haddr module.module.virtualAddr))
    (writable_writeServerList hP module.serverList hservers hm.serverList)
  exact writable_setChind (writable_setChind (writable_setChind he (by decide) hrole)
    (by decide) hluid) (by decide) hmac

theorem writable_writeModuleList : ∀ (modules : List ConfigModule) {e : Element},
    e.Writable (n + 5) → (∀ m ∈ modules, m.ReturnFree) →
    (LcxlConfig.writeModuleList P.toTextLib e modules).Writable (n + 5)
  | [], _, he, _ => he
  | module :: modules, e, he, hm => by
    obtain ⟨hmodule, hmodules⟩ := List.forall_mem_cons.1 hm
    have hnew : (newElement "module").Writable (n + 4) :=
      Element.writable_newElement (by decide)
    exact writable_writeModuleList modules
      (he.insertEndChild (writable_writeModule hP hnew hmodule)) hmodules

/-- Without carriage returns in its texts, the root that is saved can be. It is six elements
deep. -/
theorem writable_rootElement (hc : config.ReturnFree) :
    (P.rootElement config).Writable (n + 6) := by
  have hroot : (newElement "netloader").Writable (n + 6) :=
    Element.writable_newElement (by decide)
  have hport : (newElement "port").Writable (n + 5) := Element.writable_newElement (by decide)
  have hlist : (newElement "module_list").Writable (n + 5) :=
    Element.writable_newElement (by decide)
  refine (hroot.insertEndChild (hport.setAttribute (by decide) (hP.intText _))).insertEndChild
    (writable_writeModuleList hP _ hlist fun m hm => ?_)
  obtain ⟨c, hcm, rfl⟩ := List.mem_map.1 hm
  exact hc c hcm

end Writing

@[simp] theorem name_writeModuleList : ∀ (modules : List ConfigModule) (e : Element),
    (LcxlConfig.writeModuleList P.toTextLib e modules).name = e.name
  | [], _ => rfl
  | _ :: modules, e => name_writeModuleList modules (e.insertEndChild _)

/-- What is saved is read as far as the modules, which are read each by itself. -/
theorem loadXMLFile_saveXMLFile (hP : P.Faithful) (hs : config.Sound) (hc : config.ReturnFree)
    (active : Bool × Bool) :
    P.loadXMLFile active .new (P.saveXMLFile config) =
      ((config.moduleList.map (·.toConfigModule)).mapM fun m =>
        LcxlConfig.readModule P.toTextLib active
          (LcxlConfig.writeModule P.toTextLib (newElement "module") m)).map fun moduleList =>
        (true, ⟨config.port, moduleList.map (·.threadless)⟩) := by
  set e := newElement "netloader" with he
  set port := (newElement "port").setAttribute "value" (P.intText config.port) with hport
  set modules := LcxlConfig.writeModuleList P.toTextLib (newElement "module_list")
    (config.moduleList.map (·.toConfigModule)) with hmodules
  have hname : modules.name = "module_list" := by rw [hmodules, name_writeModuleList]; simp
  have hfirst : ((e.insertEndChild port).insertEndChild modules).firstChildElement "port"
      = some port := by
    rw [Element.firstChildElement_insertEndChild_of_ne (by simp [hname])]
    exact Element.firstChildElement_insertEndChild rfl
  have hlist : ((e.insertEndChild port).insertEndChild modules).firstChildElement "module_list"
      = some modules := by
    refine (congrArg _ hname.symm).trans (Element.firstChildElement_insertEndChild ?_)
    rw [hname, Element.firstChildElement_insertEndChild_of_ne (by simp [hport])]
    rfl
  have hint : P.intAttribute port = config.port := by
    simp [FileLib.intAttribute, hport, hP.int]
  have hrange : ¬ (config.port ≤ 0 ∨ 65535 ≤ config.port) := by
    obtain ⟨hlo, hhi⟩ := hs.port
    simp only [not_or, Int32.not_le]
    exact ⟨hlo, hhi⟩
  have hroot : ((e.insertEndChild port).insertEndChild modules).name = "netloader" := by simp [he]
  have hfile : (P.saveXMLFile config).elim .error P.parse = .root (P.rootElement config) :=
    hP.file _ (writable_rootElement hP hc)
  simp only [FileLib.loadXMLFile, hfile, FileLib.rootElement, ← he, ← hport, ← hmodules, hroot,
    hP.lower, hfirst, hlist, hint, Option.map_some, Option.any_some, decide_eq_true_eq,
    if_neg hrange, ne_eq, not_true_eq_false, if_false, Option.getD_some]
  rw [hmodules, LcxlConfig.readModuleList_write]
  simp [ServiceConfig.new, Option.map_eq_bind, Function.comp_def]

/-- A sound configuration is read of the file it is saved in. -/
theorem holds_saveXMLFile (hP : P.Faithful) (hs : config.Sound) (hc : config.ReturnFree) :
    (P.saveXMLFile config).Holds P config := by
  intro active
  have hread : ∀ m ∈ config.moduleList.map (·.toConfigModule), ∃ m',
      LcxlConfig.readModule P.toTextLib active
        (LcxlConfig.writeModule P.toTextLib (newElement "module") m) = some m' ∧ m.Same m' := by
    intro m hm
    obtain ⟨c, hc, rfl⟩ := List.mem_map.1 hm
    exact (readModule_iff hP.texts _ "module").2 (hs.modules c hc).survives
  obtain ⟨moduleList, hmoduleList, hsame⟩ := (exists_mapM_forall₂ _).2 hread
  refine ⟨_, by rw [loadXMLFile_saveXMLFile hP hs hc, hmoduleList]; rfl, ?_⟩
  rw [List.forall₂_map_left_iff] at hsame
  rw [List.forall₂_map_right_iff]
  exact hsame

/-! ## The driver's modules -/

namespace LcxlConfig

variable {moduleList : List LcxlConfig.AppModule} {m m' : ServiceModule}

/-- What the driver reports of a module leaves it as it was set. -/
theorem refreshModule_settings (h : refreshModule moduleList m = some m')
    (hproper : ∀ ait ∈ moduleList, ait.Proper)
    (hrole : ∀ ait ∈ moduleList, m.module.miniportNetLuid = ait.miniportNetLuid →
      ait.lcxlRole ≠ roleUnknown → ait.lcxlRole = m.module.lcxlRole)
    (hs : m.toConfigModule.Sound) :
    m.toConfigModule.Settings m'.toConfigModule ∧ m'.toConfigModule.Sound := by
  have hservers : List.Forall₂ ConfigServer.Same m.serverList m.serverList :=
    List.forall₂_same.2 fun s _ => .refl s
  rcases refreshModule_cases h with ⟨-, rfl⟩ | ⟨ait, hfind, -, rfl⟩
  · exact ⟨⟨rfl, rfl, rfl, hservers, rfl, rfl, rfl⟩,
      .of_same (m := m.toConfigModule)
        ⟨rfl, rfl, rfl, rfl, rfl, hservers, rfl, rfl, rfl, rfl⟩ hs⟩
  · have hait := List.mem_of_find?_eq_some hfind
    have hluid : ait.miniportNetLuid = m.module.miniportNetLuid := by
      simpa using List.find?_some hfind
    have hkept : (if ait.lcxlRole ≠ roleUnknown then ait.lcxlRole else m.module.lcxlRole)
        = m.module.lcxlRole := by
      split_ifs with hne
      · exact hrole ait hait hluid.symm hne
      · rfl
    refine ⟨⟨rfl, hkept, rfl, hservers, rfl, rfl, rfl⟩, ⟨?_, hs.survives.miniportNetLuid,
      (hproper ait hait).macAddr, (hproper ait hait).names.miniportFriendlyName,
      hs.survives.serverList⟩, .of_same hservers hs.servers⟩
    simp only [hkept]
    exact hs.survives.lcxlRole

theorem newModule_sound {ait : LcxlConfig.AppModule} (h : ait.Proper) :
    (newModule ait).toConfigModule.Sound :=
  ⟨⟨h.lcxlRole, h.miniportNetLuid, h.macAddr, h.names.miniportFriendlyName,
    fun _ hs => absurd hs List.not_mem_nil⟩, fun _ hs => absurd hs List.not_mem_nil, .nil⟩

/-- Only the driver's names are new to the texts that are saved. -/
theorem updateModuleList_returnFree {modules modules' : List ServiceModule}
    (h : updateModuleList modules moduleList = some modules')
    (hnames : ∀ ait ∈ moduleList, ait.miniportFriendlyName.ReturnFree)
    (hc : ∀ m ∈ modules, m.toConfigModule.ReturnFree) :
    ∀ m ∈ modules', m.toConfigModule.ReturnFree := by
  obtain ⟨old, new, hsplit, hold, hnew⟩ := updateModuleList_split h
  intro m hm
  rw [hsplit] at hm
  rcases List.mem_append.1 hm with hm | hm
  · obtain ⟨m₀, hm₀, hrefresh⟩ := forall₂_exists_left hold hm
    rcases refreshModule_cases hrefresh with ⟨-, rfl⟩ | ⟨ait, hfind, -, rfl⟩
    · exact ⟨(hc m₀ hm₀).1, (hc m₀ hm₀).2⟩
    · exact ⟨hnames ait (List.mem_of_find?_eq_some hfind), (hc m₀ hm₀).2⟩
  · obtain ⟨ait, rfl, hfind⟩ := hnew m hm
    exact ⟨hnames ait (List.mem_of_find?_eq_some hfind), fun _ hs => absurd hs List.not_mem_nil⟩

/-- Modules as sound as those reported are brought up to these as they were set. -/
theorem updateModuleList_keeps (hs : config.Sound)
    (hproper : ∀ ait ∈ moduleList, ait.Proper ∧ config.Agrees ait) :
    ∃ moduleList', updateModuleList config.moduleList moduleList = some moduleList'
      ∧ ServiceConfig.Sound ⟨config.port, moduleList'⟩
      ∧ config.Extends ⟨config.port, moduleList'⟩ := by
  obtain ⟨moduleList', h⟩ :=
    exists_updateModuleList (fun ait ha => (hproper ait ha).1.names) config.moduleList
  obtain ⟨old, new, hsplit, hold, hnew⟩ := updateModuleList_split h
  have hrefreshed : ∀ m m', m ∈ config.moduleList → refreshModule moduleList m = some m' →
      m.toConfigModule.Settings m'.toConfigModule ∧ m'.toConfigModule.Sound := fun m m' hm h =>
    refreshModule_settings h (fun ait ha => (hproper ait ha).1)
      (fun ait ha => (hproper ait ha).2 m hm) (hs.modules m hm)
  refine ⟨moduleList', h, ⟨hs.port, fun m hm => ?_, (updateModuleList_merged h).distinct hs.luids⟩,
    rfl, old, new, hsplit, ?_, fun m hm => ?_⟩
  · rw [hsplit] at hm
    rcases List.mem_append.1 hm with hm | hm
    · obtain ⟨m₀, hm₀, hm⟩ := forall₂_exists_left hold hm
      exact (hrefreshed m₀ m hm₀ hm).2
    · obtain ⟨ait, rfl, hfind⟩ := hnew m hm
      exact newModule_sound (hproper ait (List.mem_of_find?_eq_some hfind)).1
  · refine List.forall₂_iff_get.2 ⟨hold.length_eq, fun i hi hi' => ?_⟩
    exact (hrefreshed _ _ (List.get_mem ..) (hold.get hi hi')).1
  · obtain ⟨ait, rfl, -⟩ := hnew m hm
    rfl

end LcxlConfig

namespace Surroundings

@[simp] theorem startThread_toConfigModule (m : ServiceModule) :
    (env.startThread m).toConfigModule = m.toConfigModule := by
  unfold startThread
  split_ifs
  · split <;> rfl
  · rfl

theorem updateModuleList_keeps (hs : config.Sound) (h : env.Reports d config) :
    ∃ d' config', env.updateModuleList d config = some (d', config') ∧ config'.Sound
      ∧ config.Extends config' := by
  unfold updateModuleList
  rcases hlist : env.lnlGetModuleList d with ⟨d', _ | moduleList⟩
  · exact ⟨d', config, rfl, hs, .of_map_eq rfl rfl⟩
  · obtain ⟨moduleList', hupdate, hsound, hextends⟩ :=
      LcxlConfig.updateModuleList_keeps hs (h moduleList (by rw [hlist]))
    exact ⟨d', _, by simp [hupdate], hsound, hextends⟩

theorem updateModuleList_returnFree (h : env.updateModuleList d config = some (d', config'))
    (hd : env.ReturnFree d) (hc : config.ReturnFree) : config'.ReturnFree := by
  unfold updateModuleList at h
  rcases hlist : env.lnlGetModuleList d with ⟨d₁, _ | moduleList⟩ <;> rw [hlist] at h
  · cases h
    exact hc
  · obtain ⟨moduleList', hupdate, h⟩ := Option.bind_eq_some_iff.1 h
    cases h
    exact LcxlConfig.updateModuleList_returnFree hupdate (hd moduleList (by rw [hlist])) hc

theorem map_setModules (env : Surroundings) (d : Driver) (config : ServiceConfig) :
    ((env.setModules d config).2.moduleList.map (·.toConfigModule))
      = config.moduleList.map (·.toConfigModule) := by
  rw [setModules, List.map_map]
  refine List.map_congr_left fun m _ => ?_
  rw [Function.comp_apply]
  split_ifs
  · exact startThread_toConfigModule m
  · rfl

end Surroundings

/-! ## A start -/

theorem preSerRun_eq (hload : P.loadXMLFile env.active .new file = some (true, config))
    (hupdate : env.updateModuleList d config = some (d', config')) :
    preSerRun P env d file = some ⟨(env.setModules d' config').1, (env.setModules d' config').2,
      if env.notified then P.saveXMLFile (env.setModules d' config').2 else file,
      env.notified⟩ := by
  rw [preSerRun, hload, Option.bind_eq_bind, Option.bind_some]
  simp only [not_true_eq_false, if_false, hupdate, Option.bind_eq_bind, Option.bind_some]
  cases env.notified <;> rfl

/-- What is read of a file that holds a sound configuration is sound, with the same modules. -/
theorem XmlFile.Holds.loads (h : file.Holds P saved) (hs : saved.Sound) (active : Bool × Bool) :
    ∃ config, P.loadXMLFile active .new file = some (true, config) ∧ config.Sound
      ∧ saved.Extends config := by
  obtain ⟨moduleList, hload, hsame⟩ := h active
  refine ⟨_, hload, ⟨hs.port, fun m hm => ?_, ?_⟩,
    .of_forall₂ rfl (hsame.imp fun _ _ h => h.settings)⟩
  · obtain ⟨m₀, hm₀, hm⟩ := forall₂_exists_left hsame hm
    exact (hs.modules m₀ hm₀).of_same hm
  · have hluids := forall₂_map_eq (f := fun m : ServiceModule => m.module.miniportNetLuid)
      (g := fun m : ServiceModule => m.module.miniportNetLuid)
      (fun _ _ h => h.miniportNetLuid) hsame
    rw [hluids]
    exact hs.luids

theorem XmlFile.Holds.returnFree {active : Bool × Bool} (h : file.Holds P saved)
    (hload : P.loadXMLFile active .new file = some (true, config)) (hs : saved.ReturnFree) :
    config.ReturnFree := by
  obtain ⟨moduleList, hload', hsame⟩ := h active
  cases hload.symm.trans hload'
  intro m hm
  obtain ⟨m₀, hm₀, hm⟩ := forall₂_exists_left hsame hm
  exact (hs m₀ hm₀).of_same hm

/-- A start comes to its end, and is not given up where the notifications can be had. -/
theorem preSerRun_keeps (hs : saved.Sound) (hfile : file.Holds P saved)
    (hreports : ∀ good config, P.loadXMLFile env.active .new file = some (good, config) →
      env.Reports d config) :
    ∃ r, preSerRun P env d file = some r ∧ r.ready = env.notified ∧ r.config.Sound
      ∧ saved.Extends r.config
      ∧ (r.file = if env.notified then P.saveXMLFile r.config else file)
      ∧ (saved.ReturnFree → env.ReturnFree d → r.config.ReturnFree) := by
  obtain ⟨config, hload, hsound, hextends⟩ := hfile.loads hs env.active
  obtain ⟨d', config', hupdate, hsound', hextends'⟩ :=
    Surroundings.updateModuleList_keeps hsound (hreports true config hload)
  have hmap := env.map_setModules d' config'
  exact ⟨_, preSerRun_eq hload hupdate, rfl, hsound'.of_map_eq rfl hmap,
    (hextends.trans hextends').trans (.of_map_eq rfl hmap), rfl, fun hfree hd =>
      (Surroundings.updateModuleList_returnFree hupdate hd
        (hfile.returnFree hload hfree)).of_map_eq hmap⟩

section Runs

/-- Conversions of a file there can be. -/
def plainFile : FileLib :=
  { plainText with
    stringTolower := fun text => String.ofList (text.toList.map Char.toLower)
    intOf := fun text => (plainText.unsignedOf text).toInt32
    parse := Xml.read
    print := Xml.text }

theorem plainFile_faithful : plainFile.Faithful where
  texts := plainText_faithful
  lower := by decide
  int v := by
    show (plainText.unsignedOf (plainText.intText v)).toInt32 = v
    rw [plainText_faithful.int, Int32.toInt32_toUInt32]
  file _ he := Xml.read_text he
  intText v := isText_of_ge (intText_ge v)
  inetNtop4 a := isText_of_ge (addressText_ge a (by decide))
  inetNtop6 a := isText_of_ge (addressText_ge a (by decide))
  wide w hw := by
    have hne : ∀ d : Char, wideOfChar d ∉ w.chars →
        d ∉ (String.ofList (w.chars.map charOfWide)).toList := by
      intro d hd hm
      rw [String.toList_ofList] at hm
      obtain ⟨c, hc, rfl⟩ := List.mem_map.1 hm
      rw [wideOfChar_charOfWide] at hd
      exact hd hc
    exact ⟨hne _ hw, hne _ w.noNul⟩

/-- A thread can be had, and both notifications. -/
def quiet : Surroundings := ⟨fun _ => false, fun _ => 0, (false, false), fun _ => some (1, 2), true⟩

end Runs

end LcxlNetLoader
