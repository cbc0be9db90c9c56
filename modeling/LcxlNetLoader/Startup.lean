import Mathlib.Data.List.TakeWhile
import LcxlNetLoader.Merging
import LcxlNetLoader.Replay
import LcxlNetLoader.Replies

/-!
# Starting the service

`PreSerRun` reads the configuration file, brings what it has read up to the driver's modules,
replays the modules the driver has and saves the file. From then on clients' messages change the
configuration and save it, and a change of the interfaces brings it up to the driver again, without
saving it. All that the next start finds is the file.
-/

namespace LcxlNetLoader

open Xml

/-- The text in the configuration file, where there is one. -/
abbrev XmlFile := Option String

/-- A carriage return in a file is read as the end of a line. The text has none. -/
def WideText.ReturnFree (text : WideText) : Prop := 13 ∉ text.chars

instance (text : WideText) : Decidable text.ReturnFree :=
  inferInstanceAs (Decidable (13 ∉ text.chars))

/-- The conversions the file needs: of texts, `string_tolower`, and `IntAttribute` of a text; and
tinyxml2, with what it reads of a text, and the text it saves a document as that has a byte order
mark, a declaration and the root. -/
structure FileLib extends TextLib where
  stringTolower : String → String
  intOf : String → Int32
  parse : String → Document
  print : Element → String

/-- What the conversions are documented to do. An element that can be written, and is at most 100
elements deep, is read of the text it is saved as; and the texts that it is made of can be written,
but for carriage returns in a text of `WCHAR`s. -/
structure FileLib.Faithful (P : FileLib) : Prop where
  texts : P.toTextLib.Faithful
  lower : P.stringTolower "netloader" = "netloader"
  int : ∀ v, P.intOf (P.intText v) = v
  file : ∀ e : Element, e.Writable 100 → P.parse (P.print e) = .root e
  intText : ∀ v, IsText (P.intText v)
  inetNtop4 : ∀ a, IsText (P.inetNtop4 a)
  inetNtop6 : ∀ a, IsText (P.inetNtop6 a)
  wide : ∀ w : WideText, w.ReturnFree → IsText (P.wstringToUtf8string w)

/-- `CLCXLConfig`. -/
structure ServiceConfig where
  port : Int32
  moduleList : List ServiceModule

/-- A new `CLCXLConfig`. -/
def ServiceConfig.new : ServiceConfig := ⟨32112, []⟩

/-- A module that has no thread. -/
def ConfigModule.threadless (m : ConfigModule) : ServiceModule := ⟨m, none, none⟩

namespace FileLib

variable (P : FileLib)

/-- `IntAttribute`, which is zero where the attribute is missing. -/
def intAttribute (e : Element) : Int32 := ((e.getAttribute "value").map P.intOf).getD 0

/-- Whether the file is good, and the configuration; none where a reader goes on with a null
pointer or past the end of a field. -/
def loadXMLFile (active : Bool × Bool) (config : ServiceConfig) (file : XmlFile) :
    Option (Bool × ServiceConfig) :=
  match file.elim .error P.parse with
  -- A file that is not there, or is no XML, is one without modules.
  | .error => some (true, config)
  | .rootless => some (false, config)
  | .root e =>
    if P.stringTolower e.name ≠ "netloader" then some (false, config)
    else
      let port := (e.firstChildElement "port").map P.intAttribute
      let config := { config with port := port.getD config.port }
      if port.any fun n => n ≤ 0 ∨ 65535 ≤ n then some (false, config)
      else match e.firstChildElement "module_list" with
        | none => some (true, config)
        | some e => do
          let moduleList ← LcxlConfig.readModuleList P.toTextLib active e []
          pure (true, { config with
            moduleList := config.moduleList ++ moduleList.map (·.threadless) })

/-- The root that is saved. -/
def rootElement (config : ServiceConfig) : Element :=
  let e := newElement "netloader"
  let e := e.insertEndChild ((newElement "port").setAttribute "value" (P.intText config.port))
  e.insertEndChild (LcxlConfig.writeModuleList P.toTextLib (newElement "module_list")
    (config.moduleList.map (·.toConfigModule)))

def saveXMLFile (config : ServiceConfig) : XmlFile := some (P.print (P.rootElement config))

end FileLib

/-! ## What the service asks of the driver -/

/-- The text in an array of `WCHAR`s. -/
def wideOf (chars : List UInt16) : WideText :=
  ⟨chars.takeWhile (· ≠ 0), fun h => by simpa using List.mem_takeWhile_imp h⟩

/-- The record as the service reads it. -/
def AppModule.received (a : AppModule) : LcxlConfig.AppModule where
  miniportIfindex := a.miniportIfindex
  miniportNetLuid := a.miniportNetLuid
  virtualAddr := a.virtualAddr
  macAddr := a.macAddr
  filterModuleName := wideOf a.filterModuleName
  miniportFriendlyName := wideOf a.miniportFriendlyName
  miniportName := wideOf a.miniportName
  lcxlRole := .ofInt a.lcxlRole
  serverCount := .ofInt a.serverCount
  routeTimeout := .ofInt a.routeTimeout
  serverCheck :=
    ⟨.ofInt a.serverCheck.interval, .ofInt a.serverCheck.timeout, .ofInt a.serverCheck.retryNumber⟩
  routingAlgorithm := .ofInt a.routingAlgorithm

/-- What there is when the service calls: the driver's clock and the end of its lists, what the
stack holds, what `_beginthreadex` gives for a module, the handles of its thread and of its exit
event, and whether both notifications can be had. -/
structure Surroundings where
  past : ServerPtr → Bool
  now : ℕ → ℤ
  active : Bool × Bool
  beginthreadex : UInt64 → Option (ℕ × ℕ)
  notified : Bool

namespace Surroundings

variable (env : Surroundings)

/-- What `lnlGetModuleList` gives with room for 20 modules, none where it fails. -/
def lnlGetModuleList (d : Driver) : Driver × Option (List LcxlConfig.AppModule) :=
  let (d, reply) := filterDeviceIoControl env.past (env.now 0) d (LcxlNetLoader.lnlGetModuleList 20)
  match reply.status, reply.output with
  | .success, .modules buffer =>
    (d, some ((buffer.take (reply.information / sizeofAppModule)).map (·.received)))
  | _, _ => (d, none)

/-- `UpdateModuleList` of the service, which leaves the modules as they are where the driver does
not answer. -/
def updateModuleList (d : Driver) (config : ServiceConfig) : Option (Driver × ServiceConfig) :=
  match env.lnlGetModuleList d with
  | (d, none) => some (d, config)
  | (d, some moduleList) => do
    let moduleList ← LcxlConfig.updateModuleList config.moduleList moduleList
    pure (d, { config with moduleList })

/-- What `SetModuleInfo` leaves of the module: a router that has no thread gets one. -/
def startThread (m : ServiceModule) : ServiceModule :=
  if m.module.lcxlRole.toInt = roleRouter ∧ m.threadHandle = none then
    match env.beginthreadex m.module.miniportNetLuid with
    | none => m
    | some (threadHandle, exitEvent) =>
      { m with threadHandle := some threadHandle, exitEvent := some exitEvent }
  else m

/-- The loop over the modules: those that the driver has are set. -/
def setModules (d : Driver) (config : ServiceConfig) : Driver × ServiceConfig :=
  let present := config.moduleList.filter (·.isexist)
  (d.serve env.past (fun n => env.now (n + 1)) (present.flatMap (setModuleInfo ·.toConfigModule)),
    { config with
      moduleList := config.moduleList.map fun m => if m.isexist then env.startThread m else m })

end Surroundings

/-- What `PreSerRun` leaves, and what it returns. -/
structure Started where
  driver : Driver
  config : ServiceConfig
  file : XmlFile
  ready : Bool

/-- None where the service ends on the way. -/
def preSerRun (P : FileLib) (env : Surroundings) (d : Driver) (file : XmlFile) :
    Option Started := do
  let (good, config) ← P.loadXMLFile env.active .new file
  if ¬ good then pure ⟨d, config, file, false⟩
  else
    let (d, config) ← env.updateModuleList d config
    let (d, config) := env.setModules d config
    if ¬ env.notified then pure ⟨d, config, file, false⟩
    else pure ⟨d, config, P.saveXMLFile config, true⟩

/-- `IpInterfaceChangeEvent` of an interface that was added, or of one that was deleted. -/
def ipInterfaceChangeEvent (env : Surroundings) (d : Driver) (added : Option UInt64)
    (config : ServiceConfig) : Option (Driver × ServiceConfig) := do
  let (d, config) ← env.updateModuleList d config
  match added.bind fun luid => config.moduleList.findIdx? (·.module.miniportNetLuid = luid) with
  | none => pure (d, config)
  | some i => match config.moduleList[i]? with
    | none => pure (d, config)
    | some m =>
      if m.isexist then
        pure (d.serve env.past (fun n => env.now (n + 1)) (setModuleInfo m.toConfigModule),
          { config with moduleList := config.moduleList.modify i env.startThread })
      else pure (d, config)

/-! ## From start to start -/

/-- The machine: the configuration file, and the service's configuration while it runs. -/
structure Host where
  file : XmlFile
  running : Option ServiceConfig

inductive HostStep
  | start (env : Surroundings) (d : Driver)
  | message (S : SocketLib) (E : ServiceLib) (data : List UInt8)
  | interfaceChange (env : Surroundings) (d : Driver) (added : Option UInt64)
  /-- The service ends, or is ended. -/
  | stop

/-- The configuration with what a command left of its modules. -/
def ServiceConfig.withModules (config : ServiceConfig) (moduleList : List ConfigModule) :
    ServiceConfig :=
  { config with
    moduleList := List.zipWith (fun (m : ServiceModule) (m' : ConfigModule) =>
      { m with toConfigModule := m' }) config.moduleList moduleList }

namespace Host

/-- A step of the service that runs. It ends where nothing comes of the step. -/
def go (s : Host) (step : ServiceConfig → Option (XmlFile × ServiceConfig)) : Host :=
  match s.running.bind step with
  | none => { s with running := none }
  | some (file, config) => ⟨file, some config⟩

def exec (P : FileLib) (s : Host) : HostStep → Host
  | .start env d => match preSerRun P env d s.file with
    | none => { s with running := none }
    | some r => ⟨r.file, if r.ready then some r.config else none⟩
  | .message S E data => s.go fun config => do
    let r ← E.recvEvent S (config.moduleList.map (·.toConfigModule)) data
    let config := config.withModules r.moduleList
    pure (if r.saved then P.saveXMLFile config else s.file, config)
  | .interfaceChange env d added => s.go fun config => do
    let (_, config) ← ipInterfaceChangeEvent env d added config
    pure (s.file, config)
  | .stop => { s with running := none }

end Host

/-! ## What a start finds again -/

/-- What is set of a module is the same. -/
structure ConfigModule.Settings (m m' : ConfigModule) : Prop where
  miniportNetLuid : m'.module.miniportNetLuid = m.module.miniportNetLuid
  lcxlRole : m'.module.lcxlRole = m.module.lcxlRole
  virtualAddr : m'.module.virtualAddr = m.module.virtualAddr
  serverList : List.Forall₂ ConfigServer.Same m.serverList m'.serverList
  routeTimeout : m'.module.routeTimeout = m.module.routeTimeout
  serverCheck : m'.module.serverCheck = m.module.serverCheck
  routingAlgorithm : m'.module.routingAlgorithm = m.module.routingAlgorithm

/-- The module survives in the file, and so do its servers, no two of one address. -/
structure ConfigModule.Sound (m : ConfigModule) : Prop where
  survives : m.Survives
  servers : m.DistinctServers

/-- The texts that are saved of the module have no carriage return. -/
structure ConfigModule.ReturnFree (m : ConfigModule) : Prop where
  miniportFriendlyName : m.module.miniportFriendlyName.ReturnFree
  serverList : ∀ s ∈ m.serverList, s.comment.ReturnFree

namespace ServiceConfig

/-- No text that is saved of the modules has a carriage return. -/
def ReturnFree (config : ServiceConfig) : Prop :=
  ∀ m ∈ config.moduleList, m.toConfigModule.ReturnFree

/-- The port is one, and the modules are sound, no two of one LUID. -/
structure Sound (config : ServiceConfig) : Prop where
  port : 0 < config.port ∧ config.port < 65535
  modules : ∀ m ∈ config.moduleList, m.toConfigModule.Sound
  luids : (config.moduleList.map (·.module.miniportNetLuid)).Nodup

/-- The modules of the configuration are still there, as they were set, before others that have no
servers. -/
structure Extends (config config' : ServiceConfig) : Prop where
  port : config'.port = config.port
  modules : ∃ old new, config'.moduleList = old ++ new
    ∧ List.Forall₂ (fun m m' => m.toConfigModule.Settings m'.toConfigModule) config.moduleList old
    ∧ ∀ m ∈ new, m.serverList = []

/-- The driver has for none of the modules another role than the configuration has. -/
def Agrees (config : ServiceConfig) (ait : LcxlConfig.AppModule) : Prop :=
  ∀ m ∈ config.moduleList, m.module.miniportNetLuid = ait.miniportNetLuid →
    ait.lcxlRole ≠ LcxlConfig.roleUnknown → ait.lcxlRole = m.module.lcxlRole

end ServiceConfig

/-- A module with one of the three roles, a LUID below 2^63, an address of six bytes and names that
end in their fields. -/
structure LcxlConfig.AppModule.Proper (ait : LcxlConfig.AppModule) : Prop where
  lcxlRole : ait.lcxlRole = 0 ∨ ait.lcxlRole = 1 ∨ ait.lcxlRole = 2
  miniportNetLuid : ait.miniportNetLuid.toNat < 2 ^ 63
  macAddr : ait.macAddr.length = 6
  names : ait.NamesFit

/-- The modules the driver reports are proper, and of the roles that they are configured with. -/
def Surroundings.Reports (env : Surroundings) (d : Driver) (config : ServiceConfig) : Prop :=
  ∀ moduleList, (env.lnlGetModuleList d).2 = some moduleList →
    ∀ ait ∈ moduleList, ait.Proper ∧ config.Agrees ait

/-- The friendly names that the driver reports have no carriage return. -/
def Surroundings.ReturnFree (env : Surroundings) (d : Driver) : Prop :=
  ∀ moduleList, (env.lnlGetModuleList d).2 = some moduleList →
    ∀ ait ∈ moduleList, ait.miniportFriendlyName.ReturnFree

/-- The configuration is read of the file. -/
def XmlFile.Holds (P : FileLib) (file : XmlFile) (config : ServiceConfig) : Prop :=
  ∀ active, ∃ moduleList, P.loadXMLFile active .new file = some (true, ⟨config.port, moduleList⟩)
    ∧ List.Forall₂ (fun m m' => m.toConfigModule.Same m'.toConfigModule) config.moduleList
      moduleList

/-- The service is not started twice, the driver's reports agree with the configuration and have no
carriage returns in friendly names, and no server is added whose address has not six bytes, or whose
comment does not end or has a carriage return. -/
def Host.Proper (P : FileLib) (s : Host) : HostStep → Prop
  | .start env d => s.running = none ∧ env.ReturnFree d ∧ ∀ good config,
      P.loadXMLFile env.active .new s.file = some (good, config) → env.Reports d config
  | .message _ E _ => E.server.comment.Fits ∧ E.server.comment.ReturnFree
      ∧ ∀ luid server, E.lnlAddServer luid server → server.macAddr.length = 6
  | .interfaceChange env d _ => env.ReturnFree d ∧ ∀ config ∈ s.running, env.Reports d config
  | .stop => True

/-! ## What the driver then has -/

/-- The module of the driver is set as it is configured. No request carries the route timeout. -/
structure ConfigModule.InForce (m : ConfigModule) (f : LcxlFilter) : Prop where
  virtualAddr : f.module.virtualAddr = m.module.virtualAddr
  lcxlRole : f.module.lcxlRole = m.module.lcxlRole.toInt
  routeTimeout : f.module.routeTimeout = 1800
  router : m.module.lcxlRole.toInt = roleRouter →
    f.module.serverList.lst.list.map (fun q => (f.module.serverList.mem q).info) = m.servers
      ∧ f.module.serverCheck = m.module.serverCheck.toServerCheck
      ∧ f.module.routingAlgorithm = m.module.routingAlgorithm.toInt
  other : m.module.lcxlRole.toInt ≠ roleRouter →
    f.module.serverList.lst.list = [] ∧ f.module.serverCheck = ⟨10, 10, 2⟩
      ∧ f.module.routingAlgorithm = raLeastConnection

/-- The adapters have just been attached, no more of them than a list of modules has room for: their
modules are as `InitModuleSetting` leaves them, of different LUIDs, and no list is locked. The name
of none is too long for `IOCTL_GET_MODULE_LIST`. -/
structure Driver.Booted (d : Driver) : Prop where
  unlocked : d.gFilterList.lockCount = 0
  settled : d.gFilterList.toBeAddList = [] ∧ d.gFilterList.toBeDelList = []
  count : d.gFilterList.listCount = d.gFilterList.list.length
  room : d.gFilterList.list.length ≤ 20
  setting : ∀ p ∈ d.gFilterList.list, ∃ (memory : ServerTable) (parameters : AttachParameters),
    (d.filter p).module = initModuleSetting { memory with lst := initLcxlList } parameters
      ∧ parameters.macAddressLength = 6 ∧ parameters.baseMiniportNetLuid.toNat < 2 ^ 63
      ∧ parameters.baseMiniportName.length < 512
  luids : (d.gFilterList.list.map fun p => (d.filter p).module.miniportNetLuid).Nodup

end LcxlNetLoader
