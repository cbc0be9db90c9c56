import LcxlNetLoader.Lib.Merge
import LcxlNetLoader.ConfigFile
import LcxlNetLoader.Commands

/-!
# The driver's modules in the configuration

`UpdateModuleList`, which brings what the driver reports of its modules into the service's
configuration, and what the configuration is to be after it.
-/

namespace LcxlNetLoader

/-- `CONFIG_MODULE`. A `HANDLE` is none where it is null. -/
structure ServiceModule extends ConfigModule where
  threadHandle : Option ℕ
  exitEvent : Option ℕ
deriving DecidableEq

namespace LcxlConfig

def roleUnknown : Int32 := 0

/-- The round of the first loop for a module. The first of the driver's modules that has its LUID
counts, and the service ends where `wcscpy_s` meets no NUL. -/
def refreshModule (moduleList : List AppModule) (cit : ServiceModule) : Option ServiceModule :=
  match moduleList.find? fun ait => ait.miniportNetLuid = cit.module.miniportNetLuid with
  | none => some { cit with isexist := false }
  | some ait => do
    let miniportFriendlyName ← wcscpy ait.miniportFriendlyName
    let miniportName ← wcscpy ait.miniportName
    let filterModuleName ← wcscpy ait.filterModuleName
    pure { cit with
      isexist := true
      module := { cit.module with
        miniportIfindex := ait.miniportIfindex
        lcxlRole := if ait.lcxlRole ≠ roleUnknown then ait.lcxlRole else cit.module.lcxlRole
        macAddr := ait.macAddr
        miniportFriendlyName, miniportName, filterModuleName } }

/-- A module that the driver has and the configuration has not. -/
def newModule (ait : AppModule) : ServiceModule where
  isexist := true
  module := ait
  serverList := []
  ipv4RouterActive := false
  ipv6RouterActive := false
  threadHandle := none
  exitEvent := none

def updateModuleList (modules : List ServiceModule) (moduleList : List AppModule) :
    Option (List ServiceModule) := do
  let modules ← modules.mapM (refreshModule moduleList)
  pure (Merge.addMissing (·.module.miniportNetLuid) (·.miniportNetLuid) newModule moduleList
    modules)

/-- The module that `FindModuleByLuid` finds. -/
def moduleByLuid (modules : List ServiceModule) (miniportNetLuid : UInt64) :
    Option ServiceModule :=
  (findModuleByLuid (modules.map (·.toConfigModule)) miniportNetLuid).bind (modules[·]?)

/-- What is left of a module that was configured before. -/
structure Kept (moduleList : List AppModule) (m m' : ServiceModule) : Prop where
  miniportNetLuid : m'.module.miniportNetLuid = m.module.miniportNetLuid
  serverList : m'.serverList = m.serverList
  virtualAddr : m'.module.virtualAddr = m.module.virtualAddr
  routeTimeout : m'.module.routeTimeout = m.module.routeTimeout
  serverCheck : m'.module.serverCheck = m.module.serverCheck
  routingAlgorithm : m'.module.routingAlgorithm = m.module.routingAlgorithm
  threadHandle : m'.threadHandle = m.threadHandle
  exitEvent : m'.exitEvent = m.exitEvent
  routersActive : m'.ipv4RouterActive = m.ipv4RouterActive
    ∧ m'.ipv6RouterActive = m.ipv6RouterActive
  lcxlRole : m'.module.lcxlRole = m.module.lcxlRole ∨ ∃ ait ∈ moduleList,
    ait.miniportNetLuid = m.module.miniportNetLuid ∧ ait.lcxlRole ≠ roleUnknown
      ∧ m'.module.lcxlRole = ait.lcxlRole

/-- The configuration after it was brought up to the driver's modules. -/
structure Merged (modules : List ServiceModule) (moduleList : List AppModule)
    (modules' : List ServiceModule) : Prop where
  distinct : (modules.map (·.module.miniportNetLuid)).Nodup →
    (modules'.map (·.module.miniportNetLuid)).Nodup
  covered : ∀ ait ∈ moduleList, ∃ m ∈ modules', m.module.miniportNetLuid = ait.miniportNetLuid
  isexist : ∀ m ∈ modules', m.isexist ↔
    ∃ ait ∈ moduleList, ait.miniportNetLuid = m.module.miniportNetLuid
  kept : ∃ old new, modules' = old ++ new ∧ List.Forall₂ (Kept moduleList) modules old

/-- The module's names end in their fields. -/
structure AppModule.NamesFit (m : AppModule) : Prop where
  filterModuleName : m.filterModuleName.Fits
  miniportFriendlyName : m.miniportFriendlyName.Fits
  miniportName : m.miniportName.Fits

end LcxlConfig

end LcxlNetLoader
