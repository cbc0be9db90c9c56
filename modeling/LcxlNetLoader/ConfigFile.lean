import LcxlNetLoader.TextLib
import LcxlNetLoader.Lib.Xml

/-!
# The configuration file

What the service writes to `netloader.xml` of its modules, and what it reads of them when it starts
again.
-/

namespace LcxlNetLoader

open Xml

def roleToStr (role : Int32) : String :=
  if role = 1 then "router" else if role = 2 then "server" else "unknown"

def strToRole (val : String) : Int32 :=
  if val = "router" then 1 else if val = "server" then 2 else 0

theorem WideText.noNul_nil : (0 : UInt16) ∉ ([] : List UInt16) := List.not_mem_nil

/-- An empty `WCHAR` field. -/
def WideText.empty : WideText := ⟨[], noNul_nil⟩

/-- `wcscpy` to a field of 256 characters, its NUL among them. A longer text overruns the field, and
`wcscpy_s` ends the service. -/
def wcscpy (text : WideText) : Option WideText :=
  if text.chars.length < 256 then some text else none

/-- `FindOrCreateChindElement` and `SetAttribute` of what it gives. -/
def setChind (e : Element) (name text : String) : Element :=
  e.updateChild name fun c => c.setAttribute "value" text

/-- What is read of a child, where there is one. -/
def readChild {α : Type} (e : Element) (name : String) (default : α)
    (read : Element → Option α) : Option α :=
  match e.firstChildElement name with
  | none => some default
  | some c => read c

/-- `UnsignedAttribute`, which is zero where the attribute is missing. -/
def TextLib.unsignedAttribute (P : TextLib) (e : Element) : UInt32 :=
  ((e.getAttribute "value").map P.unsignedOf).getD 0

namespace LcxlConfig

variable (P : TextLib)

def writeAddrInfo (owner : Element) (addr : LcxlAddrInfo) : Element :=
  let owner := setChind owner "status" (P.intText addr.status.toUInt32.toInt32)
  let owner := setChind owner "ipv4" (P.inetNtop4 addr.ipv4)
  let owner := setChind owner "ipv4_onlink_prefix_length"
    (P.intText addr.ipv4OnlinkPrefixLength.toUInt32.toInt32)
  let owner := setChind owner "ipv6" (P.inetNtop6 addr.ipv6)
  setChind owner "ipv6_onlink_prefix_length"
    (P.intText addr.ipv6OnlinkPrefixLength.toUInt32.toInt32)

def writeServerCheck (owner : Element) (serverCheck : ConfigServerCheck) : Element :=
  let owner := setChind owner "interval" (P.intText serverCheck.interval)
  let owner := setChind owner "timeout" (P.intText serverCheck.timeout)
  setChind owner "retry_number" (P.intText serverCheck.retryNumber)

def writeServer (owner : Element) (server : ConfigServer) : Element :=
  let owner := setChind owner "status" (P.intText server.server.status.toUInt32.toInt32)
  let owner := setChind owner "ip_status" (P.intText server.server.ipStatus.toUInt32.toInt32)
  let owner := setChind owner "comment" (P.wstringToUtf8string server.comment)
  setChind owner "mac_addr" (macText server.server.macAddr)

def writeServerList (owner : Element) : List ConfigServer → Element
  | [] => owner
  | server :: servers =>
    writeServerList (owner.insertEndChild (writeServer P (newElement "server") server)) servers

def writeModule (owner : Element) (module : ConfigModule) : Element :=
  let m := module.module
  let owner := setChind owner "rolename" (roleToStr m.lcxlRole)
  let owner := setChind owner "miniport_net_luid" (toString m.miniportNetLuid.toNat)
  let owner := setChind owner "mac_addr" (macText m.macAddr)
  let owner := owner.insertEndChild (writeAddrInfo P (newElement "virtual_addr") m.virtualAddr)
  let owner := owner.insertEndChild
    (writeServerList P (newElement "server_list") module.serverList)
  let owner := setChind owner "route_timeout" (P.intText m.routeTimeout)
  let owner := owner.insertEndChild (writeServerCheck P (newElement "server_check") m.serverCheck)
  let owner := setChind owner "routing_algorithm" (P.intText m.routingAlgorithm)
  setChind owner "miniport_friendly_name" (P.wstringToUtf8string m.miniportFriendlyName)

def writeModuleList (owner : Element) : List ConfigModule → Element
  | [] => owner
  | module :: modules =>
    writeModuleList (owner.insertEndChild (writeModule P (newElement "module") module)) modules

/-- `none` where a reader goes on with a null pointer or past the end of a field. -/
def readAddrInfo (owner : Element) (addr : LcxlAddrInfo) : Option LcxlAddrInfo := do
  let byte := fun c => some (P.unsignedAttribute c).toUInt8
  let status ← readChild owner "status" addr.status byte
  -- What `inet_pton` does not take leaves the address as it is.
  let ipv4 ← readChild owner "ipv4" addr.ipv4 fun c => do
    pure ((P.inetPton4 (← c.getAttribute "value")).getD addr.ipv4)
  let ipv4OnlinkPrefixLength ←
    readChild owner "ipv4_onlink_prefix_length" addr.ipv4OnlinkPrefixLength byte
  let ipv6 ← readChild owner "ipv6" addr.ipv6 fun c => do
    pure ((P.inetPton6 (← c.getAttribute "value")).getD addr.ipv6)
  let ipv6OnlinkPrefixLength ←
    readChild owner "ipv6_onlink_prefix_length" addr.ipv6OnlinkPrefixLength byte
  pure { status, ipv4, ipv4OnlinkPrefixLength, ipv6, ipv6OnlinkPrefixLength }

def readServerCheck (owner : Element) (serverCheck : ConfigServerCheck) :
    Option ConfigServerCheck := do
  let int := fun c => some (P.unsignedAttribute c).toInt32
  let interval ← readChild owner "interval" serverCheck.interval int
  let timeout ← readChild owner "timeout" serverCheck.timeout int
  let retryNumber ← readChild owner "retry_number" serverCheck.retryNumber int
  pure { interval, timeout, retryNumber }

def readServer (owner : Element) : Option ConfigServer := do
  let byte := fun c => some (P.unsignedAttribute c).toUInt8
  let status ← readChild owner "status" 0 byte
  let ipStatus ← readChild owner "ip_status" 0 byte
  let comment ← readChild owner "comment" WideText.empty fun c => do
    wcscpy (P.utf8stringToWstring (← c.getAttribute "value"))
  let macAddr ← readChild owner "mac_addr" ⟨0, .zero 32⟩ fun c => do
    pure (P.macAddr (← c.getAttribute "value"))
  pure { server := { status, ipStatus, macAddr }, comment }

def readServerList (owner : Element) (serverList : List ConfigServer) :
    Option (List ConfigServer) := do
  pure (serverList ++ (← (owner.childElements "server").mapM (readServer P)))

/-- `active` is what the stack holds where the reader does not set whether a router is active. -/
def readModule (active : Bool × Bool) (owner : Element) : Option ConfigModule := do
  let int := fun c => some (P.unsignedAttribute c).toInt32
  let text := fun c : Element => c.getAttribute "value"
  let lcxlRole ← readChild owner "rolename" 0 fun c => do pure (strToRole (← text c))
  let miniportNetLuid ← readChild owner "miniport_net_luid" 0 fun c => do
    pure (UInt64.ofInt (atoi64 (← text c)))
  let macAddr ← readChild owner "mac_addr" ⟨0, .zero 32⟩ fun c => do pure (P.macAddr (← text c))
  let noAddr : LcxlAddrInfo := ⟨0, .zero 4, 24, .zero 16, 64⟩
  let virtualAddr ← readChild owner "virtual_addr" noAddr fun c => readAddrInfo P c noAddr
  let serverList ← readChild owner "server_list" [] fun c => readServerList P c []
  let routeTimeout ← readChild owner "route_timeout" 1800 int
  let check : ConfigServerCheck := ⟨10, 10, 2⟩
  let serverCheck ← readChild owner "server_check" check fun c => readServerCheck P c check
  let routingAlgorithm ← readChild owner "routing_algorithm" 0x10 int
  let miniportFriendlyName ← readChild owner "miniport_friendly_name" WideText.empty fun c => do
    wcscpy (P.utf8stringToWstring (← text c))
  let filterModuleName := WideText.empty
  let miniportName := WideText.empty
  pure {
    isexist := false
    module := { miniportIfindex := 0, miniportNetLuid, virtualAddr, macAddr, filterModuleName,
                miniportFriendlyName, miniportName, lcxlRole, serverCount := 0, routeTimeout,
                serverCheck, routingAlgorithm }
    serverList
    ipv4RouterActive := active.1
    ipv6RouterActive := active.2 }

def readModuleList (active : Bool × Bool) (owner : Element) (moduleList : List ConfigModule) :
    Option (List ConfigModule) := do
  pure (moduleList ++ (← (owner.childElements "module").mapM (readModule P active)))

end LcxlConfig

/-- What the configuration keeps of a server is the same. -/
structure ConfigServer.Same (s s' : ConfigServer) : Prop where
  status : s'.server.status = s.server.status
  ipStatus : s'.server.ipStatus = s.server.ipStatus
  comment : s'.comment = s.comment
  length : s'.server.macAddr.length = s.server.macAddr.length
  value : s'.server.macAddr.value = s.server.macAddr.value

/-- What the configuration keeps of a module is the same. -/
structure ConfigModule.Same (m m' : ConfigModule) : Prop where
  lcxlRole : m'.module.lcxlRole = m.module.lcxlRole
  miniportNetLuid : m'.module.miniportNetLuid = m.module.miniportNetLuid
  length : m'.module.macAddr.length = m.module.macAddr.length
  value : m'.module.macAddr.value = m.module.macAddr.value
  virtualAddr : m'.module.virtualAddr = m.module.virtualAddr
  serverList : List.Forall₂ ConfigServer.Same m.serverList m'.serverList
  routeTimeout : m'.module.routeTimeout = m.module.routeTimeout
  serverCheck : m'.module.serverCheck = m.module.serverCheck
  routingAlgorithm : m'.module.routingAlgorithm = m.module.routingAlgorithm
  miniportFriendlyName : m'.module.miniportFriendlyName = m.module.miniportFriendlyName

/-- Reading what was written of the modules gives the same modules in the same order. -/
def LcxlConfig.LoadsBack (P : TextLib) (active : Bool × Bool) (modules : List ConfigModule) :
    Prop :=
  ∃ modules', readModuleList P active (writeModuleList P (newElement "module_list") modules) []
    = some modules' ∧ List.Forall₂ ConfigModule.Same modules modules'

/-- The text ends within its field. -/
def WideText.Fits (text : WideText) : Prop := text.chars.length < 256

/-- The server has an address of six bytes, and a comment that ends within its field. -/
def ConfigServer.Survives (s : ConfigServer) : Prop :=
  s.server.macAddr.length = 6 ∧ s.comment.Fits

/-- The module has a role that has a name, a LUID below 2^63, an address of six bytes, a friendly
name that ends within its field and servers that survive. -/
structure ConfigModule.Survives (m : ConfigModule) : Prop where
  lcxlRole : m.module.lcxlRole = 0 ∨ m.module.lcxlRole = 1 ∨ m.module.lcxlRole = 2
  miniportNetLuid : m.module.miniportNetLuid.toNat < 2 ^ 63
  macAddr : m.module.macAddr.length = 6
  miniportFriendlyName : m.module.miniportFriendlyName.Fits
  serverList : ∀ s ∈ m.serverList, s.Survives

end LcxlNetLoader
