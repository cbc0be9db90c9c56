import LcxlNetLoader.TextLib
import LcxlNetLoader.Lib.Json

/-!
# The commands of the service's clients

`ProcessJsonData` over the modules of the configuration, and the requests the web tier makes. A
command is nothing where jsoncpp throws: where a value is of a type that is not converted.
-/

namespace LcxlNetLoader

open Json

/-- What the service's commands call: the conversions of texts, and the requests to the driver with
whether it has done them. `server` and `address` are what the stack holds where a `CONFIG_SERVER`
and the `Address` of an address are declared and not set. -/
structure ServiceLib where
  texts : TextLib
  wstringToString : WideText → String
  lnlSetVirtualAddr : UInt64 → LcxlAddrInfo → Bool
  lnlAddServer : UInt64 → LcxlServer → Bool
  lnlDelServer : UInt64 → IfPhysicalAddress → Bool
  server : ConfigServer
  address : Bytes 32

def jsSuccess : ℤ := 0x00
def jsFail : ℤ := 0x01
def jsJsonDataNotFound : ℤ := 0x02
def jsJsonCodeNotFound : ℤ := 0x03
def jsJsonCodeIpFormatInvalid : ℤ := 0x04

/-- `string_to_mac` to an `Address` that holds something. -/
def TextLib.macAddrOver (P : TextLib) (address : Bytes 32) (text : String) : IfPhysicalAddress :=
  ⟨(P.stringToMac text).length, address.move (P.stringToMac text)⟩

namespace LcxlConfig

def findModuleByLuid (moduleList : List ConfigModule) (luid : UInt64) : Option ℕ :=
  moduleList.findIdx? fun m => m.module.miniportNetLuid = luid

/-- The modules with the one of the LUID changed, where there is one. -/
def updateModule (moduleList : List ConfigModule) (luid : UInt64)
    (f : ConfigModule → ConfigModule) : List ConfigModule :=
  match findModuleByLuid moduleList luid with
  | some i => moduleList.modify i f
  | none => moduleList

def storeVirtualAddr (moduleList : List ConfigModule) (luid : UInt64) (addr : LcxlAddrInfo) :
    List ConfigModule :=
  updateModule moduleList luid fun m => { m with module := { m.module with virtualAddr := addr } }

def storeServer (moduleList : List ConfigModule) (luid : UInt64) (server : ConfigServer) :
    List ConfigModule :=
  updateModule moduleList luid fun m =>
    { m with serverList := updateServer m.serverList server }

end LcxlConfig

namespace ServiceLib

variable (E : ServiceLib)

def virtualAddrJson (addr : LcxlAddrInfo) : Value :=
  .object [
    ("status", .int addr.status.toNat),
    ("ipv4", .string (E.texts.inetNtop4 addr.ipv4)),
    ("ipv4_onlink_prefix_length", .int addr.ipv4OnlinkPrefixLength.toNat),
    ("ipv6", .string (E.texts.inetNtop6 addr.ipv6)),
    ("ipv6_onlink_prefix_length", .int addr.ipv6OnlinkPrefixLength.toNat)]

def serverCheckJson (serverCheck : ConfigServerCheck) : Value :=
  .object [
    ("interval", .int serverCheck.interval.toInt),
    ("timeout", .int serverCheck.timeout.toInt),
    ("retry_number", .int serverCheck.retryNumber.toInt)]

def moduleJson (m : ConfigModule) : Value :=
  .object [
    ("lcxl_role", .int m.module.lcxlRole.toInt),
    ("isexist", .bool m.isexist),
    ("ipv4_router_active", .bool m.ipv4RouterActive),
    ("ipv6_router_active", .bool m.ipv6RouterActive),
    ("filter_module_name", .string (E.wstringToString m.module.filterModuleName)),
    ("mac_addr", .string (macText m.module.macAddr)),
    ("miniport_friendly_name", .string (E.wstringToString m.module.miniportFriendlyName)),
    ("miniport_ifindex", .int m.module.miniportIfindex.toNat),
    ("miniport_name", .string (E.wstringToString m.module.miniportName)),
    ("miniport_net_luid", .int m.module.miniportNetLuid.toNat),
    ("server_count", .int m.serverList.length),
    ("route_timeout", .int m.module.routeTimeout.toInt),
    ("server_check", serverCheckJson m.module.serverCheck),
    ("routing_algorithm", .int m.module.routingAlgorithm.toInt),
    ("virtual_addr", E.virtualAddrJson m.module.virtualAddr)]

def serverJson (s : ConfigServer) : Value :=
  .object [
    ("status", .int s.server.status.toNat),
    ("ip_status", .int s.server.ipStatus.toNat),
    ("mac_addr", .string (macText s.server.macAddr)),
    ("comment", .string (E.wstringToString s.comment))]

/-- What a command leaves: the modules, what it adds to the answer, and its status. -/
abbrev Outcome := List ConfigModule × List (String × Value) × ℤ

def jcModuleList (moduleList : List ConfigModule) : Outcome :=
  (moduleList, [("module_list", Value.ofList (moduleList.map E.moduleJson))], jsSuccess)

def jcSetVirtualAddr (moduleList : List ConfigModule) (root : Value) : Option Outcome := do
  let virtualAddr ← root.get "virtual_addr"
  let luid := UInt64.ofInt (← (← root.get "miniport_net_luid").asInt64)
  let status := UInt8.ofInt (← (← virtualAddr.get "status").asInt)
  match E.texts.inetPton4 (← (← virtualAddr.get "ipv4").asCString) with
  | none => pure (moduleList, [], jsJsonCodeIpFormatInvalid)
  | some ipv4 => match E.texts.inetPton6 (← (← virtualAddr.get "ipv6").asCString) with
    | none => pure (moduleList, [], jsJsonCodeIpFormatInvalid)
    | some ipv6 =>
      -- The prefix lengths are looked for in the request itself.
      let prefix4 := UInt8.ofInt (← (← root.get "ipv4_onlink_prefix_length").asInt)
      let prefix6 := UInt8.ofInt (← (← root.get "ipv6_onlink_prefix_length").asInt)
      let addr : LcxlAddrInfo := ⟨status, ipv4, prefix4, ipv6, prefix6⟩
      if E.lnlSetVirtualAddr luid addr then
        pure (LcxlConfig.storeVirtualAddr moduleList luid addr, [], jsSuccess)
      else pure (moduleList, [], jsFail)

def jcServerList (moduleList : List ConfigModule) (root : Value) : Option Outcome := do
  let luid := UInt64.ofInt (← (← root.get "miniport_net_luid").asInt64)
  if luid = 0 then pure (moduleList, [], jsJsonDataNotFound)
  else match (LcxlConfig.findModuleByLuid moduleList luid).bind (moduleList[·]?) with
    | none => pure (moduleList, [], jsJsonDataNotFound)
    | some m =>
      pure (moduleList, [("server_list", Value.ofList (m.serverList.map E.serverJson))], jsSuccess)

def jcAddServer (moduleList : List ConfigModule) (root : Value) : Option Outcome := do
  let luid := UInt64.ofInt (← (← root.get "miniport_net_luid").asInt64)
  let serverJson ← root.get "server"
  let ipStatus := UInt8.ofInt (← (← serverJson.get "ip_status").asInt)
  let macAddr := E.texts.macAddrOver E.server.server.macAddr.address
    (← (← serverJson.get "mac_addr").asString)
  let status := UInt8.ofInt (← (← serverJson.get "status").asInt)
  let server := { E.server with server := { status, ipStatus, macAddr } }
  if E.lnlAddServer luid server.server then
    pure (LcxlConfig.storeServer moduleList luid server, [], jsSuccess)
  else pure (moduleList, [], jsFail)

def jcDelServer (moduleList : List ConfigModule) (root : Value) : Option Outcome := do
  let luid := UInt64.ofInt (← (← root.get "miniport_net_luid").asInt64)
  let macAddr := E.texts.macAddrOver E.address (← (← root.get "mac_addr").asString)
  if E.lnlDelServer luid macAddr then
    let moduleList := LcxlConfig.updateModule moduleList luid fun m =>
      { m with serverList := (LcxlConfig.removeServer m.serverList macAddr).1 }
    pure (moduleList, [], jsSuccess)
  else pure (moduleList, [], jsFail)

/-- The command of the code. -/
def command (moduleList : List ConfigModule) (root : Value) : ℤ → Option Outcome
  | 0x01 => some (E.jcModuleList moduleList)
  | 0x04 => E.jcSetVirtualAddr moduleList root
  | 0x03 => E.jcServerList moduleList root
  | 0x05 => E.jcAddServer moduleList root
  | 0x07 => E.jcDelServer moduleList root
  | 0x10 => some (moduleList, [], jsSuccess)
  | _ => some (moduleList, [], jsJsonCodeNotFound)

/-- The modules, the answer, and whether they are to be saved. -/
def answer (code : ℤ) : Outcome → List ConfigModule × Value × Bool
  | (moduleList, data, status) =>
    (moduleList, .object (data ++ [("code", .int code), ("status", .int status)]),
      status = jsSuccess)

def processJsonData (moduleList : List ConfigModule) (root : Value) :
    Option (List ConfigModule × Value × Bool) := do
  let code ← (← root.get "code").asInt
  let outcome ← E.command moduleList root code
  pure (answer code outcome)

end ServiceLib

/-! ## The web tier -/

namespace Web

/-- The web tier's `LcxlAddrInfo`. -/
structure LcxlAddrInfo where
  status : UInt8
  ipv4 : String
  ipv4OnlinkPrefixLength : UInt8
  ipv6 : String
  ipv6OnlinkPrefixLength : UInt8

/-- The web tier's `Server`, whose comment may be null. -/
structure Server where
  status : UInt8
  ipStatus : UInt8
  macAddr : String
  comment : Option String

def LcxlAddrInfo.json (addr : LcxlAddrInfo) : Value :=
  .object [
    ("status", .int addr.status.toNat),
    ("ipv4", .string addr.ipv4),
    ("ipv4_onlink_prefix_length", .int addr.ipv4OnlinkPrefixLength.toNat),
    ("ipv6", .string addr.ipv6),
    ("ipv6_onlink_prefix_length", .int addr.ipv6OnlinkPrefixLength.toNat)]

def Server.commentJson (s : Server) : Value := s.comment.elim .null .string

def Server.json (s : Server) : Value :=
  .object [
    ("status", .int s.status.toNat),
    ("ip_status", .int s.ipStatus.toNat),
    ("mac_addr", .string s.macAddr),
    ("comment", s.commentJson)]

def getModuleList : Value := .object [("code", .int 0x01)]

def setVirtualAddr (miniportNetLuid : Int64) (virtualAddr : LcxlAddrInfo) : Value :=
  .object [
    ("code", .int 0x04),
    ("miniport_net_luid", .int miniportNetLuid.toInt),
    ("virtual_addr", virtualAddr.json)]

def getServerList (miniportNetLuid : Int64) : Value :=
  .object [("code", .int 0x03), ("miniport_net_luid", .int miniportNetLuid.toInt)]

def addServer (miniportNetLuid : Int64) (server : Server) : Value :=
  .object [
    ("code", .int 0x05),
    ("miniport_net_luid", .int miniportNetLuid.toInt),
    ("server", server.json)]

variable (E : ServiceLib)

/-- Texts of addresses. -/
structure LcxlAddrInfo.Valid (addr : LcxlAddrInfo) : Prop where
  ipv4 : (E.texts.inetPton4 addr.ipv4).isSome
  ipv6 : (E.texts.inetPton6 addr.ipv6).isSome

/-- The text of six bytes. -/
def Server.Valid (s : Server) : Prop := (E.texts.stringToMac s.macAddr).length = 6

/-- The value has what was set of the address, its texts those of the same addresses. -/
structure LcxlAddrInfo.IsIn (addr : LcxlAddrInfo) (v : Value) : Prop where
  status : v.get "status" = some (.int addr.status.toNat)
  ipv4 : ∃ text, v.get "ipv4" = some (.string text) ∧
    E.texts.inetPton4 text = E.texts.inetPton4 addr.ipv4
  ipv4OnlinkPrefixLength :
    v.get "ipv4_onlink_prefix_length" = some (.int addr.ipv4OnlinkPrefixLength.toNat)
  ipv6 : ∃ text, v.get "ipv6" = some (.string text) ∧
    E.texts.inetPton6 text = E.texts.inetPton6 addr.ipv6
  ipv6OnlinkPrefixLength :
    v.get "ipv6_onlink_prefix_length" = some (.int addr.ipv6OnlinkPrefixLength.toNat)

/-- The value has what was set of the server. -/
structure Server.IsIn (s : Server) (v : Value) : Prop where
  status : v.get "status" = some (.int s.status.toNat)
  ipStatus : v.get "ip_status" = some (.int s.ipStatus.toNat)
  macAddr : ∃ text, v.get "mac_addr" = some (.string text) ∧
    E.texts.stringToMac text = E.texts.stringToMac s.macAddr
  comment : v.get "comment" = some s.commentJson

/-- What is reported of the first module of the LUID. -/
def moduleRow (luid : UInt64) (ret : Value) : Option Value := do
  (← ret.get "module_list").elements.find? fun row => row.hasInt "miniport_net_luid" luid.toNat

/-- What is reported at the place where the module has the server of the address. -/
def serverRow (moduleList : List ConfigModule) (luid : UInt64) (macAddr : IfPhysicalAddress)
    (ret : Value) : Option Value := do
  let i ← LcxlConfig.findModuleByLuid moduleList luid
  let m ← moduleList[i]?
  let k ← LcxlConfig.findServer m.serverList macAddr
  (← ret.get "server_list").elements[k]?

/-- What the web tier has set. -/
inductive Setting where
  | virtualAddr (luid : Int64) (addr : LcxlAddrInfo)
  | server (luid : Int64) (server : Server)

namespace Setting

def luid : Setting → Int64
  | virtualAddr luid _ => luid
  | server luid _ => luid

def request : Setting → Value
  | virtualAddr luid addr => setVirtualAddr luid addr
  | server luid s => addServer luid s

def Valid : Setting → Prop
  | virtualAddr _ addr => addr.Valid E
  | server _ s => s.Valid E

/-- The next list reports what was set. -/
def ReadBack (moduleList : List ConfigModule) : Setting → Prop
  | virtualAddr luid addr => ∃ ret row v,
      E.processJsonData moduleList getModuleList = some (moduleList, ret, true) ∧
      moduleRow luid.toUInt64 ret = some row ∧
      row.get "virtual_addr" = some v ∧ addr.IsIn E v
  | server luid s => ∃ ret row,
      E.processJsonData moduleList (getServerList luid) = some (moduleList, ret, true) ∧
      serverRow moduleList luid.toUInt64 (E.texts.macAddrOver (.zero 32) s.macAddr) ret = some row ∧
      s.IsIn E row

/-- Nothing was set that the commands lose: no length of a prefix, and no comment but what the stack
holds. The LUID is not the one that `JC_SERVER_LIST` takes for none. -/
def Kept : Setting → Prop
  | virtualAddr _ addr => addr.ipv4OnlinkPrefixLength = 0 ∧ addr.ipv6OnlinkPrefixLength = 0
  | server luid s => luid ≠ 0 ∧ s.comment = some (E.wstringToString E.server.comment)

end Setting

end Web

end LcxlNetLoader
