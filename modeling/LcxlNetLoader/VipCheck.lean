import LcxlNetLoader.Merging
import LcxlNetLoader.Module

/-!
# The virtual addresses on the service's machine

`SetModuleInfo`, and `RouterVipCheckThread` with `CheckAndSetVip`: what they ask of the system and
of the driver, whose answers are given.
-/

namespace LcxlNetLoader

def IpMode.other : IpMode → IpMode
  | .ipv4 => .ipv6
  | .ipv6 => .ipv4

/-- `SOCKADDR_INET`. -/
inductive SockaddrInet
  | ipv4 (sinAddr : Bytes 4)
  | ipv6 (sin6Addr : Bytes 16)
deriving DecidableEq

def SockaddrInet.siFamily : SockaddrInet → IpMode
  | .ipv4 _ => .ipv4
  | .ipv6 _ => .ipv6

/-- `MIB_UNICASTIPADDRESS_ROW`, with what the service sets of it. -/
structure UnicastIpAddressRow where
  interfaceLuid : UInt64
  address : SockaddrInet
  onLinkPrefixLength : UInt8
deriving DecidableEq

inductive IpDadState
  | invalid
  | tentative
  | duplicate
  | deprecated
  | preferred
deriving DecidableEq

/-- What is called of the system and of the driver. -/
inductive ServiceCall
  | createUnicastIpAddressEntry (row : UnicastIpAddressRow)
  | deleteUnicastIpAddressEntry (interfaceLuid : UInt64) (address : SockaddrInet)
  | sendEcho (source destination : SockaddrInet)
  | setVirtualAddr (miniportNetLuid : UInt64) (virtualAddr : LcxlAddrInfo)
  | setLcxlRole (miniportNetLuid : UInt64) (lcxlRole : Int32)
  | addServer (miniportNetLuid : UInt64) (server : LcxlServer)
  | setServerCheck (miniportNetLuid : UInt64) (serverCheck : ConfigServerCheck)
  | setRoutingAlgorithm (miniportNetLuid : UInt64) (routingAlgorithm : Int32)
  | beginThread (miniportNetLuid : UInt64)
deriving DecidableEq

/-- The addresses of the family that the calls put on the machine. -/
def installed (v : IpMode) (calls : List ServiceCall) : List UnicastIpAddressRow :=
  calls.filterMap fun
    | .createUnicastIpAddressEntry row => if row.address.siFamily = v then some row else none
    | _ => none

/-- The answers that one `CheckAndSetVip` gets: the state of the virtual address, if the interface
has it; the addresses of its family with their interfaces, unless that fails; and what comes of the
echo request, if it can be sent. -/
structure VipAnswers where
  entry : Option IpDadState
  ipTable : Option (List (UInt64 × SockaddrInet))
  echo : Option UInt32
deriving DecidableEq

/-- The machine has the address. -/
def VipAnswers.preferred (answers : VipAnswers) : Bool := answers.entry == some .preferred

namespace LcxlConfig

def roleRouter : Int32 := 1
def roleServer : Int32 := 2

def noError : UInt32 := 0
def ipDestNetUnreachable : UInt32 := 11002
def ipDestHostUnreachable : UInt32 := 11003
def ipReqTimedOut : UInt32 := 11010

def setIpAddress (miniportNetLuid : UInt64) (address : SockaddrInet) (onlinkPrefixLength : UInt8) :
    ServiceCall :=
  .createUnicastIpAddressEntry {
    interfaceLuid := miniportNetLuid, address, onLinkPrefixLength := onlinkPrefixLength }

/-- Whether this router is the active one, and the calls that were made. -/
def checkAndSetVip (answers : VipAnswers) (miniportNetLuid : UInt64) (address : SockaddrInet)
    (onlinkPrefixLength : UInt8) : Bool × List ServiceCall :=
  match answers.entry with
  | some dadState =>
    if dadState ≠ .preferred ∧ dadState ≠ .tentative then
      (false, [.deleteUnicastIpAddressEntry miniportNetLuid address])
    else (decide (dadState = .preferred), [])
  | none =>
    match answers.ipTable with
    | none => (false, [])
    | some ipTable =>
      match ipTable.find? fun row => row.1 = miniportNetLuid with
      | none => (false, [])
      | some (_, sourceIp) =>
        -- without a handle to ask through, the error is still the table's
        let (calls, dwError) := match answers.echo with
          | none => ([], noError)
          | some dwError => ([.sendEcho sourceIp address], dwError)
        if dwError = ipDestHostUnreachable ∨ dwError = ipDestNetUnreachable
            ∨ dwError = ipReqTimedOut then
          (false, calls ++ [setIpAddress miniportNetLuid address onlinkPrefixLength])
        else (false, calls)

/-- The checks of a pass for a module that is there. -/
def checkModule (answers : IpMode → VipAnswers) (miniportNetLuid : UInt64) (m : ServiceModule) :
    ServiceModule × List ServiceCall :=
  let virtualAddr := m.module.virtualAddr
  let (m, calls₆) :=
    if has virtualAddr.status saEnableIpv6 then
      let (active, calls) := checkAndSetVip (answers .ipv6) miniportNetLuid
        (.ipv6 virtualAddr.ipv6) virtualAddr.ipv6OnlinkPrefixLength
      ({ m with ipv4RouterActive := active }, calls)
    else (m, [])
  let (m, calls₄) :=
    if has virtualAddr.status saEnableIpv4 then
      let (active, calls) := checkAndSetVip (answers .ipv4) miniportNetLuid
        (.ipv4 virtualAddr.ipv4) virtualAddr.ipv4OnlinkPrefixLength
      ({ m with ipv6RouterActive := active }, calls)
    else (m, [])
  (m, calls₆ ++ calls₄)

/-- One pass of `RouterVipCheckThread`, and the calls that it makes. -/
def routerVipCheckThread (answers : IpMode → VipAnswers) (miniportNetLuid : UInt64)
    (modules : List ServiceModule) : List ServiceModule × List ServiceCall :=
  match moduleByLuid modules miniportNetLuid with
  | none => (modules, [])
  | some m =>
    if ¬ m.isexist then (modules, [])
    else
      let (m, calls) := checkModule answers miniportNetLuid m
      (modules.set (modules.findIdx fun it => it.module.miniportNetLuid = miniportNetLuid) m, calls)

/-- `SetModuleInfo`. A thread that it begins has the event and, if it could be begun, the handle. -/
def setModuleInfo (exitEvent threadHandle : Option ℕ) (m : ServiceModule) :
    ServiceModule × List ServiceCall :=
  let miniportNetLuid := m.module.miniportNetLuid
  let virtualAddr := m.module.virtualAddr
  let calls := [.setVirtualAddr miniportNetLuid virtualAddr,
    .setLcxlRole miniportNetLuid m.module.lcxlRole]
  if m.module.lcxlRole = roleRouter then
    let calls := calls ++ m.serverList.map (fun s => .addServer miniportNetLuid s.server)
      ++ [.setServerCheck miniportNetLuid m.module.serverCheck,
        .setRoutingAlgorithm miniportNetLuid m.module.routingAlgorithm]
    if m.threadHandle.isSome then (m, calls)
    else
      ({ m with
        threadHandle
        exitEvent := if threadHandle.isSome then exitEvent else m.exitEvent },
        calls ++ [.beginThread miniportNetLuid])
  else if m.module.lcxlRole = roleServer then
    let calls₆ :=
      if has virtualAddr.status saEnableIpv6 then
        [setIpAddress miniportNetLuid (.ipv6 virtualAddr.ipv6) virtualAddr.ipv6OnlinkPrefixLength]
      else []
    let calls₄ :=
      if has virtualAddr.status saEnableIpv4 then
        -- the other family's length
        [setIpAddress miniportNetLuid (.ipv4 virtualAddr.ipv4) virtualAddr.ipv6OnlinkPrefixLength]
      else []
    (m, calls ++ calls₆ ++ calls₄)
  else (m, calls)

end LcxlConfig

/-- Without the family's settings: its bit, its address and the length of its prefix. -/
def LcxlAddrInfo.without (a : LcxlAddrInfo) : IpMode → LcxlAddrInfo
  | .ipv4 => { a with
      status := a.status &&& ~~~saEnableIpv4
      ipv4 := Bytes.zero 4
      ipv4OnlinkPrefixLength := 0 }
  | .ipv6 => { a with
      status := a.status &&& ~~~saEnableIpv6
      ipv6 := Bytes.zero 16
      ipv6OnlinkPrefixLength := 0 }

/-- The virtual address of the family. -/
def LcxlAddrInfo.sockaddr (a : LcxlAddrInfo) : IpMode → SockaddrInet
  | .ipv4 => .ipv4 a.ipv4
  | .ipv6 => .ipv6 a.ipv6

namespace ServiceModule

variable (m : ServiceModule) (v : IpMode)

def without : ServiceModule :=
  { m with module := { m.module with virtualAddr := m.module.virtualAddr.without v } }

def enabled : Bool := m.module.virtualAddr.enabled v

/-- `ipv4_router_active`, or `ipv6_router_active`. -/
def routerActive : Bool :=
  match v with
  | .ipv4 => m.ipv4RouterActive
  | .ipv6 => m.ipv6RouterActive

end ServiceModule

namespace LcxlConfig

/-- What a configuration has enabled of the other family says the same of it as in the other
configuration, or as the flag before the pass where nothing is enabled there. -/
structure OthersAgree (v : IpMode) (answers₁ answers₂ : IpMode → VipAnswers)
    (m₁ m₂ : ServiceModule) : Prop where
  both : m₁.enabled v.other → m₂.enabled v.other →
    (answers₁ v.other).preferred = (answers₂ v.other).preferred
  first : m₁.enabled v.other → ¬ m₂.enabled v.other →
    (answers₁ v.other).preferred = m₂.routerActive v
  second : ¬ m₁.enabled v.other → m₂.enabled v.other →
    (answers₂ v.other).preferred = m₁.routerActive v

/-- The family is served alike under both configurations. -/
structure FamilyAlike (v : IpMode) (miniportNetLuid : UInt64)
    (answers₁ answers₂ : IpMode → VipAnswers) (modules₁ modules₂ : List ServiceModule)
    (m₁ m₂ : ServiceModule) : Prop where
  routerActive :
    (moduleByLuid (routerVipCheckThread answers₁ miniportNetLuid modules₁).1
      miniportNetLuid).map (·.routerActive v)
    = (moduleByLuid (routerVipCheckThread answers₂ miniportNetLuid modules₂).1
      miniportNetLuid).map (·.routerActive v)
  installed : m₁.module.lcxlRole = roleServer → ∀ exitEvent threadHandle,
    installed v (setModuleInfo exitEvent threadHandle m₁).2
      = installed v (setModuleInfo exitEvent threadHandle m₂).2

end LcxlConfig

end LcxlNetLoader
