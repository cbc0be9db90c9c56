import LcxlNetLoader.Types

/-!
# The service's configuration

`CONFIG_MODULE` and the server list in it, with the three functions that look a server up, store it
and remove it. An `INT` is an `Int32`.
-/

namespace LcxlNetLoader

/-- What `wstring` takes of a buffer of `WCHAR`s: the characters before the first NUL. -/
structure WideText where
  chars : List UInt16
  noNul : 0 ∉ chars
deriving DecidableEq

/-- The bytes of an address, `Length` of them. -/
def IfPhysicalAddress.value (a : IfPhysicalAddress) : List UInt8 := a.address.toList.take a.length

/-- `memcmp` of two addresses that are as long as each other. -/
def IfPhysicalAddress.same (a b : IfPhysicalAddress) : Bool :=
  a.length == b.length && a.address.toList.take b.length == b.address.toList.take b.length

/-- `CONFIG_SERVER`. -/
structure ConfigServer where
  server : LcxlServer
  comment : WideText
deriving DecidableEq

/-- `LCXL_SERVER_CHECK`, with its numbers as the service has them. -/
structure ConfigServerCheck where
  interval : Int32
  timeout : Int32
  retryNumber : Int32
deriving DecidableEq

/-- `APP_MODULE`. -/
structure LcxlConfig.AppModule where
  miniportIfindex : UInt32
  miniportNetLuid : UInt64
  virtualAddr : LcxlAddrInfo
  macAddr : IfPhysicalAddress
  filterModuleName : WideText
  miniportFriendlyName : WideText
  miniportName : WideText
  lcxlRole : Int32
  serverCount : Int32
  routeTimeout : Int32
  serverCheck : ConfigServerCheck
  routingAlgorithm : Int32
deriving DecidableEq

/-- `CONFIG_MODULE`, without the handles of its thread. -/
structure ConfigModule where
  isexist : Bool
  module : LcxlConfig.AppModule
  serverList : List ConfigServer
  ipv4RouterActive : Bool
  ipv6RouterActive : Bool
deriving DecidableEq

namespace LcxlConfig

/-- Where the server is in the list. -/
def findServer (serverList : List ConfigServer) (macAddr : IfPhysicalAddress) : Option ℕ :=
  serverList.findIdx? fun s => s.server.macAddr.same macAddr

def updateServer (serverList : List ConfigServer) (server : ConfigServer) : List ConfigServer :=
  match findServer serverList server.server.macAddr with
  | some i => serverList.set i server
  | none => serverList ++ [server]

def removeServer (serverList : List ConfigServer) (macAddr : IfPhysicalAddress) :
    List ConfigServer × Bool :=
  match findServer serverList macAddr with
  | some i => (serverList.eraseIdx i, true)
  | none => (serverList, false)

end LcxlConfig

end LcxlNetLoader
