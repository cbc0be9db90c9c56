import LcxlNetLoader.Config
import LcxlNetLoader.SharedServers

/-!
# Two lists of the servers

The service handles one request to add or to delete a server at a time, first in the driver and then
in its own list, while the driver's worker thread checks the servers at each tick. A module's
servers are those in the service's list, and those the driver has linked and not marked deleted.
-/

namespace LcxlNetLoader

/-- Who works on the driver's list. -/
inductive ListUser
  | service
  | worker
deriving DecidableEq

structure ServerStores where
  driver : SharedServers ListUser
  serverList : List ConfigServer

inductive StoreStep
  /-- `lnlAddServer` or `lnlDelServer` is called, and the driver has found the module. -/
  | request (r : ServerRequest)
  | find (past : ServerPtr → Bool)
  | write (now : ℤ)
  /-- `JC_ADD_SERVER` ends. It has set no comment, and `comment` is what was there. -/
  | finish (comment : WideText)
  | tick
  | check (p : ServerPtr) (serverCheck : LcxlServerCheck) (timestamp : ℤ)
  | tickEnds

/-- The server is one the module has. -/
def ServerTable.Live (t : ServerTable) (p : ServerPtr) : Prop :=
  has (t.mem p).info.status ssDeleted = false

def ServerTable.value (t : ServerTable) (p : ServerPtr) : List UInt8 :=
  (t.mem p).info.macAddr.value

/-- How many locks a party has out: one until it is idle again. -/
def ServerPosition.locks : ServerPosition → UInt8
  | .idle => 0
  | _ => 1

namespace ServerStores

/-- The list after `lnlDelServer` returned: a server that was deleted before makes it fail. -/
def afterDel (s : ServerStores) (macAddr : IfPhysicalAddress) (p : Option ServerPtr) :
    List ConfigServer :=
  if p.any fun q => has (s.driver.table.mem q).info.status ssDeleted then s.serverList
  else (LcxlConfig.removeServer s.serverList macAddr).1

def exec (cfg : LcxlSetting) (s : ServerStores) : StoreStep → ServerStores
  | .request r => { s with driver := s.driver.exec (.lock .service r) }
  | .find past => { s with driver := s.driver.exec (.find .service past) }
  | .write now => {
      driver := s.driver.exec (.write .service now)
      serverList := match s.driver.position .service with
        | .found (.del macAddr) p => s.afterDel macAddr p
        | _ => s.serverList }
  | .finish comment => {
      driver := s.driver.exec (.unlock .service)
      serverList := match s.driver.position .service with
        | .added server => LcxlConfig.updateServer s.serverList ⟨server, comment⟩
        | _ => s.serverList }
  | .tick => { s with driver := s.driver.exec (.hold .worker) }
  | .check p serverCheck timestamp => { s with
      driver := s.driver.exec
        (.update p (checkServer cfg serverCheck timestamp (s.driver.table.mem p)).1) }
  | .tickEnds => { s with driver := s.driver.exec (.unlock .worker) }

/-- The calls come in the order of the source. `string_to_mac` fills at most the 32 bytes of an
address. -/
def Enabled (s : ServerStores) : StoreStep → Prop
  | .request r => s.driver.position .service = .idle ∧ r.macAddr.length ≤ 32
  | .find _ => ∃ r, s.driver.position .service = .locked r
  | .write _ => ∃ r p, s.driver.position .service = .found r p
  | .finish _ => ∃ server, s.driver.position .service = .added server
  | .tick => s.driver.position .worker = .idle
  | .check p _ _ => s.driver.position .worker = .holding ∧ p ∈ s.driver.table.lst.list
  | .tickEnds => s.driver.position .worker = .holding

/-- The addresses of the servers in the service's list. -/
def serviceMacs (s : ServerStores) : Set (List UInt8) :=
  {v | ∃ c ∈ s.serverList, c.server.macAddr.value = v}

/-- The addresses of the servers the driver has linked and not marked deleted. -/
def driverMacs (s : ServerStores) : Set (List UInt8) :=
  {v | ∃ p ∈ s.driver.table.lst.list, s.driver.table.Live p ∧ s.driver.table.value p = v}

/-- No operation is in progress. -/
def AtRest (s : ServerStores) : Prop := ∀ i, s.driver.position i = .idle

/-- Both have the same servers, each once and of an address of six bytes, and nobody holds the
driver's list, to which nothing waits to be added, and from which nothing to be removed. -/
structure Start (s : ServerStores) : Prop where
  rest : s.AtRest
  lockCount : s.driver.table.lst.lockCount = 0
  toBeAddList : s.driver.table.lst.toBeAddList = []
  toBeDelList : s.driver.table.lst.toBeDelList = []
  fresh : ∀ p ∈ s.driver.table.lst.list, p < s.driver.table.next
  six : ∀ p ∈ s.driver.table.lst.list, (s.driver.table.mem p).info.macAddr.length = 6
  serviceSix : ∀ c ∈ s.serverList, c.server.macAddr.length = 6
  values : (s.driver.table.lst.list.map s.driver.table.value).Nodup
  serviceValues : (s.serverList.map (·.server.macAddr.value)).Nodup
  macs : s.serviceMacs = s.driverMacs

/-- How many locks those at work have still to let go. -/
def locks (s : ServerStores) : UInt8 :=
  (s.driver.position .service).locks + (s.driver.position .worker).locks

/-- What a request finds lets the driver follow it. A server it finds has an address of the length
asked for. An addition is not marked deleted, and where it finds nothing, its address does not wait
to be added already and no deletion has left the list locked. When a deletion writes, nothing waits
to be added. -/
def Follows (s : ServerStores) (r : ServerRequest) (p : Option ServerPtr) : Prop :=
  (∀ q ∈ p, (s.driver.table.mem q).info.macAddr.length = r.macAddr.length) ∧
    match r with
    | .add server => has server.status ssDeleted = false ∧ (p = none →
        (∀ q ∈ s.driver.table.lst.toBeAddList, s.driver.table.value q ≠ server.macAddr.value)
          ∧ s.driver.table.lst.lockCount = s.locks)
    | .del _ => s.driver.table.lst.toBeAddList = []

/-- Where a lock let go is the last, no server waits to be removed that has been added again, or
that a request has found. -/
def LetsGo (s : ServerStores) : Prop :=
  s.driver.table.lst.lockCount = 1 → ∀ p ∈ s.driver.table.lst.toBeDelList,
    ¬ s.driver.table.Live p ∧ ∀ r, s.driver.position .service ≠ .found r (some p)

/-- The steps at which the driver follows the service. -/
def KeepsUp (s : ServerStores) : StoreStep → Prop
  | .write _ => ∀ r p, s.driver.position .service = .found r p → s.Follows r p
  | .finish _ | .tickEnds => s.LetsGo
  | _ => True

end ServerStores

end LcxlNetLoader
