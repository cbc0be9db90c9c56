import LcxlNetLoader.Types

/-!
# Back-end servers

`SERVER_INFO_LIST_ENTRY`, its reference count, and the selection of a server for a new
connection. The server's own spin lock is left out: each call here runs by itself.
-/

namespace LcxlNetLoader

/-- `SERVER_INFO_LIST_ENTRY`. -/
structure ServerInfoListEntry where
  refCount : ℤ
  info : LcxlServer
  performance : LcxlServerPerformance
  timestamp : ℤ
  currentRetryNumber : ℤ
deriving DecidableEq

/-- The address of a `SERVER_INFO_LIST_ENTRY`. -/
abbrev ServerPtr := ℕ

/-- A `server_list`, what its servers' addresses hold, and the address `AllocServer` gives next. -/
structure ServerTable where
  lst : LcxlList ServerPtr
  mem : ServerPtr → ServerInfoListEntry
  next : ServerPtr

def ServerTable.modify (t : ServerTable) (p : ServerPtr)
    (g : ServerInfoListEntry → ServerInfoListEntry) : ServerTable :=
  { t with mem := Function.update t.mem p (g (t.mem p)) }

def lockServerList (t : ServerTable) : ServerTable := { t with lst := lockLcxlList t.lst }

def unlockServerList (t : ServerTable) : ServerTable := { t with lst := unlockLcxlList t.lst }

/-- A server as `AllocServer` leaves it at time `now`, its other fields zeroed. -/
def allocServer (now : ℤ) : ServerInfoListEntry where
  refCount := 1
  info := ⟨0, 0, ⟨0, .zero 32⟩⟩
  performance := .zero 40
  timestamp := now
  currentRetryNumber := 0

def incRefListEntry (t : ServerTable) (p : ServerPtr) : ServerTable :=
  t.modify p fun s => { s with refCount := s.refCount + 1 }

def decRefListEntry (t : ServerTable) (p : ServerPtr) : ServerTable :=
  let t := t.modify p fun s => { s with refCount := s.refCount - 1 }
  if (t.mem p).refCount ≤ 0 then { t with lst := removeEntryfromLcxlList t.lst p } else t

/-- `RtlEqualMemory` of the first `n` bytes of two 32-byte fields. For a larger `n` it goes on to
the bytes after them; `past` is what it finds there. -/
def rtlEqualMemory (past : Bool) (a b : Bytes 32) (n : ℕ) : Bool :=
  a.toList.take n == b.toList.take n && (decide (n ≤ 32) || past)

/-- The comparison takes the length of the address asked for. `past` is what follows the
address of each server, where that length is more than an address has. -/
def findServer (past : ServerPtr → Bool) (t : ServerTable) (macAddr : IfPhysicalAddress) :
    Option ServerPtr :=
  (getLcxlListHead t.lst).find? fun p =>
    rtlEqualMemory (past p) (t.mem p).info.macAddr.address macAddr.address macAddr.length

def serverIsAvaliable (s : ServerInfoListEntry) (ipMode : IpMode) : Bool :=
  has s.info.status ssOnline
    && (has s.info.ipStatus saEnableIpv6 && ipMode == .ipv6
      || has s.info.ipStatus saEnableIpv4 && ipMode == .ipv4)
    && !has s.info.status ssDeleted

/-- `Flink`, and from the list head on to the first entry. -/
def nextServer (xs : List ServerPtr) (p : ServerPtr) : ServerPtr :=
  match (xs.dropWhile (· ≠ p)).tail with
  | q :: _ => q
  | [] => xs.headD p

/-- The loop of `FindAvaliableServerFormCurrentServer` from `cur` on: the server it breaks off
at, and the last available one still being checked. `fuel` bounds the rounds. -/
def findAvaliableLoop (t : ServerTable) (server : ServerPtr) (ipMode : IpMode)
    (checkingLast : Bool) :
    (fuel : ℕ) → (cur : ServerPtr) → Option ServerPtr → Option ServerPtr × Option ServerPtr
  | 0, _, checkingServer => (none, checkingServer)
  | fuel + 1, cur, checkingServer =>
    if serverIsAvaliable (t.mem cur) ipMode
        ∧ ¬ (checkingLast ∧ has (t.mem cur).info.status ssChecking) then
      (some cur, checkingServer)
    else
      let checkingServer :=
        if serverIsAvaliable (t.mem cur) ipMode then some cur else checkingServer
      let next := nextServer (getLcxlListHead t.lst) cur
      if next = server then (none, checkingServer)
      else findAvaliableLoop t server ipMode checkingLast fuel next checkingServer

def findAvaliableServerFormCurrentServer (t : ServerTable) (server : ServerPtr)
    (ipMode : IpMode) (checkingLast : Bool) : ServerTable × Option ServerPtr :=
  let t := lockServerList t
  let (onlineServer, checkingServer) :=
    findAvaliableLoop t server ipMode checkingLast t.lst.list.length server none
  let onlineServer := onlineServer <|> checkingServer
  let t := match onlineServer with
    | some p => incRefListEntry t p
    | none => t
  (unlockServerList t, onlineServer)

/-- Whether the loop of `RA_LEAST_CONNECTION` takes `p` over its best server so far. -/
def betterServer (t : ServerTable) (bestServer : Option ServerPtr) (p : ServerPtr) : Bool :=
  match bestServer with
  | none => true
  | some b => (t.mem b).refCount > (t.mem p).refCount
      || has (t.mem b).info.status ssChecking && !has (t.mem p).info.status ssChecking

def leastConnectionLoop (ipMode : IpMode) :
    List ServerPtr → ServerTable → Option ServerPtr → ServerTable × Option ServerPtr
  | [], t, bestServer => (t, bestServer)
  | p :: ps, t, bestServer =>
    if serverIsAvaliable (t.mem p) ipMode && betterServer t bestServer p then
      let t := match bestServer with
        | some b => decRefListEntry t b
        | none => t
      leastConnectionLoop ipMode ps (incRefListEntry t p) (some p)
    else leastConnectionLoop ipMode ps t bestServer

/-- `ROUTING_ALGORITHM_DATA`; nothing reads the state of the Kalman filter. -/
structure RoutingAlgorithmData where
  currentServerIndex : ℤ
deriving DecidableEq

def getListEntryByIndex (xs : List ServerPtr) (index : ℤ) : Option ServerPtr := xs[index.toNat]?

def getListEntryIndex (xs : List ServerPtr) (p : ServerPtr) : ℤ :=
  if p ∈ xs then xs.idxOf p else -1

/-- A little-endian number. -/
def leNat : List UInt8 → ℕ
  | [] => 0
  | b :: bs => b.toNat + 256 * leNat bs

/-- The hash `RA_IP_HASH` takes of a destination address for `n` servers. -/
def ipHash (ipMode : IpMode) (dstAddr : List UInt8) (n : ℤ) : ℤ :=
  match ipMode with
  | .ipv4 => leNat (dstAddr.take 4) % n
  | .ipv6 =>
    let word := fun i => leNat ((dstAddr.drop (2 * i)).take 2)
    (word 7 ||| ((word 6 <<< 2) % n.toNat) : ℕ)

/-- `FindAvaliableServerFormCurrentServer` from the server at the poll index, modulo the number
of servers. -/
def findFromIndex (t : ServerTable) (ipMode : IpMode) (index : ℤ) :
    ServerTable × Option ServerPtr :=
  match getListEntryByIndex (getLcxlListHead t.lst) (index.tmod (getLcxlListCount t.lst)) with
  | some entry => findAvaliableServerFormCurrentServer t entry ipMode true
  | none => (t, none)

def selectBestServer (t : ServerTable) (ipMode : IpMode) (dstAddr : List UInt8)
    (routingAlgorithm : ℤ) (ra : RoutingAlgorithmData) :
    ServerTable × RoutingAlgorithmData × Option ServerPtr :=
  let t := lockServerList t
  let (t, ra, bestServer) :=
    if getLcxlListCount t.lst > 0 then
      if routingAlgorithm = raFastResponse ∨ routingAlgorithm = raLeastConnection then
        let (t, bestServer) := leastConnectionLoop ipMode (getLcxlListHead t.lst) t none
        (t, ra, bestServer)
      else if routingAlgorithm = raPoll then
        let index :=
          if ra.currentServerIndex ≥ getLcxlListCount t.lst then 0 else ra.currentServerIndex
        let (t, bestServer) := findFromIndex t ipMode index
        let index := match bestServer with
          | some p => getListEntryIndex (getLcxlListHead t.lst) p + 1
          | none => index
        (t, ⟨index⟩, bestServer)
      else if routingAlgorithm = raIpHash then
        if ipHash ipMode dstAddr (getLcxlListCount t.lst) > 0 then
          let (t, bestServer) := findFromIndex t ipMode ra.currentServerIndex
          (t, ra, bestServer)
        else (t, ra, none)
      else (t, ra, none)
    else (t, ra, none)
  (unlockServerList t, ra, bestServer)

end LcxlNetLoader
