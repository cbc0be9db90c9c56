import LcxlNetLoader.Lib.Ring
import LcxlNetLoader.Lib.Spin
import LcxlNetLoader.Server

/-!
# Selecting a server under the servers' locks

The handlers as `Locking` has them take the spin lock of each server they look at. Their search of
the ring follows the links in memory where the definitions of the same names outside have the list,
and they fault on an entry that is not there.
-/

namespace LcxlNetLoader

/-- The links of a server list in memory, and its head. -/
structure ServerRing where
  links : Ring.Links ServerPtr
  head : ServerPtr

namespace Locking

abbrev Locks := SpinM ServerPtr

/-- `Flink`. -/
def flink (ring : ServerRing) (p : ServerPtr) : Locks ServerPtr :=
  SpinM.ofOption (Ring.flink ring.links p)

/-- The server the loop breaks off at stays locked. -/
def findAvaliableLoop (ring : ServerRing) (t : ServerTable) (server : ServerPtr)
    (ipMode : IpMode) (checkingLast : Bool) :
    (fuel : ℕ) → (cur : ServerPtr) → Option ServerPtr →
      Locks (Option ServerPtr × Option ServerPtr)
  | 0, _, _ => SpinM.fault
  | fuel + 1, cur, checkingServer => do
    SpinM.acquire cur
    if serverIsAvaliable (t.mem cur) ipMode
        ∧ ¬ (checkingLast ∧ has (t.mem cur).info.status ssChecking) then
      pure (some cur, checkingServer)
    else
      let checkingServer :=
        if serverIsAvaliable (t.mem cur) ipMode then some cur else checkingServer
      SpinM.release cur
      let next ← flink ring cur
      let next ← if next = ring.head then flink ring next else pure next
      if next = server then pure (none, checkingServer)
      else findAvaliableLoop ring t server ipMode checkingLast fuel next checkingServer

def findAvaliableServerFormCurrentServer (ring : ServerRing) (fuel : ℕ) (t : ServerTable)
    (server : ServerPtr) (ipMode : IpMode) (checkingLast : Bool) :
    Locks (ServerTable × Option ServerPtr) := do
  let t := lockServerList t
  let (onlineServer, checkingServer) ←
    findAvaliableLoop ring t server ipMode checkingLast fuel server none
  let onlineServer := onlineServer <|> checkingServer
  let t := match onlineServer with
    | some p => incRefListEntry t p
    | none => t
  pure (unlockServerList t, onlineServer)

def leastConnectionLoop (ipMode : IpMode) :
    List ServerPtr → ServerTable → Option ServerPtr → Locks (ServerTable × Option ServerPtr)
  | [], t, bestServer => pure (t, bestServer)
  | p :: ps, t, bestServer => do
    SpinM.acquire p
    let (t, bestServer) :=
      if serverIsAvaliable (t.mem p) ipMode && betterServer t bestServer p then
        let t := match bestServer with
          | some b => decRefListEntry t b
          | none => t
        (incRefListEntry t p, some p)
      else (t, bestServer)
    SpinM.release p
    leastConnectionLoop ipMode ps t bestServer

/-- The entry at the index is dereferenced, whether there is one or not. -/
def findFromIndex (ring : ServerRing) (fuel : ℕ) (t : ServerTable) (ipMode : IpMode)
    (index : ℤ) : Locks (ServerTable × Option ServerPtr) := do
  let entry ← SpinM.ofOption
    (getListEntryByIndex (getLcxlListHead t.lst) (index.tmod (getLcxlListCount t.lst)))
  findAvaliableServerFormCurrentServer ring fuel t entry ipMode true

def selectBestServer (ring : ServerRing) (fuel : ℕ) (t : ServerTable) (ipMode : IpMode)
    (dstAddr : List UInt8) (routingAlgorithm : ℤ) (ra : RoutingAlgorithmData) :
    Locks (ServerTable × RoutingAlgorithmData × Option ServerPtr) := do
  let t := lockServerList t
  let (t, ra, bestServer) ←
    if getLcxlListCount t.lst > 0 then
      if routingAlgorithm = raFastResponse ∨ routingAlgorithm = raLeastConnection then do
        let (t, bestServer) ← leastConnectionLoop ipMode (getLcxlListHead t.lst) t none
        pure (t, ra, bestServer)
      else if routingAlgorithm = raPoll then do
        let index :=
          if ra.currentServerIndex ≥ getLcxlListCount t.lst then 0 else ra.currentServerIndex
        let (t, bestServer) ← findFromIndex ring fuel t ipMode index
        let index := match bestServer with
          | some p => getListEntryIndex (getLcxlListHead t.lst) p + 1
          | none => index
        pure (t, ⟨index⟩, bestServer)
      else if routingAlgorithm = raIpHash then
        if ipHash ipMode dstAddr (getLcxlListCount t.lst) > 0 then do
          let (t, bestServer) ← findFromIndex ring fuel t ipMode ra.currentServerIndex
          pure (t, ra, bestServer)
        else pure (t, ra, none)
      else pure (t, ra, none)
    else pure (t, ra, none)
  pure (unlockServerList t, ra, bestServer)

end Locking

end LcxlNetLoader
