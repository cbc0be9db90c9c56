import LcxlNetLoader.ServerLocks

/-!
# What a selection is to return

A server is ready if it is available and not being checked. Here are what a search of the ring
and each algorithm are to return in these terms, and the conditions under which the algorithms do.
-/

namespace LcxlNetLoader

namespace ServerTable

/-- The servers are linked once each, and counted. -/
structure Listed (t : ServerTable) : Prop where
  nodup : t.lst.list.Nodup
  listCount : t.lst.listCount = t.lst.list.length

/-- There is one more reference to the server, if one was selected, and nothing else changed. -/
structure Takes (t t' : ServerTable) (server : Option ServerPtr) : Prop where
  lst : t'.lst = t.lst
  mem : ∀ p, t'.mem p =
    { t.mem p with refCount := (t.mem p).refCount + if server = some p then 1 else 0 }
  next : t'.next = t.next

/-- The servers are the same, in the same order and of the same statuses. -/
structure SameServers (t t' : ServerTable) : Prop where
  list : t'.lst.list = t.lst.list
  status : ∀ p ∈ t.lst.list, (t'.mem p).info.status = (t.mem p).info.status
  ipStatus : ∀ p ∈ t.lst.list, (t'.mem p).info.ipStatus = (t.mem p).info.ipStatus

/-- A poll finds the servers as they are in `t`, and no change waits to be made to their list. -/
structure Polled (t t' : ServerTable) : Prop where
  same : t.SameServers t'
  listed : t'.Listed
  settled : (lockServerList t').lst.Settled

variable (t : ServerTable) (m : IpMode)

def avaliable (p : ServerPtr) : Bool := serverIsAvaliable (t.mem p) m

def checking (p : ServerPtr) : Bool := has (t.mem p).info.status ssChecking

def ready (p : ServerPtr) : Bool := t.avaliable m p && !t.checking p

/-- The servers from this one on, once round the list. -/
def round (server : ServerPtr) : List ServerPtr := t.lst.list.rotate (t.lst.list.idxOf server)

/-- Of servers in this order the first that is available, or with `checkingLast` the first that is
ready and else the last one being checked. -/
def choice (checkingLast : Bool) (order : List ServerPtr) : Option ServerPtr :=
  if checkingLast then
    order.find? (t.ready m) <|> order.reverse.find? fun p => t.avaliable m p && t.checking p
  else order.find? (t.avaliable m)

/-- The algorithm searches the ring of servers. -/
def SearchesRing (dstAddr : List UInt8) (routingAlgorithm : ℤ) : Prop :=
  routingAlgorithm = raPoll
    ∨ routingAlgorithm = raIpHash ∧ ipHash m dstAddr (getLcxlListCount t.lst) > 0

instance (dstAddr : List UInt8) (routingAlgorithm : ℤ) :
    Decidable (t.SearchesRing m dstAddr routingAlgorithm) :=
  inferInstanceAs (Decidable (_ ∨ _ ∧ _))

/-- The algorithm looks for a server at all. -/
def Searches (dstAddr : List UInt8) (routingAlgorithm : ℤ) : Prop :=
  routingAlgorithm = raFastResponse ∨ routingAlgorithm = raLeastConnection
    ∨ t.SearchesRing m dstAddr routingAlgorithm

/-- No ready server has fewer references than this one, which is being checked only if every
available server is. -/
structure Undominated (s : ServerPtr) : Prop where
  least : ∀ p ∈ t.lst.list, t.ready m p → ¬ (t.mem p).refCount < (t.mem s).refCount
  checking : t.checking s → ∀ p ∈ t.lst.list, t.avaliable m p → t.checking p

/-- Behind the last of the ready servers with the fewest references, every available server being
checked has more references than that one. -/
def Undisturbed : Prop :=
  ∀ before p behind, t.lst.list = before ++ p :: behind → t.ready m p →
    (∀ q ∈ before, t.ready m q → (t.mem p).refCount ≤ (t.mem q).refCount) →
    (∀ q ∈ behind, t.ready m q → (t.mem p).refCount < (t.mem q).refCount) →
    ∀ q ∈ behind, t.avaliable m q → t.checking q → (t.mem p).refCount < (t.mem q).refCount

/-- The servers a search of the ring may return: the ready ones, or else those being checked. -/
def eligible : List ServerPtr :=
  if t.lst.list.any (t.ready m) then t.lst.list.filter (t.ready m)
  else t.lst.list.filter (t.avaliable m)

/-- The index in the list that a search of the ring begins at. -/
def startIndex (routingAlgorithm : ℤ) (ra : RoutingAlgorithmData) : ℕ :=
  let index :=
    if routingAlgorithm = raPoll ∧ ra.currentServerIndex ≥ getLcxlListCount t.lst then 0
    else ra.currentServerIndex
  (index.tmod (getLcxlListCount t.lst)).toNat

/-- The servers from the one place in the list up to the other. -/
def between (i j : ℕ) : List ServerPtr := (t.lst.list.drop (min i j)).take (max i j - min i j)

end ServerTable

/-- Consecutive `RA_POLL` selections, each finding the table as it is given here: the servers
selected, and the algorithm's data after each. -/
def pollRun (m : IpMode) : List (ServerTable × List UInt8) → RoutingAlgorithmData →
    List (Option ServerPtr × RoutingAlgorithmData)
  | [], _ => []
  | (t, dstAddr) :: calls, ra =>
    let (_, ra, server) := selectBestServer t m dstAddr raPoll ra
    (server, ra) :: pollRun m calls ra

namespace Locking

variable {α : Type}

/-- All locks taken are released, none was waited for while it was held, and the server list is
locked as often as before. -/
def Releases (held : Finset ServerPtr) (t : ServerTable) (m : Locks (ServerTable × α)) : Prop :=
  ∃ t' a ops, m = SpinM.returns (t', a) ops ∧ SpinOp.replay held ops = some held
    ∧ t'.lst.lockCount = t.lst.lockCount

end Locking

end LcxlNetLoader
