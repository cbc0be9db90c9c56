import LcxlNetLoader.Module

/-!
# Watching one server's health

A module together with what an observer of one of its servers sees: the clock, when a checking
frame from the server was last received, and how many requests it has been sent since.
-/

namespace LcxlNetLoader

/-- The server is linked in a router's list, and the only one there of its MAC address. -/
structure LcxlFilter.HasServer (f : LcxlFilter) (p : ServerPtr) (mac : List UInt8) : Prop where
  role : f.module.lcxlRole = roleRouter
  unique : (f.module.serverList.lst.list.filter
    fun q => (f.module.serverList.mem q).info.macAddr.mac = mac) = [p]

/-- Of the server only the reference count may differ, and the router checks its servers as
before. -/
structure LeavesAlone (p : ServerPtr) (f f' : LcxlFilter) : Prop where
  server : ∃ n, f'.module.serverList.mem p = { f.module.serverList.mem p with refCount := n }
  check : f'.module.serverCheck = f.module.serverCheck

/-- Where a request to add a server puts it: over the one found, or at the next address. -/
def added (past : ServerPtr → Bool) (t : ServerTable) (server : LcxlServer) : ServerPtr :=
  (findServer past (lockServerList t) server.macAddr).getD t.next

/-- A frame that asks the server of that address to respond. -/
def Frame.isRequestTo (fr : Frame) (mac : List UInt8) : Bool :=
  fr.slice 0 6 == mac && ntohs (u16OfBytes (fr.byte 12) (fr.byte 13)) == ethernetTypeLcxlChecking
    && u16OfBytes (fr.byte 16) (fr.byte 17) == checkingCodeRequest

/-- The source of a checking frame received by a router. -/
def checkingSource (f : LcxlFilter) (fr : Frame) : Option (List UInt8) := do
  let (ethernetType, _, dataLength) ← (getEthernetData fr.dataLength).val fr.byte
  if f.module.lcxlRole = roleRouter ∧ ethernetType = ethernetTypeLcxlChecking
      ∧ sizeofLcxlCheckingHeader ≤ dataLength then
    some (fr.slice 6 6)
  else none

structure Watched where
  filter : LcxlFilter
  clock : ℤ
  /-- When a checking frame from the server was last received, or when it was added. -/
  lastSeen : ℤ
  /-- The requests sent to it since. -/
  requests : ℕ
  /-- The last tick, or `lastSeen` if that is later. -/
  mark : ℤ

namespace Watched

/-- Right after the server was added. -/
def start (cfg : LcxlSetting) (f : LcxlFilter) (past : ServerPtr → Bool) (now : ℤ)
    (server : LcxlServer) : Watched :=
  ⟨f.exec cfg (.addServer past now server), now, now, 0, now⟩

def exec (cfg : LcxlSetting) (mac : List UInt8) (s : Watched) (e : Event) : Watched :=
  match e with
  | .tick now => { s with
      filter := s.filter.exec cfg e
      clock := now
      requests := s.requests + ((workerTick cfg s.filter now).2.countP (·.isRequestTo mac))
      mark := now }
  | .recv fr amb =>
    if checkingSource s.filter fr = some mac then
      ⟨s.filter.exec cfg e, amb.later, amb.now, 0, amb.now⟩
    else { s with filter := s.filter.exec cfg e, clock := amb.later }
  | e => { s with filter := s.filter.exec cfg e }

/-- The clock does not go back, and whatever is not a tick or a frame leaves the server alone. -/
def Watches (cfg : LcxlSetting) (p : ServerPtr) (mac : List UInt8) (s : Watched) : Event → Prop
  | .tick now => s.filter.HasServer p mac ∧ s.clock ≤ now
  | .recv _ amb => s.filter.HasServer p mac ∧ s.clock ≤ amb.now ∧ amb.now ≤ amb.later
  | e => LeavesAlone p s.filter (s.filter.exec cfg e)

abbrev Step (cfg : LcxlSetting) (p : ServerPtr) (mac : List UInt8) :
    Watched → Event → Watched → Prop :=
  Sys.Guarded (Watches cfg p mac) (exec cfg mac)

/-- The steps in which ticks are at most `g` apart, and the first one after the addition or after
a frame from the server at most that late. -/
abbrev TimelyStep (cfg : LcxlSetting) (p : ServerPtr) (mac : List UInt8) (g : ℤ) (s : Watched)
    (e : Event) (s' : Watched) : Prop :=
  Step cfg p mac s e s' ∧ ∀ now, e = .tick now → now - s.mark ≤ g

/-- The server as it stands. -/
def server (s : Watched) (p : ServerPtr) : ServerInfoListEntry := s.filter.module.serverList.mem p

end Watched

end LcxlNetLoader
