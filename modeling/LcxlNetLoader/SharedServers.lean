import Mathlib.Logic.Function.Basic
import LcxlNetLoader.Lib.Run
import LcxlNetLoader.Filter

/-!
# A server list shared by several parties

The requests to add and to delete a server, each taken apart into the calls it makes on the
module's `server_list`, next to any other parties that lock the list, change what they find in it
and let it go: the worker thread, a checking frame received, the selection of a server.
-/

namespace LcxlNetLoader

inductive ServerRequest
  | add (server : LcxlServer)
  | del (macAddr : IfPhysicalAddress)

def ServerRequest.macAddr : ServerRequest → IfPhysicalAddress
  | .add server => server.macAddr
  | .del macAddr => macAddr

/-- What a party is about to do with the list. -/
inductive ServerPosition
  | idle
  | locked (r : ServerRequest)
  /-- `FindServer` gave the server. -/
  | found (r : ServerRequest) (p : Option ServerPtr)
  /-- The server is added, and the list is to be let go. -/
  | added (server : LcxlServer)
  /-- It is no request, and has locked the list. -/
  | holding

inductive ServerStep (ι : Type*)
  | lock (i : ι) (r : ServerRequest)
  /-- `past` is what follows each server's address in memory. -/
  | find (i : ι) (past : ServerPtr → Bool)
  /-- `now` is the clock as `AllocServer` reads it. -/
  | write (i : ι) (now : ℤ)
  | hold (i : ι)
  | unlock (i : ι)
  /-- What a party makes of a server. -/
  | update (p : ServerPtr) (s : ServerInfoListEntry)
  /-- A reference to a server is given back. -/
  | decRef (p : ServerPtr)

structure SharedServers (ι : Type*) where
  table : ServerTable
  position : ι → ServerPosition

/-- `AllocServer`, and `AddEntrytoLcxlList` of what it gives. -/
def addNewServer (now : ℤ) (t : ServerTable) (server : LcxlServer) : ServerTable :=
  { next := t.next + 1
    mem := Function.update t.mem t.next { allocServer now with info := server }
    lst := addEntrytoLcxlList t.lst t.next }

/-- The server found is marked deleted, unless it is already. -/
def markDeleted (t : ServerTable) (p : ServerPtr) : ServerTable :=
  if has (t.mem p).info.status ssDeleted then t
  else decRefListEntry (t.modify p fun s =>
    { s with info := { s.info with status := s.info.status ||| ssDeleted } }) p

/-- What a request does with what `FindServer` gave it. -/
def ServerRequest.write (now : ℤ) (t : ServerTable) :
    ServerRequest → Option ServerPtr → ServerTable × ServerPosition
  | .add server, none => (addNewServer now t server, .added server)
  | .add server, some p => (t.modify p fun s => { s with info := server }, .added server)
  | .del _, none => (t, .idle)
  | .del _, some p => (markDeleted t p, .idle)

/-- The six bytes a server is known by. -/
def ServerTable.mac (t : ServerTable) (p : ServerPtr) : List UInt8 := (t.mem p).info.macAddr.mac

/-- The servers that are linked, or wait to be. -/
def ServerTable.known (t : ServerTable) : List ServerPtr := t.lst.list ++ t.lst.toBeAddList

namespace SharedServers

variable {ι : Type*}

def init (mem : ServerPtr → ServerInfoListEntry) (next : ServerPtr) : SharedServers ι :=
  ⟨⟨initLcxlList, mem, next⟩, fun _ => .idle⟩

variable [DecidableEq ι]

def move (s : SharedServers ι) (i : ι) (t : ServerTable) (position : ServerPosition) :
    SharedServers ι :=
  ⟨t, Function.update s.position i position⟩

/-- A request to delete ends without letting the list go. -/
def exec (s : SharedServers ι) : ServerStep ι → SharedServers ι
  | .lock i r => s.move i (lockServerList s.table) (.locked r)
  | .find i past => match s.position i with
    | .locked r => s.move i s.table (.found r (findServer past s.table r.macAddr))
    | _ => s
  | .write i now => match s.position i with
    | .found r p => s.move i (r.write now s.table p).1 (r.write now s.table p).2
    | _ => s
  | .hold i => s.move i (lockServerList s.table) .holding
  | .unlock i => s.move i (unlockServerList s.table) .idle
  | .update p server => { s with table := s.table.modify p fun _ => server }
  | .decRef p => { s with table := decRefListEntry s.table p }

omit [DecidableEq ι] in
/-- A party makes its calls in the order of the source, requests are for addresses of six bytes,
and only a request writes a server's address. -/
def Enabled (s : SharedServers ι) : ServerStep ι → Prop
  | .lock i r => s.position i = .idle ∧ r.macAddr.length = 6
  | .find i _ => ∃ r, s.position i = .locked r
  | .write i _ => ∃ r p, s.position i = .found r p
  | .hold i => s.position i = .idle
  | .unlock i => (∃ server, s.position i = .added server) ∨ s.position i = .holding
  | .update p server => server.info.macAddr = (s.table.mem p).info.macAddr
  | .decRef _ => True

omit [DecidableEq ι] in
/-- A request to add that finds no server of its address linked finds none waiting to be either,
nor another request about to add one. -/
def AddsNew (s : SharedServers ι) : ServerStep ι → Prop
  | .find i past => ∀ server, s.position i = .locked (.add server) →
      findServer past s.table server.macAddr = none →
        (∀ p ∈ s.table.lst.toBeAddList, s.table.mac p ≠ server.macAddr.mac)
          ∧ ∀ j other, s.position j = .found (.add other) none →
            other.macAddr.mac ≠ server.macAddr.mac
  | _ => True

end SharedServers

/-- No two linked servers have one address, so the first that `FindServer` comes to is the only
one. -/
structure OneServerAMac (t : ServerTable) : Prop where
  macs : (t.lst.list.map t.mac).Nodup
  first : ∀ past macAddr p q, macAddr.length = 6 → findServer past t macAddr = some p →
    q ∈ t.lst.list → t.mac q = macAddr.mac → q = p

end LcxlNetLoader
