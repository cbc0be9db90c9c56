import LcxlNetLoader.Lib.Chain
import LcxlNetLoader.Module

/-!
# The data path

`FilterReceiveNetBufferLists` and `FilterSendNetBufferLists`: a chain of NBLs comes in, is taken
apart by what becomes of each NBL's frame, and goes out again along with NBLs of the driver's own.
What the driver calls of NDIS is logged, with the links as they are at the call. Allocations
succeed.
-/

namespace LcxlNetLoader

open Linked

/-- The address of a `NET_BUFFER_LIST`. -/
abbrev NblPtr := ℕ

/-- The NBLs: their links, status and source handle, and the frame that `GetEthernetHeader` finds,
which is none where the buffer cannot be mapped. `alloc` is the address allocated next. -/
structure NblHeap where
  next : NblPtr → Option NblPtr
  status : NblPtr → UInt32
  sourceHandle : NblPtr → ℕ
  frame : NblPtr → Option Frame
  alloc : NblPtr

inductive NdisRoutine
  | indicateReceive (portNumber numberOfNetBufferLists : UInt32)
  | returnNetBufferLists
  | send (portNumber : UInt32)
  | sendComplete
deriving DecidableEq

/-- A call with a chain of NBLs. -/
structure NdisCall where
  routine : NdisRoutine
  nbl : Option NblPtr
  flags : UInt32
  next : NblPtr → Option NblPtr

/-- The local variables of the two functions, and what they work on. -/
structure DataPath where
  filter : LcxlFilter
  heap : NblHeap
  calls : List NdisCall
  pass : Queue NblPtr
  numberOfPassNbl : UInt32
  drop : Queue NblPtr
  send : Queue NblPtr
  recv : Queue NblPtr

/-- The flag `NDIS_..._FLAGS_DISPATCH_LEVEL`, of one value for all calls. -/
def dispatchLevel : UInt32 := 0x1
def receiveFlagsResources : UInt32 := 0x2
def statusPaused : UInt32 := 0xC023002A

/-- `NDIS_TEST_RECEIVE_CANNOT_PEND`. -/
def cannotPend (receiveFlags : UInt32) : Bool := receiveFlags &&& receiveFlagsResources != 0

/-- The flags for the driver's own calls, at the level it was called at. -/
def levelOf (flags : UInt32) : UInt32 := if flags &&& dispatchLevel != 0 then dispatchLevel else 0

/-- What becomes of an NBL received. -/
def receiveNbl (cfg : LcxlSetting) (amb : NblPtr → Ambient) (frame : NblPtr → Option Frame)
    (f : LcxlFilter) (x : NblPtr) : LcxlFilter × ProcessNblResultCode × Option OwnNbl :=
  match frame x with
  | some fr => receiveFrame cfg f fr (amb x)
  | none => (f, .pass, none)

/-- What becomes of an NBL sent. -/
def sendNbl (cfg : LcxlSetting) (amb : NblPtr → Ambient) (frame : NblPtr → Option Frame)
    (f : LcxlFilter) (x : NblPtr) : LcxlFilter × ProcessNblResultCode × Option OwnNbl :=
  match frame x with
  | some fr => sendFrame cfg f fr (amb x)
  | none => (f, .pass, none)

namespace NblHeap

def setNext (h : NblHeap) (next : NblPtr → Option NblPtr) : NblHeap := { h with next := next }

/-- The NBL created for a frame, whose link is left as it comes. -/
def createNBL (h : NblHeap) (filterHandle : ℕ) (fr : Frame) : NblHeap :=
  { h with
    alloc := h.alloc + 1
    sourceHandle := Function.update h.sourceHandle h.alloc filterHandle
    frame := Function.update h.frame h.alloc (some fr) }

end NblHeap

namespace DataPath

def start (f : LcxlFilter) (h : NblHeap) : DataPath := ⟨f, h, [], .empty, 0, .empty, .empty, .empty⟩

def call (s : DataPath) (routine : NdisRoutine) (nbl : Option NblPtr) (flags : UInt32) : DataPath :=
  { s with calls := s.calls ++ [⟨routine, nbl, flags, s.heap.next⟩] }

def setNext (s : DataPath) (next : NblPtr → Option NblPtr) : DataPath :=
  { s with heap := s.heap.setNext next }

def queuePass (s : DataPath) (x : NblPtr) : DataPath :=
  { s.setNext (s.pass.link s.heap.next x) with pass := s.pass.push x }

def queueDrop (s : DataPath) (x : NblPtr) : DataPath :=
  { s.setNext (s.drop.link s.heap.next x) with drop := s.drop.push x }

/-- An NBL of the driver's own is created and queued. -/
def queueOwn (s : DataPath) : Option OwnNbl → DataPath
  | none => s
  | some (.send fr) =>
    let h := s.heap.createNBL s.filter.filterHandle fr
    { s with
      heap := h.setNext (s.send.link h.next s.heap.alloc)
      send := s.send.push s.heap.alloc }
  | some (.recv fr) =>
    let h := s.heap.createNBL s.filter.filterHandle fr
    { s with
      heap := h.setNext (s.recv.link h.next s.heap.alloc)
      recv := s.recv.push s.heap.alloc }

/-- The NBL is taken out of its chain, indicated up and put back. `left` is the link the drivers
above leave it with. -/
def indicateAlone (s : DataPath) (portNumber receiveFlags : UInt32) (left : Option NblPtr)
    (x : NblPtr) : DataPath :=
  let tmpNBL := s.heap.next x
  let s := s.setNext (Function.update s.heap.next x none)
  let s := s.call (.indicateReceive portNumber 1) (some x) (receiveFlags ||| receiveFlagsResources)
  let s := s.setNext (Function.update s.heap.next x left)
  s.setNext (Function.update s.heap.next x tmpNBL)

/-- If `present`, the queue is closed and handed over from `nbl` on. -/
def handOver (s : DataPath) (q : Queue NblPtr) (present nbl : Option NblPtr)
    (routine : NdisRoutine) (flags : UInt32) : DataPath :=
  if present.isSome then (s.setNext (q.close s.heap.next)).call routine nbl flags else s

def addRcvs (s : DataPath) (n : UInt32) : DataPath :=
  { s with filter := { s.filter with outstandingRcvs := s.filter.outstandingRcvs + n } }

def addSends (s : DataPath) (n : UInt32) : DataPath :=
  { s with filter := { s.filter with outstandingSends := s.filter.outstandingSends + n } }

/-- One round of the loop over the NBLs received. -/
def receiveStep (cfg : LcxlSetting) (amb : NblPtr → Ambient) (left : NblPtr → Option NblPtr)
    (portNumber receiveFlags : UInt32) (s : DataPath) (x : NblPtr) : DataPath :=
  let (f, code, own) := receiveNbl cfg amb s.heap.frame s.filter x
  let s := { s with filter := f }
  let s := match code with
    | .drop | .router | .icmpv6Na => if cannotPend receiveFlags then s else s.queueDrop x
    | .checkingNbl | .pass =>
      if cannotPend receiveFlags then s.indicateAlone portNumber receiveFlags (left x) x
      else { s.queuePass x with numberOfPassNbl := s.numberOfPassNbl + 1 }
    -- These have no case.
    | .modify | .icmpv6Ns => s
  s.queueOwn own

/-- One round of the loop over the NBLs sent. -/
def sendStep (cfg : LcxlSetting) (amb : NblPtr → Ambient) (s : DataPath) (x : NblPtr) : DataPath :=
  let (f, code, own) := sendNbl cfg amb s.heap.frame s.filter x
  let s := { s with filter := f }
  let s := match code with
    | .pass | .modify => s.queuePass x
    | .drop | .icmpv6Ns => s.queueDrop x
    -- The default case, which asserts that it is not reached.
    | .router | .icmpv6Na | .checkingNbl => s
  let s := s.queueOwn own
  if s.filter.trackSends then s.addSends 1 else s

/-- What follows the loop over the NBLs received. -/
def receiveDone (portNumber numberOfNetBufferLists receiveFlags : UInt32) (s : DataPath) :
    DataPath :=
  let flags := levelOf receiveFlags
  let s :=
    if cannotPend receiveFlags then s
    else
      let s := s.handOver s.pass s.pass.tail s.pass.head
        (.indicateReceive portNumber s.numberOfPassNbl) receiveFlags
      s.handOver s.drop s.drop.tail s.drop.head .returnNetBufferLists flags
  let s := s.handOver s.send s.send.head s.send.head (.send portNumber) flags
  -- It is the tail that is indicated, and `number_of_recv_nbl` was never counted up.
  let s := s.handOver s.recv s.recv.tail s.recv.tail (.indicateReceive portNumber 0) flags
  let s := if s.filter.trackReceives then s.addRcvs numberOfNetBufferLists else s
  if cannotPend receiveFlags ∧ s.filter.trackReceives then s.addRcvs (-numberOfNetBufferLists)
  else s

/-- What follows the loop over the NBLs sent. -/
def sendDone (portNumber sendFlags : UInt32) (s : DataPath) : DataPath :=
  let s := s.handOver s.drop s.drop.head s.drop.head .sendComplete (levelOf sendFlags)
  let s := s.handOver s.pass s.pass.head s.pass.head (.send portNumber) sendFlags
  s.handOver s.send s.send.head s.send.head (.send portNumber) (levelOf sendFlags)

def pauseStep (s : DataPath) (x : NblPtr) : DataPath :=
  { s with heap := { s.heap with status := Function.update s.heap.status x statusPaused } }

def links (s : DataPath) : NblPtr → Option NblPtr := s.heap.next

end DataPath

open DataPath

/-- `fuel` bounds the rounds of the loop. -/
def filterReceiveNetBufferLists (cfg : LcxlSetting) (amb : NblPtr → Ambient)
    (left : NblPtr → Option NblPtr) (fuel : ℕ) (f : LcxlFilter) (h : NblHeap)
    (netBufferLists : Option NblPtr) (portNumber numberOfNetBufferLists receiveFlags : UInt32) :
    DataPath :=
  let s := start f h
  if f.state ≠ .running then
    if cannotPend receiveFlags then s
    else s.call .returnNetBufferLists netBufferLists (levelOf receiveFlags)
  else
    receiveDone portNumber numberOfNetBufferLists receiveFlags
      (walk links (receiveStep cfg amb left portNumber receiveFlags) fuel netBufferLists s)

def filterSendNetBufferLists (cfg : LcxlSetting) (amb : NblPtr → Ambient) (fuel : ℕ)
    (f : LcxlFilter) (h : NblHeap) (netBufferLists : Option NblPtr)
    (portNumber sendFlags : UInt32) : DataPath :=
  let s := start f h
  if f.state ≠ .running then
    (walk links pauseStep fuel netBufferLists s).call .sendComplete netBufferLists
      (levelOf sendFlags)
  else sendDone portNumber sendFlags (walk links (sendStep cfg amb) fuel netBufferLists s)

/-- The result codes that the receive path has a case for. -/
def handledOnReceive : ProcessNblResultCode → Bool
  | .modify | .icmpv6Ns => false
  | _ => true

def handledOnSend : ProcessNblResultCode → Bool
  | .router | .icmpv6Na | .checkingNbl => false
  | _ => true

/-- The result codes of an NBL that goes on up. -/
def passesUp : ProcessNblResultCode → Bool
  | .pass | .checkingNbl => true
  | _ => false

/-- The result codes of an NBL that goes on down. -/
def passesDown : ProcessNblResultCode → Bool
  | .pass | .modify => true
  | _ => false

/-- How a loop's round leaves the filter, and its NBL's result code. -/
abbrev Verdict := LcxlFilter → NblPtr → LcxlFilter × ProcessNblResultCode

def receiveVerdict (cfg : LcxlSetting) (amb : NblPtr → Ambient) (h : NblHeap) : Verdict :=
  fun f x => ((receiveNbl cfg amb h.frame f x).1, (receiveNbl cfg amb h.frame f x).2.1)

def sendVerdict (cfg : LcxlSetting) (amb : NblPtr → Ambient) (h : NblHeap) : Verdict := fun f x =>
  let r := sendNbl cfg amb h.frame f x
  (if r.1.trackSends then { r.1 with outstandingSends := r.1.outstandingSends + 1 } else r.1, r.2.1)

/-- The NBL of its own that the driver creates for one received. -/
def receiveOwn (cfg : LcxlSetting) (amb : NblPtr → Ambient) (h : NblHeap) (f : LcxlFilter)
    (x : NblPtr) : Option OwnNbl := (receiveNbl cfg amb h.frame f x).2.2

def sendOwn (cfg : LcxlSetting) (amb : NblPtr → Ambient) (h : NblHeap) (f : LcxlFilter)
    (x : NblPtr) : Option OwnNbl := (sendNbl cfg amb h.frame f x).2.2

namespace Verdict

/-- The filter after the NBLs. -/
def after (v : Verdict) (f : LcxlFilter) (xs : List NblPtr) : LcxlFilter :=
  xs.foldl (fun f x => (v f x).1) f

/-- Of the NBLs those with a code that `keep` holds of, each taken with the filter as those before
it have left it. -/
def select (v : Verdict) (keep : ProcessNblResultCode → Bool) :
    LcxlFilter → List NblPtr → List NblPtr
  | _, [] => []
  | f, x :: xs =>
    if keep (v f x).2 then x :: v.select keep (v f x).1 xs else v.select keep (v f x).1 xs

/-- The codes the NBLs are given. -/
def codes (v : Verdict) : LcxlFilter → List NblPtr → List ProcessNblResultCode
  | _, [] => []
  | f, x :: xs => (v f x).2 :: v.codes (v f x).1 xs

/-- The NBLs of the driver's own that the rounds create. -/
def owns (v : Verdict) (own : LcxlFilter → NblPtr → Option OwnNbl) :
    LcxlFilter → List NblPtr → List OwnNbl
  | _, [] => []
  | f, x :: xs => (own f x).toList ++ v.owns own (v f x).1 xs

end Verdict

/-- The frame of an NBL created to be sent. -/
def OwnNbl.sent : OwnNbl → Option Frame
  | .send fr => some fr
  | .recv _ => none

/-- The frame of an NBL created to be indicated. -/
def OwnNbl.received : OwnNbl → Option Frame
  | .send _ => none
  | .recv fr => some fr

/-- Each NBL is in one of two chains, which keep the order they came in. -/
structure Divides (xs ps ds : List NblPtr) : Prop where
  perm : (ps ++ ds).Perm xs
  left : ps.Sublist xs
  right : ds.Sublist xs

/-- The call hands over exactly this chain. -/
def NdisCall.Carries (c : NdisCall) (xs : List NblPtr) : Prop := IsChain c.next c.nbl xs

/-- The chain is handed over in one call, or none is made if there is no NBL in it. -/
def HandedOver (calls : List NdisCall) (routine : NdisRoutine) (flags : UInt32)
    (xs : List NblPtr) : Prop :=
  (xs = [] ∧ calls = []) ∨
    (xs ≠ [] ∧ ∃ c, calls = [c] ∧ c.routine = routine ∧ c.flags = flags ∧ c.Carries xs)

/-- The call indicates one NBL up, which the driver below keeps. -/
structure NdisCall.Alone (portNumber receiveFlags : UInt32) (c : NdisCall) (x : NblPtr) : Prop where
  routine : c.routine = .indicateReceive portNumber 1
  flags : c.flags = receiveFlags ||| receiveFlagsResources
  carries : c.Carries [x]

/-- The call is about NBLs that the driver has created. -/
def NdisCall.OfOwn (alloc : NblPtr) (c : NdisCall) : Prop :=
  (∃ portNumber, c.routine = .send portNumber ∨ ∃ n, c.routine = .indicateReceive portNumber n)
    ∧ ∃ xs, c.Carries xs ∧ ∀ x ∈ xs, alloc ≤ x

/-- A chain of NBLs that NDIS hands to the driver, with the frames in their buffers. -/
structure NblChain where
  heap : NblHeap
  netBufferLists : Option NblPtr
  nbls : List NblPtr
  chain : IsChain heap.next netBufferLists nbls
  alloc : ∀ x ∈ nbls, x < heap.alloc

/-- A call of `FilterReceiveNetBufferLists`. -/
structure ReceiveCall extends NblChain where
  amb : NblPtr → Ambient
  left : NblPtr → Option NblPtr
  portNumber : UInt32
  receiveFlags : UInt32

def ReceiveCall.result (c : ReceiveCall) (cfg : LcxlSetting) (f : LcxlFilter) : DataPath :=
  filterReceiveNetBufferLists cfg c.amb c.left c.nbls.length f c.heap c.netBufferLists c.portNumber
    (UInt32.ofNat c.nbls.length) c.receiveFlags

/-- A call of `FilterSendNetBufferLists`. -/
structure SendCall extends NblChain where
  amb : NblPtr → Ambient
  portNumber : UInt32
  sendFlags : UInt32

def SendCall.result (c : SendCall) (cfg : LcxlSetting) (f : LcxlFilter) : DataPath :=
  filterSendNetBufferLists cfg c.amb c.nbls.length f c.heap c.netBufferLists c.portNumber
    c.sendFlags

def NdisRoutine.isSend : NdisRoutine → Bool
  | .send _ => true
  | _ => false

def NdisRoutine.isIndicate : NdisRoutine → Bool
  | .indicateReceive _ _ => true
  | _ => false

/-- The NBLs, of which there are at most `n`, in the calls of some routines. -/
def nblsIn (routines : NdisRoutine → Bool) (n : ℕ) (calls : List NdisCall) : List NblPtr :=
  (calls.filter fun c => routines c.routine).flatMap fun c => cells c.next n c.nbl

namespace DataPath

def nbls (s : DataPath) (routines : NdisRoutine → Bool) : List NblPtr :=
  nblsIn routines s.heap.alloc s.calls

/-- The frames sent. -/
def sentFrames (s : DataPath) : List Frame := (s.nbls NdisRoutine.isSend).filterMap s.heap.frame

end DataPath

namespace Sample

/-- Two NBLs: a packet that the router has no server for, and one to another MAC address. -/
def nblHeap : NblHeap where
  next x := if x = 0 then some 1 else none
  status _ := 0
  sourceHandle _ := 0
  frame x := some (if x = 0 then tcpFrame 0x02 else (tcpFrame 0x02).write 0 [2, 0, 0, 0, 0, 9])
  alloc := 2

/-- One NBL at that address, with a frame. -/
def single (x : NblPtr) (fr : Frame) : NblChain where
  heap := ⟨fun _ => none, fun _ => 0, fun _ => 0, fun _ => some fr, x + 1⟩
  netBufferLists := some x
  nbls := [x]
  chain := ⟨rfl, rfl⟩
  alloc := by simp

def receive (fr : Frame) : ReceiveCall := ⟨single 0 fr, fun _ => ambient 0, fun _ => none, 0, 0⟩

def send (fr : Frame) : SendCall := ⟨single 0 fr, fun _ => ambient 0, 0, 0⟩

end Sample

end LcxlNetLoader
