import LcxlNetLoader.Lifecycle

/-!
# Outstanding NBLs

The two handlers that take NBLs back, `FilterSendNetBufferListsComplete` and
`FilterReturnNetBufferLists`, and a running module together with the NBLs that it has passed down or
indicated up and not got back.
-/

namespace LcxlNetLoader

open Linked DataPath

/-- The loop that counts the NBLs of a chain. -/
def countNbls (fuel : ℕ) (next : NblPtr → Option NblPtr) (netBufferLists : Option NblPtr) :
    UInt32 :=
  walk (fun _ => next) (fun n _ => n + 1) fuel netBufferLists 0

/-- The local variables of `DropOwnerNBL`, the links, and the NBLs it has freed. -/
structure DropOwner where
  next : NblPtr → Option NblPtr
  netBufferLists : Option NblPtr
  prepNbl : Option NblPtr
  freed : List NblPtr

/-- The loop of `DropOwnerNBL` from `current_nbl` on. -/
def dropOwnerLoop (own : NblPtr → Bool) : (fuel : ℕ) → Option NblPtr → DropOwner → DropOwner
  | 0, _, s => s
  | _ + 1, none, s => s
  | fuel + 1, some x, s =>
    let currentNbl := s.next x
    if own x then
      let s :=
        if some x ≠ s.netBufferLists then
          match s.prepNbl with
          | some p => { s with next := Function.update s.next p currentNbl }
          -- It is asserted not to be null.
          | none => s
        else { s with netBufferLists := currentNbl }
      dropOwnerLoop own fuel currentNbl
        { s with next := Function.update s.next x none, freed := s.freed ++ [x] }
    else dropOwnerLoop own fuel currentNbl { s with prepNbl := some x }

/-- The chain without the NBLs that the filter has created, which are freed. -/
def dropOwnerNBL (fuel : ℕ) (f : LcxlFilter) (h : NblHeap) (netBufferLists : Option NblPtr) :
    DropOwner :=
  dropOwnerLoop (fun x => h.sourceHandle x == f.filterHandle) fuel netBufferLists
    ⟨h.next, netBufferLists, none, []⟩

def filterSendNetBufferListsComplete (fuel : ℕ) (f : LcxlFilter) (h : NblHeap)
    (netBufferLists : Option NblPtr) (sendCompleteFlags : UInt32) : DataPath :=
  let s := start f h
  let s := if f.trackSends then s.addSends (-countNbls fuel h.next netBufferLists) else s
  let dropped := dropOwnerNBL fuel f h netBufferLists
  let s := s.setNext dropped.next
  if dropped.netBufferLists.isSome then
    s.call .sendComplete dropped.netBufferLists sendCompleteFlags
  else s

def filterReturnNetBufferLists (fuel : ℕ) (f : LcxlFilter) (h : NblHeap)
    (netBufferLists : Option NblPtr) (returnFlags : UInt32) : DataPath :=
  let s := start f h
  let numOfNetBufferLists := if f.trackReceives then countNbls fuel h.next netBufferLists else 0
  let dropped := dropOwnerNBL fuel f h netBufferLists
  let s := s.setNext dropped.next
  let s :=
    if dropped.netBufferLists.isSome then
      s.call .returnNetBufferLists dropped.netBufferLists returnFlags
    else s
  if f.trackReceives then s.addRcvs (-numOfNetBufferLists) else s

/-- A running module, the NBLs it has passed down that are not completed, and those it has
indicated up that are not returned. -/
structure Outstanding where
  filter : LcxlFilter
  down : List NblPtr
  up : List NblPtr

inductive CountEvent
  | send (call : SendCall)
  | sendComplete (chain : NblChain) (flags : UInt32)
  | receive (call : ReceiveCall)
  | returned (chain : NblChain) (flags : UInt32)
  /-- `requests` are the NBLs created for the frames sent. -/
  | tick (now : ℤ) (requests : List NblPtr)
  /-- Anything else, leaving the module as it is given here. -/
  | other (f : LcxlFilter)

/-- The module is at work as before, and its counters are as they were. -/
structure SameCounters (f f' : LcxlFilter) : Prop where
  state : f'.state = f.state
  trackSends : f'.trackSends = f.trackSends
  trackReceives : f'.trackReceives = f.trackReceives
  sends : f'.outstandingSends = f.outstandingSends
  rcvs : f'.outstandingRcvs = f.outstandingRcvs

namespace Outstanding

def exec (cfg : LcxlSetting) (s : Outstanding) : CountEvent → Outstanding
  | .send call =>
    let sent := call.result cfg s.filter
    ⟨sent.filter, s.down ++ sent.nbls NdisRoutine.isSend, s.up ++ sent.nbls NdisRoutine.isIndicate⟩
  | .sendComplete chain flags =>
    { s with
      filter := (filterSendNetBufferListsComplete chain.nbls.length s.filter chain.heap
        chain.netBufferLists flags).filter
      down := s.down.diff chain.nbls }
  | .receive call =>
    let received := call.result cfg s.filter
    ⟨received.filter, s.down ++ received.nbls NdisRoutine.isSend,
      s.up ++ received.nbls NdisRoutine.isIndicate⟩
  | .returned chain flags =>
    { s with
      filter := (filterReturnNetBufferLists chain.nbls.length s.filter chain.heap
        chain.netBufferLists flags).filter
      up := s.up.diff chain.nbls }
  | .tick now requests =>
    { s with filter := (workerTick cfg s.filter now).1, down := s.down ++ requests }
  | .other f => { s with filter := f }

/-- NDIS completes and returns what was passed on, each NBL once. The calls to receive may pend. -/
def NdisContract (cfg : LcxlSetting) (s : Outstanding) : CountEvent → Prop
  | .send _ => True
  | .sendComplete chain _ => chain.nbls.Subperm s.down
  | .receive call => cannotPend call.receiveFlags = false
  | .returned chain _ => chain.nbls.Subperm s.up
  | .tick now requests => requests.length = (workerTick cfg s.filter now).2.length
  | .other f => SameCounters s.filter f

/-- The counters are the numbers of NBLs outstanding. -/
structure Exact (s : Outstanding) : Prop where
  sends : s.filter.outstandingSends.toNat = s.down.length
  rcvs : s.filter.outstandingRcvs.toNat = s.up.length

/-- No counter is less than what is taken off it. -/
def NoWrap (s : Outstanding) : CountEvent → Prop
  | .sendComplete chain _ =>
    countNbls chain.nbls.length chain.heap.next chain.netBufferLists ≤ s.filter.outstandingSends
  | .returned chain _ =>
    countNbls chain.nbls.length chain.heap.next chain.netBufferLists ≤ s.filter.outstandingRcvs
  | _ => True

/-- The step wraps no counter below zero, and leaves both exact. -/
def Counts (cfg : LcxlSetting) (s : Outstanding) (e : CountEvent) : Prop :=
  s.NoWrap e ∧ (s.exec cfg e).Exact

/-- The NBLs outstanding and those of the call are fewer than a counter can count. -/
def Room (s : Outstanding) : CountEvent → Prop
  | .send call => s.down.length + call.nbls.length < 2 ^ 32
  | .receive call => s.up.length + call.nbls.length < 2 ^ 32
  | _ => True

/-- Every NBL counted goes on, and none goes on that is not counted: no frame sent is dropped, and
none received is dropped, routed or a request, of neighbour advertisements no more than one is
passed on changed, and no server is due to be checked when the worker thread ticks. -/
def AllGoOn (cfg : LcxlSetting) (s : Outstanding) : CountEvent → Prop
  | .send call => .drop ∉ (sendVerdict cfg call.amb call.heap).codes s.filter call.nbls
  | .receive call =>
    let codes := (receiveVerdict cfg call.amb call.heap).codes s.filter call.nbls
    .drop ∉ codes ∧ .router ∉ codes ∧ .checkingNbl ∉ codes ∧ codes.count .icmpv6Na ≤ 1
  | .tick now _ => ¬ s.filter.Due cfg now
  | _ => True

/-- A running module that tracks both ways, with nothing outstanding. -/
structure Idle (s : Outstanding) : Prop where
  running : s.filter.state = .running
  trackSends : s.filter.trackSends
  trackReceives : s.filter.trackReceives
  sends : s.filter.outstandingSends = 0
  rcvs : s.filter.outstandingRcvs = 0
  down : s.down = []
  up : s.up = []

end Outstanding

namespace Sample

/-- The router with a server, tracking both ways. -/
def idle : Outstanding :=
  ⟨{ router.exec setting addServer with trackSends := true, trackReceives := true }, [], []⟩

/-- A packet to the virtual address is received, and the NBL with which it was forwarded is
completed. -/
def forwarded : List CountEvent :=
  [.receive (receive (tcpFrame thSyn)), .sendComplete (single 1 (tcpFrame thSyn)) 0]

end Sample

end LcxlNetLoader
