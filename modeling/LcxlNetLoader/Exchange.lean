import LcxlNetLoader.DataPath
import LcxlNetLoader.Packets

/-!
# The exchange of checking frames

Modules and the checking frames between them. A frame may be lost, be doubled or reach any of the
modules, in any order, and in a chain with others. Between two deliveries a module's worker thread
ticks, or anything else may happen to it.
-/

namespace LcxlNetLoader

/-- A frame that `CreateCheckingNBL` builds. -/
def Frame.IsChecking (fr : Frame) : Prop :=
  ∃ (macAddr : IfPhysicalAddress) (destMac : Bytes 6) (code : UInt16)
    (performance : LcxlServerPerformance),
    fr = createCheckingNBL macAddr.mac destMac.toList code performance

namespace ReceiveCall

/-- The NBLs hold these frames. -/
def Brings (c : ReceiveCall) (frs : List Frame) : Prop := c.nbls.map c.heap.frame = frs.map some

/-- The frames, and when each is received. -/
def heard (c : ReceiveCall) (frs : List Frame) : List (ℤ × Checking) :=
  List.zipWith (fun x fr => ((c.amb x).now, fr.checking)) c.nbls frs

end ReceiveCall

/-- What receiving checking frames one after the other leaves of the servers. -/
def LcxlFilter.hearAll (f : LcxlFilter) (cs : List (ℤ × Checking)) : LcxlFilter :=
  cs.foldl (fun f c => f.hear c.1 c.2) f

/-- The answer to a request. -/
def LcxlFilter.response (f : LcxlFilter) (c : Checking) : Frame :=
  createCheckingNBL f.module.macAddr.mac c.source checkingCodeResponse f.module.performance

def Frame.isRequest (fr : Frame) : Bool := fr.checking.code == checkingCodeRequest

/-- Modules, and the checking frames on their way. -/
structure Wire (ι : Type*) where
  filter : ι → LcxlFilter
  flight : List Frame
  /-- The requests that have reached a running module. -/
  asked : ℕ
  /-- The frames that deliveries have made modules send. -/
  answered : ℕ

inductive WireEvent (ι : Type*)
  | create (i : ι) (destMac : Bytes 6) (code : UInt16) (performance : LcxlServerPerformance)
  | tick (i : ι) (now : ℤ)
  /-- Some frames reach a module, and the rest stay on the wire. -/
  | deliver (i : ι) (call : ReceiveCall) (frs rest : List Frame)
  | duplicate (fr : Frame)
  | lose (fr : Frame) (rest : List Frame)
  /-- Anything else, leaving a module as it is given here. -/
  | other (i : ι) (f : LcxlFilter)

namespace Wire

variable {ι : Type*} [DecidableEq ι]

def exec (cfg : LcxlSetting) (w : Wire ι) : WireEvent ι → Wire ι
  | .create i destMac code performance => { w with
      flight := createCheckingNBL (w.filter i).module.macAddr.mac destMac.toList code performance
        :: w.flight }
  | .tick i now =>
    let ticked := workerTick cfg (w.filter i) now
    { w with filter := Function.update w.filter i ticked.1, flight := ticked.2 ++ w.flight }
  | .deliver i call frs rest =>
    let received := call.result cfg (w.filter i)
    { filter := Function.update w.filter i received.filter
      flight := received.sentFrames ++ rest
      asked := w.asked +
        if (w.filter i).state = .running then frs.countP Frame.isRequest else 0
      answered := w.answered + received.sentFrames.length }
  | .duplicate fr => { w with flight := fr :: w.flight }
  | .lose _ rest => { w with flight := rest }
  | .other i f => { w with filter := Function.update w.filter i f }

/-- What is delivered, doubled or lost is on the wire. -/
def Enabled (w : Wire ι) : WireEvent ι → Prop
  | .deliver _ call frs rest => call.Brings frs ∧ w.flight.Perm (frs ++ rest)
  | .duplicate fr => fr ∈ w.flight
  | .lose fr rest => w.flight.Perm (fr :: rest)
  | _ => True

abbrev Step (cfg : LcxlSetting) : Wire ι → WireEvent ι → Wire ι → Prop :=
  Sys.Guarded Enabled (exec cfg)

/-- No frame is on its way yet. -/
def start (filter : ι → LcxlFilter) : Wire ι := ⟨filter, [], 0, 0⟩

end Wire

/-- What the call does to a running module to which it brings checking frames: the module hears
them all, and answers each request once. -/
structure AnswersChecking (cfg : LcxlSetting) (f : LcxlFilter) (call : ReceiveCall)
    (frs : List Frame) : Prop where
  sent : (call.result cfg f).sentFrames =
    (frs.filter Frame.isRequest).map fun fr => f.response fr.checking
  /-- Without a request nothing is sent at all. -/
  silent : (∀ fr ∈ frs, ¬ fr.isRequest) → ∀ c ∈ (call.result cfg f).calls, ¬ c.routine.isSend
  heard : (call.result cfg f).filter.module = (f.hearAll (call.heard frs)).module

/-- What hearing a frame does to a router's server of that address: it is up, not being checked,
and as a response says. No other server changes. -/
structure Heard (f : LcxlFilter) (now : ℤ) (c : Checking) (p : ServerPtr) : Prop where
  linked : p ∈ f.module.serverList.lst.list
  source : (f.module.serverList.mem p).info.macAddr.mac = c.source
  online : has ((f.hear now c).module.serverList.mem p).info.status ssOnline
  checking : ¬ has ((f.hear now c).module.serverList.mem p).info.status ssChecking
  performance : c.code = checkingCodeResponse →
    ((f.hear now c).module.serverList.mem p).performance.toList = c.performance
  others : ∀ q, q ≠ p → (f.hear now c).module.serverList.mem q = f.module.serverList.mem q

end LcxlNetLoader
