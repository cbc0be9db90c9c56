import LcxlNetLoader.Lib.Dispatcher
import LcxlNetLoader.Connections
import LcxlNetLoader.DataPath

/-!
# A router and the machines behind it

The router's module forwards the packets of the virtual address to the servers' MAC addresses, and
each machine there has a module of its own, which may hand a frame up to the stack or not. Between
them frames are lost, doubled and delivered in any order, but only to the machine of the address
they are sent to. The log has what each step does to the connections and the frames between them.
-/

namespace LcxlNetLoader

/-- What of a frame follows the two MAC addresses. -/
def Frame.payload (fr : Frame) : List UInt8 := fr.slice 12 (fr.dataLength - 12)

def Frame.destination (fr : Frame) : List UInt8 := fr.slice 0 6

/-- A connection goes to a MAC address. -/
abbrev ClusterAct := Dispatcher.Act ConnKey (List UInt8) (List UInt8)

def ConnEvent.isClosed : ConnEvent → Bool
  | .closed _ => true
  | _ => false

/-- The connection, and the MAC address it goes to then. -/
def ConnEvent.machine : ConnEvent → ConnKey × Option (List UInt8)
  | .selected key _ server => (key, some server.info.macAddr.mac)
  | .purged key => (key, none)
  | .closed key => (key, none)

def ConnEvent.act (e : ConnEvent) : ClusterAct := .change e.machine.1 e.machine.2

/-- What is sent on of a frame that a router receives. -/
def forwarded (cfg : LcxlSetting) (f : LcxlFilter) (fr : Frame) (amb : Ambient) :
    Option (ConnKey × Frame) :=
  match vipPacket f fr, (receiveFrame cfg f fr amb).2.2 with
  | some pkt, some (.send fr') => some (pkt.key, fr')
  | _, _ => none

/-- What a frame that a router receives does to connections. A route is deleted as closed after its
last packet has been sent on. -/
def receiveActs (cfg : LcxlSetting) (f : LcxlFilter) (fr : Frame) (amb : Ambient) :
    List ClusterAct :=
  let events := routeEvents cfg f fr amb
  (events.filter (!·.isClosed)).map (·.act)
    ++ (forwarded cfg f fr amb).toList.map (fun x => .forward x.1 x.2.payload)
    ++ (events.filter (·.isClosed)).map (·.act)

/-- The router's module, the machines' modules, the frames between them, and those that have been
handed to a machine's stack, the latest last. -/
structure Cluster (ι : Type*) where
  router : LcxlFilter
  machine : ι → LcxlFilter
  flight : List Frame
  stack : List (ι × Frame)
  log : List ClusterAct

inductive ClusterEvent (ι : Type*)
  | router (e : Event)
  /-- The frame reaches the machine, and the rest stay on their way. -/
  | deliver (i : ι) (fr : Frame) (amb : Ambient) (rest : List Frame)
  | double (fr : Frame)
  | lose (fr : Frame) (rest : List Frame)
  /-- Anything else, leaving a machine's module as it is given here. -/
  | other (i : ι) (f : LcxlFilter)

namespace Cluster

variable {ι : Type*} [DecidableEq ι]

def exec (cfg : LcxlSetting) (c : Cluster ι) : ClusterEvent ι → Cluster ι
  | .router (.recv fr amb) =>
    if c.router.state = .running then
      { c with
        router := (receiveFrame cfg c.router fr amb).1
        flight := ((forwarded cfg c.router fr amb).map (·.2)).toList ++ c.flight
        log := c.log ++ receiveActs cfg c.router fr amb }
    else c
  | .router e => { c with router := c.router.exec cfg e }
  | .deliver i fr amb rest =>
    let received := receiveFrame cfg (c.machine i) fr amb
    if (c.machine i).state = .running ∧ passesUp received.2.1 then
      { c with
        machine := Function.update c.machine i received.1
        flight := rest
        stack := c.stack ++ [(i, fr)]
        log := c.log ++ [.arrive fr.destination fr.payload] }
    else { c with
      machine := Function.update c.machine i
        (if (c.machine i).state = .running then received.1 else c.machine i)
      flight := rest
      log := c.log ++ [.lose fr.destination fr.payload] }
  | .double fr => { c with
      flight := fr :: c.flight
      log := c.log ++ [.double fr.destination fr.payload] }
  | .lose fr rest => { c with
      flight := rest
      log := c.log ++ [.lose fr.destination fr.payload] }
  | .other i f => { c with machine := Function.update c.machine i f }

/-- Of the router anything but its lists may change by itself, and a server is added by an address
of six bytes. A frame is delivered to the machine of its address, and a machine keeps that and is
no router. -/
def Proper (c : Cluster ι) : ClusterEvent ι → Prop
  | .router (.other f) => f.routeTable = c.router.routeTable
      ∧ f.module.serverList = c.router.module.serverList
  | .router (.addServer _ _ server) => server.macAddr.length = 6
  | .router _ => True
  | .deliver i fr _ rest => c.flight.Perm (fr :: rest)
      ∧ fr.destination = (c.machine i).module.macAddr.mac
  | .double fr => fr ∈ c.flight
  | .lose fr rest => c.flight.Perm (fr :: rest)
  | .other i f => f.module.macAddr = (c.machine i).module.macAddr
      ∧ f.module.lcxlRole ≠ roleRouter

abbrev Step (cfg : LcxlSetting) : Cluster ι → ClusterEvent ι → Cluster ι → Prop :=
  Sys.Guarded Proper (exec cfg)

/-- A router without servers and routes, before machines that are none. -/
def start (f : LcxlFilter) (machine : ι → LcxlFilter) : Cluster ι :=
  ⟨f.setRouting ⟨[], 0, []⟩ ⟨initLcxlList, f.module.serverList.mem, 0⟩, machine, [], [], []⟩

end Cluster

end LcxlNetLoader
