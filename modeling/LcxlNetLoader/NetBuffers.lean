import LcxlNetLoader.Lib.Scatter
import LcxlNetLoader.Bounds
import LcxlNetLoader.Connections
import LcxlNetLoader.NblMemory

/-!
# Net buffers

The data of an NBL lies in the buffers of several MDLs. `GetEthernetHeader` gives a pointer into the
first of them along with the length of it all, and a frame that is routed is copied from there.
-/

namespace LcxlNetLoader

/-- `NET_BUFFER`, from its current MDL on, in which the data begins. `mapped` is whether the system
can map that MDL. -/
structure NetBuffer where
  currentMdl : Mdl
  mapped : Bool
  next : List Mdl
  currentMdlOffset : ℕ
  dataLength : ℕ
  begins : currentMdlOffset < currentMdl.length
  fits : currentMdlOffset + dataLength ≤ currentMdl.length + (next.map (·.length)).sum

namespace NetBuffer

variable (nb : NetBuffer) (memory : ℕ → UInt8)

/-- The addresses of the data. -/
def data : List ℕ :=
  Scatter.window ((nb.currentMdl :: nb.next).map fun mdl => (mdl.virtualAddress, mdl.length))
    nb.currentMdlOffset nb.dataLength

/-- The frame that is the data. -/
def frame : Frame := ⟨fun i => memory (nb.data.getD i 0), nb.dataLength⟩

/-- Where the data begins. -/
def header : ℕ := nb.currentMdl.virtualAddress + nb.currentMdlOffset

/-- The header, and the length of the data. -/
def getEthernetHeader : Option ℕ × ℕ :=
  (if nb.mapped then some nb.header else none, nb.dataLength)

/-- The frame that the driver sees. -/
def seen : Frame := ⟨fun i => memory (nb.header + i), nb.dataLength⟩

def ethernetFrame : Option Frame :=
  nb.getEthernetHeader.1.map fun header =>
    ⟨fun i => memory (header + i), nb.getEthernetHeader.2⟩

/-- As far as the data is not in the current MDL, the memory behind that MDL is the data. A byte of
the source address is none that is looked at. -/
def Continues : Prop :=
  ∀ i, nb.currentMdl.length ≤ nb.currentMdlOffset + i → i < nb.dataLength →
    nb.header + i ∈ nb.data
      ∧ (i < 6 ∨ 12 ≤ i → memory (nb.header + i) = memory (nb.data.getD i 0))

end NetBuffer

namespace Frame

/-- What is read of a frame that is routed: what `ProcessNBL` reads, and all that is copied. -/
def routerReads (cfg : LcxlSetting) (f : LcxlFilter) (fr : Frame) (amb : Ambient) : List ℕ :=
  (processNBL cfg f true fr.dataLength amb).reads fr.byte ++ List.range fr.dataLength

/-- The frame has the header of its TCP packet up to the flags. -/
def TcpFits (fr : Frame) : Prop :=
  ∀ ethernetType data len m protocol size,
    (getEthernetData fr.dataLength).val fr.byte = some (ethernetType, data, len) →
    ipModeOf ethernetType = some (m, protocol, size) →
    (ipHeaderLength m data).val fr.byte + tcpFlagsEnd ≤ len

/-- The frame received, with the MAC addresses of one that goes on to `mac`. -/
structure Forwarded (mac : List UInt8) (received fr : Frame) : Prop where
  dataLength : fr.dataLength = received.dataLength
  destination : fr.slice 0 6 = mac
  source : fr.slice 6 6 = received.slice 0 6
  rest : ∀ i, 12 ≤ i → i < received.dataLength → fr.byte i = received.byte i

end Frame

/-- The result is a route, and the route is to the server. -/
def RoutesTo (cfg : LcxlSetting) (f : LcxlFilter) (fr : Frame) (amb : Ambient)
    (server : ServerPtr) : Prop :=
  ∃ p r, ((processNBL cfg f true fr.dataLength amb).val fr.byte).2.route = some p
    ∧ r ∈ ((processNBL cfg f true fr.dataLength amb).val fr.byte).1.routeTable.list
    ∧ r.self = p ∧ r.dstServer = some server

/-- A chain of NBLs that is received, with their net buffers. -/
structure BufferedCall extends ReceiveCall where
  memory : ℕ → UInt8
  netBuffer : NblPtr → NetBuffer
  frames : ∀ x ∈ nbls, heap.frame x = (netBuffer x).ethernetFrame memory

namespace BufferedCall

variable (c : BufferedCall) (cfg : LcxlSetting) (f : LcxlFilter)

/-- The filter after the NBLs. -/
def after (before : List NblPtr) : LcxlFilter :=
  (receiveVerdict cfg c.amb c.heap).after f before

/-- The frames sent for the NBLs. -/
def sentFor (xs : List NblPtr) : List Frame :=
  ((receiveVerdict cfg c.amb c.heap).owns (receiveOwn cfg c.amb c.heap) f xs).filterMap OwnNbl.sent

/-- The NBL behind `before` is forwarded as its net buffer has it, and nothing is read that is not
the net buffer's. -/
structure Forwards (before : List NblPtr) (x : NblPtr) (behind : List NblPtr) : Prop where
  sent : ∃ server fr,
    RoutesTo cfg (c.after cfg f before) ((c.netBuffer x).seen c.memory) (c.amb x) server
      ∧ (c.result cfg f).sentFrames = c.sentFor cfg f before
        ++ fr :: c.sentFor cfg (c.after cfg f (before ++ [x])) behind
      ∧ ((c.netBuffer x).frame c.memory).Forwarded
        ((c.after cfg f before).module.serverList.mem server).info.macAddr.mac fr
  reads : ∀ i ∈ ((c.netBuffer x).seen c.memory).routerReads cfg (c.after cfg f before) (c.amb x),
    (c.netBuffer x).header + i ∈ (c.netBuffer x).data

end BufferedCall

end LcxlNetLoader
