import LcxlNetLoader.Module

/-!
# Headers that fit

How far into a frame the handlers read, against what the frame's one length check has made sure
of. `HeadersFit` is the condition under which nothing is read past the frame's end.
-/

namespace LcxlNetLoader

/-- Where the addresses of an ARP header end that gives their lengths as `h` and `p`, of which the
last that is copied is copied to the size of its field at most. -/
def arpExtent (h p : ℕ) : ℕ :=
  if p = 0 then sizeofArpHeader + h + min 32 h else sizeofArpHeader + 2 * h + p + min 4 p

/-- `th_flags` is the byte at offset 13 of a TCP header. -/
def tcpFlagsEnd : ℕ := 14

/-- A server has the source of the frame as its MAC address. -/
def knownSource (f : LcxlFilter) (fr : Frame) : Bool :=
  (findServer (fun _ => false) (lockServerList f.module.serverList)
    ⟨6, (Bytes.zero 32).move (fr.slice 6 6)⟩).isSome

/-- Where a header names the protocol above. -/
def protocolOffset (ipMode : IpMode) : ℕ :=
  match ipMode with
  | .ipv4 => 9
  | .ipv6 => 6

/-- The frame is a TCP packet that the router looks a route up for. -/
structure LooksUpRoute (f : LcxlFilter) (isRecv : Bool) (fr : Frame) (ipMode : IpMode)
    (data : ℕ) : Prop where
  role : f.module.lcxlRole = roleRouter
  recv : isRecv
  protocol : fr.byte (data + protocolOffset ipMode) = 0x06
  mac : fr.slice 0 6 = f.module.macAddr.mac ∨ fr.slice 0 6 = anycastMacAddr
  destination : fr.slice (data + (sourceAddress ipMode).1 + (sourceAddress ipMode).2)
    (sourceAddress ipMode).2 = f.module.virtualAddr.virtualIp ipMode

/-- What the handler of a frame goes on to read lies in the frame, its data of the given type
being `len` bytes from `data` on. -/
structure HeadersFit (cfg : LcxlSetting) (f : LcxlFilter) (isRecv : Bool) (fr : Frame)
    (ethernetType : UInt16) (data len : ℕ) : Prop where
  /-- A response is copied from the padded header, which is longer than what was checked. -/
  checking : ethernetType = ethernetTypeLcxlChecking → sizeofLcxlCheckingHeader ≤ len → isRecv →
    f.module.lcxlRole = roleRouter → knownSource f fr →
    u16OfBytes (fr.byte 16) (fr.byte 17) = checkingCodeResponse →
    sizeofEthernetLcxlChecking ≤ fr.dataLength
  /-- The lengths of the addresses are the packet's own. -/
  arp : ethernetType = ethernetTypeArp → sizeofArpHeader ≤ len →
    f.module.virtualAddr.enabled .ipv4 →
    arpExtent (fr.byte (data + 4)).toNat (fr.byte (data + 5)).toNat ≤ len
  /-- The length of the header is the packet's own. -/
  ipv4 : ethernetType = ethernetTypeIpv4 → sizeofIpv4Header ≤ len →
    f.module.virtualAddr.enabled .ipv4 → LooksUpRoute f isRecv fr .ipv4 data →
    (fr.byte data &&& 0x0F).toNat * 4 + tcpFlagsEnd ≤ len
  ipv6 : ethernetType = ethernetTypeIpv6 → sizeofIpv6Header ≤ len →
    f.module.virtualAddr.enabled .ipv6 → LooksUpRoute f isRecv fr .ipv6 data →
    sizeofIpv6Header + tcpFlagsEnd ≤ len
  /-- A server reads the type, and a checked build prints the first four bytes. -/
  icmpv6 : ethernetType = ethernetTypeIpv6 → sizeofIpv6Header ≤ len →
    f.module.virtualAddr.enabled .ipv6 → fr.byte (data + 6) = 0x3A →
    (f.module.lcxlRole = roleServer → sizeofIpv6Header + 1 ≤ len)
      ∧ (cfg.dbg → sizeofIpv6Header + 4 ≤ len)

/-- A frame with data has headers that fit. -/
def Frame.Fits (cfg : LcxlSetting) (f : LcxlFilter) (isRecv : Bool) (fr : Frame) : Prop :=
  ∀ ethernetType data len, (getEthernetData fr.dataLength).val fr.byte
    = some (ethernetType, data, len) → HeadersFit cfg f isRecv fr ethernetType data len

end LcxlNetLoader
