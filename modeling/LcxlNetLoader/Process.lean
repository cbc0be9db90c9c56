import LcxlNetLoader.Filter

/-!
# What becomes of a frame

`ProcessNBL` and the protocol handlers under it. A header is given by its offset in the frame, and
`RtlCompareMemory` of a whole field is an equality of its bytes.
-/

namespace LcxlNetLoader

inductive ProcessNblResultCode
  | pass
  | drop
  | modify
  | router
  | icmpv6Ns
  | icmpv6Na
  | checkingNbl
deriving DecidableEq

/-- `PROCESS_NBL_RESULT`, its union taken apart. -/
structure ProcessNblResult where
  code : ProcessNblResultCode
  route : Option RoutePtr
  modifyip : LcxlIp
deriving DecidableEq

/-- `RtlZeroMemory` of a result. -/
def ProcessNblResult.zero : ProcessNblResult := ⟨.pass, none, ⟨none, []⟩⟩

/-- What is around while a frame is processed: the clock at its first and second reading, what the
stack held where `ProcessARP` puts its local header, and what lies past a buffer just allocated. -/
structure Ambient where
  now : ℤ
  later : ℤ
  stack : LcxlArpEthernet
  heap : ℕ → UInt8

def anycastMacAddr : List UInt8 := [0xFF, 0xFF, 0xFF, 0xFF, 0xFF, 0xFF]

/-- A received frame is to the module or to all, a sent one from the module or from all. -/
def checkTCPNBLMacAddr (macAddr : IfPhysicalAddress) (isRecv : Bool) : FrameRead Bool := do
  let address ← ReadLog.readRange (if isRecv then 0 else 6) 6
  pure (address == macAddr.mac || address == anycastMacAddr)

/-- The router's side of a checking frame received at time `now`: the server of that address is
up, and is not being checked any more. -/
def serverResponded (t : ServerTable) (mac : List UInt8) (now : ℤ) :
    ServerTable × Option ServerPtr :=
  let macAddr : IfPhysicalAddress := ⟨6, (Bytes.zero 32).move mac⟩
  match findServer (fun _ => false) t macAddr with
  | none => (t, none)
  | some p =>
    (t.modify p fun s => { s with
      timestamp := now
      info := { s.info with status := (s.info.status ||| ssOnline) &&& ~~~ssChecking } }, some p)

/-- A response updates the server's performance as well. -/
def updatePerformance (t : ServerTable) (p : ServerPtr) : FrameRead ServerTable := do
  let code ← readU16 16
  if code = checkingCodeResponse then
    let bytes ← ReadLog.readRange 24 40
    pure (t.modify p fun s => { s with performance := s.performance.move bytes })
  else pure t

def processCheckingNBL (f : LcxlFilter) (isRecv : Bool) (amb : Ambient)
    (result : ProcessNblResult) : FrameRead (LcxlFilter × ProcessNblResult) :=
  if isRecv then do
    let code ← readU16 16
    let result :=
      if code = checkingCodeRequest then { result with code := .checkingNbl } else result
    if f.module.lcxlRole = roleRouter then do
      let mac ← ReadLog.readRange 6 6
      let found := serverResponded (lockServerList f.module.serverList) mac amb.now
      match found.2 with
      | none => pure (f.setServers (unlockServerList found.1), result)
      | some p => do
        let t ← updatePerformance found.1 p
        pure (f.setServers (unlockServerList t), result)
    else pure (f, result)
  else pure (f, result)

def arpRequest : UInt16 := 1
def arpResponse : UInt16 := 2

def processARP (f : LcxlFilter) (arpHeader : ℕ) (virtualAddr : LcxlAddrInfo) (amb : Ambient)
    (result : ProcessNblResult) : FrameRead ProcessNblResult := do
  let arp ← lcxlReadARPEthernet arpHeader amb.stack
  -- The tests are the same for a frame sent and a frame received.
  if arp.protocolAddressSpace ≠ ethernetTypeIpv4 then pure result
  else if f.module.lcxlRole = roleServer then
    if arp.opcode = arpRequest then
      if arp.targetProtocolAddress = virtualAddr.ipv4
          ∨ arp.senderProtocolAddress = virtualAddr.ipv4 then
        pure { result with code := .drop }
      else pure result
    else if arp.opcode = arpResponse then
      if arp.senderProtocolAddress = virtualAddr.ipv4 then pure { result with code := .drop }
      else pure result
    else pure result
  else pure result

/-- The solicited-node multicast address of an IPv6 address, as `ProcessICMPv6` makes it: its
word 6 is `ntohs(0xFF00 | ntohs(Word[6]))`, of bytes `0xFF | Byte[12]` and `Byte[13]`. -/
def solicitedNodeMulticastAddress (ipv6 : Bytes 16) : List UInt8 :=
  [0xFF, 0x02, 0, 0, 0, 0, 0, 0, 0, 0, 0, 1, 0xFF ||| ipv6.toList.getD 12 0]
    ++ (ipv6.toList.drop 13)

/-- A neighbour solicitation, which a router solicitation falls through to. -/
def processSolicit (isRecv : Bool) (virtualAddr : LcxlAddrInfo) (source destination : List UInt8)
    (result : ProcessNblResult) : ProcessNblResult :=
  if destination = solicitedNodeMulticastAddress virtualAddr.ipv6
      ∨ destination = virtualAddr.ipv6.toList then
    { result with code := .drop }
  else if ¬ isRecv ∧ source = virtualAddr.ipv6.toList then { result with code := .icmpv6Ns }
  else result

def processICMPv6 (cfg : LcxlSetting) (f : LcxlFilter) (isRecv : Bool) (ipHeader : ℕ)
    (virtualAddr : LcxlAddrInfo) (result : ProcessNblResult) : FrameRead ProcessNblResult := do
  -- `KdPrint` of the type, the code and the checksum.
  if cfg.dbg then let _ ← ReadLog.readRange (ipHeader + sizeofIpv6Header) 4
  if f.module.lcxlRole = roleServer then
    let type ← ReadLog.read (ipHeader + sizeofIpv6Header)
    let source ← ReadLog.readRange (ipHeader + 8) 16
    let destination ← ReadLog.readRange (ipHeader + 24) 16
    let virtualIp := virtualAddr.ipv6.toList
    if type = 133 then
      let result :=
        if source = virtualIp ∧ ¬ isRecv then { result with code := .drop } else result
      pure (processSolicit isRecv virtualAddr source destination result)
    else if type = 135 then pure (processSolicit isRecv virtualAddr source destination result)
    else if type = 136 then
      if source = virtualIp then pure { result with code := .drop }
      else if destination = virtualIp ∧ isRecv then pure { result with code := .icmpv6Na }
      else pure result
    else pure result
  else pure result

/-- Where a header has its source address, and how long an address is; the destination comes
right after. -/
def sourceAddress (ipMode : IpMode) : ℕ × ℕ :=
  match ipMode with
  | .ipv4 => (12, 4)
  | .ipv6 => (8, 16)

def LcxlAddrInfo.virtualIp (a : LcxlAddrInfo) (ipMode : IpMode) : List UInt8 :=
  match ipMode with
  | .ipv4 => a.ipv4.toList
  | .ipv6 => a.ipv6.toList

/-- `Ip4HeaderLengthInBytes`, or the size of the IPv6 header. -/
def ipHeaderLength (ipMode : IpMode) (ipHeader : ℕ) : FrameRead ℕ :=
  match ipMode with
  | .ipv4 => do
    let b ← ReadLog.read ipHeader
    pure ((b &&& 0x0F).toNat * 4)
  | .ipv6 => pure sizeofIpv6Header

/-- What routing reads of the packet at `ipHeader`. The flags are read of every packet, and lie
past the ports, which are read of some. -/
def readTcpPacket (ipMode : IpMode) (ipHeader : ℕ) : FrameRead TcpPacket := do
  let (source, len) := sourceAddress ipMode
  let tcpHeader := ipHeader + (← ipHeaderLength ipMode ipHeader)
  let srcAddr ← ReadLog.readRange (ipHeader + source) len
  let dstAddr ← ReadLog.readRange (ipHeader + source + len) len
  let thSport ← readU16 tcpHeader
  let thDport ← readU16 (tcpHeader + 2)
  let thFlags ← ReadLog.read (tcpHeader + 13)
  pure { ipMode, srcAddr, dstAddr, thSport, thDport, thFlags }

def processTCP (cfg : LcxlSetting) (f : LcxlFilter) (isRecv : Bool) (ipHeader : ℕ) (ipMode : IpMode)
    (virtualAddr : LcxlAddrInfo) (amb : Ambient) (result : ProcessNblResult) :
    FrameRead (LcxlFilter × ProcessNblResult) := do
  let (source, len) := sourceAddress ipMode
  if f.module.lcxlRole = roleRouter then
    if isRecv then
      let destination ← ReadLog.readRange (ipHeader + source + len) len
      if destination = virtualAddr.virtualIp ipMode then
        let pkt ← readTcpPacket ipMode ipHeader
        let routed := routeTCPNBL cfg f pkt amb.now amb.later
        let result := { result with route := routed.2 }
        pure (routed.1, if routed.2.isSome then { result with code := .router } else result)
      else pure (f, result)
    else pure (f, result)
  else if f.module.lcxlRole = roleServer then
    if isRecv then pure (f, result)
    else
      let address ← ReadLog.readRange (ipHeader + source) len
      if address = virtualAddr.virtualIp ipMode then
        let destination ← ReadLog.readRange (ipHeader + source + len) len
        pure (f, { result with code := .modify, modifyip := ⟨some ipMode, destination⟩ })
      else pure (f, result)
  else pure (f, result)

def processUDP (f : LcxlFilter) (isRecv : Bool) (ipHeader : ℕ) (ipMode : IpMode)
    (virtualAddr : LcxlAddrInfo) (result : ProcessNblResult) : FrameRead ProcessNblResult := do
  let (source, len) := sourceAddress ipMode
  if f.module.lcxlRole = roleServer then
    let address ← ReadLog.readRange (ipHeader + source + if isRecv then len else 0) len
    if address = virtualAddr.virtualIp ipMode then pure { result with code := .drop }
    else pure result
  else pure result

/-- A TCP packet, dropped when its MAC address is not the module's. -/
def processTCPFrame (cfg : LcxlSetting) (f : LcxlFilter) (isRecv : Bool) (ipHeader : ℕ)
    (ipMode : IpMode) (virtualAddr : LcxlAddrInfo) (amb : Ambient) (result : ProcessNblResult) :
    FrameRead (LcxlFilter × ProcessNblResult) := do
  if ← checkTCPNBLMacAddr f.module.macAddr isRecv then
    processTCP cfg f isRecv ipHeader ipMode virtualAddr amb result
  else pure (f, { result with code := .drop })

/-- The frame's effect on the filter, and its result. -/
def processNBL (cfg : LcxlSetting) (f : LcxlFilter) (isRecv : Bool) (dataLength : ℕ)
    (amb : Ambient) : FrameRead (LcxlFilter × ProcessNblResult) := do
  let result := ProcessNblResult.zero
  match ← getEthernetData dataLength with
  | none => pure (f, result)
  | some (ethernetType, data, dataLength) =>
    let virtualAddr := f.module.virtualAddr
    if ethernetType = ethernetTypeLcxlChecking then
      if dataLength ≥ sizeofLcxlCheckingHeader then processCheckingNBL f isRecv amb result
      else pure (f, result)
    else if ethernetType = ethernetTypeArp then
      if dataLength ≥ sizeofArpHeader ∧ has virtualAddr.status saEnableIpv4 then
        let result ← processARP f data virtualAddr amb result
        pure (f, result)
      else pure (f, result)
    else if ethernetType = ethernetTypeIpv4 then
      if dataLength ≥ sizeofIpv4Header ∧ has virtualAddr.status saEnableIpv4 then
        let protocol ← ReadLog.read (data + 9)
        if protocol = 0x06 then processTCPFrame cfg f isRecv data .ipv4 virtualAddr amb result
        else pure (f, result)
      else pure (f, result)
    else if ethernetType = ethernetTypeIpv6 then
      if dataLength ≥ sizeofIpv6Header ∧ has virtualAddr.status saEnableIpv6 then
        let nextHeader ← ReadLog.read (data + 6)
        if nextHeader = 0x3A then
          let result ← processICMPv6 cfg f isRecv data virtualAddr result
          pure (f, result)
        else if nextHeader = 0x06 then
          processTCPFrame cfg f isRecv data .ipv6 virtualAddr amb result
        else if nextHeader = 0x11 then
          let result ← processUDP f isRecv data .ipv6 virtualAddr result
          pure (f, result)
        else pure (f, result)
      else pure (f, result)
    else pure (f, result)

end LcxlNetLoader
