import LcxlNetLoader.Lib.ReadLog
import LcxlNetLoader.Types

/-!
# Frames and their headers

A received frame is read through `ReadLog`, so what a handler reads of it is known; an offset is
the pointer into the frame less the frame's start. Frames the driver builds are written directly.
-/

namespace LcxlNetLoader

/-- A frame's bytes, those past its `dataLength` being whatever lies there. -/
structure Frame where
  byte : ℕ → UInt8
  dataLength : ℕ

abbrev FrameRead := ReadLog ℕ UInt8

namespace Frame

def slice (fr : Frame) (off n : ℕ) : List UInt8 := (List.range n).map fun i => fr.byte (off + i)

/-- `NdisMoveMemory` of `bs` to the offset. -/
def write (fr : Frame) (off : ℕ) (bs : List UInt8) : Frame :=
  { fr with byte := fun i => if off ≤ i then bs.getD (i - off) (fr.byte i) else fr.byte i }

/-- `FILTER_ALLOC_MEM` and `RtlZeroMemory`. -/
def zero (dataLength : ℕ) : Frame := ⟨fun _ => 0, dataLength⟩

end Frame

/-- `NdisMoveMemory` of `src` to the start of a field. -/
def Bytes.move {n : ℕ} (dst : Bytes n) (src : List UInt8) : Bytes n :=
  ⟨(src ++ dst.toList.drop src.length).take n, by simp; omega⟩

def ntohs (a : UInt16) : UInt16 := (a &&& 0xff) <<< 8 ||| (a &&& 0xff00) >>> 8

/-- The two bytes of a `USHORT` in memory. -/
def u16Bytes (a : UInt16) : List UInt8 := [a.toUInt8, (a >>> 8).toUInt8]

def u16OfBytes (lo hi : UInt8) : UInt16 := lo.toUInt16 ||| hi.toUInt16 <<< 8

def readU16 (off : ℕ) : FrameRead UInt16 := do
  let lo ← ReadLog.read off
  let hi ← ReadLog.read (off + 1)
  pure (u16OfBytes lo hi)

@[simp] theorem within_readU16 {N off : ℕ} {mem : ℕ → UInt8} :
    (readU16 off).Within (· < N) mem ↔ off + 2 ≤ N := by
  simp only [readU16, ReadLog.within_bind, ReadLog.within_read, ReadLog.within_pure, and_true]
  omega

def ethernetTypeIpv4 : UInt16 := 0x0800
def ethernetTypeArp : UInt16 := 0x0806
def ethernetType8021q : UInt16 := 0x8100
def ethernetTypeIpv6 : UInt16 := 0x86dd
def ethernetTypeLcxlChecking : UInt16 := 0xF0F0

@[simp] def sizeofEthernetHeader : ℕ := 14
@[simp] def sizeofArpHeader : ℕ := 8
@[simp] def sizeofIpv4Header : ℕ := 20
@[simp] def sizeofIpv6Header : ℕ := 40

/-- The type, and where the data begins and how long it is. -/
def getEthernetData (bufferLength : ℕ) : FrameRead (Option (UInt16 × ℕ × ℕ)) :=
  if bufferLength < sizeofEthernetHeader then pure none
  else do
    let ethernetType := ntohs (← readU16 12)
    if ethernetType = ethernetType8021q then
      if bufferLength ≥ sizeofEthernetHeader + 4 then do
        let ethernetType := ntohs (← readU16 16)
        let data := sizeofEthernetHeader + 4
        pure (some (ethernetType, data, bufferLength - data))
      else pure none
    else
      let data := sizeofEthernetHeader
      pure (some (ethernetType, data, bufferLength - data))

/-- `LCXL_ARP_ETHERNET`. -/
structure LcxlArpEthernet where
  hardwareAddressSpace : UInt16
  protocolAddressSpace : UInt16
  opcode : UInt16
  senderHardwareAddress : IfPhysicalAddress
  senderProtocolAddress : Bytes 4
  targetHardwareAddress : IfPhysicalAddress
  targetProtocolAddress : Bytes 4

/-- The header at `arpHeader` is read over `old`, of which an address shorter than its field
leaves the rest. -/
def lcxlReadARPEthernet (arpHeader : ℕ) (old : LcxlArpEthernet) : FrameRead LcxlArpEthernet := do
  let hardwareAddressSpace := ntohs (← readU16 arpHeader)
  let protocolAddressSpace := ntohs (← readU16 (arpHeader + 2))
  let opcode := ntohs (← readU16 (arpHeader + 6))
  let hardwareAddressLength := (← ReadLog.read (arpHeader + 4)).toNat
  let protocolAddressLength := (← ReadLog.read (arpHeader + 5)).toNat
  let address := arpHeader + sizeofArpHeader
  let hardwareLength := min 32 hardwareAddressLength
  let protocolLength := min 4 protocolAddressLength
  let senderHardware ← ReadLog.readRange address hardwareLength
  let senderProtocol ← ReadLog.readRange (address + hardwareAddressLength) protocolLength
  let targetHardware ←
    ReadLog.readRange (address + hardwareAddressLength + protocolAddressLength) hardwareLength
  let targetProtocol ← ReadLog.readRange
    (address + hardwareAddressLength + protocolAddressLength + hardwareAddressLength)
    protocolLength
  pure
    { hardwareAddressSpace, protocolAddressSpace, opcode
      senderHardwareAddress :=
        ⟨hardwareLength, old.senderHardwareAddress.address.move senderHardware⟩
      senderProtocolAddress := old.senderProtocolAddress.move senderProtocol
      targetHardwareAddress :=
        ⟨hardwareLength, old.targetHardwareAddress.address.move targetHardware⟩
      targetProtocolAddress := old.targetProtocolAddress.move targetProtocol }

def calcSum (sum : UInt16) : List UInt8 → UInt16
  | [] => sum
  | [a] => add sum (a.toUInt16 <<< 8)
  | a :: b :: data => calcSum (add sum (a.toUInt16 <<< 8 + b.toUInt16)) data
where
  /-- Addition with the carry brought round. -/
  add (sum t : UInt16) : UInt16 := if sum + t < t then sum + t + 1 else sum + t

/-- The checksum over the pseudoheader and payload of the IPv6 header at `hdr`. -/
def calcUpperLayerChksum (fr : Frame) (hdr : ℕ) (proto : UInt8) : UInt16 :=
  let upperLayerLen := ntohs (u16OfBytes (fr.byte (hdr + 4)) (fr.byte (hdr + 5)))
  let sum := upperLayerLen + proto.toUInt16
  let sum := calcSum sum (fr.slice (hdr + 8) 32)
  let sum := calcSum sum (fr.slice (hdr + sizeofIpv6Header) upperLayerLen.toNat)
  0xffff - sum

def ipProtoIcmp6 : UInt8 := 58

/-- The frame with its checksum field cleared, and the checksum. -/
def calcIcmpChksum (fr : Frame) (hdr : ℕ) : Frame × UInt16 :=
  let fr := fr.write (hdr + sizeofIpv6Header + 2) [0, 0]
  (fr, calcUpperLayerChksum fr hdr ipProtoIcmp6)

end LcxlNetLoader
