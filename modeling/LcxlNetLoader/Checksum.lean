import LcxlNetLoader.Lib.OnesComplement
import LcxlNetLoader.Net

/-!
# Checksums

`calc_sum` as it walks over a buffer, and what the checksums built on it are to be: the complement
of the one's complement sum of the pseudoheader and of the upper layer's packet, in 16-bit words.
-/

namespace LcxlNetLoader

/-- What `calc_sum` does from `dataptr` on. An empty buffer has its last byte in front of it. -/
def calcSumLoop (lastByte : ℤ) (dataptr : ℕ) (sum : UInt16) : FrameRead UInt16 :=
  if (dataptr : ℤ) < lastByte then do
    let a ← ReadLog.read dataptr
    let b ← ReadLog.read (dataptr + 1)
    calcSumLoop lastByte (dataptr + 2) (calcSum.add sum (a.toUInt16 <<< 8 + b.toUInt16))
  else if (dataptr : ℤ) = lastByte then do
    let a ← ReadLog.read dataptr
    pure (calcSum.add sum (a.toUInt16 <<< 8 + 0))
  else pure sum
termination_by (lastByte - dataptr).toNat

def calcSumAt (sum : UInt16) (data : ℕ) (len : UInt16) : FrameRead UInt16 :=
  calcSumLoop (data + len.toNat - 1) data sum

/-- `calc_upper_layer_chksum`, as it reads the packet. -/
def calcUpperLayerChksumAt (hdr : ℕ) (proto : UInt8) : FrameRead UInt16 := do
  let upperLayerLen := ntohs (← readU16 (hdr + 4))
  let sum := upperLayerLen + proto.toUInt16
  let sum ← calcSumAt sum (hdr + 8) 32
  let sum ← calcSumAt sum (hdr + sizeofIpv6Header) upperLayerLen
  pure (0xffff - sum)

/-- The words of some bytes in network order, a last odd byte being followed by a zero. -/
def words : List UInt8 → List ℕ
  | [] => []
  | [a] => [256 * a.toNat]
  | a :: b :: data => (256 * a.toNat + b.toNat) :: words data

/-- The pseudoheader of a packet of an upper layer: the two addresses, the packet's length in four
bytes, and three zeros before the protocol. -/
def pseudoheader (addresses : List UInt8) (length : ℕ) (proto : UInt8) : List UInt8 :=
  addresses ++ [length / 2 ^ 24, length / 2 ^ 16, length / 2 ^ 8, length].map UInt8.ofNat
    ++ [0, 0, 0, proto]

namespace Frame

variable (fr : Frame) (hdr : ℕ)

def payloadLength : ℕ := (ntohs (u16OfBytes (fr.byte (hdr + 4)) (fr.byte (hdr + 5)))).toNat

/-- What follows the IPv6 header, as far as its `PayloadLength` says. -/
def ipv6Payload : List UInt8 := fr.slice (hdr + sizeofIpv6Header) (fr.payloadLength hdr)

/-- The one's complement sum that a receiver makes. -/
def upperLayerSum (proto : UInt8) : ℕ :=
  OnesComplement.sum 65535
    (words (pseudoheader (fr.slice (hdr + 8) 32) (fr.payloadLength hdr) proto
      ++ fr.ipv6Payload hdr))

/-- The checksum that the upper layer is to have. -/
def upperLayerChksum (proto : UInt8) : ℕ := 65535 - fr.upperLayerSum hdr proto

/-- The checksum of an ICMPv6 packet is calculated and stored. -/
def storeIcmpChksum : Frame :=
  let (fr, chksum) := calcIcmpChksum fr hdr
  fr.write (hdr + sizeofIpv6Header + 2) (u16Bytes (ntohs chksum))

end Frame

end LcxlNetLoader
