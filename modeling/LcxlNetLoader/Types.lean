import Mathlib.Tactic
import Mathlib.Data.Vector.Basic
import LcxlNetLoader.LockList

/-!
# Shared data types

The constants and records of `lcxl_type.h`, and the fixed-size byte fields they are made of.
-/

namespace LcxlNetLoader

/-- A field of `n` bytes. -/
abbrev Bytes (n : ℕ) := List.Vector UInt8 n

def Bytes.zero (n : ℕ) : Bytes n := ⟨List.replicate n 0, List.length_replicate⟩

/-- The two ways a packet is addressed; `IM_UNKNOWN` is `none` where the source stores a mode. -/
inductive IpMode
  | ipv4
  | ipv6
deriving DecidableEq

def roleUnknown : ℤ := 0
def roleRouter : ℤ := 1
def roleServer : ℤ := 2

def saEnableIpv4 : UInt8 := 0x01
def saEnableIpv6 : UInt8 := 0x02

def ssOnline : UInt8 := 0x01
def ssChecking : UInt8 := 0x02
def ssDeleted : UInt8 := 0x80

def raPoll : ℤ := 0x00
def raIpHash : ℤ := 0x01
def raLeastConnection : ℤ := 0x10
def raFastResponse : ℤ := 0x11

/-- `IF_PHYSICAL_ADDRESS`. -/
structure IfPhysicalAddress where
  length : ℕ
  address : Bytes 32
deriving DecidableEq

/-- `LCXL_ADDR_INFO`. -/
structure LcxlAddrInfo where
  status : UInt8
  ipv4 : Bytes 4
  ipv4OnlinkPrefixLength : UInt8
  ipv6 : Bytes 16
  ipv6OnlinkPrefixLength : UInt8
deriving DecidableEq

/-- `LCXL_SERVER_PERFORMANCE`, whose forty bytes the driver copies and never looks into. -/
abbrev LcxlServerPerformance := Bytes 40

/-- `LCXL_SERVER`. -/
structure LcxlServer where
  status : UInt8
  ipStatus : UInt8
  macAddr : IfPhysicalAddress
deriving DecidableEq

/-- `LCXL_SERVER_CHECK`. -/
structure LcxlServerCheck where
  interval : ℤ
  timeout : ℤ
  retryNumber : ℤ
deriving DecidableEq

/-- `g_setting.frequency`, the clock's ticks a second, and whether this is a checked build, in
which `KdPrint` evaluates its arguments. -/
structure LcxlSetting where
  frequency : ℕ
  dbg : Bool

/-- The bit is set. -/
def has (status bit : UInt8) : Bool := status &&& bit != 0

theorem has_or (s a b : UInt8) : has (s ||| a) b = (has s b || has a b) := by
  have h : (s ||| a) &&& b = s &&& b ||| a &&& b := by
    rw [← UInt8.toBitVec_inj]
    exact BitVec.and_or_distrib_right
  rw [Bool.eq_iff_iff]
  simp only [has, h, bne_iff_ne, ne_eq, UInt8.or_eq_zero_iff, Bool.or_eq_true]
  tauto

theorem has_and_of_keep {m b : UInt8} (h : m &&& b = b) (s : UInt8) :
    has (s &&& m) b = has s b := by
  simp [has, UInt8.and_assoc, h]

theorem has_and_of_clear {m b : UInt8} (h : m &&& b = 0) (s : UInt8) :
    has (s &&& m) b = false := by
  simp [has, UInt8.and_assoc, h]

end LcxlNetLoader
