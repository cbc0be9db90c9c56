import LcxlNetLoader.Buffers
import LcxlNetLoader.Net

/-!
# Names in records

What copying a name into a record reads of the name and leaves in the array for it, which is to be
as much of the name as the array can hold with a zero behind.
-/

namespace LcxlNetLoader

/-- The buffer after a write. -/
def Write.apply (buf : ℕ → UInt8) (w : Write) : ℕ → UInt8 :=
  fun i => if w.offset ≤ i then w.bytes.getD (i - w.offset) (buf i) else buf i

def applyWrites (buf : ℕ → UInt8) (ws : List Write) : ℕ → UInt8 := ws.foldl Write.apply buf

/-- The bytes from a name's `Buffer` on, be they the name's or not. -/
def NdisString.byte (s : NdisString) (i : ℕ) : UInt8 :=
  (leBytes 2 (s.buffer (i / 2)).toNat).getD (i % 2) 0

/-- The writes for a name, as they are read from it. -/
def copyNameAt (buflen name : ℕ) : FrameRead (List Write) := do
  let bytes ← ReadLog.readRange 0 buflen
  pure [⟨name, bytes⟩, ⟨name + 2 * (buflen / 2), [0, 0]⟩]

def charAt (buf : ℕ → UInt8) (i : ℕ) : UInt16 := u16OfBytes (buf i) (buf (i + 1))

/-- `buflen` bytes of a name are copied to the array of 256 characters at `name`, as `after` has it:
nothing is read that is not the name's or written that is not the array's. -/
structure NameCopied (s : NdisString) (buflen name : ℕ) (after : ℕ → UInt8) : Prop where
  reads : (copyNameAt buflen name).Within (· < s.length) s.byte
  inside : ∀ w ∈ (copyNameAt buflen name).val s.byte,
    name ≤ w.offset ∧ w.offset + w.bytes.length ≤ name + 512
  held : ∀ k < min (s.length / 2) 255, charAt after (name + 2 * k) = s.buffer k
  ended : charAt after (name + 2 * min (s.length / 2) 255) = 0

end LcxlNetLoader
