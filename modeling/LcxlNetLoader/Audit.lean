import Mathlib.Data.List.Basic
import LcxlNetLoader.Lib.DoublyLinked
import LcxlNetLoader.Lib.Run

/-!
# The memory audit of a debug build

Each block that `filterAuditAllocMem` hands out says who asked for it, and is linked behind those
handed out before, until `filterAuditFreeMem` unlinks it and gives it back. Callers run at the same
time: reading `filterdInitDone`, creating the lock, taking it and releasing it are steps, and so is
what is done in between. Memory that is not allocated holds nothing, so touching it has no result.
-/

namespace LcxlNetLoader

abbrev AllocPtr := ℕ

/-- `'TFSM'`. -/
def filterdMemorySignature : UInt32 := 0x5446534D

/-- `'DEAD'`. -/
def deadSignature : UInt32 := 0x44454144

/-- What `FILTER_ALLOC_MEM` passes on. -/
structure AllocRequest where
  ndisHandle : ℕ
  size : UInt32
  fileNumber : UInt32
  lineNumber : UInt32

/-- `FILTERD_ALLOCATION`, with the bytes that are the caller's. -/
structure FilterdAllocation where
  signature : UInt32
  next : Option AllocPtr
  prev : Option AllocPtr
  fileNumber : UInt32
  lineNumber : UInt32
  size : UInt32
  ownerHandle : ℕ
  userData : List UInt8

/-- The block says who asked for it. -/
def FilterdAllocation.Records (b : FilterdAllocation) (r : AllocRequest) : Prop :=
  b.signature = filterdMemorySignature ∧ b.fileNumber = r.fileNumber
    ∧ b.lineNumber = r.lineNumber ∧ b.size = r.size ∧ b.ownerHandle = r.ndisHandle

/-- The blocks that NDIS has allocated, the globals but for the lock, and how often the debugger was
broken into. A caller's pointer to `UserData` is the address of its block here. -/
structure Audit where
  block : AllocPtr → Option FilterdAllocation
  filterdMemoryHead : Option AllocPtr
  filterdMemoryTail : Option AllocPtr
  filterdAllocCount : UInt32
  filterdInitDone : Bool
  breaks : ℕ

namespace Audit

def modify (s : Audit) (p : AllocPtr) (g : FilterdAllocation → FilterdAllocation) :
    Option Audit :=
  (s.block p).map fun b => { s with block := Function.update s.block p (some (g b)) }

/-- `filterAuditAllocMem` from the check of the size to the lock, and the block it has if it goes
on. `sizeofAllocation` is the size of what is in front of the caller's bytes, and `memory` what NDIS
gives, with what it held before. -/
def allocBlock (sizeofAllocation : UInt32) (s : Audit) (r : AllocRequest)
    (memory : Option (AllocPtr × FilterdAllocation)) : Audit × Option AllocPtr :=
  if r.size + sizeofAllocation < r.size then (s, none)
  else match memory with
    | none => (s, none)
    | some (p, old) =>
      -- the link back is left to the lock
      let b := { old with
        userData := List.replicate r.size.toNat 0xAF
        signature := filterdMemorySignature
        fileNumber := r.fileNumber
        lineNumber := r.lineNumber
        size := r.size
        ownerHandle := r.ndisHandle
        next := none }
      ({ s with block := Function.update s.block p (some b) }, some p)

/-- What `filterAuditAllocMem` does under the lock. -/
def linkBlock (s : Audit) (p : AllocPtr) : Option Audit := do
  let s ← s.modify p fun b => { b with prev := s.filterdMemoryTail }
  let s ← match s.filterdMemoryTail with
    | none => pure { s with filterdMemoryHead := some p, filterdMemoryTail := some p }
    | some t => s.modify t fun b => { b with next := some p }
  pure { s with
    filterdMemoryTail := some p
    filterdAllocCount := s.filterdAllocCount + 1 }

/-- The block in front, or the head, points past `b`. -/
def bridgeNext (s : Audit) (b : FilterdAllocation) : Option Audit :=
  match b.prev with
  | some q => s.modify q fun x => { x with next := b.next }
  | none => some { s with filterdMemoryHead := b.next }

/-- The block behind, or the tail, points past `b`. -/
def bridgePrev (s : Audit) (b : FilterdAllocation) : Option Audit :=
  match b.next with
  | some q => s.modify q fun x => { x with prev := b.prev }
  | none => some { s with filterdMemoryTail := b.prev }

/-- What `filterAuditFreeMem` does under the lock, and whether it goes on to free the block. -/
def unlinkBlock (s : Audit) (p : AllocPtr) : Option (Audit × Bool) := do
  let b ← s.block p
  if b.signature ≠ filterdMemorySignature then return (s, false)
  let s ← s.modify p fun b => { b with signature := deadSignature }
  let s ← s.bridgeNext b
  -- the block is read again, after the write to its neighbour
  let b ← s.block p
  let s ← s.bridgePrev b
  return ({ s with filterdAllocCount := s.filterdAllocCount - 1 }, true)

def ndisFreeMemory (s : Audit) (p : AllocPtr) : Option Audit :=
  (s.block p).map fun _ => { s with block := Function.update s.block p none }

/-- `DbgBreakPoint`, where the debugger lets the caller go on. -/
def dbgBreakPoint (s : Audit) : Audit := { s with breaks := s.breaks + 1 }

/-- All that `filterAuditFreeMem` does but take the lock and release it. -/
def freeBlock (s : Audit) (p : AllocPtr) : Option Audit := do
  let (s, unlinked) ← s.unlinkBlock p
  if unlinked then s.ndisFreeMemory p else pure s.dbgBreakPoint

end Audit

/-- Where a caller is. The request is the one of `filterAuditAllocMem`, and the block the one it has
not linked yet, or the one of `filterAuditFreeMem`. -/
inductive AuditPosition
  | idle
  /-- `filterdInitDone` was not set. -/
  | creating (r : AllocRequest)
  | marking (r : AllocRequest)
  | asking (r : AllocRequest)
  | allocated (p : AllocPtr) (r : AllocRequest)
  | linking (p : AllocPtr) (r : AllocRequest)
  | linked
  | unlinking (p : AllocPtr)
  | unlinked (p : AllocPtr)
  | freeing (p : AllocPtr)
  /-- The buffer is unknown. -/
  | rejecting
  | breaking

namespace AuditPosition

/-- The block that only this caller knows of. -/
def block : AuditPosition → Option AllocPtr
  | allocated p _ | linking p _ | unlinked p | freeing p => some p
  | _ => none

/-- Between the test of `filterdInitDone` and its being set. -/
def Creates : AuditPosition → Prop
  | creating _ | marking _ => True
  | _ => False

/-- Between taking the lock and releasing it. -/
def Inside : AuditPosition → Prop
  | linking _ _ | linked | unlinking _ | unlinked _ | rejecting => True
  | _ => False

/-- Once the lock is released. -/
def outside : AuditPosition → AuditPosition
  | unlinked p => freeing p
  | rejecting => breaking
  | _ => idle

end AuditPosition

inductive SpinLock (ι : Type*)
  | uncreated
  | free
  | held (i : ι)

structure Auditing (ι : Type*) where
  audit : Audit
  filterdMemoryLock : SpinLock ι
  position : ι → AuditPosition

inductive AuditStep (ι : Type*)
  /-- `filterAuditAllocMem` reads `filterdInitDone`. -/
  | enter (i : ι) (r : AllocRequest)
  | create (i : ι) (r : AllocRequest)
  | mark (i : ι) (r : AllocRequest)
  | alloc (i : ι) (r : AllocRequest) (memory : Option (AllocPtr × FilterdAllocation))
  | acquire (i : ι) (p : AllocPtr) (r : AllocRequest)
  | link (i : ι) (p : AllocPtr) (r : AllocRequest)
  /-- `filterAuditFreeMem` takes the lock. -/
  | acquireToFree (i : ι) (p : AllocPtr)
  | unlink (i : ι) (p : AllocPtr)
  | release (i : ι)
  | free (i : ι) (p : AllocPtr)
  | breakPoint (i : ι)

namespace Auditing

variable {ι : Type*} [DecidableEq ι]

/-- Nothing has been allocated. -/
def init : Auditing ι := ⟨⟨fun _ => none, none, none, 0, false, 0⟩, .uncreated, fun _ => .idle⟩

def move (s : Auditing ι) (i : ι) (x : AuditPosition) : Auditing ι :=
  { s with position := Function.update s.position i x }

def exec (sizeofAllocation : UInt32) (s : Auditing ι) : AuditStep ι → Option (Auditing ι)
  | .enter i r => some (s.move i (if s.audit.filterdInitDone then .asking r else .creating r))
  | .create i r => some { s.move i (.marking r) with filterdMemoryLock := .free }
  | .mark i r =>
    some { s.move i (.asking r) with audit := { s.audit with filterdInitDone := true } }
  | .alloc i r memory =>
    let (audit, p) := s.audit.allocBlock sizeofAllocation r memory
    some { s.move i (match p with | some p => .allocated p r | none => .idle) with audit := audit }
  | .acquire i p r => some { s.move i (.linking p r) with filterdMemoryLock := .held i }
  | .link i p _ => (s.audit.linkBlock p).map fun audit => { s.move i .linked with audit := audit }
  | .acquireToFree i p => some { s.move i (.unlinking p) with filterdMemoryLock := .held i }
  | .unlink i p => (s.audit.unlinkBlock p).map fun (audit, unlinked) =>
    { s.move i (if unlinked then .unlinked p else .rejecting) with audit := audit }
  | .release i => some { s.move i (s.position i).outside with filterdMemoryLock := .free }
  | .free i p => (s.audit.ndisFreeMemory p).map fun audit => { s.move i .idle with audit := audit }
  | .breakPoint i => some { s.move i .idle with audit := s.audit.dbgBreakPoint }

/-- The lock is created by one caller alone: nobody enters meanwhile. It is taken when it is there
and nobody has it. NDIS gives memory that is free, and nobody frees a block that has not been handed
out. It may be one that was freed before. -/
def Proper (s : Auditing ι) : AuditStep ι → Prop
  | .enter i _ => s.position i = .idle ∧ ∀ j, ¬ (s.position j).Creates
  | .create i r => s.position i = .creating r
  | .mark i r => s.position i = .marking r
  | .alloc i r memory => s.position i = .asking r ∧ ∀ m ∈ memory, s.audit.block m.1 = none
  | .acquire i p r => s.position i = .allocated p r ∧ s.filterdMemoryLock = .free
  | .link i p r => s.position i = .linking p r
  | .acquireToFree i _ => s.position i = .idle ∧ s.filterdMemoryLock = .free
  | .unlink i p => s.position i = .unlinking p ∧ ∀ j r, s.position j ≠ .allocated p r
  | .release i =>
    s.position i = .linked ∨ (∃ p, s.position i = .unlinked p) ∨ s.position i = .rejecting
  | .free i p => s.position i = .freeing p
  | .breakPoint i => s.position i = .breaking

def Step (sizeofAllocation : UInt32) (s : Auditing ι) (a : AuditStep ι) (s' : Auditing ι) : Prop :=
  s.Proper a ∧ s.exec sizeofAllocation a = some s'

/-! ## The shutdown

No caller takes a step meanwhile, so a lock that is not free is waited for without end.
-/

def filterAuditFreeMem (s : Auditing ι) (p : AllocPtr) : Option (Auditing ι) :=
  match s.filterdMemoryLock with
  | .free => (s.audit.freeBlock p).map fun audit => { s with audit := audit }
  | _ => none

/-- The loop of `filterAuditShutdown`. -/
def shutdownLoop : ℕ → Auditing ι → Option (Auditing ι)
  | fuel, s =>
    match s.audit.filterdMemoryHead with
    | none => some s
    | some p =>
      match fuel with
      | 0 => none
      | fuel + 1 => (s.filterAuditFreeMem p).bind (shutdownLoop fuel)

/-- `filterdInitDone` is no longer set. -/
def unmark (s : Auditing ι) : Auditing ι :=
  { s with audit := { s.audit with filterdInitDone := false } }

def filterAuditShutdown (fuel : ℕ) (s : Auditing ι) : Option (Auditing ι) :=
  if s.audit.filterdInitDone then
    if s.audit.filterdAllocCount ≠ 0 then
      (shutdownLoop fuel { s with audit := s.audit.dbgBreakPoint }).map unmark
    else some s.unmark
  else some s

end Auditing

/-- The blocks handed out and not freed since, the oldest first, with who asked for them. -/
def AuditStep.outstanding {ι : Type*} (l : List (AllocPtr × AllocRequest)) :
    AuditStep ι → List (AllocPtr × AllocRequest)
  | .link _ p r => l ++ [(p, r)]
  | .unlink _ p => l.filter (·.1 ≠ p)
  | _ => l

def outstanding {ι : Type*} (tr : List (AuditStep ι)) : List (AllocPtr × AllocRequest) :=
  tr.foldl AuditStep.outstanding []

end LcxlNetLoader
