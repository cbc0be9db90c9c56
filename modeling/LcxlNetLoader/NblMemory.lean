import LcxlNetLoader.Lib.Heap
import LcxlNetLoader.Counters

/-!
# NBLs in memory

`DropOwnerNBL` as it frees the NBLs that the filter has created, each with its MDL and its buffer,
in a memory where what was freed is gone: a loop that went on from an NBL it had freed would have no
result here.
-/

namespace LcxlNetLoader

open Linked

abbrev MdlPtr := ℕ

abbrev BufferPtr := ℕ

/-- `firstMdl` is that of its first `NET_BUFFER`. -/
structure NetBufferList where
  next : Option NblPtr
  sourceHandle : ℕ
  firstMdl : Option MdlPtr

/-- What `NdisQueryMdl` says of an MDL, whose pages are mapped ever since it was allocated. -/
structure Mdl where
  virtualAddress : BufferPtr
  length : ℕ

structure NblMemory where
  nbls : Heap NblPtr NetBufferList
  mdls : Heap MdlPtr Mdl
  buffers : Heap BufferPtr (List UInt8)

namespace NblMemory

/-- `NET_BUFFER_LIST_NEXT_NBL(nbl) = p`. -/
def setNext (m : NblMemory) (nbl : NblPtr) (p : Option NblPtr) : Option NblMemory := do
  let contents ← m.nbls.read nbl
  let nbls ← m.nbls.write nbl { contents with next := p }
  pure { m with nbls := nbls }

/-- `CreateNBL` of a buffer, with the MDL and the NBL that it is given the memory for. `next` is the
link that the NBL comes with. -/
def createNBL (m : NblMemory) (f : LcxlFilter) (sendBuffer : BufferPtr) (datalen : ℕ)
    (sendMdl : MdlPtr) (sendNbl : NblPtr) (next : Option NblPtr) : NblMemory :=
  { m with
    mdls := m.mdls.alloc sendMdl ⟨sendBuffer, datalen⟩
    nbls := m.nbls.alloc sendNbl ⟨next, f.filterHandle, some sendMdl⟩ }

/-- What is in front of `dropNbl` comes in front of `currentNbl`. Where that is an NBL, it is
asserted not to be null. -/
def takeOut (m : NblMemory) (dropNbl : NblPtr) (currentNbl netBufferLists prepNbl : Option NblPtr) :
    Option (NblMemory × Option NblPtr) :=
  if some dropNbl ≠ netBufferLists then do
    let p ← prepNbl
    let m ← m.setNext p currentNbl
    pure (m, netBufferLists)
  else pure (m, currentNbl)

/-- An NBL that is out of the chain loses its link and is freed after its MDL and its buffer. -/
def freeOwnNBL (m : NblMemory) (dropNbl : NblPtr) : Option NblMemory := do
  let m ← m.setNext dropNbl none
  let contents ← m.nbls.read dropNbl
  let sendMdl ← contents.firstMdl
  let mdl ← m.mdls.read sendMdl
  let mdls ← m.mdls.free sendMdl
  let buffers ← m.buffers.free mdl.virtualAddress
  let nbls ← m.nbls.free dropNbl
  pure ⟨nbls, mdls, buffers⟩

/-- The loop of `DropOwnerNBL` from `current_nbl` on, which returns the head of the chain left. -/
def dropOwnerLoop (f : LcxlFilter) :
    (fuel : ℕ) → (currentNbl netBufferLists prepNbl : Option NblPtr) → NblMemory →
    Option (NblMemory × Option NblPtr)
  | _, none, netBufferLists, _, m => some (m, netBufferLists)
  | 0, some _, _, _, _ => none
  | fuel + 1, some x, netBufferLists, prepNbl, m => do
    let contents ← m.nbls.read x
    if contents.sourceHandle = f.filterHandle then
      let currentNbl := contents.next
      let (m, netBufferLists) ← m.takeOut x currentNbl netBufferLists prepNbl
      let m ← m.freeOwnNBL x
      dropOwnerLoop f fuel currentNbl netBufferLists prepNbl m
    else dropOwnerLoop f fuel contents.next netBufferLists (some x) m

def dropOwnerNBL (f : LcxlFilter) (fuel : ℕ) (m : NblMemory) (netBufferLists : Option NblPtr) :
    Option (NblMemory × Option NblPtr) :=
  dropOwnerLoop f fuel netBufferLists netBufferLists none m

section

variable (m m' : NblMemory) (f : LcxlFilter) (x : NblPtr)

def next : Option NblPtr := (m.nbls.cell x).bind (·.next)

def isOwn : Bool := (m.nbls.cell x).any (·.sourceHandle = f.filterHandle)

def mdlOf : Option MdlPtr := (m.nbls.cell x).bind (·.firstMdl)

def bufferOf : Option BufferPtr := ((m.mdlOf x).bind m.mdls.cell).map (·.virtualAddress)

/-- The NBLs are allocated and linked, the last to nothing. -/
structure Chain (head : Option NblPtr) (xs : List NblPtr) : Prop where
  linked : IsChain m.next head xs
  allocated : ∀ y ∈ xs, (m.nbls.cell y).isSome

/-- Each NBL of these that the filter has created has an MDL and a buffer of its own. -/
structure Owns (xs : List NblPtr) : Prop where
  buffer : ∀ y ∈ xs, m.isOwn f y → ∃ b, m.bufferOf y = some b ∧ (m.buffers.cell b).isSome
  mdl_inj : ∀ y ∈ xs, ∀ z ∈ xs, m.isOwn f y → m.isOwn f z → m.mdlOf y = m.mdlOf z → y = z
  buffer_inj : ∀ y ∈ xs, ∀ z ∈ xs, m.isOwn f y → m.isOwn f z → m.bufferOf y = m.bufferOf z → y = z

/-- The chain is left without the filter's own NBLs, which are freed once each with their MDLs and
buffers. Nothing else has changed but links of the chain. -/
structure Dropped (xs : List NblPtr) (head : Option NblPtr) : Prop where
  chain : m'.Chain head (xs.filter fun y => !m.isOwn f y)
  kept : ∀ y ∈ xs, m.isOwn f y = false →
    m'.nbls.cell y = (m.nbls.cell y).map ({ · with next := m'.next y })
  others : ∀ y, y ∉ xs → m'.nbls.cell y = m.nbls.cell y
  freed : m'.nbls.freed = m.nbls.freed ++ xs.filter (m.isOwn f)
  once : (xs.filter (m.isOwn f)).Nodup
  gone : ∀ y ∈ xs, m.isOwn f y → m'.nbls.cell y = none
  mdls : m.mdls.Freed m'.mdls ((xs.filter (m.isOwn f)).filterMap m.mdlOf)
  buffers : m.buffers.Freed m'.buffers ((xs.filter (m.isOwn f)).filterMap m.bufferOf)

end

end NblMemory

end LcxlNetLoader
