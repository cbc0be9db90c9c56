import LcxlNetLoader.LockRuns
import LcxlNetLoader.Device

/-!
# Who sees a filter

Any number of modules are attached and detached, each by the calls its `FilterAttach` and its
`FilterDetach` make one by one, while any number of parties lock `g_filter_list`, visit the filters
linked in it and let it go: the worker thread at a tick, and every IOCTL.
-/

namespace LcxlNetLoader

inductive Lifetime
  | absent
  | live
  | gone
deriving DecidableEq

/-- How far the calls of `FilterAttach`, and then those of `FilterDetach`, have got. -/
inductive Position
  | unallocated
  | allocated
  | pooled
  | attributed
  | initialised
  /-- `FilterAttach` has freed the filter again. -/
  | failed
  | attached
  /-- The pool is freed, and routes are being deleted. -/
  | unpooled
  /-- The server list is locked. -/
  | locked
  | unlocked
  /-- `DelLcxlList` has been called for the server list. -/
  | destroyed
  /-- `RemoveEntryfromLcxlList` has been called for the filter. -/
  | removed
deriving DecidableEq

structure FilterObject where
  position : Position
  sendNetBufferListPool : Lifetime
  serverList : Lifetime

inductive FilterCall (ι : Type*)
  | allocMem (p : FilterPtr)
  | allocatePool (p : FilterPtr) (allocated : Bool)
  | setAttributes (p : FilterPtr) (success : Bool)
  | initServerList (p : FilterPtr)
  | addEntry (p : FilterPtr)
  | freePool (p : FilterPtr)
  | deleteRoute (p : FilterPtr)
  | lockServerList (p : FilterPtr)
  | decServer (p : FilterPtr)
  | unlockServerList (p : FilterPtr)
  | delServerList (p : FilterPtr)
  | removeEntry (p : FilterPtr)
  | lock (i : ι)
  | visit (i : ι) (p : FilterPtr)
  | unlock (i : ι)

/-- `g_filter_list`, who holds it, and the filters. -/
structure Filters (ι : Type*) where
  list : Shared ι FilterPtr
  object : FilterPtr → FilterObject

namespace Filters

variable {ι : Type*}

def init : Filters ι := ⟨.init, fun _ => ⟨.unallocated, .absent, .absent⟩⟩

/-- Only the filter itself is changed. -/
def modify (s : Filters ι) (p : FilterPtr) (g : FilterObject → FilterObject) : Filters ι :=
  { s with object := Function.update s.object p (g (s.object p)) }

def moveTo (s : Filters ι) (p : FilterPtr) (position : Position) : Filters ι :=
  s.modify p fun o => { o with position := position }

variable [DecidableEq ι]

def onList (s : Filters ι) (c : Call ι FilterPtr) : Filters ι := { s with list := s.list.exec c }

/-- A filter's pool is freed only if there is one. The callback of `g_filter_list` frees the filter,
as `FilterAttach` does where the attributes cannot be set; the pool is then left. -/
def exec (s : Filters ι) : FilterCall ι → Filters ι
  | .allocMem p => s.moveTo p .allocated
  | .allocatePool p allocated => s.modify p fun o => { o with
      position := .pooled, sendNetBufferListPool := if allocated then .live else .absent }
  | .setAttributes p success => s.moveTo p (if success then .attributed else .failed)
  | .initServerList p => s.modify p fun o => { o with
      position := .initialised, serverList := .live }
  | .addEntry p => { s.moveTo p .attached with list := ⟨addEntrytoLcxlList s.list.lst p,
      s.list.holders⟩ }
  | .freePool p => s.modify p fun o => { o with
      position := .unpooled
      sendNetBufferListPool :=
        if o.sendNetBufferListPool = .live then .gone else o.sendNetBufferListPool }
  | .lockServerList p => s.moveTo p .locked
  | .unlockServerList p => s.moveTo p .unlocked
  | .delServerList p => s.modify p fun o => { o with position := .destroyed, serverList := .gone }
  | .removeEntry p => { s.moveTo p .removed with list := ⟨removeEntryfromLcxlList s.list.lst p,
      s.list.holders⟩ }
  | .lock i => s.onList (.lock i)
  | .unlock i => s.onList (.unlock i)
  | .deleteRoute _ | .decServer _ | .visit _ _ => s

/-- The calls for a module come in the order of the source, and a party visits what is linked while
it holds the list. -/
def Enabled (s : Filters ι) : FilterCall ι → Prop
  | .allocMem p => (s.object p).position = .unallocated
  | .allocatePool p _ => (s.object p).position = .allocated
  | .setAttributes p _ => (s.object p).position = .pooled
  | .initServerList p => (s.object p).position = .attributed
  | .addEntry p => (s.object p).position = .initialised
  | .freePool p => (s.object p).position = .attached
  | .deleteRoute p | .lockServerList p => (s.object p).position = .unpooled
  | .decServer p | .unlockServerList p => (s.object p).position = .locked
  | .delServerList p => (s.object p).position = .unlocked
  | .removeEntry p => (s.object p).position = .destroyed
  | .lock _ => True
  | .visit i p => i ∈ s.list.holders ∧ p ∈ s.list.lst.list
  | .unlock i => i ∈ s.list.holders

/-- The filter has been freed. -/
def Freed (s : Filters ι) (p : FilterPtr) : Prop :=
  p ∈ s.list.lst.delCalls ∨ (s.object p).position = .failed

/-- A filter that a party may look at: its pool was not freed, its server list is initialised and
not destroyed, and itself it was not freed. -/
structure Alive (s : Filters ι) (p : FilterPtr) : Prop where
  pool : (s.object p).sendNetBufferListPool ≠ .gone
  serverList : (s.object p).serverList = .live
  filter : ¬ s.Freed p

/-- `FilterDetach` has not freed anything of the filter: it has not begun, or it found no pool and
has not come to the server list yet. -/
def Untouched (s : Filters ι) (p : FilterPtr) : Prop :=
  (s.object p).position = .attached ∨ (s.object p).sendNetBufferListPool = .absent ∧
    ((s.object p).position = .unpooled ∨ (s.object p).position = .locked
      ∨ (s.object p).position = .unlocked)

/-- A visited filter is alive. -/
def VisitsAlive (s : Filters ι) : FilterCall ι → Prop
  | .visit _ p => s.Alive p
  | _ => True

/-- No filter is visited that its `FilterDetach` has begun to free. -/
def VisitsUntouched (s : Filters ι) : FilterCall ι → Prop
  | .visit _ p => s.Untouched p
  | _ => True

end Filters

end LcxlNetLoader
