import Mathlib.Tactic

/-!
# The lock list

`LcxlList` is `LCXL_LIST`: a list that may be changed only while nobody holds it. A change asked
for while it is held waits in `toBeAddList` or `toBeDelList` until the last holder lets go. Each
call runs under the list's spin lock, so each is one step here.

Entries are the addresses of their `LIST_ENTRY`. `RemoveEntryList` of an entry that is in no list
changes nothing, as of one `InitializeListHead` left pointing at itself.
-/

namespace LcxlNetLoader

/-- `LCXL_LIST`. `delCalls` is not a field of the source: it records the entries `del_func` was
called with, the latest last. -/
structure LcxlList (α : Type*) where
  list : List α
  listCount : ℤ
  toBeAddList : List α
  toBeDelList : List α
  /-- A `BOOLEAN`, so counted modulo 256. -/
  lockCount : UInt8
  delCalls : List α
deriving DecidableEq

/-- Nothing waits on a list that nobody holds. -/
def LcxlList.Settled {α : Type*} (l : LcxlList α) : Prop :=
  l.lockCount = 0 → l.toBeAddList = [] ∧ l.toBeDelList = []

variable {α : Type*}

def initLcxlList : LcxlList α := ⟨[], 0, [], [], 0, []⟩

def lockLcxlList (l : LcxlList α) : LcxlList α := { l with lockCount := l.lockCount + 1 }

/-- The entries from the head's `Flink` on. -/
def getLcxlListHead (l : LcxlList α) : List α := l.list

def getLcxlListCount (l : LcxlList α) : ℤ := l.listCount

/-- Count the entry and put it at the tail. -/
def linkEntry (l : LcxlList α) (e : α) : LcxlList α :=
  { l with listCount := l.listCount + 1, list := l.list ++ [e] }

def addEntrytoLcxlList (l : LcxlList α) (e : α) : LcxlList α :=
  if 0 < l.lockCount then { l with toBeAddList := l.toBeAddList ++ [e] } else linkEntry l e

variable [DecidableEq α]

/-- Uncount the entry, take it out and hand it to `del_func`. -/
def unlinkEntry (l : LcxlList α) (e : α) : LcxlList α :=
  { l with listCount := l.listCount - 1, list := l.list.erase e, delCalls := l.delCalls ++ [e] }

def removeEntryfromLcxlList (l : LcxlList α) (e : α) : LcxlList α :=
  if 0 < l.lockCount then { l with toBeDelList := l.toBeDelList ++ [e] } else unlinkEntry l e

/-- The two loops of `UnlockLcxlList`: every waiting removal, then every waiting addition. -/
def applyToBe (l : LcxlList α) : LcxlList α :=
  let l := { l.toBeDelList.foldl unlinkEntry l with toBeDelList := [] }
  { l.toBeAddList.foldl linkEntry l with toBeAddList := [] }

def unlockLcxlList (l : LcxlList α) : LcxlList α :=
  let l := { l with lockCount := l.lockCount - 1 }
  if l.lockCount = 0 then applyToBe l else l

omit [DecidableEq α] in
theorem foldl_linkEntry : ∀ (es : List α) (l : LcxlList α), es.foldl linkEntry l =
    { l with listCount := l.listCount + es.length, list := l.list ++ es }
  | [], l => by simp
  | e :: es, l => by
    rw [List.foldl_cons, foldl_linkEntry es]
    simp only [linkEntry, List.length_cons, List.append_assoc, List.singleton_append,
      Nat.cast_add, Nat.cast_one]
    congr 1
    omega

theorem foldl_unlinkEntry : ∀ (es : List α) (l : LcxlList α), es.foldl unlinkEntry l =
    { l with
      listCount := l.listCount - es.length, list := l.list.diff es, delCalls := l.delCalls ++ es }
  | [], l => by simp
  | e :: es, l => by
    rw [List.foldl_cons, foldl_unlinkEntry es]
    simp only [unlinkEntry, List.length_cons, List.append_assoc, List.singleton_append,
      Nat.cast_add, Nat.cast_one, List.diff_cons]
    congr 1
    omega

theorem applyToBe_eq (l : LcxlList α) : applyToBe l =
    { l with
      list := l.list.diff l.toBeDelList ++ l.toBeAddList
      listCount := l.listCount - l.toBeDelList.length + l.toBeAddList.length
      toBeAddList := [], toBeDelList := [], delCalls := l.delCalls ++ l.toBeDelList } := by
  simp only [applyToBe, foldl_unlinkEntry, foldl_linkEntry]

theorem unlockLcxlList_of_last {l : LcxlList α} (h : l.lockCount = 1) :
    unlockLcxlList l = applyToBe { l with lockCount := 0 } := by
  simp [unlockLcxlList, h]

theorem unlockLcxlList_of_not_last {l : LcxlList α} (h : l.lockCount ≠ 1) :
    unlockLcxlList l = { l with lockCount := l.lockCount - 1 } := by
  have : l.lockCount - 1 ≠ 0 := fun h' => h (by simpa using UInt8.sub_eq_iff_eq_add.1 h')
  simp [unlockLcxlList, this]

omit [DecidableEq α] in
@[simp] theorem lockLcxlList_lockCount (l : LcxlList α) :
    (lockLcxlList l).lockCount = l.lockCount + 1 := rfl

@[simp] theorem unlockLcxlList_lockCount (l : LcxlList α) :
    (unlockLcxlList l).lockCount = l.lockCount - 1 := by
  simp only [unlockLcxlList]
  split_ifs <;> simp [applyToBe_eq]

omit [DecidableEq α] in
@[simp] theorem addEntrytoLcxlList_lockCount (l : LcxlList α) (e : α) :
    (addEntrytoLcxlList l e).lockCount = l.lockCount := by
  unfold addEntrytoLcxlList
  split_ifs <;> rfl

@[simp] theorem removeEntryfromLcxlList_lockCount (l : LcxlList α) (e : α) :
    (removeEntryfromLcxlList l e).lockCount = l.lockCount := by
  unfold removeEntryfromLcxlList
  split_ifs <;> rfl

end LcxlNetLoader
