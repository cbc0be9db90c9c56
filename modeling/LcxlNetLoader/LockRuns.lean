import LcxlNetLoader.Lib.Run
import LcxlNetLoader.LockList

/-!
# A lock list shared by several parties

Any number of parties lock, unlock, add and remove, each call one step. `immediate` is what the
list is meant to stand for: the same additions and removals, each made at once.
-/

namespace LcxlNetLoader

variable {ι α : Type*}

inductive Call (ι α : Type*)
  | lock (p : ι)
  | unlock (p : ι)
  | add (p : ι) (e : α)
  | remove (p : ι) (e : α)

namespace Call

/-- The entries added, in call order. -/
def adds (tr : List (Call ι α)) : List α :=
  tr.filterMap fun | .add _ e => some e | _ => none

/-- The entries removed, in call order. -/
def removes (tr : List (Call ι α)) : List α :=
  tr.filterMap fun | .remove _ e => some e | _ => none

variable [DecidableEq α]

def applyNow (xs : List α) : Call ι α → List α
  | .add _ e => xs ++ [e]
  | .remove _ e => xs.erase e
  | _ => xs

/-- The list, had every addition and removal been made at once. -/
def immediate (tr : List (Call ι α)) : List α := tr.foldl applyNow []

end Call

/-- The list, and who holds it: a party once for each of its locks. -/
structure Shared (ι α : Type*) where
  lst : LcxlList α
  holders : List ι

namespace Shared

def init : Shared ι α := ⟨initLcxlList, []⟩

variable [DecidableEq ι] [DecidableEq α]

def exec (s : Shared ι α) : Call ι α → Shared ι α
  | .lock p => ⟨lockLcxlList s.lst, p :: s.holders⟩
  | .unlock p => ⟨unlockLcxlList s.lst, s.holders.erase p⟩
  | .add _ e => ⟨addEntrytoLcxlList s.lst e, s.holders⟩
  | .remove _ e => ⟨removeEntryfromLcxlList s.lst e, s.holders⟩

omit [DecidableEq ι] [DecidableEq α] in
/-- Fewer than 256 locks are out, and an unlock is of a party that holds one. -/
def Matched (s : Shared ι α) : Call ι α → Prop
  | .lock _ => s.holders.length + 1 < 256
  | .unlock p => p ∈ s.holders
  | _ => True

omit [DecidableEq ι] [DecidableEq α] in
/-- An added entry is in no list, and a removed one is linked and not yet waiting to go. -/
def Proper (s : Shared ι α) : Call ι α → Prop
  | .add _ e => e ∉ s.lst.list ∧ e ∉ s.lst.toBeAddList ∧ e ∉ s.lst.toBeDelList
  | .remove _ e => e ∈ s.lst.list ∧ e ∉ s.lst.toBeDelList
  | _ => True

instance (s : Shared ι α) : ∀ c, Decidable (s.Matched c)
  | .lock _ => inferInstanceAs (Decidable (_ < _))
  | .unlock _ => inferInstanceAs (Decidable (_ ∈ _))
  | .add _ _ => inferInstanceAs (Decidable True)
  | .remove _ _ => inferInstanceAs (Decidable True)

instance (s : Shared ι α) : ∀ c, Decidable (s.Proper c)
  | .lock _ => inferInstanceAs (Decidable True)
  | .unlock _ => inferInstanceAs (Decidable True)
  | .add _ _ => inferInstanceAs (Decidable (_ ∧ _ ∧ _))
  | .remove _ _ => inferInstanceAs (Decidable (_ ∧ _))

/-- The steps whose locks match. -/
abbrev Step : Shared ι α → Call ι α → Shared ι α → Prop := Sys.Guarded Matched exec

/-- The steps whose locks match, on proper entries. -/
abbrev ProperStep : Shared ι α → Call ι α → Shared ι α → Prop :=
  Sys.Guarded (fun s c => s.Matched c ∧ s.Proper c) exec

/-- The steps after which a lock is still out. -/
abbrev HeldStep (s : Shared ι α) (c : Call ι α) (s' : Shared ι α) : Prop :=
  ProperStep s c s' ∧ s'.holders ≠ []

omit [DecidableEq ι] in
/-- The list is what the calls `tr` make of it at once, and `del_func` was called once for each
entry removed, none of them linked. -/
structure Refines (s : Shared ι α) (tr : List (Call ι α)) : Prop where
  list : s.lst.list = Call.immediate tr
  count : s.lst.listCount = s.lst.list.length
  once : s.lst.delCalls.Perm (Call.removes tr)
  gone : ∀ e ∈ s.lst.delCalls, e ∉ s.lst.list

end Shared

/-- Every entry is added at most once, and removed at most once and only after it was added. -/
structure OncePerEntry (tr : List (Call ι α)) : Prop where
  adds : (Call.adds tr).Nodup
  removes : (Call.removes tr).Nodup
  added : ∀ pre p e, pre ++ [.remove p e] <+: tr → e ∈ Call.adds pre

end LcxlNetLoader
