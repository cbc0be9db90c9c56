import LcxlNetLoader.Proofs.Select

/-!
# Adding and deleting a server, case by case

What the two requests make of a `server_list`, by what `FindServer` gives, and what a lock taken
and let go around them leaves linked or waiting.
-/

namespace LcxlNetLoader

variable {past : ServerPtr → Bool} {now : ℤ} {t : ServerTable} {server : LcxlServer}
  {mac : IfPhysicalAddress} {p q : ServerPtr}

theorem routerAddServer_of_none (h : findServer past t server.macAddr = none) :
    routerAddServer past now t server = unlockServerList
      { lst := addEntrytoLcxlList (lockLcxlList t.lst) t.next
        mem := Function.update t.mem t.next { allocServer now with info := server }
        next := t.next + 1 } := by
  have hfind : findServer past (lockServerList t) server.macAddr = none := h
  unfold routerAddServer
  simp only [hfind]
  rfl

theorem routerAddServer_of_some (h : findServer past t server.macAddr = some p) :
    routerAddServer past now t server = unlockServerList
      (lockServerList (t.modify p fun s => { s with info := server })) := by
  have hfind : findServer past (lockServerList t) server.macAddr = some p := h
  unfold routerAddServer
  simp only [hfind]
  rfl

theorem routerDelServer_of_none (h : findServer past t mac = none) :
    routerDelServer past t mac = (lockServerList t, false) := by
  have hfind : findServer past (lockServerList t) mac = none := h
  unfold routerDelServer
  simp only [hfind]

theorem routerDelServer_of_deleted (h : findServer past t mac = some p)
    (hd : has (t.mem p).info.status ssDeleted) :
    routerDelServer past t mac = (lockServerList t, true) := by
  have hfind : findServer past (lockServerList t) mac = some p := h
  unfold routerDelServer
  simp only [hfind]
  exact if_pos hd

theorem routerDelServer_of_live (h : findServer past t mac = some p)
    (hd : ¬ has (t.mem p).info.status ssDeleted) :
    routerDelServer past t mac = (decRefListEntry ((lockServerList t).modify p fun s =>
      { s with info := { s.info with status := s.info.status ||| ssDeleted } }) p, false) := by
  have hfind : findServer past (lockServerList t) mac = some p := h
  unfold routerDelServer
  simp only [hfind]
  exact if_neg hd

theorem findServer_mem (h : findServer past t mac = some p) : p ∈ t.lst.list :=
  List.mem_of_find?_eq_some h

/-- Every linked server but the one whose reference is given back is linked as before. -/
theorem mem_decRefListEntry (h : q ≠ p) :
    q ∈ (decRefListEntry t p).lst.list ↔ q ∈ t.lst.list := by
  unfold decRefListEntry removeEntryfromLcxlList
  simp only
  split_ifs
  · rfl
  · exact List.mem_erase_of_ne h
  · rfl

namespace LcxlList

variable {α : Type*} [DecidableEq α] {l l' : LcxlList α}

/-- What a list keeps linked, or waiting to be, when the lock a request took is let go. -/
theorem staying_of_unlock (h : l'.lockCount = l.lockCount + 1) :
    (unlockLcxlList l').list ++ (unlockLcxlList l').toBeAddList =
      if l.lockCount = 0 then l'.list.diff l'.toBeDelList ++ l'.toBeAddList
      else l'.list ++ l'.toBeAddList := by
  by_cases h0 : l.lockCount = 0
  · have h1 : l'.lockCount = 1 := by rw [h, h0]; rfl
    rw [unlockLcxlList_of_last h1, applyToBe_eq, if_pos h0]
    exact List.append_nil _
  · have h1 : l'.lockCount ≠ 1 := fun h1 => h0 (by simpa using h.symm.trans h1)
    rw [unlockLcxlList_of_not_last h1, if_neg h0]

/-- An entry added under a lock of one's own is linked, or waits to be, after it. -/
theorem staying_of_added (l : LcxlList α) (e : α) :
    e ∈ (unlockLcxlList (addEntrytoLcxlList (lockLcxlList l) e)).list
      ++ (unlockLcxlList (addEntrytoLcxlList (lockLcxlList l) e)).toBeAddList := by
  rw [staying_of_unlock (addEntrytoLcxlList_lockCount _ _)]
  unfold addEntrytoLcxlList
  by_cases h0 : l.lockCount = 0
  · have h1 : 0 < (lockLcxlList l).lockCount := by simp [h0]
    rw [if_pos h0, if_pos h1]
    simp
  · rw [if_neg h0]
    split_ifs
    · simp
    · simp [linkEntry]

end LcxlList

end LcxlNetLoader
