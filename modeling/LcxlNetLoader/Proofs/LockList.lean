import LcxlNetLoader.LockList

/-!
# What the calls keep of a lock list

`Ok` is what the source keeps of an `LCXL_LIST` as long as an added entry is in no list and a
removed one is linked and not yet waiting to go: the count is the length, nothing is linked
twice, and what waits to go is linked. It does not depend on how often the list is locked.
-/

namespace LcxlNetLoader

variable {α : Type*} [DecidableEq α]

/-- Taking distinct linked entries out of a list takes out as many. -/
theorem length_diff_of_subset {xs es : List α} (he : es.Nodup) (hs : ∀ e ∈ es, e ∈ xs) :
    (xs.diff es).length + es.length = xs.length := by
  have hsub : es.Subperm xs := he.subperm hs
  have := (List.subperm_append_diff_self_of_count_le (List.subperm_ext_iff.1 hsub)).length_eq
  rw [List.length_append] at this
  omega

namespace LcxlList

omit [DecidableEq α] in
structure Ok (l : LcxlList α) : Prop where
  count : l.listCount = l.list.length
  nodup : l.list.Nodup
  addNodup : l.toBeAddList.Nodup
  disjoint : ∀ e ∈ l.list, e ∉ l.toBeAddList
  delNodup : l.toBeDelList.Nodup
  linked : ∀ e ∈ l.toBeDelList, e ∈ l.list

namespace Ok

variable {l : LcxlList α} {e : α}

omit [DecidableEq α] in
theorem init : Ok (initLcxlList : LcxlList α) := by
  constructor <;> simp [initLcxlList]

omit [DecidableEq α] in
theorem lock (h : Ok l) : Ok (lockLcxlList l) := ⟨h.1, h.2, h.3, h.4, h.5, h.6⟩

omit [DecidableEq α] in
theorem add (h : Ok l) (hl : e ∉ l.list) (ha : e ∉ l.toBeAddList) :
    Ok (addEntrytoLcxlList l e) := by
  have hd := h.disjoint
  unfold addEntrytoLcxlList
  split_ifs
  · refine ⟨h.count, h.nodup, ?_, ?_, h.delNodup, h.linked⟩
    · simpa using List.Nodup.concat ha h.addNodup
    · intro x hx
      simp only [List.mem_append, List.mem_singleton, not_or]
      exact ⟨hd x hx, fun hxe => hl (hxe ▸ hx)⟩
  · refine ⟨?_, ?_, h.addNodup, ?_, h.delNodup, ?_⟩
    · simp [linkEntry, h.count]
    · simpa [linkEntry] using List.Nodup.concat hl h.nodup
    · intro x hx
      simp only [linkEntry, List.mem_append, List.mem_singleton] at hx ⊢
      rcases hx with hx | rfl
      · exact hd x hx
      · exact ha
    · intro x hx
      exact List.mem_append_left _ (h.linked x hx)

theorem remove (h : Ok l) (hl : e ∈ l.list) (hd : e ∉ l.toBeDelList) :
    Ok (removeEntryfromLcxlList l e) := by
  unfold removeEntryfromLcxlList
  split_ifs
  · refine ⟨h.count, h.nodup, h.addNodup, h.disjoint, ?_, ?_⟩
    · simpa using List.Nodup.concat hd h.delNodup
    · intro x hx
      simp only [List.mem_append, List.mem_singleton] at hx
      rcases hx with hx | rfl
      · exact h.linked x hx
      · exact hl
  · refine ⟨?_, h.nodup.erase e, h.addNodup, ?_, h.delNodup, ?_⟩
    · have := List.length_erase_of_mem hl
      have := List.length_pos_of_mem hl
      simp only [unlinkEntry, h.count]
      omega
    · exact fun x hx => h.disjoint x (List.mem_of_mem_erase hx)
    · intro x hx
      have hxe : x ≠ e := fun hxe => hd (hxe ▸ hx)
      exact (List.mem_erase_of_ne hxe).2 (h.linked x hx)

theorem applyToBe (h : Ok l) : Ok (applyToBe l) := by
  rw [applyToBe_eq]
  refine ⟨?_, ?_, .nil, by simp, .nil, by simp⟩
  · have hlen := length_diff_of_subset h.delNodup h.linked
    simp only [List.length_append, h.count]
    omega
  · simp only [List.nodup_append]
    refine ⟨h.nodup.diff, h.addNodup, fun a ha b hb hab => ?_⟩
    exact h.disjoint a (List.diff_subset _ _ ha) (hab ▸ hb)

theorem unlock (h : Ok l) : Ok (unlockLcxlList l) := by
  have h' : Ok { l with lockCount := l.lockCount - 1 } := ⟨h.1, h.2, h.3, h.4, h.5, h.6⟩
  simp only [unlockLcxlList]
  split_ifs
  · exact h'.applyToBe
  · exact h'

end Ok

end LcxlList

end LcxlNetLoader
