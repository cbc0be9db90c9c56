import LcxlNetLoader.LockRuns
import LcxlNetLoader.Proofs.LockList

/-!
# What holds of a shared lock list in every run

`LockInv` ties the byte that counts the locks to the holders, and says nothing waits once nobody
holds the list. `Inv` adds what proper entries keep: the count is the length, and the removals
asked for are the ones carried out and then the ones waiting. While a lock is out only the two
waiting lists change, so the list a holder sees is the one it locked.
-/

namespace LcxlNetLoader

variable {ι α : Type*}

namespace Call

theorem adds_append (tr tr' : List (Call ι α)) : adds (tr ++ tr') = adds tr ++ adds tr' :=
  List.filterMap_append

theorem removes_append (tr tr' : List (Call ι α)) :
    removes (tr ++ tr') = removes tr ++ removes tr' :=
  List.filterMap_append

theorem immediate_snoc [DecidableEq α] (tr : List (Call ι α)) (c : Call ι α) :
    immediate (tr ++ [c]) = applyNow (immediate tr) c := by
  simp [immediate]

end Call

namespace Shared

variable [DecidableEq ι] [DecidableEq α]

structure LockInv (s : Shared ι α) : Prop where
  lock : s.lst.lockCount.toNat = s.holders.length
  small : s.holders.length < 256
  idle : s.holders = [] → s.lst.toBeAddList = [] ∧ s.lst.toBeDelList = []

omit [DecidableEq ι] [DecidableEq α] in
theorem LockInv.lockCount_pos {s : Shared ι α} (h : LockInv s) :
    0 < s.lst.lockCount ↔ s.holders ≠ [] := by
  rw [UInt8.lt_iff_toNat_lt, h.lock, UInt8.toNat_zero, List.length_pos_iff]

omit [DecidableEq α] in
/-- The lock an unlock lets go of is the last one exactly when nobody is left. -/
theorem LockInv.last_iff {s : Shared ι α} (h : LockInv s) {p : ι} (hp : p ∈ s.holders) :
    s.lst.lockCount = 1 ↔ s.holders.erase p = [] := by
  have hlen := List.length_erase_of_mem hp
  have hpos := List.length_pos_of_mem hp
  rw [← UInt8.toNat_inj, h.lock, ← List.length_eq_zero_iff, hlen,
    show (1 : UInt8).toNat = 1 from rfl]
  omega

omit [DecidableEq ι] [DecidableEq α] in
theorem LockInv.init : LockInv (init : Shared ι α) :=
  ⟨rfl, by simp [Shared.init], fun _ => ⟨rfl, rfl⟩⟩

theorem LockInv.step {s s' : Shared ι α} {c : Call ι α} (h : LockInv s) (hc : Step s c s') :
    LockInv s' := by
  obtain ⟨hm, rfl⟩ := hc
  cases c with
  | lock p =>
    simp only [Matched] at hm
    refine ⟨?_, by simpa [exec] using hm, fun h0 => by simp [exec] at h0⟩
    have := h.lock
    simp only [exec, lockLcxlList_lockCount, UInt8.toNat_add, List.length_cons,
      show (1 : UInt8).toNat = 1 from rfl]
    omega
  | unlock p =>
    have hlen := List.length_erase_of_mem hm
    have hpos := List.length_pos_of_mem hm
    have hsmall := h.small
    refine ⟨?_, by simp only [exec]; omega, fun h0 => ?_⟩
    · have hle : (1 : UInt8) ≤ s.lst.lockCount := by
        rw [UInt8.le_iff_toNat_le, h.lock]
        exact hpos
      simp only [exec, unlockLcxlList_lockCount]
      rw [UInt8.toNat_sub_of_le _ _ hle, h.lock, hlen]
      rfl
    · simp only [exec] at h0 ⊢
      rw [unlockLcxlList_of_last ((h.last_iff hm).2 h0), applyToBe_eq]
      exact ⟨rfl, rfl⟩
  | add p e =>
    refine ⟨by simpa [exec] using h.lock, h.small, fun h0 => ?_⟩
    have hno : ¬ 0 < s.lst.lockCount := fun hl => h.lockCount_pos.1 hl h0
    simpa [exec, addEntrytoLcxlList, hno, linkEntry] using h.idle h0
  | remove p e =>
    refine ⟨by simpa [exec] using h.lock, h.small, fun h0 => ?_⟩
    have hno : ¬ 0 < s.lst.lockCount := fun hl => h.lockCount_pos.1 hl h0
    simpa [exec, removeEntryfromLcxlList, hno, unlinkEntry] using h.idle h0

theorem lockInv {tr : List (Call ι α)} {s : Shared ι α} (h : Sys.Run Step init tr s) :
    LockInv s :=
  h.preserves LockInv.step .init

/-! ## Proper entries -/

omit [DecidableEq ι] in
/-- Unlocking changes neither the removals carried out and waiting, nor their order. -/
theorem unlock_calls (l : LcxlList α) :
    (unlockLcxlList l).delCalls ++ (unlockLcxlList l).toBeDelList
      = l.delCalls ++ l.toBeDelList := by
  simp only [unlockLcxlList]
  split_ifs <;> simp [applyToBe_eq]

structure Inv (tr : List (Call ι α)) (s : Shared ι α) : Prop extends LockInv s where
  ok : s.lst.Ok
  calls : s.lst.delCalls ++ s.lst.toBeDelList = Call.removes tr
  adds : ∀ e, (Call.adds tr).count e
    = s.lst.list.count e + s.lst.toBeAddList.count e + s.lst.delCalls.count e

omit [DecidableEq ι] in
theorem Inv.init : Inv [] (init : Shared ι α) := ⟨.init, .init, rfl, fun _ => rfl⟩

omit [DecidableEq ι] in
/-- What an unlock takes out of the list it hands to `del_func`. -/
theorem unlock_count {l : LcxlList α} (h : l.Ok) (e : α) :
    (unlockLcxlList l).list.count e + (unlockLcxlList l).toBeAddList.count e
        + (unlockLcxlList l).delCalls.count e
      = l.list.count e + l.toBeAddList.count e + l.delCalls.count e := by
  have hle : l.toBeDelList.count e ≤ l.list.count e :=
    (h.delNodup.subperm h.linked).count_le e
  simp only [unlockLcxlList]
  split_ifs
  · simp only [applyToBe_eq, List.count_append, List.count_diff, List.count_nil]
    omega
  · rfl

theorem Inv.step {tr : List (Call ι α)} {s s' : Shared ι α} {c : Call ι α} (h : Inv tr s)
    (hc : ProperStep s c s') : Inv (tr ++ [c]) s' := by
  obtain ⟨⟨hm, hp⟩, rfl⟩ := hc
  refine ⟨h.toLockInv.step ⟨hm, rfl⟩, ?_, ?_, fun e => ?_⟩
  · cases c with
    | lock p => exact h.ok.lock
    | unlock p => exact h.ok.unlock
    | add p e => exact h.ok.add hp.1 hp.2.1
    | remove p e => exact h.ok.remove hp.1 hp.2
  · rw [Call.removes_append, ← h.calls]
    cases c with
    | lock p => simp [exec, lockLcxlList, Call.removes]
    | unlock p => simp [exec, unlock_calls, Call.removes]
    | add p e =>
      simp only [exec, addEntrytoLcxlList]
      split_ifs <;> simp [linkEntry, Call.removes]
    | remove p e =>
      simp only [exec, removeEntryfromLcxlList]
      split_ifs with hl
      · simp [Call.removes]
      · have hidle : s.holders = [] := by
          by_contra hne
          exact hl (h.lockCount_pos.2 hne)
        simp [unlinkEntry, Call.removes, (h.idle hidle).2]
  · rw [Call.adds_append, List.count_append, h.adds]
    cases c with
    | lock p => rfl
    | unlock p => exact (unlock_count h.ok e).symm
    | add p x =>
      simp only [exec, addEntrytoLcxlList, Call.adds, List.filterMap_cons, List.filterMap_nil]
      split_ifs <;> simp only [linkEntry, List.count_append] <;> omega
    | remove p x =>
      simp only [exec, removeEntryfromLcxlList, Call.adds, List.filterMap_cons, List.filterMap_nil]
      split_ifs
      · rfl
      · have hx := List.count_pos_iff.2 hp.1
        simp only [unlinkEntry, List.count_append, List.count_nil, List.count_erase,
          List.count_singleton]
        by_cases hex : x = e
        · subst hex
          simp only [beq_self_eq_true, if_true]
          omega
        · simp only [beq_iff_eq, hex, if_false]
          omega

/-- A step hands the entries it unlinks to `del_func`, each once, and no others. -/
theorem Inv.unlinked {tr : List (Call ι α)} {s s' : Shared ι α} {c : Call ι α} (h : Inv tr s)
    (hc : ProperStep s c s') : ∃ es, s'.lst.delCalls = s.lst.delCalls ++ es ∧ es.Nodup
      ∧ ∀ e, e ∈ es ↔ e ∈ s.lst.list ∧ e ∉ s'.lst.list := by
  obtain ⟨⟨hm, hp⟩, rfl⟩ := hc
  have hnone : ∀ e, e ∈ ([] : List α) ↔ e ∈ s.lst.list ∧ e ∉ s.lst.list := by simp
  cases c with
  | lock p => exact ⟨[], (List.append_nil _).symm, List.nodup_nil, hnone⟩
  | unlock p =>
    simp only [exec, unlockLcxlList]
    split_ifs
    · rw [applyToBe_eq]
      refine ⟨s.lst.toBeDelList, rfl, h.ok.delNodup, fun e => ?_⟩
      simp only [List.mem_append, h.ok.nodup.mem_sdiff_iff]
      constructor
      · intro he
        refine ⟨h.ok.linked e he, ?_⟩
        rintro (hl | ha)
        · exact hl.2 he
        · exact h.ok.disjoint e (h.ok.linked e he) ha
      · rintro ⟨he, hn⟩
        by_contra hd
        exact hn (.inl ⟨he, hd⟩)
    · exact ⟨[], (List.append_nil _).symm, List.nodup_nil, hnone⟩
  | add p x =>
    simp only [exec, addEntrytoLcxlList]
    split_ifs
    · exact ⟨[], (List.append_nil _).symm, List.nodup_nil, hnone⟩
    · refine ⟨[], (List.append_nil _).symm, List.nodup_nil, fun e => ?_⟩
      simp only [linkEntry, List.mem_append, List.not_mem_nil, false_iff, not_and, not_not]
      exact .inl
  | remove p x =>
    simp only [exec, removeEntryfromLcxlList]
    split_ifs
    · exact ⟨[], (List.append_nil _).symm, List.nodup_nil, hnone⟩
    · refine ⟨[x], rfl, List.nodup_singleton x, fun e => ?_⟩
      simp only [unlinkEntry, h.ok.nodup.mem_erase_iff, List.mem_singleton]
      constructor
      · rintro rfl
        exact ⟨hp.1, fun hn => hn.1 rfl⟩
      · rintro ⟨he, hn⟩
        by_contra hex
        exact hn ⟨hex, he⟩

theorem inv {tr : List (Call ι α)} {s : Shared ι α} (h : Sys.Run ProperStep init tr s) :
    Inv tr s :=
  h.induct Inv.init fun _ hI hc => hI.step hc

/-- A step after which a lock is still out leaves the linked entries alone. -/
theorem HeldStep.same {s s' : Shared ι α} {c : Call ι α} (h : LockInv s) (h0 : s.holders ≠ [])
    (hc : HeldStep s c s') : s'.lst.list = s.lst.list ∧ s'.lst.listCount = s.lst.listCount
      ∧ s'.lst.delCalls = s.lst.delCalls := by
  obtain ⟨⟨⟨hm, -⟩, rfl⟩, h1⟩ := hc
  have hpos := h.lockCount_pos.2 h0
  cases c with
  | lock p => exact ⟨rfl, rfl, rfl⟩
  | unlock p =>
    have hlast : s.lst.lockCount ≠ 1 := fun hl => h1 ((h.last_iff hm).1 hl)
    simp [exec, unlockLcxlList_of_not_last hlast]
  | add p e => simp [exec, addEntrytoLcxlList, hpos]
  | remove p e => simp [exec, removeEntryfromLcxlList, hpos]

/-- While at least one lock is out nothing a holder can see changes. -/
theorem held_same {tr : List (Call ι α)} {s s' : Shared ι α} (h : LockInv s)
    (h0 : s.holders ≠ []) (hr : Sys.Run HeldStep s tr s') :
    s'.lst.list = s.lst.list ∧ s'.lst.listCount = s.lst.listCount
      ∧ s'.lst.delCalls = s.lst.delCalls := by
  suffices LockInv s' ∧ s'.holders ≠ [] ∧ s'.lst.list = s.lst.list
      ∧ s'.lst.listCount = s.lst.listCount ∧ s'.lst.delCalls = s.lst.delCalls from this.2.2
  refine hr.preserves (I := fun s' => LockInv s' ∧ s'.holders ≠ [] ∧ s'.lst.list = s.lst.list
    ∧ s'.lst.listCount = s.lst.listCount ∧ s'.lst.delCalls = s.lst.delCalls) ?_
    ⟨h, h0, rfl, rfl, rfl⟩
  rintro s₁ c s₂ ⟨hI, hne, h1, h2, h3⟩ hc
  obtain ⟨g1, g2, g3⟩ := hc.same hI hne
  exact ⟨hI.step ⟨hc.1.1.1, hc.1.2⟩, hc.2, g1.trans h1, g2.trans h2, g3.trans h3⟩

/-- In every state any parties reach, the count is the number of linked entries, nothing waits
once nobody holds the list, and `del_func` was called once for every removal carried out and for
no other entry: each time an entry was added it is linked or waits to be, or it was unlinked, and
that is when `del_func` was called with it. From there, while a lock is out, the linked entries,
their count and the calls of `del_func` stay as they are. -/
theorem snapshot_stable {tr : List (Call ι α)} {s : Shared ι α}
    (h : Sys.Run ProperStep init tr s) :
    s.lst.listCount = s.lst.list.length
      ∧ (s.holders = [] → s.lst.toBeAddList = [] ∧ s.lst.toBeDelList = [])
      ∧ (∀ e, s.lst.delCalls.count e + (if e ∈ s.lst.toBeDelList then 1 else 0)
          = (Call.removes tr).count e)
      ∧ (∀ e ∈ s.lst.toBeDelList, e ∈ s.lst.list)
      ∧ (s.lst.list.Nodup ∧ ∀ e, (Call.adds tr).count e
          = s.lst.list.count e + s.lst.toBeAddList.count e + s.lst.delCalls.count e)
      ∧ (∀ e ∈ s.lst.delCalls, (Call.adds tr).count e ≤ s.lst.delCalls.count e →
          e ∉ s.lst.list)
      ∧ (∀ c s', ProperStep s c s' → ∃ es, s'.lst.delCalls = s.lst.delCalls ++ es ∧ es.Nodup
          ∧ ∀ e, e ∈ es ↔ e ∈ s.lst.list ∧ e ∉ s'.lst.list)
      ∧ ∀ tr' s', s.holders ≠ [] → Sys.Run HeldStep s tr' s' →
          s'.lst.list = s.lst.list ∧ s'.lst.listCount = s.lst.listCount
            ∧ s'.lst.delCalls = s.lst.delCalls := by
  have hI := inv h
  refine ⟨hI.ok.count, hI.idle, fun e => ?_, hI.ok.linked, ⟨hI.ok.nodup, hI.adds⟩,
    fun e _ hle hl => ?_, fun c s' => hI.unlinked,
    fun tr' s' h0 hr => held_same hI.toLockInv h0 hr⟩
  · rw [← hI.calls, List.count_append, hI.ok.delNodup.count]
  · have hadds := hI.adds e
    have hpos := List.count_pos_iff.2 hl
    omega

/-- Two parties hold the list while one of them removes an entry, which goes with the last lock. -/
theorem snapshot_stable_overlap :
    let s := [Call.add 0 7, .lock 0, .lock 1, .remove 1 7, .unlock 0].foldl exec
      (init : Shared ℕ ℕ)
    let s' := s.exec (.unlock 1)
    (s.lst.list = [7] ∧ s.lst.delCalls.count 7 + (if 7 ∈ s.lst.toBeDelList then 1 else 0) = 1)
      ∧ s'.lst.delCalls = [7] ∧ 7 ∉ s'.lst.list := by
  have h : Sys.Allowed (fun s c => s.Matched c ∧ s.Proper c) exec (init : Shared ℕ ℕ)
      [Call.add 0 7, .lock 0, .lock 1, .remove 1 7, .unlock 0] := by decide
  have h' : Sys.Allowed (fun s c => s.Matched c ∧ s.Proper c) exec (init : Shared ℕ ℕ)
      [Call.add 0 7, .lock 0, .lock 1, .remove 1 7, .unlock 0, .unlock 1] := by decide
  obtain ⟨-, -, hremoved, -⟩ := snapshot_stable h.run
  obtain ⟨-, -, -, -, -, hgone, -⟩ := snapshot_stable h'.run
  refine ⟨⟨by decide, hremoved 7⟩, by decide, hgone 7 ?_ ?_⟩ <;> decide

end Shared

end LcxlNetLoader
