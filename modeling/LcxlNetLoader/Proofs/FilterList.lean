import LcxlNetLoader.FilterList

/-!
# Filters that parties may look at

How far a filter's calls have got says what has become of its pool and its server list
(`Consistent`) and where it can be in `g_filter_list` (`Placed`): nowhere before it is added, and
neither waiting to go nor gone until it is removed, however long its addition waits.
-/

namespace LcxlNetLoader

namespace LcxlList

variable {l : LcxlList FilterPtr} {p q : FilterPtr}

/-- The filter is in no part of the list. -/
structure Nowhere (l : LcxlList FilterPtr) (p : FilterPtr) : Prop where
  list : p ∉ l.list
  toBeAddList : p ∉ l.toBeAddList
  toBeDelList : p ∉ l.toBeDelList
  delCalls : p ∉ l.delCalls

/-- The filter has not been removed. -/
structure Unremoved (l : LcxlList FilterPtr) (p : FilterPtr) : Prop where
  toBeDelList : p ∉ l.toBeDelList
  delCalls : p ∉ l.delCalls

theorem Nowhere.unremoved (h : l.Nowhere p) : l.Unremoved p := ⟨h.toBeDelList, h.delCalls⟩

/-- A filter that is not removed is nowhere if it is neither linked nor about to be. -/
theorem Unremoved.nowhere (h : l.Unremoved p) (hl : p ∉ l.list) (ha : p ∉ l.toBeAddList) :
    l.Nowhere p :=
  ⟨hl, ha, h.toBeDelList, h.delCalls⟩

theorem notMem_snoc {ps : List FilterPtr} (h : q ∉ ps) (hq : q ≠ p) : q ∉ ps ++ [p] := fun hm =>
  (List.mem_append.1 hm).elim h fun hm => hq (List.mem_singleton.1 hm)

theorem Unremoved.unlock (h : l.Unremoved p) : (unlockLcxlList l).Unremoved p := by
  unfold unlockLcxlList
  simp only
  split_ifs
  · rw [applyToBe_eq]
    exact ⟨List.not_mem_nil, fun hm => (List.mem_append.1 hm).elim h.delCalls h.toBeDelList⟩
  · exact ⟨h.toBeDelList, h.delCalls⟩

theorem Nowhere.unlock (h : l.Nowhere p) : (unlockLcxlList l).Nowhere p := by
  have hu := h.unremoved.unlock
  unfold unlockLcxlList at hu ⊢
  simp only at hu ⊢
  split_ifs at hu ⊢
  · refine hu.nowhere (fun hm => ?_) (by rw [applyToBe_eq]; exact List.not_mem_nil)
    rw [applyToBe_eq] at hm
    exact (List.mem_append.1 hm).elim (fun hm => h.list (List.diff_subset _ _ hm)) h.toBeAddList
  · exact hu.nowhere h.list h.toBeAddList

theorem Unremoved.add (h : l.Unremoved q) (p : FilterPtr) :
    (addEntrytoLcxlList l p).Unremoved q := by
  unfold addEntrytoLcxlList
  split_ifs <;> exact ⟨h.toBeDelList, h.delCalls⟩

theorem Nowhere.add (h : l.Nowhere q) (hq : q ≠ p) : (addEntrytoLcxlList l p).Nowhere q := by
  refine (h.unremoved.add p).nowhere ?_ ?_ <;> unfold addEntrytoLcxlList <;> split_ifs
  · exact h.list
  · exact notMem_snoc h.list hq
  · exact notMem_snoc h.toBeAddList hq
  · exact h.toBeAddList

theorem Unremoved.remove (h : l.Unremoved q) (hq : q ≠ p) :
    (removeEntryfromLcxlList l p).Unremoved q := by
  unfold removeEntryfromLcxlList
  split_ifs
  · exact ⟨notMem_snoc h.toBeDelList hq, h.delCalls⟩
  · exact ⟨h.toBeDelList, notMem_snoc h.delCalls hq⟩

theorem Nowhere.remove (h : l.Nowhere q) (hq : q ≠ p) :
    (removeEntryfromLcxlList l p).Nowhere q := by
  refine (h.unremoved.remove hq).nowhere ?_ ?_ <;> unfold removeEntryfromLcxlList <;> split_ifs
  · exact h.list
  · exact fun hm => h.list (List.mem_of_mem_erase hm)
  · exact h.toBeAddList
  · exact h.toBeAddList

end LcxlList

/-- What its position says of a filter's pool and server list. -/
def Consistent (sendNetBufferListPool serverList : Lifetime) : Position → Prop
  | .unallocated | .allocated => sendNetBufferListPool = .absent ∧ serverList = .absent
  | .pooled | .attributed | .failed => sendNetBufferListPool ≠ .gone ∧ serverList = .absent
  | .initialised | .attached => sendNetBufferListPool ≠ .gone ∧ serverList = .live
  | .unpooled | .locked | .unlocked => sendNetBufferListPool ≠ .live ∧ serverList = .live
  | .destroyed | .removed => serverList = .gone

/-- Where a filter of that position can be. -/
def Placed (l : LcxlList FilterPtr) (p : FilterPtr) : Position → Prop
  | .unallocated | .allocated | .pooled | .attributed | .initialised | .failed => l.Nowhere p
  | .attached | .unpooled | .locked | .unlocked | .destroyed => l.Unremoved p
  | .removed => True

/-- A change of the list that no filter's place but `p`'s depends on. -/
theorem Placed.mono {l l' : LcxlList FilterPtr} {p : FilterPtr} {position : Position}
    (h : Placed l p position) (hn : l.Nowhere p → l'.Nowhere p)
    (hu : l.Unremoved p → l'.Unremoved p) : Placed l' p position := by
  cases position <;> first | exact hn h | exact hu h | trivial

namespace Filters

variable {ι : Type*} [DecidableEq ι] {s : Filters ι} {c : FilterCall ι} {p q : FilterPtr}

omit [DecidableEq ι] in
structure Inv (s : Filters ι) : Prop where
  consistent : ∀ p, Consistent (s.object p).sendNetBufferListPool (s.object p).serverList
    (s.object p).position
  placed : ∀ p, Placed s.list.lst p (s.object p).position

omit [DecidableEq ι] in
theorem inv_init : Inv (init : Filters ι) :=
  ⟨fun _ => ⟨rfl, rfl⟩, fun _ => ⟨List.not_mem_nil, List.not_mem_nil, List.not_mem_nil,
    List.not_mem_nil⟩⟩

omit [DecidableEq ι] in
/-- A change of one filter, and of the list only in what concerns that one. -/
theorem Inv.change (h : Inv s) {p : FilterPtr} {list : Shared ι FilterPtr} {o : FilterObject}
    (hc : Consistent o.sendNetBufferListPool o.serverList o.position)
    (hp : Placed list.lst p o.position)
    (hq : ∀ q, q ≠ p → Placed list.lst q (s.object q).position) :
    Inv { s with list := list, object := Function.update s.object p o } := by
  refine ⟨fun q => ?_, fun q => ?_⟩ <;> by_cases hqp : q = p
  · simp only [hqp, Function.update_self]
    exact hc
  · simp only [Function.update_of_ne hqp]
    exact h.consistent q
  · simp only [hqp, Function.update_self]
    exact hp
  · simp only [Function.update_of_ne hqp]
    exact hq q hqp

omit [DecidableEq ι] in
theorem Inv.modify (h : Inv s) (p : FilterPtr) (g : FilterObject → FilterObject)
    (hc : Consistent (g (s.object p)).sendNetBufferListPool (g (s.object p)).serverList
      (g (s.object p)).position) (hp : Placed s.list.lst p (g (s.object p)).position) :
    Inv (s.modify p g) :=
  h.change hc hp fun q _ => h.placed q

omit [DecidableEq ι] in
/-- What is known of a filter at a position. -/
theorem Inv.at {position : Position} (h : Inv s) (hp : (s.object p).position = position) :
    Consistent (s.object p).sendNetBufferListPool (s.object p).serverList position
      ∧ Placed s.list.lst p position :=
  hp ▸ ⟨h.consistent p, h.placed p⟩

theorem Inv.exec (h : Inv s) (he : s.Enabled c) : Inv (s.exec c) := by
  cases c with
  | lock i => exact ⟨h.consistent, fun p => (h.placed p).mono
      (fun hn => ⟨hn.1, hn.2, hn.3, hn.4⟩) fun hu => ⟨hu.1, hu.2⟩⟩
  | unlock i => exact ⟨h.consistent, fun p => (h.placed p).mono (·.unlock) (·.unlock)⟩
  | visit i p => exact h
  | deleteRoute p => exact h
  | decServer p => exact h
  | allocMem p =>
    obtain ⟨hc, hp⟩ := h.at he
    rw [Filters.exec, moveTo]
    refine h.modify p _ ?_ ?_
    · exact hc
    · exact hp
  | allocatePool p allocated =>
    obtain ⟨hc, hp⟩ := h.at he
    rw [Filters.exec]
    refine h.modify p _ ⟨?_, hc.2⟩ ?_
    · simp only
      split_ifs <;> decide
    · exact hp
  | setAttributes p success =>
    obtain ⟨hc, hp⟩ := h.at he
    rw [Filters.exec, moveTo]
    refine h.modify p _ ?_ ?_
    · cases success <;> exact hc
    · cases success <;> exact hp
  | initServerList p =>
    obtain ⟨hc, hp⟩ := h.at he
    rw [Filters.exec]
    refine h.modify p _ ⟨hc.1, rfl⟩ ?_
    exact hp
  | addEntry p =>
    obtain ⟨hc, hp⟩ := h.at he
    refine h.change ?_ (hp.unremoved.add p) fun q hq => (h.placed q).mono (·.add hq) (·.add p)
    exact hc
  | freePool p =>
    obtain ⟨hc, hp⟩ := h.at he
    rw [Filters.exec]
    refine h.modify p _ ⟨?_, hc.2⟩ ?_
    · simp only
      split_ifs with hl
      · decide
      · exact hl
    · exact hp
  | lockServerList p =>
    obtain ⟨hc, hp⟩ := h.at he
    rw [Filters.exec, moveTo]
    refine h.modify p _ ?_ ?_
    · exact hc
    · exact hp
  | unlockServerList p =>
    obtain ⟨hc, hp⟩ := h.at he
    rw [Filters.exec, moveTo]
    refine h.modify p _ ?_ ?_
    · exact hc
    · exact hp
  | delServerList p =>
    obtain ⟨-, hp⟩ := h.at he
    rw [Filters.exec]
    refine h.modify p _ rfl ?_
    exact hp
  | removeEntry p =>
    obtain ⟨hc, -⟩ := h.at he
    refine h.change ?_ trivial fun q hq => (h.placed q).mono (·.remove hq) (·.remove hq)
    exact hc

omit [DecidableEq ι] in
/-- A filter that is linked and has not been freed is alive as far as its detach leaves it. -/
theorem alive_iff_of_unremoved {pool serverList : Lifetime} {position : Position}
    (ho : s.object p = ⟨position, pool, serverList⟩) (hu : s.list.lst.Unremoved p)
    (hf : position ≠ .failed) : s.Alive p ↔ pool ≠ .gone ∧ serverList = .live := by
  have hfreed : ¬ s.Freed p := by
    rintro (hm | hm)
    · exact hu.delCalls hm
    · rw [ho] at hm
      exact hf hm
  refine ⟨fun h => ?_, fun h => ⟨?_, ?_, hfreed⟩⟩
  · have := h.pool
    have := h.serverList
    rw [ho] at *
    exact ⟨‹_›, ‹_›⟩
  · rw [ho]
    exact h.1
  · rw [ho]
    exact h.2

omit [DecidableEq ι] in
/-- A visited filter is linked, so it has been added; what its detach has freed of it decides. -/
theorem alive_iff_untouched (h : Inv s) (hp : p ∈ s.list.lst.list) :
    s.Alive p ↔ s.Untouched p := by
  have hc := h.consistent p
  have hl := h.placed p
  rcases ho : s.object p with ⟨position, pool, serverList⟩
  rw [ho] at hc hl
  simp only at hc hl
  unfold Untouched
  rw [ho]
  cases position with
  | unallocated | allocated | pooled | attributed | initialised | failed => exact absurd hp hl.list
  | attached => simp [alive_iff_of_unremoved ho hl, hc.1, hc.2]
  | unpooled | locked | unlocked =>
    rw [alive_iff_of_unremoved ho hl (by decide)]
    rcases pool with _ | _ | _ <;> simp [hc.2]
    exact hc.1 rfl
  | destroyed | removed =>
    have hgone : ¬ s.Alive p := fun ha => by
      have := ha.serverList
      rw [ho] at this
      exact absurd (this.symm.trans hc) (by decide)
    simp [hgone]

/-- In every run every filter that a party visits is alive exactly where no filter is visited that
its `FilterDetach` has begun to free. -/
theorem visits_alive_iff (tr : List (FilterCall ι))
    (h : Sys.Allowed Enabled exec (init : Filters ι) tr) :
    Sys.Allowed VisitsAlive exec (init : Filters ι) tr ↔
      Sys.Allowed VisitsUntouched exec (init : Filters ι) tr := by
  refine Sys.allowed_iff_of_inv (I := Inv) (fun s c hs hc _ => hs.exec hc) (fun s c hs hc => ?_)
    inv_init h
  cases c with
  | visit i p => exact alive_iff_untouched hs hc.2
  | _ => exact Iff.rfl

/-- The filter at address 0 is attached, and the worker thread locks the list and visits it. -/
def visiting : List (FilterCall ℕ) :=
  [.allocMem 0, .allocatePool 0 true, .setAttributes 0 true, .initServerList 0, .addEntry 0,
    .lock 7, .visit 7 0]

/-- The filter is detached, and a party that locks the list next finds none to visit. -/
def detaching : List (FilterCall ℕ) :=
  [.freePool 0, .unlock 7, .lockServerList 0, .unlockServerList 0, .delServerList 0, .removeEntry 0,
    .lock 8, .unlock 8]

theorem visits_alive_iff_attached :
    Sys.Allowed VisitsAlive exec (init : Filters ℕ) (visiting ++ detaching) := by
  have hen : Sys.Allowed Enabled exec (init : Filters ℕ) (visiting ++ detaching) :=
    ⟨rfl, rfl, rfl, rfl, rfl, trivial, ⟨.head _, .head _⟩, rfl, .head _, rfl, rfl, rfl, rfl,
      trivial, .head _, trivial⟩
  exact (visits_alive_iff (visiting ++ detaching) hen).2
    ⟨trivial, trivial, trivial, trivial, trivial, trivial, .inl rfl, trivial, trivial, trivial,
      trivial, trivial, trivial, trivial, trivial, trivial⟩

/-- While the worker thread holds the list, `FilterDetach` frees the pool of the filter that it
visits next. -/
theorem not_alive_of_detach : ¬ ∀ (tr : List (FilterCall ℕ)),
    Sys.Allowed Enabled exec (init : Filters ℕ) tr →
      Sys.Allowed VisitsAlive exec (init : Filters ℕ) tr := by
  intro h
  have hen : Sys.Allowed Enabled exec (init : Filters ℕ) (visiting ++ [.freePool 0, .visit 7 0]) :=
    ⟨rfl, rfl, rfl, rfl, rfl, trivial, ⟨.head _, .head _⟩, rfl, ⟨.head _, .head _⟩, trivial⟩
  exact (h _ hen).2.2.2.2.2.2.2.2.1.pool rfl

end Filters

end LcxlNetLoader
