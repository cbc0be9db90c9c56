import LcxlNetLoader.Proofs.LockRuns

/-!
# Deferred changes against immediate ones

With every entry added once, and removed once and after it was added, a shared list whose last
lock has been let go is the list the same calls make at once, unless some removal came while its
entry's addition still waited: removals are carried out first, so that entry is handed to
`del_func` and linked afterwards.
-/

namespace LcxlNetLoader

variable {ι α : Type*} [DecidableEq ι] [DecidableEq α]

namespace OncePerEntry

omit [DecidableEq ι] [DecidableEq α]

theorem of_prefix {pre tr : List (Call ι α)} (h : OncePerEntry tr) (hp : pre <+: tr) :
    OncePerEntry pre := by
  obtain ⟨suf, rfl⟩ := hp
  have ha := h.adds
  have hr := h.removes
  rw [Call.adds_append] at ha
  rw [Call.removes_append] at hr
  exact ⟨ha.of_append_left, hr.of_append_left,
    fun q p e hq => h.added q p e (hq.trans (List.prefix_append _ _))⟩

theorem not_mem_adds {tr : List (Call ι α)} {p : ι} {e : α} (h : OncePerEntry (tr ++ [.add p e])) :
    e ∉ Call.adds tr := by
  have ha := h.adds
  rw [Call.adds_append] at ha
  intro he
  exact (List.nodup_append.1 ha).2.2 e he e (by simp [Call.adds]) rfl

theorem not_mem_removes {tr : List (Call ι α)} {p : ι} {e : α}
    (h : OncePerEntry (tr ++ [.remove p e])) : e ∉ Call.removes tr := by
  have hr := h.removes
  rw [Call.removes_append] at hr
  intro he
  exact (List.nodup_append.1 hr).2.2 e he e (by simp [Call.removes]) rfl

end OncePerEntry

/-- No entry is removed while its addition waits. -/
def NoWaitingRemove (tr : List (Call ι α)) : Prop :=
  ∀ pre p e s, pre ++ [.remove p e] <+: tr → Sys.Run Shared.Step .init pre s →
    e ∉ s.lst.toBeAddList

namespace Shared

/-- The list that waits to be, had the waiting changes been made. -/
def settled (l : LcxlList α) : List α := l.list.filter (· ∉ l.toBeDelList) ++ l.toBeAddList

structure Deferred (tr : List (Call ι α)) (s : Shared ι α) : Prop extends Inv tr s where
  now : settled s.lst = Call.immediate tr
  added : ∀ e, e ∈ Call.adds tr ↔ e ∈ s.lst.list ∨ e ∈ s.lst.toBeAddList ∨ e ∈ s.lst.delCalls
  gone : ∀ e ∈ s.lst.delCalls, e ∉ s.lst.list ∧ e ∉ s.lst.toBeAddList

omit [DecidableEq ι] in
theorem settled_unlock {l : LcxlList α} (h : l.Ok) : settled (unlockLcxlList l) = settled l := by
  simp only [unlockLcxlList]
  split_ifs
  · simp [applyToBe_eq, settled, h.nodup.sdiff_eq_filter]
  · rfl

omit [DecidableEq ι] in
theorem settled_add {l : LcxlList α} {e : α} (h : l.Ok) (hl : e ∉ l.list)
    (h0 : ¬ 0 < l.lockCount → l.toBeAddList = []) :
    settled (addEntrytoLcxlList l e) = settled l ++ [e] := by
  have hd : e ∉ l.toBeDelList := fun he => hl (h.linked e he)
  unfold addEntrytoLcxlList
  split_ifs with hc
  · simp [settled]
  · simp [settled, linkEntry, h0 hc, hd]

omit [DecidableEq ι] in
theorem settled_remove {l : LcxlList α} {e : α} (h : l.Ok) (hl : e ∈ l.list)
    (hd : e ∉ l.toBeDelList) : settled (removeEntryfromLcxlList l e) = (settled l).erase e := by
  have ha := h.disjoint e hl
  have hmem : e ∈ l.list.filter (· ∉ l.toBeDelList) := by simp [hl, hd]
  unfold removeEntryfromLcxlList
  split_ifs
  · rw [settled, settled, List.erase_append_left _ hmem, (h.nodup.filter _).erase_eq_filter,
      List.filter_filter]
    congr 1
    refine List.filter_congr fun x _ => ?_
    simp only [List.mem_append, List.mem_singleton, not_or, decide_not]
    by_cases hx : x = e <;> simp [hx]
  · rw [settled, settled, List.erase_append_left _ hmem, (h.nodup.filter _).erase_eq_filter,
      List.filter_filter]
    simp only [unlinkEntry, h.nodup.erase_eq_filter, List.filter_filter]
    congr 1
    refine List.filter_congr fun x _ => ?_
    rw [Bool.and_comm]

omit [DecidableEq ι] in
theorem Deferred.init : Deferred [] (init : Shared ι α) :=
  ⟨.init, rfl, by simp [Shared.init, initLcxlList, Call.adds],
    by simp [Shared.init, initLcxlList]⟩

omit [DecidableEq ι] in
/-- A call on an entry as its once-only history has it, and not a removal of one whose addition
waits, is on a proper entry. -/
theorem Deferred.proper {tr : List (Call ι α)} {s : Shared ι α} {c : Call ι α}
    (h : Deferred tr s) (ho : OncePerEntry (tr ++ [c]))
    (hw : ∀ p e, c = .remove p e → e ∉ s.lst.toBeAddList) : s.Proper c := by
  cases c with
  | lock p => trivial
  | unlock p => trivial
  | add p e =>
    have hn := ho.not_mem_adds
    rw [h.added, not_or, not_or] at hn
    exact ⟨hn.1, hn.2.1, fun hd => hn.1 (h.ok.linked e hd)⟩
  | remove p e =>
    have hn := ho.not_mem_removes
    rw [← h.calls, List.mem_append, not_or] at hn
    have ha := (h.added e).1 (ho.added tr p e (List.prefix_refl _))
    rcases ha with ha | ha | ha
    · exact ⟨ha, hn.2⟩
    · exact absurd ha (hw p e rfl)
    · exact absurd ha hn.1

theorem Deferred.step {tr : List (Call ι α)} {s s' : Shared ι α} {c : Call ι α}
    (h : Deferred tr s) (ho : OncePerEntry (tr ++ [c])) (hc : ProperStep s c s') :
    Deferred (tr ++ [c]) s' := by
  have hI := h.toInv.step hc
  obtain ⟨⟨hm, hp⟩, rfl⟩ := hc
  have hw : ¬ 0 < s.lst.lockCount → s.lst.toBeAddList = [] ∧ s.lst.toBeDelList = [] := by
    rw [h.lockCount_pos, not_not]
    exact h.idle
  refine ⟨hI, ?_, ?_, ?_⟩
  · rw [Call.immediate_snoc, ← h.now]
    cases c with
    | lock p => rfl
    | unlock p => exact settled_unlock h.ok
    | add p e => exact settled_add h.ok hp.1 fun h0 => (hw h0).1
    | remove p e => exact settled_remove h.ok hp.1 hp.2
  · intro x
    rw [Call.adds_append, List.mem_append, h.added]
    cases c with
    | lock p => simp [exec, lockLcxlList, Call.adds]
    | unlock p =>
      simp only [exec, unlockLcxlList]
      split_ifs
      · have hl := h.ok.linked x
        simp only [applyToBe_eq, Call.adds, h.ok.nodup.mem_sdiff_iff, List.mem_append]
        grind
      · simp [Call.adds]
    | add p e =>
      simp only [exec, addEntrytoLcxlList]
      split_ifs <;> simp [linkEntry, Call.adds] <;> grind
    | remove p e =>
      simp only [exec, removeEntryfromLcxlList]
      split_ifs
      · simp [Call.adds]
      · simp only [unlinkEntry, h.ok.nodup.mem_erase_iff, Call.adds, List.mem_append]
        have := hp.1
        grind
  · intro x hx
    have hg := h.gone x
    cases c with
    | lock p => exact hg hx
    | unlock p =>
      simp only [exec, unlockLcxlList] at hx ⊢
      split_ifs at hx ⊢
      · have hl := h.ok.linked x
        have hd := h.ok.disjoint x
        simp only [applyToBe_eq, h.ok.nodup.mem_sdiff_iff, List.mem_append] at hx ⊢
        grind
      · exact hg hx
    | add p e =>
      have he : x ∈ s.lst.delCalls → x ≠ e := by
        rintro hd rfl
        exact ho.not_mem_adds ((h.added x).2 (.inr (.inr hd)))
      simp only [exec, addEntrytoLcxlList] at hx ⊢
      split_ifs at hx ⊢ <;> simp only [linkEntry, List.mem_append, List.mem_singleton] at hx ⊢
      all_goals grind
    | remove p e =>
      have hd := h.ok.disjoint e hp.1
      simp only [exec, removeEntryfromLcxlList] at hx ⊢
      split_ifs at hx ⊢
      · exact hg hx
      · simp only [unlinkEntry, h.ok.nodup.mem_erase_iff, List.mem_append,
          List.mem_singleton] at hx ⊢
        grind

theorem deferred {tr : List (Call ι α)} {s : Shared ι α} (h : Sys.Run Step init tr s)
    (ho : OncePerEntry tr) (hw : NoWaitingRemove tr) : Deferred tr s := by
  refine h.induct (I := fun tr s => OncePerEntry tr → NoWaitingRemove tr → Deferred tr s)
    (fun _ _ => .init) ?_ ho hw
  intro tr s₁ c s₂ hr ih hc ho hw
  have hD : Deferred tr s₁ := ih (ho.of_prefix (List.prefix_append _ _))
    fun pre p e s hp => hw pre p e s (hp.trans (List.prefix_append _ _))
  have hp : s₁.Proper c := hD.proper ho fun p e hce => by
    subst hce
    exact hw tr p e s₁ (List.prefix_refl _) hr
  exact hD.step ho ⟨⟨hc.1, hp⟩, hc.2⟩

omit [DecidableEq ι] in
theorem Deferred.refines {tr : List (Call ι α)} {s : Shared ι α} (h : Deferred tr s)
    (h0 : s.holders = []) : s.Refines tr := by
  obtain ⟨ha, hd⟩ := h.idle h0
  have hnow := h.now
  have hcalls := h.calls
  rw [hd, List.append_nil] at hcalls
  refine ⟨?_, h.ok.count, hcalls ▸ List.Perm.refl _, fun e he => (h.gone e he).1⟩
  rw [← hnow, settled, ha, hd]
  simp

/-! ## A removal that overtakes its addition -/

/-- An entry waits both to be added and to be removed. -/
def Overtaken (s : Shared ι α) (e : α) : Prop := e ∈ s.lst.toBeAddList ∧ e ∈ s.lst.toBeDelList

/-- The entry waits both ways until the last lock is let go, and is then linked after `del_func`
had it. -/
theorem Overtaken.step {s s' : Shared ι α} {e : α} {c : Call ι α} (h : Overtaken s e)
    (hI : LockInv s) (hc : Step s c s') :
    Overtaken s' e ∨ s'.holders = [] ∧ e ∈ s'.lst.delCalls ∧ e ∈ s'.lst.list := by
  obtain ⟨ha, hd⟩ := h
  have hpos : 0 < s.lst.lockCount := by
    rw [hI.lockCount_pos]
    intro h0
    rw [(hI.idle h0).1] at ha
    simp at ha
  obtain ⟨hm, rfl⟩ := hc
  cases c with
  | lock p => exact .inl ⟨ha, hd⟩
  | unlock p =>
    by_cases hl : s.lst.lockCount = 1
    · refine .inr ⟨(hI.last_iff hm).1 hl, ?_⟩
      simp [exec, unlockLcxlList_of_last hl, applyToBe_eq, ha, hd]
    · left
      simp [Overtaken, exec, unlockLcxlList_of_not_last hl, ha, hd]
  | add p e => simp [Overtaken, exec, addEntrytoLcxlList, hpos, ha, hd]
  | remove p e => simp [Overtaken, exec, removeEntryfromLcxlList, hpos, ha, hd]

/-- Once overtaken, the entry ends up linked and deleted by the time the last lock is let go. -/
theorem Overtaken.run {tr : List (Call ι α)} {s s' : Shared ι α} {e : α} (h : Overtaken s e)
    (hI : LockInv s) (hr : Sys.Run Step s tr s') :
    (LockInv s' ∧ Overtaken s' e) ∨ ∃ pre s₁, pre <+: tr ∧ Sys.Run Step s pre s₁
      ∧ s₁.holders = [] ∧ e ∈ s₁.lst.delCalls ∧ e ∈ s₁.lst.list := by
  refine hr.induct (I := fun tr s' => (LockInv s' ∧ Overtaken s' e) ∨ ∃ pre s₁, pre <+: tr
    ∧ Sys.Run Step s pre s₁ ∧ s₁.holders = [] ∧ e ∈ s₁.lst.delCalls ∧ e ∈ s₁.lst.list)
    (.inl ⟨hI, h⟩) ?_
  rintro tr s₁ c s₂ hr (⟨hI, ho⟩ | ⟨pre, s', hp, h'⟩) hc
  · rcases ho.step hI hc with ho | ho
    · exact .inl ⟨hI.step hc, ho⟩
    · exact .inr ⟨tr ++ [c], s₂, List.prefix_refl _, hr.snoc hc, ho⟩
  · exact .inr ⟨pre, s', hp.trans (List.prefix_append _ _), h'⟩

/-- For a history of calls that has let go of every lock: whenever nobody holds the list it is
what the calls so far make at once, exactly if no removal came while its entry's addition
waited. -/
theorem deferred_refines_iff {tr : List (Call ι α)} {s : Shared ι α}
    (h : Sys.Run Step init tr s) (ho : OncePerEntry tr) (h0 : s.holders = []) :
    (∀ pre s', pre <+: tr → Sys.Run Step init pre s' → s'.holders = [] → s'.Refines pre)
      ↔ NoWaitingRemove tr := by
  constructor
  · intro hall pre p e s₁ hp hr hwait
    obtain ⟨suf, rfl⟩ := hp
    obtain ⟨s₂, h2, h3⟩ := h.split
    rw [Sys.Run.snoc_iff] at h2
    obtain ⟨s₁', hr', hc⟩ := h2
    obtain rfl : s₁ = s₁' := hr.eq_foldl.trans hr'.eq_foldl.symm
    have hI := lockInv hr
    have hpos : 0 < s₁.lst.lockCount := by
      rw [hI.lockCount_pos]
      intro hn
      rw [(hI.idle hn).1] at hwait
      simp at hwait
    have hov : Overtaken s₂ e := by
      obtain ⟨-, rfl⟩ := hc
      simp [Overtaken, exec, removeEntryfromLcxlList, hpos, hwait]
    rcases hov.run (hI.step hc) h3 with ⟨hI', ha, -⟩ | ⟨pre', s', hp', hr2, hn, hd, hl⟩
    · rw [(hI'.idle h0).1] at ha
      simp at ha
    · obtain ⟨t, rfl⟩ := hp'
      have hrun := (hr.snoc hc).append hr2
      have := hall _ s' (by simp) hrun hn
      exact this.gone e hd hl
  · intro hw pre s' hp hr hn
    exact (deferred hr (ho.of_prefix hp)
      fun q p e s₁ hq => hw q p e s₁ (hq.trans hp)).refines hn

/-- Added and removed under one lock, an entry is handed to `del_func` and then linked. -/
theorem deferred_overtaken :
    let tr : List (Call ℕ ℕ) := [.lock 0, .add 1 7, .remove 1 7, .unlock 0]
    let s := tr.foldl exec init
    Sys.Run Step init tr s ∧ OncePerEntry tr ∧ s.holders = [] ∧ ¬ s.Refines tr := by
  have h : Sys.Allowed Matched exec (init : Shared ℕ ℕ)
      [.lock 0, .add 1 7, .remove 1 7, .unlock 0] := by decide
  refine ⟨h.run, ⟨by decide, by decide, ?_⟩, by decide, fun hr => hr.gone 7 (by decide) (by decide)⟩
  rintro (_ | ⟨_, _ | ⟨_, _ | ⟨_, _ | ⟨_, pre⟩⟩⟩⟩) p e ⟨t, ht⟩ <;> simp_all [Call.adds]

/-- An entry added under one lock and removed under the next is gone for good. -/
theorem deferred_refines_iff_twice :
    let tr : List (Call ℕ ℕ) := [.lock 0, .add 1 7, .unlock 0, .lock 0, .remove 1 7, .unlock 0]
    (tr.foldl exec init).Refines tr := by
  have h : Sys.Allowed Matched exec (init : Shared ℕ ℕ)
      [.lock 0, .add 1 7, .unlock 0, .lock 0, .remove 1 7, .unlock 0] := by decide
  have hpre : ∀ pre p e, pre ++ [Call.remove p e] <+:
      ([.lock 0, .add 1 7, .unlock 0, .lock 0, .remove 1 7, .unlock 0] : List (Call ℕ ℕ)) →
      pre = [.lock 0, .add 1 7, .unlock 0, .lock 0] ∧ e = 7 := by
    rintro (_ | ⟨_, _ | ⟨_, _ | ⟨_, _ | ⟨_, _ | ⟨_, _ | ⟨_, pre⟩⟩⟩⟩⟩⟩) p e ⟨t, ht⟩ <;> simp_all
  refine (deferred_refines_iff h.run ⟨by decide, by decide, fun pre p e hp => ?_⟩ (by decide)).2
    (fun pre p e s hp hr => ?_) _ _ (List.prefix_refl _) h.run (by decide)
  · obtain ⟨rfl, rfl⟩ := hpre pre p e hp
    decide
  · obtain ⟨rfl, rfl⟩ := hpre pre p e hp
    rw [hr.eq_foldl]
    decide

end Shared

end LcxlNetLoader
