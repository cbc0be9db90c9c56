import LcxlNetLoader.Proofs.LockList
import LcxlNetLoader.Proofs.Select

/-!
# Counting references to servers

`Counted t held` says that the server list counts exactly the references in `held`, and one more
for each server that is not deleted. It holds however often the list is locked: what waits to be
removed has no reference left, and what waits to be added has none but its own.
-/

namespace LcxlNetLoader

structure Counted (t : ServerTable) (held : Multiset ServerPtr) : Prop where
  ok : t.lst.Ok
  fresh : ∀ p, p ∈ t.lst.list ∨ p ∈ t.lst.toBeAddList ∨ p ∈ t.lst.delCalls → p < t.next
  count : ∀ p ∈ t.lst.list, (t.mem p).refCount =
    held.count p + if has (t.mem p).info.status ssDeleted then 0 else 1
  linked : ∀ p ∈ held, p ∈ t.lst.list
  new : ∀ p ∈ t.lst.toBeAddList,
    (t.mem p).refCount = 1 ∧ has (t.mem p).info.status ssDeleted = false
  going : ∀ p ∈ t.lst.toBeDelList, (t.mem p).refCount = 0
  gone : ∀ p ∈ t.lst.delCalls, p ∉ t.lst.list ∧ p ∉ t.lst.toBeAddList

namespace Counted

variable {t t' : ServerTable} {held : Multiset ServerPtr} {p : ServerPtr}

/-- Whatever keeps counts and deleted marks. -/
theorem of_mem (h : Counted t held) (hl : t'.lst = t.lst) (hn : t'.next = t.next)
    (hm : ∀ p, (t'.mem p).refCount = (t.mem p).refCount
      ∧ has (t'.mem p).info.status ssDeleted = has (t.mem p).info.status ssDeleted) :
    Counted t' held := by
  refine ⟨hl ▸ h.ok, ?_, ?_, ?_, ?_, ?_, ?_⟩ <;> rw [hl]
  · rw [hn]
    exact h.fresh
  · intro p hp
    rw [(hm p).1, (hm p).2]
    exact h.count p hp
  · exact h.linked
  · intro p hp
    rw [(hm p).1, (hm p).2]
    exact h.new p hp
  · intro p hp
    rw [(hm p).1]
    exact h.going p hp
  · exact h.gone

theorem lock (h : Counted t held) : Counted (lockServerList t) held :=
  ⟨h.ok.lock, h.fresh, h.count, h.linked, h.new, h.going, h.gone⟩

theorem not_going (h : Counted t held) (hp : p ∈ held) : p ∉ t.lst.toBeDelList := by
  intro hd
  have h1 := h.count p (h.linked p hp)
  have h2 := Multiset.count_pos.2 hp
  rw [h.going p hd] at h1
  split_ifs at h1 <;> omega

theorem unlock (h : Counted t held) : Counted (unlockServerList t) held := by
  have hok : (unlockServerList t).lst.Ok := h.ok.unlock
  unfold unlockServerList unlockLcxlList at hok ⊢
  simp only at hok ⊢
  split_ifs at hok ⊢
  · rw [applyToBe_eq] at hok ⊢
    have hdiff : ∀ q, q ∈ t.lst.list.diff t.lst.toBeDelList ↔
        q ∈ t.lst.list ∧ q ∉ t.lst.toBeDelList := fun q => h.ok.nodup.mem_sdiff_iff
    refine ⟨hok, ?_, ?_, ?_, by simp, by simp, ?_⟩
    · intro q hq
      refine h.fresh q ?_
      simp only [List.mem_append, hdiff, List.not_mem_nil, false_or] at hq
      rcases hq with (hq | hq) | hq | hq
      · exact .inl hq.1
      · exact .inr (.inl hq)
      · exact .inr (.inr hq)
      · exact .inl (h.ok.linked q hq)
    · intro q hq
      simp only [List.mem_append, hdiff] at hq
      rcases hq with hq | hq
      · exact h.count q hq.1
      · have hq' : q ∉ held := fun hh => h.ok.disjoint q (h.linked q hh) hq
        simp [h.new q hq, Multiset.count_eq_zero.2 hq']
    · intro q hq
      exact List.mem_append_left _ ((hdiff q).2 ⟨h.linked q hq, h.not_going hq⟩)
    · intro q hq
      simp only [List.mem_append, hdiff, List.not_mem_nil, not_false_eq_true, and_true] at hq ⊢
      rcases hq with hq | hq
      · exact fun hm => hm.elim (fun hm => (h.gone q hq).1 hm.1) (h.gone q hq).2
      · exact fun hm => hm.elim (fun hm => hm.2 hq) (h.ok.disjoint q (h.ok.linked q hq))
  · exact ⟨hok, h.fresh, h.count, h.linked, h.new, h.going, h.gone⟩

theorem inc (h : Counted t held) (hp : p ∈ t.lst.list)
    (hd : has (t.mem p).info.status ssDeleted = false) :
    Counted (incRefListEntry t p) (p ::ₘ held) := by
  have hc := h.count p hp
  rw [hd] at hc
  refine ⟨h.ok, h.fresh, fun q hq => ?_, fun q hq => ?_, fun q hq => ?_, fun q hq => ?_, h.gone⟩
  · by_cases hqp : q = p
    · subst hqp
      simp only [incRefListEntry, ServerTable.modify_mem_same, Multiset.count_cons_self, hd]
      simp only [Bool.false_eq_true, if_false] at hc ⊢
      omega
    · simp only [incRefListEntry, ServerTable.modify_mem_of_ne hqp, Multiset.count_cons_of_ne hqp]
      exact h.count q hq
  · rcases Multiset.mem_cons.1 hq with rfl | hq
    · exact hp
    · exact h.linked q hq
  · have hqp : q ≠ p := fun hqp => h.ok.disjoint p hp (hqp ▸ hq)
    simp only [incRefListEntry, ServerTable.modify_mem_of_ne hqp]
    exact h.new q hq
  · have hqp : q ≠ p := by
      rintro rfl
      rw [h.going q hq] at hc
      simp only [Bool.false_eq_true, if_false] at hc
      omega
    simp only [incRefListEntry, ServerTable.modify_mem_of_ne hqp]
    exact h.going q hq

/-- A reference given back is one less in the count. -/
theorem release (h : Counted t (p ::ₘ held)) :
    Counted (t.modify p fun s => { s with refCount := s.refCount - 1 }) held := by
  have hp : p ∈ t.lst.list := h.linked p (Multiset.mem_cons_self p held)
  have hc := h.count p hp
  rw [Multiset.count_cons_self] at hc
  refine ⟨h.ok, h.fresh, fun q hq => ?_, fun q hq => h.linked q (Multiset.mem_cons_of_mem hq),
    fun q hq => ?_, fun q hq => ?_, h.gone⟩
  · by_cases hqp : q = p
    · subst hqp
      simp only [ServerTable.modify_mem_same, hc]
      omega
    · rw [ServerTable.modify_mem_of_ne hqp, h.count q hq, Multiset.count_cons_of_ne hqp]
  · have hqp : q ≠ p := fun hqp => h.ok.disjoint p hp (hqp ▸ hq)
    rw [ServerTable.modify_mem_of_ne hqp]
    exact h.new q hq
  · have hqp : q ≠ p := fun hqp => h.not_going (Multiset.mem_cons_self p held) (hqp ▸ hq)
    rw [ServerTable.modify_mem_of_ne hqp]
    exact h.going q hq

/-- A server that nothing holds can go. -/
theorem remove (h : Counted t held) (hp : p ∈ t.lst.list) (hg : p ∉ t.lst.toBeDelList)
    (hzero : (t.mem p).refCount = 0) :
    Counted { t with lst := removeEntryfromLcxlList t.lst p } held := by
  have hz : p ∉ held := by
    intro hh
    have h1 := h.count p hp
    have h2 := Multiset.count_pos.2 hh
    rw [hzero] at h1
    split_ifs at h1 <;> omega
  have hok := h.ok.remove hp hg
  unfold removeEntryfromLcxlList at hok ⊢
  split_ifs at hok ⊢
  · refine ⟨hok, h.fresh, h.count, h.linked, h.new, fun q hq => ?_, h.gone⟩
    rcases List.mem_append.1 hq with hq | hq
    · exact h.going q hq
    · rw [List.mem_singleton.1 hq]
      exact hzero
  · refine ⟨hok, fun q hq => ?_, fun q hq => h.count q (List.mem_of_mem_erase hq), fun q hq => ?_,
      h.new, h.going, fun q hq => ?_⟩
    · simp only [unlinkEntry, List.mem_append, List.mem_singleton] at hq
      rcases hq with hq | hq | hq | rfl
      · exact h.fresh q (.inl (List.mem_of_mem_erase hq))
      · exact h.fresh q (.inr (.inl hq))
      · exact h.fresh q (.inr (.inr hq))
      · exact h.fresh q (.inl hp)
    · exact (List.mem_erase_of_ne fun hqp : q = p => hz (hqp ▸ hq)).2 (h.linked q hq)
    · simp only [unlinkEntry, List.mem_append, List.mem_singleton] at hq ⊢
      rcases hq with hq | rfl
      · exact ⟨fun hm => (h.gone q hq).1 (List.mem_of_mem_erase hm), (h.gone q hq).2⟩
      · exact ⟨fun hm => (h.ok.nodup.mem_erase_iff.1 hm).1 rfl, h.ok.disjoint q hp⟩

theorem dec (h : Counted t (p ::ₘ held)) : Counted (decRefListEntry t p) held := by
  have hp : p ∈ t.lst.list := h.linked p (Multiset.mem_cons_self p held)
  have hr := h.release
  unfold decRefListEntry
  simp only
  split_ifs with hle
  · refine hr.remove hp (h.not_going (Multiset.mem_cons_self p held)) (le_antisymm hle ?_)
    rw [hr.count p hp]
    split_ifs <;> omega
  · exact hr

/-- A reference that is not the last leaves the list alone. -/
theorem dec_lst (h : Counted t (p ::ₘ held)) (hd : has (t.mem p).info.status ssDeleted = false) :
    (decRefListEntry t p).lst = t.lst := by
  have hc := h.count p (h.linked p (Multiset.mem_cons_self p held))
  rw [Multiset.count_cons_self, hd] at hc
  simp only [Bool.false_eq_true, if_false] at hc
  unfold decRefListEntry
  simp only [ServerTable.modify_mem_same]
  rw [if_neg (by omega)]
  rfl

theorem not_deleted_of_avaliable {s : ServerInfoListEntry} {m : IpMode}
    (h : serverIsAvaliable s m = true) : has s.info.status ssDeleted = false := by
  simp only [serverIsAvaliable, Bool.and_eq_true, Bool.not_eq_true'] at h
  exact h.2

/-- The references a selection holds. -/
def chosen (server : Option ServerPtr) (held : Multiset ServerPtr) : Multiset ServerPtr :=
  server.elim held (· ::ₘ held)

theorem findAvaliable {m : IpMode} {last : Bool} (h : Counted t held) (hp : p ∈ t.lst.list) :
    Counted (findAvaliableServerFormCurrentServer t p m last).1
      (chosen (findAvaliableServerFormCurrentServer t p m last).2 held) := by
  rw [findAvaliable_eq]
  have hs : ∀ q ∈ scanned (lockServerList t) p m last, q ∈ t.lst.list
      ∧ serverIsAvaliable (t.mem q) m := scanned_spec hp
  rcases hq : scanned (lockServerList t) p m last with _ | q
  · exact h.lock.unlock
  · obtain ⟨hq, ha⟩ := hs q hq
    exact (h.lock.inc hq (not_deleted_of_avaliable ha)).unlock

theorem leastConnectionLoop {m : IpMode} :
    ∀ (ps : List ServerPtr) (t : ServerTable) (best : Option ServerPtr),
      Counted t (chosen best held) → (∀ p ∈ ps, p ∈ t.lst.list) →
      (∀ p ∈ best, serverIsAvaliable (t.mem p) m) →
      Counted (LcxlNetLoader.leastConnectionLoop m ps t best).1
        (chosen (LcxlNetLoader.leastConnectionLoop m ps t best).2 held)
  | [], t, best, h, _, _ => h
  | p :: ps, t, best, h, hps, hb => by
    simp only [List.mem_cons, forall_eq_or_imp] at hps
    simp only [LcxlNetLoader.leastConnectionLoop]
    split_ifs with hbetter
    · rw [Bool.and_eq_true] at hbetter
      have hnd := not_deleted_of_avaliable hbetter.1
      rcases best with _ | b
      · refine leastConnectionLoop ps _ (some p) (h.inc hps.1 hnd) hps.2 ?_
        intro q hq
        rw [RefOnly.inc.avaliable]
        simp only [Option.mem_def, Option.some.injEq] at hq
        exact hq ▸ hbetter.1
      · have hdec : (decRefListEntry t b).lst = t.lst :=
          dec_lst h (not_deleted_of_avaliable (hb b rfl))
        have hdel : has ((decRefListEntry t b).mem p).info.status ssDeleted = false := by
          rw [RefOnly.dec.info]
          exact hnd
        refine leastConnectionLoop ps _ (some p) ((dec h).inc (hdec ▸ hps.1) hdel) ?_ ?_
        · intro q hq
          exact (congrArg (q ∈ ·.list) hdec).mpr (hps.2 q hq)
        · intro q hq
          rw [RefOnly.inc.avaliable, RefOnly.dec.avaliable]
          simp only [Option.mem_def, Option.some.injEq] at hq
          exact hq ▸ hbetter.1
    · exact leastConnectionLoop ps t best h hps.2 hb

theorem findFromIndex {m : IpMode} {index : ℤ} (h : Counted t held) :
    Counted (LcxlNetLoader.findFromIndex t m index).1
      (chosen (LcxlNetLoader.findFromIndex t m index).2 held) := by
  simp only [LcxlNetLoader.findFromIndex]
  split
  · rename_i entry he
    exact h.findAvaliable (List.mem_of_getElem? he)
  · exact h

/-- A selection takes one reference, to the server it returns. -/
theorem selectBestServer (h : Counted t held) (m : IpMode) (dstAddr : List UInt8) (alg : ℤ)
    (ra : RoutingAlgorithmData) :
    Counted (selectBestServer t m dstAddr alg ra).1
      (chosen (selectBestServer t m dstAddr alg ra).2.2 held) := by
  simp only [LcxlNetLoader.selectBestServer]
  split_ifs
  · exact unlock (leastConnectionLoop _ _ none h.lock (fun _ hp => hp) (by simp))
  · exact unlock h.lock.findFromIndex
  · exact unlock h.lock.findFromIndex
  · exact unlock h.lock.findFromIndex
  · exact h.lock.unlock
  · exact h.lock.unlock
  · exact h.lock.unlock

end Counted

end LcxlNetLoader
