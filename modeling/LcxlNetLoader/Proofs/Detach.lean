import LcxlNetLoader.Lifecycle
import LcxlNetLoader.Proofs.Accounting

/-!
# What detaching releases

Deleting the routes gives back their references one at a time; a server marked deleted goes with
the last of its own, and the others keep the one they were added with (`Dropped`). Of these the
source gives back one. Where the server list is locked for good, nothing goes at all (`Stuck`).
-/

namespace LcxlNetLoader

variable {t t' : ServerTable} {all held : Multiset ServerPtr} {p q : ServerPtr}

theorem deleteRoutes_all : ∀ (rs : List LcxlRouteListEntry) (rt : RouteTable) (t : ServerTable),
    rt.list = rs → deleteRoutes (rs.map (·.self)) rt t =
      ({ rt with list := [], freed := rt.freed ++ rs }, rs.foldl dropServer t)
  | [], rt, t, h => by
    obtain ⟨list, next, freed⟩ := rt
    simp only at h
    subst h
    simp [deleteRoutes]
  | r :: rs, rt, t, h => by
    have hfind : rt.find r.self = some r := by simp [RouteTable.find, h]
    have hdel : deleteRouteListEntry rt t r.self =
        ({ rt with list := rs, freed := rt.freed ++ [r] }, dropServer t r) := by
      unfold deleteRouteListEntry
      simp [hfind, h]
    simp only [List.map_cons, deleteRoutes, hdel, List.foldl_cons]
    rw [deleteRoutes_all rs _ _ rfl, List.append_assoc]
    rfl

namespace Counted

/-- A reference given back to a list that nobody holds: where it is the last the server goes. -/
theorem dec_lst_eq (h : Counted t (p ::ₘ held)) (h0 : t.lst.lockCount = 0) :
    (decRefListEntry t p).lst =
      if p ∈ held ∨ ¬ has (t.mem p).info.status ssDeleted then t.lst else unlinkEntry t.lst p := by
  have hc := h.count p (h.linked p (Multiset.mem_cons_self p held))
  rw [Multiset.count_cons_self] at hc
  unfold decRefListEntry removeEntryfromLcxlList
  simp only [ServerTable.modify_mem_same, hc]
  by_cases hp : p ∈ held ∨ ¬ has (t.mem p).info.status ssDeleted
  · have hpos : ¬ ((held.count p + 1 : ℕ) + (if has (t.mem p).info.status ssDeleted then 0 else 1)
        - 1 : ℤ) ≤ 0 := by
      rcases hp with hp | hp
      · have := Multiset.count_pos.2 hp
        split_ifs <;> omega
      · rw [if_neg hp]
        omega
    rw [if_neg hpos, if_pos hp]
    rfl
  · rw [if_neg hp]
    rw [not_or, not_not] at hp
    have hz : held.count p = 0 := Multiset.count_eq_zero.2 hp.1
    have hle : ((held.count p + 1 : ℕ) + (if has (t.mem p).info.status ssDeleted then 0 else 1)
        - 1 : ℤ) ≤ 0 := by
      rw [hz, if_pos hp.2]
      omega
    have hunlocked : ¬ 0 < t.lst.lockCount := by simp [h0]
    rw [if_pos hle]
    exact if_neg hunlocked

end Counted

/-- `t'` is `t` when of the references `all` to its servers those in `held` are left. -/
structure Dropped (t t' : ServerTable) (all held : Multiset ServerPtr) : Prop where
  counted : Counted t' held
  lockCount : t'.lst.lockCount = 0
  toBeAddList : t'.lst.toBeAddList = t.lst.toBeAddList
  toBeDelList : t'.lst.toBeDelList = t.lst.toBeDelList
  info : ∀ p, (t'.mem p).info = (t.mem p).info
  list : t'.lst.list = t.lst.list.filter fun p =>
    p ∈ held ∨ p ∉ all ∨ ¬ has (t.mem p).info.status ssDeleted
  perm : (t'.lst.delCalls ++ t'.lst.list).Perm (t.lst.delCalls ++ t.lst.list)
  zero : ∀ p ∈ t.lst.list, p ∉ t'.lst.list → (t'.mem p).refCount = 0
  same : ∀ p, p ∉ all → (t'.mem p).refCount = (t.mem p).refCount

namespace Dropped

theorem refl (h : Counted t all) (h0 : t.lst.lockCount = 0) : Dropped t t all all := by
  refine ⟨h, h0, rfl, rfl, fun _ => rfl, ?_, .refl _, fun p hp hn => absurd hp hn, fun _ _ => rfl⟩
  refine (List.filter_eq_self.2 fun p _ => ?_).symm
  by_cases hp : p ∈ all <;> simp [hp]

/-- Unlinking a linked server moves it over to those handed to `DelServerCallBack`. -/
theorem unlink_perm {l : LcxlList ServerPtr} (h : p ∈ l.list) :
    ((unlinkEntry l p).delCalls ++ (unlinkEntry l p).list).Perm (l.delCalls ++ l.list) := by
  simp only [unlinkEntry, List.append_assoc, List.singleton_append]
  exact (List.perm_cons_erase h).symm.append_left _

theorem dec (h : Dropped t t' all (p ::ₘ held)) (hp : p ∈ all) :
    Dropped t (decRefListEntry t' p) all held := by
  have hl := h.counted.linked p (Multiset.mem_cons_self p held)
  have hmem : ∀ q, q ≠ p → ((decRefListEntry t' p).mem q).refCount = (t'.mem q).refCount := by
    intro q hq
    unfold decRefListEntry
    simp only
    split_ifs <;> simp [ServerTable.modify_mem_of_ne hq]
  have hlst := h.counted.dec_lst_eq h.lockCount
  rw [h.info p] at hlst
  have hcounted := h.counted.dec
  have hlock : (decRefListEntry t' p).lst.lockCount = 0 := by
    rw [hlst]
    split_ifs <;> exact h.lockCount
  have hadd : (decRefListEntry t' p).lst.toBeAddList = t.lst.toBeAddList := by
    rw [hlst]
    split_ifs <;> exact h.toBeAddList
  have hdel : (decRefListEntry t' p).lst.toBeDelList = t.lst.toBeDelList := by
    rw [hlst]
    split_ifs <;> exact h.toBeDelList
  have hinfo : ∀ q, ((decRefListEntry t' p).mem q).info = (t.mem q).info :=
    fun q => (RefOnly.dec.info q).trans (h.info q)
  have hsame : ∀ q, q ∉ all → ((decRefListEntry t' p).mem q).refCount = (t.mem q).refCount :=
    fun q hq => (hmem q fun hqp => hq (hqp ▸ hp)).trans (h.same q hq)
  by_cases hk : p ∈ held ∨ ¬ has (t.mem p).info.status ssDeleted
  · rw [if_pos hk] at hlst
    refine ⟨hcounted, hlock, hadd, hdel, hinfo, ?_, ?_, fun q hq hn => ?_, hsame⟩
    · rw [hlst, h.list]
      refine List.filter_congr fun q _ => ?_
      by_cases hqp : q = p
      · subst hqp
        rcases hk with hk | hk <;> simp [hk]
      · simp [hqp]
    · rw [hlst]
      exact h.perm
    · rw [hlst] at hn
      rw [hmem q fun hqp => hn (hqp ▸ hl)]
      exact h.zero q hq hn
  · rw [if_neg hk] at hlst
    rw [not_or, not_not] at hk
    refine ⟨hcounted, hlock, hadd, hdel, hinfo, ?_, ?_, fun q hq hn => ?_, hsame⟩
    · rw [hlst]
      simp only [unlinkEntry]
      rw [h.counted.ok.nodup.erase_eq_filter, h.list, List.filter_filter]
      refine List.filter_congr fun q _ => ?_
      by_cases hqp : q = p
      · subst hqp
        simp [hk, hp]
      · simp [hqp]
    · rw [hlst]
      exact (unlink_perm hl).trans h.perm
    · by_cases hqp : q = p
      · subst hqp
        have hc := h.counted.count q hl
        rw [Multiset.count_cons_self, h.info q, if_pos hk.2, Multiset.count_eq_zero.2 hk.1] at hc
        unfold decRefListEntry
        simp only
        split_ifs <;> simp [ServerTable.modify_mem_same, hc]
      · rw [hmem q hqp]
        refine h.zero q hq fun hm => hn ?_
        rw [hlst]
        exact (List.mem_erase_of_ne hqp).2 hm

/-- The routes are dropped one after the other. -/
theorem routes : ∀ (rs : List LcxlRouteListEntry) (t' : ServerTable),
    Dropped t t' all (holds rs) → (∀ p ∈ holds rs, p ∈ all) →
      Dropped t (rs.foldl dropServer t') all 0
  | [], _, h, _ => h
  | r :: rs, t', h, hall => by
    rw [List.foldl_cons]
    rw [holds_cons] at h hall
    have hrest : ∀ p ∈ holds rs, p ∈ all := by
      intro p hp
      refine hall p ?_
      rcases r.dstServer with _ | s
      · exact hp
      · exact Multiset.mem_cons_of_mem hp
    unfold LcxlNetLoader.dropServer
    rcases hd : r.dstServer with _ | s <;> rw [hd] at h hall
    · exact routes rs t' h hrest
    · have hs : s ∈ Counted.chosen (some s) (holds rs) := Multiset.mem_cons_self s (holds rs)
      exact routes rs _ (h.dec (hall s hs)) hrest

end Dropped

/-- The count of a server that no route goes to is its own reference. -/
theorem Counted.own (h : Counted t 0) (hp : p ∈ t.lst.list) :
    (t.mem p).refCount = if has (t.mem p).info.status ssDeleted then 0 else 1 := by
  simpa using h.count p hp

/-- The only lock on a list let go, after what was done under it. -/
theorem LcxlList.unlock_of_locked {l l' : LcxlList ServerPtr} (h0 : l.lockCount = 0)
    (h : l'.lockCount = (lockLcxlList l).lockCount) :
    unlockLcxlList l' = applyToBe { l' with lockCount := l.lockCount } := by
  have h1 : l'.lockCount = 1 := by rw [h, lockLcxlList_lockCount, h0]; rfl
  rw [unlockLcxlList_of_last h1, h0]

theorem decRefListEntry_of_last (h : (t.mem p).refCount - 1 ≤ 0) : decRefListEntry t p =
    { t.modify p fun s => { s with refCount := s.refCount - 1 } with
      lst := removeEntryfromLcxlList t.lst p } := by
  unfold decRefListEntry
  simp only [ServerTable.modify_mem_same]
  exact if_pos h

theorem releaseServers_nil (h0 : t.lst.lockCount = 0) (hl : t.lst.list = []) :
    releaseServers t = { t with lst := applyToBe t.lst } := by
  have hhead : getLcxlListHead (lockServerList t).lst = [] := hl
  unfold releaseServers
  simp only [hhead]
  exact congrArg (fun l => { t with lst := l }) (LcxlList.unlock_of_locked h0 rfl)

/-- With no route left, the first server loses its only reference, or one that it does not have,
and is removed along with those that wait to go. -/
theorem releaseServers_cons {ps : List ServerPtr} (h : Counted t 0) (h0 : t.lst.lockCount = 0)
    (hl : t.lst.list = p :: ps) :
    releaseServers t =
      { t.modify p fun s => { s with refCount := s.refCount - 1 } with
        lst := applyToBe { t.lst with toBeDelList := t.lst.toBeDelList ++ [p] } } := by
  have hhead : getLcxlListHead (lockServerList t).lst = p :: ps := hl
  have hle : (t.mem p).refCount - 1 ≤ 0 := by
    rw [h.own (hl ▸ List.mem_cons_self)]
    split_ifs <;> omega
  have hpos : 0 < (lockLcxlList t.lst).lockCount := by simp [h0]
  have hdec : decRefListEntry (lockServerList t) p =
      { t.modify p fun s => { s with refCount := s.refCount - 1 } with
        lst := { lockLcxlList t.lst with toBeDelList := t.lst.toBeDelList ++ [p] } } := by
    rw [decRefListEntry_of_last (t := lockServerList t) hle]
    exact congrArg (fun l => { t.modify p fun s => { s with refCount := s.refCount - 1 } with
      lst := l }) (if_pos hpos)
  unfold releaseServers
  simp only [hhead, hdec]
  unfold unlockServerList
  congr 1
  exact LcxlList.unlock_of_locked (l := t.lst) h0 rfl

variable {cfg : LcxlSetting} {f f' : LcxlFilter} {tr : List Event}

/-- The module's servers once its routes have been deleted. -/
def LcxlFilter.unrouted (f : LcxlFilter) : ServerTable :=
  f.routeTable.list.foldl dropServer f.module.serverList

theorem detach_eq (f : LcxlFilter) : f.detach = f.setRouting
    { f.routeTable with list := [], freed := f.routeTable.freed ++ f.routeTable.list }
    (releaseServers f.unrouted) := by
  unfold LcxlFilter.detach
  rw [deleteRoutes_all _ _ _ rfl]
  rfl

theorem CountedFilter.unrouted (h : CountedFilter f) (h0 : f.module.serverList.lst.lockCount = 0) :
    Dropped f.module.serverList f.unrouted (holds f.routeTable.list) 0 :=
  Dropped.routes _ _ (.refl h.counted h0) fun _ hp => hp

theorem CountedFilter.unrouted_list (h : CountedFilter f)
    (h0 : f.module.serverList.lst.lockCount = 0) : f.unrouted.lst.list = f.staying := by
  rw [(h.unrouted h0).list]
  refine List.filter_congr fun p _ => ?_
  have hp : p ∉ holds f.routeTable.list ↔ f.routesTo p = 0 := by
    rw [← Multiset.count_eq_zero, count_holds]
    rfl
  simp [hp]

/-- The servers a detach has taken out are those there were, if it takes them all out. -/
structure Emptied (t t' : ServerTable) : Prop where
  list : t'.lst.list = []
  count : t'.lst.listCount = 0
  once : t'.lst.delCalls.Perm (t.lst.delCalls ++ t.lst.list)
  zero : ∀ p ∈ t.lst.list, (t'.mem p).refCount = 0
  nonneg : ∀ p, (t'.mem p).refCount ≠ (t.mem p).refCount → 0 ≤ (t'.mem p).refCount

theorem released_iff_emptied :
    f.Released f.detach ↔ Emptied f.module.serverList (releaseServers f.unrouted) := by
  rw [detach_eq]
  exact ⟨fun h => ⟨h.servers, h.count, h.once, h.zero, h.nonneg⟩,
    fun h => ⟨rfl, rfl, h.list, h.count, h.once, h.zero, h.nonneg⟩⟩

/-- No server is left over by the routes. -/
theorem emptied_nil (h : Dropped t t' all 0) (hall : ∀ p ∈ all, p ∈ t.lst.list)
    (hl : t'.lst.list = []) :
    Emptied t (releaseServers t') ↔ t.lst.toBeAddList = [] := by
  have hdel : t'.lst.toBeDelList = [] := by
    refine List.eq_nil_iff_forall_not_mem.2 fun p hp => ?_
    have := h.counted.ok.linked p hp
    rw [hl] at this
    exact List.not_mem_nil this
  rw [releaseServers_nil h.lockCount hl, applyToBe_eq, hdel, hl, h.toBeAddList]
  refine ⟨fun he => he.list, fun ha => ?_⟩
  have hzero : ∀ p ∈ t.lst.list, (t'.mem p).refCount = 0 :=
    fun p hp => h.zero p hp (hl ▸ List.not_mem_nil)
  refine ⟨ha, ?_, ?_, hzero, fun p hp => ?_⟩
  · simp [ha, h.counted.ok.count, hl]
  · simpa [hl] using h.perm
  · by_cases hpa : p ∈ all
    · exact (hzero p (hall p hpa)).ge
    · exact absurd (h.same p hpa) hp

/-- What is left over where the first server is not to be deleted and the others wait for it. -/
structure HeadLeft (t : ServerTable) (p : ServerPtr) (ps : List ServerPtr) : Prop where
  linked : ¬ has (t.mem p).info.status ssDeleted
  waiting : ∀ q ∈ ps, q ∈ t.lst.toBeDelList

section HeadLeft

variable {ps : List ServerPtr}

theorem HeadLeft.own (h : Dropped t t' all 0) (hl : t'.lst.list = p :: ps) (ho : HeadLeft t p ps) :
    (t'.mem p).refCount = 1 := by
  have hown := h.counted.own (hl ▸ List.mem_cons_self : p ∈ t'.lst.list)
  rwa [h.info p, if_neg ho.linked] at hown

theorem HeadLeft.perm (h : Dropped t t' all 0) (ht : Counted t all) (hl : t'.lst.list = p :: ps)
    (ho : HeadLeft t p ps) : (p :: ps).Perm (t.lst.toBeDelList ++ [p]) := by
  have hpd : p ∉ t.lst.toBeDelList := by
    intro hpd
    have hzero := h.counted.going p (h.toBeDelList ▸ hpd)
    rw [ho.own h hl] at hzero
    exact absurd hzero (by decide)
  have hn : (p :: ps).Nodup := hl ▸ h.counted.ok.nodup
  have hn' : (t.lst.toBeDelList ++ [p]).Nodup := by
    simpa using List.Nodup.concat hpd ht.ok.delNodup
  refine (List.perm_ext_iff_of_nodup hn hn').2 fun q => ?_
  simp only [List.mem_cons, List.mem_append, List.not_mem_nil, or_false]
  constructor
  · rintro (rfl | hq)
    · exact .inr rfl
    · exact .inl (ho.waiting q hq)
  · rintro (hq | rfl)
    · have hlinked := h.counted.ok.linked q (h.toBeDelList.symm ▸ hq)
      rw [hl] at hlinked
      exact List.mem_cons.1 hlinked
    · exact .inl rfl

theorem HeadLeft.zero (h : Dropped t t' all 0) (hl : t'.lst.list = p :: ps) (ho : HeadLeft t p ps)
    (hq : q ∈ t.lst.list) :
    ((t'.modify p fun s => { s with refCount := s.refCount - 1 }).mem q).refCount = 0 := by
  by_cases hqp : q = p
  · subst hqp
    simp [ho.own h hl]
  · rw [ServerTable.modify_mem_of_ne hqp]
    by_cases hql : q ∈ t'.lst.list
    · rw [hl] at hql
      exact h.counted.going q
        (h.toBeDelList ▸ ho.waiting q ((List.mem_cons.1 hql).resolve_left hqp))
    · exact h.zero q hq hql

end HeadLeft

/-- The routes leave some servers over. -/
theorem emptied_cons {ps : List ServerPtr} (h : Dropped t t' all 0) (ht : Counted t all)
    (hl : t'.lst.list = p :: ps) :
    Emptied t (releaseServers t') ↔ t.lst.toBeAddList = [] ∧
      ¬ has (t.mem p).info.status ssDeleted ∧ ∀ q ∈ ps, q ∈ t.lst.toBeDelList := by
  have hn : (p :: ps).Nodup := hl ▸ h.counted.ok.nodup
  have hp : p ∈ t'.lst.list := hl ▸ List.mem_cons_self
  have hdiff : ∀ q, q ∈ (p :: ps).diff (t.lst.toBeDelList ++ [p]) ↔
      q ∈ p :: ps ∧ q ∉ t.lst.toBeDelList ++ [p] := fun q => hn.mem_sdiff_iff
  rw [releaseServers_cons h.counted h.lockCount hl, applyToBe_eq, h.toBeDelList, h.toBeAddList, hl]
  constructor
  · intro he
    have hlist := List.append_eq_nil_iff.1 he.list
    refine ⟨hlist.2, fun hd => ?_, fun q hq => ?_⟩
    · have hown := h.counted.own hp
      rw [h.info p, if_pos hd] at hown
      have hpa : p ∉ all := by
        rw [h.list, List.mem_filter] at hp
        simpa [hd] using hp.2
      have hneg := he.nonneg p
      simp only [ServerTable.modify_mem_same, hown, ← h.same p hpa] at hneg
      exact absurd (hneg (by decide)) (by decide)
    · by_contra hqd
      have hm := (hdiff q).2 ⟨List.mem_cons_of_mem p hq, by
        simp only [List.mem_append, List.mem_singleton, not_or]
        exact ⟨hqd, fun hqp => (List.nodup_cons.1 hn).1 (hqp ▸ hq)⟩⟩
      rw [hlist.1] at hm
      exact List.not_mem_nil hm
  · rintro ⟨ha, hd, hps⟩
    have ho : HeadLeft t p ps := ⟨hd, hps⟩
    have hperm := ho.perm h ht hl
    refine ⟨?_, ?_, ?_, fun q hq => ho.zero h hl hq, fun q hq => ?_⟩
    · refine List.append_eq_nil_iff.2 ⟨List.eq_nil_iff_forall_not_mem.2 fun q hq => ?_, ha⟩
      exact ((hdiff q).1 hq).2 (hperm.subset ((hdiff q).1 hq).1)
    · have hlength := hperm.length_eq
      simp only [h.counted.ok.count, hl, ha, hlength]
      simp
    · have hcalls := h.perm
      rw [hl] at hcalls
      exact (hperm.symm.append_left _).trans hcalls
    · by_cases hqa : q ∈ t.lst.list
      · exact (ho.zero h hl hqa).ge
      · refine absurd ?_ hq
        have hqp : q ≠ p := fun hqp => hqa (List.mem_of_mem_filter (h.list ▸ hqp ▸ hp))
        rw [ServerTable.modify_mem_of_ne hqp]
        exact h.same q fun hm => hqa (ht.linked q hm)

/-! ## A list that stays locked -/

/-- What giving back references changes of a list that is locked. -/
structure Stuck (t t' : ServerTable) (all : Multiset ServerPtr) : Prop where
  list : t'.lst.list = t.lst.list
  listCount : t'.lst.listCount = t.lst.listCount
  delCalls : t'.lst.delCalls = t.lst.delCalls
  lockCount : t'.lst.lockCount = t.lst.lockCount
  info : ∀ p, (t'.mem p).info = (t.mem p).info
  same : ∀ p, p ∉ all → (t'.mem p).refCount = (t.mem p).refCount

namespace Stuck

theorem refl (t : ServerTable) (all : Multiset ServerPtr) : Stuck t t all :=
  ⟨rfl, rfl, rfl, rfl, fun _ => rfl, fun _ _ => rfl⟩

theorem dec (h : Stuck t t' all) (h0 : t.lst.lockCount ≠ 0) (hp : p ∈ all) :
    Stuck t (decRefListEntry t' p) all := by
  have hlocked : 0 < t'.lst.lockCount := by
    rw [h.lockCount]
    exact UInt8.pos_iff_ne_zero.2 h0
  have hinfo : ∀ q, ((decRefListEntry t' p).mem q).info = (t.mem q).info :=
    fun q => (RefOnly.dec.info q).trans (h.info q)
  have hsame : ∀ q, q ∉ all → ((decRefListEntry t' p).mem q).refCount = (t.mem q).refCount := by
    intro q hq
    have hqp : q ≠ p := fun hqp => hq (hqp ▸ hp)
    rw [← h.same q hq]
    unfold decRefListEntry
    simp only
    split_ifs <;> simp [ServerTable.modify_mem_of_ne hqp]
  refine ⟨?_, ?_, ?_, ?_, hinfo, hsame⟩ <;> unfold decRefListEntry removeEntryfromLcxlList <;>
    simp only <;> split_ifs
  · exact h.list
  · exact absurd hlocked ‹_›
  · exact h.list
  · exact h.listCount
  · exact absurd hlocked ‹_›
  · exact h.listCount
  · exact h.delCalls
  · exact absurd hlocked ‹_›
  · exact h.delCalls
  · exact h.lockCount
  · exact absurd hlocked ‹_›
  · exact h.lockCount

theorem routes (h0 : t.lst.lockCount ≠ 0) : ∀ (rs : List LcxlRouteListEntry) (t' : ServerTable),
    Stuck t t' all → (∀ p ∈ holds rs, p ∈ all) → Stuck t (rs.foldl dropServer t') all
  | [], _, h, _ => h
  | r :: rs, t', h, hall => by
    rw [List.foldl_cons]
    rw [holds_cons] at hall
    unfold LcxlNetLoader.dropServer
    rcases hd : r.dstServer with _ | s <;> rw [hd] at hall
    · exact routes h0 rs t' h hall
    · have hs : s ∈ Counted.chosen (some s) (holds rs) := Multiset.mem_cons_self s (holds rs)
      exact routes h0 rs _ (h.dec h0 (hall s hs)) fun p hp =>
        hall p (Multiset.mem_cons_of_mem hp)

end Stuck

theorem CountedFilter.stuck (h0 : f.module.serverList.lst.lockCount ≠ 0) :
    Stuck f.module.serverList f.unrouted (holds f.routeTable.list) :=
  Stuck.routes h0 _ _ (.refl _ _) fun _ hp => hp

theorem CountedFilter.unrouted_counted (h : CountedFilter f) : Counted f.unrouted 0 :=
  Counted.dropServers (by simpa using h.counted)

/-- A lock let go that is not the last leaves the list as it is. -/
theorem LcxlList.unlock_lock_of_ne {l l' : LcxlList ServerPtr} (h0 : l.lockCount ≠ 0)
    (h : l'.lockCount = (lockLcxlList l).lockCount) :
    unlockLcxlList l' = { l' with lockCount := l.lockCount } := by
  have h1 : l'.lockCount ≠ 1 := by
    rw [h, lockLcxlList_lockCount]
    intro h1
    exact h0 (by simpa using h1)
  rw [unlockLcxlList_of_not_last h1, h, lockLcxlList_lockCount, UInt8.add_sub_cancel]

/-- The list is locked, and no server is linked. -/
theorem emptied_stuck_nil (h : Stuck t t' all) (ht : t.lst.Ok) (h0 : t.lst.lockCount ≠ 0)
    (hall : ∀ p ∈ all, p ∈ t.lst.list) (hl : t.lst.list = []) :
    Emptied t (releaseServers t') := by
  have hnone : ∀ p, p ∉ all := fun p hp => by
    have := hall p hp
    rw [hl] at this
    exact List.not_mem_nil this
  have hlist : t'.lst.list = [] := h.list.trans hl
  have hhead : getLcxlListHead (lockServerList t').lst = [] := hlist
  have hrelease : releaseServers t' = t' := by
    unfold releaseServers
    simp only [hhead]
    exact congrArg (fun l => { t' with lst := l })
      (LcxlList.unlock_lock_of_ne (l := t'.lst) (h.lockCount ▸ h0) rfl)
  rw [hrelease]
  refine ⟨hlist, ?_, ?_, fun p hp => ?_, fun p hp => absurd (h.same p (hnone p)) hp⟩
  · rw [h.listCount, ht.count, hl]
    rfl
  · rw [h.delCalls, hl, List.append_nil]
  · rw [hl] at hp
    exact absurd hp List.not_mem_nil

/-- The list is locked, and some servers are linked: the first of them can go only where the lock
that is taken makes the list one that nobody holds. -/
theorem emptied_stuck_cons {ps : List ServerPtr} (h : Stuck t t' all) (ht : Counted t all)
    (hc : Counted t' 0) (h0 : t.lst.lockCount ≠ 0) (hl : t.lst.list = p :: ps) :
    Emptied t (releaseServers t') ↔
      t.lst.lockCount = 255 ∧ ps = [] ∧ ¬ has (t.mem p).info.status ssDeleted := by
  have hlist : t'.lst.list = p :: ps := h.list.trans hl
  have hown := hc.own (hlist ▸ List.mem_cons_self : p ∈ t'.lst.list)
  rw [h.info p] at hown
  have hle : (t'.mem p).refCount - 1 ≤ 0 := by
    rw [hown]
    split_ifs <;> omega
  have hhead : getLcxlListHead (lockServerList t').lst = p :: ps := hlist
  have hrelease : releaseServers t' =
      { t'.modify p fun s => { s with refCount := s.refCount - 1 } with
        lst := { removeEntryfromLcxlList (lockLcxlList t'.lst) p with
          lockCount := t'.lst.lockCount } } := by
    unfold releaseServers
    simp only [hhead, decRefListEntry_of_last (t := lockServerList t') hle]
    unfold unlockServerList
    congr 1
    exact LcxlList.unlock_lock_of_ne (l := t'.lst) (h.lockCount ▸ h0)
      (removeEntryfromLcxlList_lockCount ..)
  rw [hrelease]
  by_cases hlast : t.lst.lockCount = 255
  · have hfree : ¬ 0 < (lockLcxlList t'.lst).lockCount := by
      rw [lockLcxlList_lockCount, h.lockCount, hlast]
      decide
    have hremove : removeEntryfromLcxlList (lockLcxlList t'.lst) p
        = unlinkEntry (lockLcxlList t'.lst) p := if_neg hfree
    have hps : (unlinkEntry (lockLcxlList t'.lst) p).list = ps := by
      show t'.lst.list.erase p = ps
      rw [hlist, List.erase_cons_head]
    rw [hremove]
    constructor
    · intro he
      refine ⟨hlast, hps.symm.trans he.list, fun hd => ?_⟩
      have hzero := he.zero p (hl ▸ List.mem_cons_self)
      simp only [ServerTable.modify_mem_same, hown, if_pos hd] at hzero
      exact absurd hzero (by decide)
    · rintro ⟨-, rfl, hd⟩
      rw [if_neg hd] at hown
      have hzero : ∀ q ∈ t.lst.list,
          ((t'.modify p fun s => { s with refCount := s.refCount - 1 }).mem q).refCount = 0 := by
        intro q hq
        rw [hl, List.mem_singleton] at hq
        simp [hq, hown]
      refine ⟨hps, ?_, ?_, hzero, fun q hq => ?_⟩
      · show t'.lst.listCount - 1 = 0
        rw [h.listCount, ht.ok.count, hl]
        rfl
      · show (t'.lst.delCalls ++ [p]).Perm _
        rw [h.delCalls, hl]
      · by_cases hqp : q ∈ t.lst.list
        · exact (hzero q hqp).ge
        · refine absurd ?_ hq
          have hne : q ≠ p := fun hqp' => hqp (hl ▸ hqp' ▸ List.mem_cons_self)
          rw [ServerTable.modify_mem_of_ne hne]
          exact h.same q fun hm => hqp (ht.linked q hm)
  · have hlocked : 0 < (lockLcxlList t'.lst).lockCount := by
      rw [lockLcxlList_lockCount, h.lockCount, UInt8.pos_iff_ne_zero]
      intro h1
      exact hlast (UInt8.eq_sub_iff_add_eq.2 h1)
    have hremove : removeEntryfromLcxlList (lockLcxlList t'.lst) p = { lockLcxlList t'.lst with
        toBeDelList := (lockLcxlList t'.lst).toBeDelList ++ [p] } := if_pos hlocked
    rw [hremove]
    refine ⟨fun he => ?_, fun hr => absurd hr.1 hlast⟩
    exact absurd (hlist.symm.trans he.list) (List.cons_ne_nil _ _)

namespace LcxlFilter

/-- A server is added, a connection opened to it, and the server checked. -/
def serving : List Event :=
  [Sample.addServer, .recv (Sample.tcpFrame thSyn) (Sample.ambient 1), .tick 20]

def served : LcxlFilter := serving.foldl (exec Sample.setting) Sample.router.fresh

/-- The server is deleted. -/
def retiring : Event := .delServer (fun _ => false) Sample.server.macAddr

def retired : LcxlFilter := served.exec Sample.setting retiring

/-- A second server. -/
def secondServer : LcxlServer :=
  { Sample.server with macAddr := ⟨6, (Bytes.zero 32).move [2, 0, 0, 0, 0, 8]⟩ }

end LcxlFilter

end LcxlNetLoader
