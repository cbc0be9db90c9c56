import LcxlNetLoader.Balance
import LcxlNetLoader.Proofs.Lifecycle
import LcxlNetLoader.Proofs.Select

/-!
# References taken and given back

From a steady table each reference taken or given back moves one count, and unlinks the server
whose count it takes to nothing (`Moved`). A selection takes one reference, of the server it
returns (`selectBestServer_fst`).
-/

namespace LcxlNetLoader

/-- A settled list is as it was after a lock that is let go. -/
theorem LcxlList.unlock_lock_of_settled {α : Type*} [DecidableEq α] {l : LcxlList α}
    (h : l.Settled) : unlockLcxlList (lockLcxlList l) = l := by
  by_cases h0 : l.lockCount = 0
  · exact unlock_lock h0 (h h0).1 (h h0).2
  · rw [unlockLcxlList_of_not_last]
    · simp [lockLcxlList]
    · rw [lockLcxlList_lockCount]
      simpa using h0

namespace ServerTable

variable {t₀ t : ServerTable} {δ : ServerPtr → ℤ} {p : ServerPtr}

/-- From `t₀` to `t` the counts changed by `δ`, and the servers left without one were unlinked. -/
structure Moved (t₀ t : ServerTable) (δ : ServerPtr → ℤ) : Prop where
  mem : ∀ p, t.mem p = { t₀.mem p with refCount := (t₀.mem p).refCount + δ p }
  list : t.lst.list = t₀.lst.list.filter fun p => 0 < (t.mem p).refCount
  lockCount : t.lst.lockCount = 0
  toBeAddList : t.lst.toBeAddList = []
  toBeDelList : t.lst.toBeDelList = []

theorem Steady.moved (h : t.Steady) : Moved t t 0 := by
  refine ⟨fun p => by simp, ?_, h.lockCount, h.toBeAddList, h.toBeDelList⟩
  refine (List.filter_eq_self.2 fun p hp => ?_).symm
  rw [decide_eq_true_eq]
  exact h.referenced p hp

theorem Steady.settled (h : t.Steady) : t.lst.Settled := fun _ => ⟨h.toBeAddList, h.toBeDelList⟩

theorem Steady.settled_lock (h : t.Steady) : (lockServerList t).lst.Settled :=
  fun _ => ⟨h.toBeAddList, h.toBeDelList⟩

theorem Moved.steady (h : Moved t₀ t δ) (h₀ : t₀.Steady) : t.Steady := by
  refine ⟨h.lockCount, h.toBeAddList, h.toBeDelList, h.list ▸ h₀.nodup.filter _, fun p hp => ?_⟩
  rw [h.list, List.mem_filter, decide_eq_true_eq] at hp
  exact hp.2

theorem Moved.inc (h : Moved t₀ t δ) (hp : p ∈ t.lst.list) :
    Moved t₀ (incRefListEntry t p) fun q => δ q + if q = p then 1 else 0 := by
  refine ⟨fun q => ?_, ?_, h.lockCount, h.toBeAddList, h.toBeDelList⟩
  · rw [incRefListEntry, modify_mem, h.mem q]
    split_ifs
    · rw [add_assoc]
    · rw [add_zero]
  · refine h.list.trans (List.filter_congr fun q _ => ?_)
    rw [incRefListEntry, modify_mem]
    split_ifs with hq
    · -- The server was linked, so it had a count before this one.
      rw [h.list, List.mem_filter, decide_eq_true_eq] at hp
      subst hq
      simp only [decide_eq_decide]
      omega
    · rfl

theorem decRefListEntry_mem (q : ServerPtr) : (decRefListEntry t p).mem q =
    if q = p then { t.mem q with refCount := (t.mem q).refCount - 1 } else t.mem q := by
  unfold decRefListEntry
  dsimp only
  split_ifs with h hq hq <;> simp [modify, hq]

theorem refCount_dropServers (s : ServerPtr) : ∀ (rs : List LcxlRouteListEntry) (t : ServerTable),
    ((rs.foldl LcxlNetLoader.dropServer t).mem s).refCount =
      (t.mem s).refCount - rs.countP (·.dstServer = some s)
  | [], t => by simp
  | r :: rs, t => by
    rw [List.foldl_cons, refCount_dropServers s rs, LcxlNetLoader.dropServer, List.countP_cons]
    rcases r.dstServer with _ | p
    · simp
    · simp only [decRefListEntry_mem, Option.some.injEq, decide_eq_true_eq, eq_comm (a := s)]
      split_ifs
      · push_cast
        ring
      · simp

theorem decRefListEntry_lst (h : t.lst.lockCount = 0) (p : ServerPtr) :
    (decRefListEntry t p).lst =
      if (t.mem p).refCount ≤ 1 then unlinkEntry t.lst p else t.lst := by
  simp only [decRefListEntry, modify_mem_same, modify_lst, removeEntryfromLcxlList, h,
    UInt8.lt_irrefl, if_false, sub_nonpos]
  split_ifs <;> rfl

/-- A reference given back unlinks the server if it was the last, and no other. -/
theorem Steady.dec_list (h : t.Steady) (p : ServerPtr) : (decRefListEntry t p).lst.list =
    t.lst.list.filter fun q => 0 < ((decRefListEntry t p).mem q).refCount := by
  rw [decRefListEntry_lst h.lockCount]
  split_ifs with hp
  · rw [unlinkEntry, h.nodup.erase_eq_filter]
    refine List.filter_congr fun q hq => ?_
    have := h.referenced q hq
    rw [decRefListEntry_mem, Bool.eq_iff_iff, bne_iff_ne, decide_eq_true_eq]
    split_ifs with hqp
    · subst hqp
      simp only [ne_eq, not_true_eq_false, false_iff]
      omega
    · exact iff_of_true hqp this
  · refine (List.filter_eq_self.2 fun q hq => ?_).symm
    have := h.referenced q hq
    rw [decRefListEntry_mem, decide_eq_true_eq]
    split_ifs with hqp
    · subst hqp
      simp only
      omega
    · omega

theorem Moved.dec (h : Moved t₀ t δ) (h₀ : t₀.Steady) (p : ServerPtr) :
    Moved t₀ (decRefListEntry t p) fun q => δ q - if q = p then 1 else 0 := by
  have hmem : ∀ q, (decRefListEntry t p).mem q = { t₀.mem q with
      refCount := (t₀.mem q).refCount + (δ q - if q = p then 1 else 0) } := by
    intro q
    rw [decRefListEntry_mem, h.mem q]
    split_ifs
    · rw [add_sub_assoc]
    · rw [sub_zero]
  have hlst := decRefListEntry_lst h.lockCount p
  refine ⟨hmem, ?_, ?_, ?_, ?_⟩
  · rw [(h.steady h₀).dec_list, h.list, List.filter_filter]
    refine List.filter_congr fun q _ => ?_
    rw [decRefListEntry_mem]
    split_ifs
    · simp only [Bool.and_eq_left_iff_imp, decide_eq_true_eq]
      omega
    · rw [Bool.and_self]
  · rw [hlst]
    split_ifs
    · exact h.lockCount
    · exact h.lockCount
  · rw [hlst]
    split_ifs
    · exact h.toBeAddList
    · exact h.toBeAddList
  · rw [hlst]
    split_ifs
    · exact h.toBeDelList
    · exact h.toBeDelList

theorem Moved.dropServer (h : Moved t₀ t δ) (h₀ : t₀.Steady) (r : LcxlRouteListEntry) :
    Moved t₀ (dropServer t r) fun q => δ q - if r.dstServer = some q then 1 else 0 := by
  unfold LcxlNetLoader.dropServer
  rcases r.dstServer with _ | p
  · simpa using h
  · simpa [eq_comm] using h.dec h₀ p

theorem Moved.of_eq {δ' : ServerPtr → ℤ} (h : Moved t₀ t δ) (hδ : ∀ q, δ' q = δ q) :
    Moved t₀ t δ' := (funext hδ : δ' = δ) ▸ h

theorem Moved.dropServers (h₀ : t₀.Steady) : ∀ (rs : List LcxlRouteListEntry) {t : ServerTable}
    {δ : ServerPtr → ℤ}, Moved t₀ t δ → Moved t₀ (rs.foldl LcxlNetLoader.dropServer t)
      fun q => δ q - rs.countP (·.dstServer = some q)
  | [], t, δ, h => h.of_eq fun q => by simp
  | r :: rs, t, δ, h => by
    refine (dropServers h₀ rs (h.dropServer h₀ r)).of_eq fun q => ?_
    simp only [List.countP_cons, decide_eq_true_eq]
    push_cast
    ring

theorem Moved.incRefOption {server : Option ServerPtr} (h : Moved t₀ t δ)
    (hp : ∀ p ∈ server, p ∈ t.lst.list) :
    Moved t₀ (incRefOption t server) fun q => δ q + server.toList.count q := by
  rcases server with _ | p
  · exact h.of_eq fun q => by simp
  · refine (h.inc (hp p rfl)).of_eq fun q => ?_
    by_cases hq : q = p
    · simp [hq]
    · simp [hq, Ne.symm hq]

/-- A reference taken and given back, while there is another. -/
theorem dec_inc (hp : 1 ≤ (t.mem p).refCount) :
    decRefListEntry (incRefListEntry t p) p = t := by
  have hkeep : ¬ (t.mem p).refCount ≤ 0 := by omega
  simp [decRefListEntry, incRefListEntry, modify, hkeep]

/-- The list is let go around a selection that leaves it alone. -/
theorem unlock_incRefOption_lock (h : t.lst.Settled) (server : Option ServerPtr) :
    unlockServerList (LcxlNetLoader.incRefOption (lockServerList t) server) =
      LcxlNetLoader.incRefOption t server := by
  rcases server with _ | p <;>
    simp [LcxlNetLoader.incRefOption, incRefListEntry, modify, lockServerList, unlockServerList,
      LcxlList.unlock_lock_of_settled h]

end ServerTable

theorem refOnly_incRefOption (t : ServerTable) (server : Option ServerPtr) :
    RefOnly t (incRefOption t server) := by
  rcases server with _ | p
  · exact RefOnly.refl t
  · exact RefOnly.inc

section Selection

variable {t : ServerTable} {m : IpMode}

/-- Only the best server so far is referenced, and only once. -/
theorem leastConnectionLoop_fst
    (h : ∀ p ∈ t.lst.list, serverIsAvaliable (t.mem p) m → 1 ≤ (t.mem p).refCount) :
    ∀ (ps : List ServerPtr) (best : Option ServerPtr), (∀ p ∈ ps, p ∈ t.lst.list) →
      (∀ p ∈ best, p ∈ t.lst.list ∧ serverIsAvaliable (t.mem p) m) →
      (leastConnectionLoop m ps (incRefOption t best) best).1 =
        incRefOption t (leastConnectionLoop m ps (incRefOption t best) best).2
  | [], best, _, _ => rfl
  | p :: ps, best, hps, hbest => by
    simp only [List.mem_cons, forall_eq_or_imp] at hps
    simp only [leastConnectionLoop]
    split_ifs with hp
    · rw [Bool.and_eq_true, (refOnly_incRefOption t best).avaliable] at hp
      have hbest' : ∀ q ∈ some p, q ∈ t.lst.list ∧ serverIsAvaliable (t.mem q) m := by
        simpa using ⟨hps.1, hp.1⟩
      rcases best with _ | b
      · exact leastConnectionLoop_fst h ps (some p) hps.2 hbest'
      · have hb := hbest b rfl
        simp only [incRefOption, ServerTable.dec_inc (h b hb.1 hb.2)]
        exact leastConnectionLoop_fst h ps (some p) hps.2 hbest'
    · exact leastConnectionLoop_fst h ps best hps.2 hbest

theorem findFromIndex_fst (h : t.lst.Settled) (index : ℤ) :
    (findFromIndex t m index).1 = incRefOption t (findFromIndex t m index).2 := by
  unfold findFromIndex
  split
  · rw [findAvaliable_eq]
    exact ServerTable.unlock_incRefOption_lock h _
  · rfl

/-- A selection takes a reference of the server it returns, and that is all. The list is locked
once more while it is searched. -/
theorem selectBestServer_fst (hs : t.lst.Settled) (hl : (lockServerList t).lst.Settled)
    (hr : ∀ p ∈ t.lst.list, serverIsAvaliable (t.mem p) m → 1 ≤ (t.mem p).refCount)
    (dstAddr : List UInt8) (alg : ℤ) (ra : RoutingAlgorithmData) :
    (selectBestServer t m dstAddr alg ra).1 =
      incRefOption t (selectBestServer t m dstAddr alg ra).2.2 := by
  have hunlock : ∀ {t' : ServerTable} {server : Option ServerPtr},
      t' = incRefOption (lockServerList t) server →
        unlockServerList t' = incRefOption t server := fun ht =>
    ht ▸ ServerTable.unlock_incRefOption_lock hs _
  have hindex : ∀ index, (findFromIndex (lockServerList t) m index).1 =
      incRefOption (lockServerList t) (findFromIndex (lockServerList t) m index).2 :=
    findFromIndex_fst hl
  simp only [selectBestServer]
  split_ifs
  · exact hunlock (leastConnectionLoop_fst (t := lockServerList t) hr _ none
      (fun _ hp => hp) (by simp))
  · exact hunlock (hindex _)
  · exact hunlock (hindex _)
  · exact hunlock (hindex _)
  · exact hunlock rfl
  · exact hunlock rfl
  · exact hunlock rfl

end Selection

end LcxlNetLoader
