import LcxlNetLoader.Proofs.Receive

/-!
# Selecting a server

Counting references is all that locking, selecting and routing do to a server (`RefOnly`), and a
server that is selected is linked and available (`selectBestServer_spec`).
-/

namespace LcxlNetLoader

/-- Only reference counts, and what is in the lists, may differ. -/
structure RefOnly (t t' : ServerTable) : Prop where
  mem : ∀ p, ∃ n, t'.mem p = { t.mem p with refCount := n }
  next : t'.next = t.next

namespace RefOnly

variable {t t' t'' : ServerTable} {p : ServerPtr}

theorem refl (t : ServerTable) : RefOnly t t := ⟨fun p => ⟨(t.mem p).refCount, rfl⟩, rfl⟩

theorem trans (h : RefOnly t t') (h' : RefOnly t' t'') : RefOnly t t'' := by
  refine ⟨fun p => ?_, h'.next.trans h.next⟩
  obtain ⟨n, hn⟩ := h.mem p
  obtain ⟨n', hn'⟩ := h'.mem p
  exact ⟨n', by rw [hn', hn]⟩

theorem of_mem (hm : t'.mem = t.mem) (hn : t'.next = t.next) : RefOnly t t' :=
  ⟨fun p => ⟨(t.mem p).refCount, by rw [hm]⟩, hn⟩

theorem lock : RefOnly t (lockServerList t) := of_mem rfl rfl

theorem unlock : RefOnly t (unlockServerList t) := of_mem rfl rfl

theorem modify (g : ServerInfoListEntry → ℤ) :
    RefOnly t (t.modify p fun s => { s with refCount := g s }) := by
  refine ⟨fun q => ?_, rfl⟩
  by_cases h : q = p
  · subst h
    exact ⟨_, ServerTable.modify_mem_same⟩
  · exact ⟨_, ServerTable.modify_mem_of_ne h⟩

theorem inc : RefOnly t (incRefListEntry t p) := modify _

theorem dec : RefOnly t (decRefListEntry t p) := by
  unfold decRefListEntry
  dsimp only
  have h := modify (t := t) (p := p) fun s => s.refCount - 1
  split_ifs
  · exact h.trans ⟨fun q => ⟨_, rfl⟩, rfl⟩
  · exact h

theorem info (h : RefOnly t t') (p : ServerPtr) : (t'.mem p).info = (t.mem p).info := by
  obtain ⟨n, hn⟩ := h.mem p
  rw [hn]

theorem avaliable (h : RefOnly t t') (p : ServerPtr) (m : IpMode) :
    serverIsAvaliable (t'.mem p) m = serverIsAvaliable (t.mem p) m := by
  simp only [serverIsAvaliable, h.info p]

end RefOnly

theorem nextServer_mem {xs : List ServerPtr} {p : ServerPtr} (hp : p ∈ xs) :
    nextServer xs p ∈ xs := by
  unfold nextServer
  split
  · rename_i q qs h
    have hq : q ∈ (xs.dropWhile (· ≠ p)).tail := by
      rw [h]
      exact List.mem_cons_self
    exact (List.dropWhile_sublist _).subset (List.mem_of_mem_tail hq)
  · cases xs with
    | nil => simp at hp
    | cons x xs => simp

/-- The loop finds linked available servers. -/
theorem findAvaliableLoop_spec (t : ServerTable) (server : ServerPtr) (m : IpMode) (last : Bool) :
    ∀ (fuel : ℕ) (cur : ServerPtr) (checking : Option ServerPtr), cur ∈ t.lst.list →
      (∀ p ∈ checking, p ∈ t.lst.list ∧ serverIsAvaliable (t.mem p) m) →
      let r := findAvaliableLoop t server m last fuel cur checking
      (∀ p ∈ r.1, p ∈ t.lst.list ∧ serverIsAvaliable (t.mem p) m)
        ∧ ∀ p ∈ r.2, p ∈ t.lst.list ∧ serverIsAvaliable (t.mem p) m
  | 0, cur, checking, _, hc => by
    refine ⟨fun p hp => ?_, hc⟩
    simp [findAvaliableLoop] at hp
  | fuel + 1, cur, checking, hcur, hc => by
    have hc' : ∀ p ∈ (if serverIsAvaliable (t.mem cur) m then some cur else checking),
        p ∈ t.lst.list ∧ serverIsAvaliable (t.mem p) m := by
      intro p hp
      split_ifs at hp with ha
      · simp only [Option.mem_def, Option.some.injEq] at hp
        subst hp
        exact ⟨hcur, ha⟩
      · exact hc p hp
    simp only [findAvaliableLoop]
    generalize (if serverIsAvaliable (t.mem cur) m then some cur else checking) = next at hc' ⊢
    split_ifs with ha hn
    · refine ⟨fun p hp => ?_, hc⟩
      simp only [Option.mem_def, Option.some.injEq] at hp
      subst hp
      exact ⟨hcur, ha.1⟩
    · exact ⟨fun p hp => by simp at hp, hc'⟩
    · exact findAvaliableLoop_spec t server m last fuel _ _ (nextServer_mem hcur) hc'

/-- What a selection out of `t` leaves and returns. -/
structure Selects (t : ServerTable) (m : IpMode) (t' : ServerTable) (server : Option ServerPtr) :
    Prop where
  refOnly : RefOnly t t'
  linked : ∀ p ∈ server, p ∈ t.lst.list
  avaliable : ∀ p ∈ server, serverIsAvaliable (t.mem p) m

/-- A reference to the server, if there is one. -/
def incRefOption (t : ServerTable) (server : Option ServerPtr) : ServerTable :=
  match server with
  | some p => incRefListEntry t p
  | none => t

/-- What the loop of `FindAvaliableServerFormCurrentServer` settles on. -/
def scanned (t : ServerTable) (server : ServerPtr) (m : IpMode) (last : Bool) : Option ServerPtr :=
  let r := findAvaliableLoop t server m last t.lst.list.length server none
  r.1 <|> r.2

theorem findAvaliable_eq (t : ServerTable) (server : ServerPtr) (m : IpMode) (last : Bool) :
    findAvaliableServerFormCurrentServer t server m last =
      (unlockServerList
          (incRefOption (lockServerList t) (scanned (lockServerList t) server m last)),
        scanned (lockServerList t) server m last) := rfl

theorem scanned_spec {t : ServerTable} {server : ServerPtr} {m : IpMode} {last : Bool}
    (hs : server ∈ t.lst.list) : ∀ p ∈ scanned t server m last,
      p ∈ t.lst.list ∧ serverIsAvaliable (t.mem p) m := by
  have h := findAvaliableLoop_spec t server m last t.lst.list.length server none hs (by simp)
  intro p hp
  unfold scanned at hp
  rcases ho : (findAvaliableLoop t server m last t.lst.list.length server none).1 with _ | q
  · exact h.2 p (by simpa [ho] using hp)
  · exact h.1 p (by simpa [ho] using hp)

theorem findAvaliable_spec {t : ServerTable} {server : ServerPtr} {m : IpMode} {last : Bool}
    (hs : server ∈ t.lst.list) :
    Selects t m (findAvaliableServerFormCurrentServer t server m last).1
      (findAvaliableServerFormCurrentServer t server m last).2 := by
  rw [findAvaliable_eq]
  have h : ∀ p ∈ scanned (lockServerList t) server m last,
      p ∈ t.lst.list ∧ serverIsAvaliable (t.mem p) m := scanned_spec hs
  refine ⟨?_, fun p hp => (h p hp).1, fun p hp => (h p hp).2⟩
  rcases scanned (lockServerList t) server m last with _ | p
  · exact RefOnly.lock.trans RefOnly.unlock
  · exact (RefOnly.lock.trans RefOnly.inc).trans RefOnly.unlock

theorem leastConnectionLoop_spec {t₀ : ServerTable} {m : IpMode} :
    ∀ (ps : List ServerPtr) (t : ServerTable) (best : Option ServerPtr), RefOnly t₀ t →
      (∀ p ∈ ps, p ∈ t₀.lst.list) →
      (∀ p ∈ best, p ∈ t₀.lst.list ∧ serverIsAvaliable (t₀.mem p) m) →
      Selects t₀ m (leastConnectionLoop m ps t best).1 (leastConnectionLoop m ps t best).2
  | [], t, best, ht, _, hb => ⟨ht, fun p hp => (hb p hp).1, fun p hp => (hb p hp).2⟩
  | p :: ps, t, best, ht, hps, hb => by
    simp only [List.mem_cons, forall_eq_or_imp] at hps
    simp only [leastConnectionLoop]
    split_ifs with h
    · rw [Bool.and_eq_true, ht.avaliable] at h
      refine leastConnectionLoop_spec ps _ _ ?_ hps.2 ?_
      · rcases best with _ | b
        · exact ht.trans RefOnly.inc
        · exact (ht.trans RefOnly.dec).trans RefOnly.inc
      · intro q hq
        simp only [Option.mem_def, Option.some.injEq] at hq
        subst hq
        exact ⟨hps.1, h.1⟩
    · exact leastConnectionLoop_spec ps t best ht hps.2 hb

theorem findFromIndex_spec {t : ServerTable} {m : IpMode} {index : ℤ} :
    Selects t m (findFromIndex t m index).1 (findFromIndex t m index).2 := by
  simp only [findFromIndex]
  split
  · rename_i entry h
    exact findAvaliable_spec (List.mem_of_getElem? h)
  · exact ⟨RefOnly.refl t, by simp, by simp⟩

theorem selectBestServer_spec (t : ServerTable) (m : IpMode) (dstAddr : List UInt8) (alg : ℤ)
    (ra : RoutingAlgorithmData) :
    Selects t m (selectBestServer t m dstAddr alg ra).1
      (selectBestServer t m dstAddr alg ra).2.2 := by
  have hlift : ∀ {t' server}, Selects (lockServerList t) m t' server →
      Selects t m (unlockServerList t') server := fun h =>
    ⟨(RefOnly.lock.trans h.refOnly).trans RefOnly.unlock, h.linked, h.avaliable⟩
  have hnone : Selects (lockServerList t) m (lockServerList t) none :=
    ⟨RefOnly.refl _, by simp, by simp⟩
  simp only [selectBestServer]
  split_ifs
  · exact hlift (leastConnectionLoop_spec _ _ none (RefOnly.refl _) (fun _ hp => hp) (by simp))
  · exact hlift findFromIndex_spec
  · exact hlift findFromIndex_spec
  · exact hlift findFromIndex_spec
  · exact hlift hnone
  · exact hlift hnone
  · exact hlift hnone

end LcxlNetLoader
