import LcxlNetLoader.Proofs.Scan

/-!
# Selecting a server under the servers' locks

A selection in memory is the selection of the list, faults nowhere, and takes one reference. The
one lock it does not release is that of a server the search of the ring stopped at.
-/

namespace LcxlNetLoader

open SpinOp

variable {ring : ServerRing} {t : ServerTable} {m : IpMode} {last : Bool} {server : ServerPtr}
  {fuel : ℕ} {held : Finset ServerPtr}

namespace ServerTable

theorem takes_incRefOption (t : ServerTable) (server : Option ServerPtr) :
    t.Takes (incRefOption t server) server := by
  rcases server with _ | s
  · exact ⟨rfl, fun p => by simp [incRefOption], rfl⟩
  · refine ⟨rfl, fun p => ?_, rfl⟩
    rw [incRefOption, incRefListEntry, modify_mem]
    by_cases hp : p = s
    · simp [hp]
    · simp [hp, Ne.symm hp]

theorem Listed.of_ring (hring : Ring.IsRing ring.links ring.head t.lst.list)
    (hcount : t.lst.listCount = t.lst.list.length) : t.Listed :=
  ⟨(List.nodup_cons.1 hring.nodup).2, hcount⟩

theorem Listed.lock (h : t.Listed) : (lockServerList t).Listed := ⟨h.nodup, h.listCount⟩

theorem Listed.count_pos_iff (h : t.Listed) : getLcxlListCount t.lst > 0 ↔ t.lst.list ≠ [] := by
  rw [← List.length_pos_iff, getLcxlListCount, h.listCount]
  exact Int.natCast_pos

/-- At the index, modulo the number of servers, there is one. -/
theorem Listed.exists_entry (h : t.Listed) (hne : t.lst.list ≠ []) (index : ℤ) :
    ∃ server ∈ t.lst.list,
      getListEntryByIndex t.lst.list (index.tmod t.lst.listCount) = some server
        ∧ t.round server = t.lst.list.rotate (index.tmod t.lst.listCount).toNat := by
  have hpos : 0 < t.lst.list.length := List.length_pos_iff.2 hne
  have hlt : (index.tmod t.lst.listCount).toNat < t.lst.list.length := by
    have := Int.tmod_lt_of_pos index (b := t.lst.list.length) (by omega)
    rw [h.listCount]
    omega
  refine ⟨t.lst.list[(index.tmod t.lst.listCount).toNat], List.getElem_mem hlt,
    List.getElem?_eq_getElem hlt, ?_⟩
  rw [round, h.nodup.idxOf_getElem]

end ServerTable

theorem findFromIndex_snd (h : t.Listed) (index : ℤ) : (findFromIndex t m index).2 =
    t.choice m true (t.lst.list.rotate (index.tmod t.lst.listCount).toNat) := by
  unfold findFromIndex getLcxlListHead getLcxlListCount
  by_cases hne : t.lst.list = []
  · simp [hne, getListEntryByIndex, ServerTable.choice]
  · obtain ⟨server, hs, hentry, hround⟩ := h.exists_entry hne index
    rw [hentry, ← hround]
    exact scanned_eq (t := lockServerList t) h.nodup hs

theorem locking_findFromIndex_eq (hring : Ring.IsRing ring.links ring.head t.lst.list)
    (hcount : t.lst.listCount = t.lst.list.length) (hne : t.lst.list ≠ [])
    (hf : t.lst.list.length ≤ fuel) (index : ℤ) :
    Locking.findFromIndex ring fuel t m index = SpinM.returns (findFromIndex t m index)
      (scanCalls t m true (t.lst.list.rotate (index.tmod t.lst.listCount).toNat)) := by
  obtain ⟨server, hs, hentry, hround⟩ :=
    (ServerTable.Listed.of_ring hring hcount).exists_entry hne index
  unfold findFromIndex Locking.findFromIndex getLcxlListHead getLcxlListCount
  rw [hentry, ← hround, SpinM.ofOption_some, SpinM.returns_bind, SpinM.after_nil,
    locking_findAvaliable_eq hring hs hf]

theorem locking_leastConnectionLoop_eq : ∀ (ps : List ServerPtr) (t : ServerTable)
    (best : Option ServerPtr), Locking.leastConnectionLoop m ps t best =
      SpinM.returns (leastConnectionLoop m ps t best) (ps.flatMap bracket)
  | [], t, best => rfl
  | p :: ps, t, best => by
    simp only [Locking.leastConnectionLoop, leastConnectionLoop, SpinM.acquire_bind,
      SpinM.release_bind]
    split_ifs
    · rw [locking_leastConnectionLoop_eq ps]
      rfl
    · rw [locking_leastConnectionLoop_eq ps]
      rfl

/-- With the locks it takes, a selection in memory is the selection of the list. -/
theorem locking_selectBestServer_eq (hring : Ring.IsRing ring.links ring.head t.lst.list)
    (hcount : t.lst.listCount = t.lst.list.length) (hf : t.lst.list.length ≤ fuel)
    (dstAddr : List UInt8) (alg : ℤ) (ra : RoutingAlgorithmData) :
    Locking.selectBestServer ring fuel t m dstAddr alg ra =
      SpinM.returns (selectBestServer t m dstAddr alg ra)
        (if alg = raFastResponse ∨ alg = raLeastConnection then t.lst.list.flatMap bracket
        else if t.SearchesRing m dstAddr alg then
          scanCalls t m true (t.lst.list.rotate (t.startIndex alg ra))
        else []) := by
  have hfind : ∀ index, t.lst.list ≠ [] →
      Locking.findFromIndex ring fuel (lockServerList t) m index = SpinM.returns
        (findFromIndex (lockServerList t) m index) (scanCalls (lockServerList t) m true
          (t.lst.list.rotate (index.tmod t.lst.listCount).toNat)) := fun index hne =>
    locking_findFromIndex_eq (t := lockServerList t) hring hcount hne hf index
  have hlen : getLcxlListCount (lockServerList t).lst > 0 ↔ t.lst.list ≠ [] :=
    (ServerTable.Listed.of_ring hring hcount).lock.count_pos_iff
  simp only [Locking.selectBestServer, selectBestServer]
  by_cases hne : t.lst.list = []
  · simp only [if_neg (hlen.not.2 (not_not.2 hne)), hne, SpinM.pure_eq, SpinM.returns_bind,
      SpinM.after_nil, List.flatMap_nil, List.rotate_nil]
    split_ifs <;> rfl
  simp only [if_pos (hlen.2 hne)]
  by_cases hleast : alg = raFastResponse ∨ alg = raLeastConnection
  · simp only [if_pos hleast, locking_leastConnectionLoop_eq, SpinM.pure_eq, SpinM.returns_bind,
      SpinM.after_returns, List.append_nil]
    rfl
  simp only [if_neg hleast]
  by_cases hpoll : alg = raPoll
  · have hstart : t.startIndex alg ra = ((if ra.currentServerIndex
        ≥ getLcxlListCount (lockServerList t).lst then 0 else ra.currentServerIndex).tmod
          t.lst.listCount).toNat := by
      simp only [ServerTable.startIndex, hpoll, true_and]
      rfl
    simp only [if_pos hpoll, hfind _ hne, SpinM.pure_eq, SpinM.returns_bind, SpinM.after_returns,
      List.append_nil, ← hstart, if_pos (show t.SearchesRing m dstAddr alg from .inl hpoll)]
    rfl
  simp only [if_neg hpoll]
  by_cases hhash : alg = raIpHash ∧ ipHash m dstAddr (getLcxlListCount (lockServerList t).lst) > 0
  · have hstart : t.startIndex alg ra =
        (ra.currentServerIndex.tmod t.lst.listCount).toNat := by
      simp only [ServerTable.startIndex, hpoll, false_and, if_false]
      rfl
    simp only [if_pos hhash.1, if_pos hhash.2, hfind _ hne, SpinM.pure_eq, SpinM.returns_bind,
      SpinM.after_returns, List.append_nil, ← hstart,
      if_pos (show t.SearchesRing m dstAddr alg from .inr hhash)]
    rfl
  · have hnot : ¬ t.SearchesRing m dstAddr alg := fun h => h.elim hpoll hhash
    rw [if_neg hnot]
    split_ifs with h1 h2
    · exact absurd ⟨h1, h2⟩ hhash
    · rfl
    · rfl

/-- Servers of these statuses and reference counts, for IPv4, at the addresses from 1 on. -/
def sampleServers (servers : List (UInt8 × ℤ)) : ServerTable where
  lst := ⟨List.range' 1 servers.length, servers.length, [], [], 0, []⟩
  mem p :=
    let s := servers.getD (p - 1) (0, 0)
    { allocServer 0 with refCount := s.2, info := ⟨s.1, saEnableIpv4, ⟨0, .zero 32⟩⟩ }
  next := servers.length + 1

/-- Two servers in memory, behind a head at address 0. -/
def sampleRing : ServerRing where
  links
    | 0 => some ⟨1, 2⟩
    | 1 => some ⟨2, 0⟩
    | 2 => some ⟨0, 1⟩
    | _ => none
  head := 0

theorem sampleRing_isRing : Ring.IsRing sampleRing.links sampleRing.head [1, 2] := by
  refine ⟨by decide, ?_⟩
  simp [sampleRing, Ring.Joined, Ring.flink, Ring.blink]

theorem findAvaliable_eq_choice (hn : t.lst.list.Nodup) (hs : server ∈ t.lst.list)
    (hl : t.lst.Settled) : findAvaliableServerFormCurrentServer t server m last =
      (incRefOption t (t.choice m last (t.round server)), t.choice m last (t.round server)) := by
  have hscan : scanned (lockServerList t) server m last = t.choice m last (t.round server) :=
    scanned_eq (t := lockServerList t) hn hs
  rw [findAvaliable_eq, hscan, ServerTable.unlock_incRefOption_lock hl]

/-- A search of the ring looks at each server once at most, and returns the choice of the round. -/
theorem findAvaliableServer_searches (hring : Ring.IsRing ring.links ring.head t.lst.list)
    (hs : server ∈ t.lst.list) (hl : t.lst.Settled) (hf : t.lst.list.length ≤ fuel) :
    ∃ t' ops, Locking.findAvaliableServerFormCurrentServer ring fuel t server m last =
        SpinM.returns (t', t.choice m last (t.round server)) ops
      ∧ t.Takes t' (t.choice m last (t.round server))
      ∧ (acquired ops).Nodup ∧ acquired ops <+: t.round server := by
  have hn : t.lst.list.Nodup := (List.nodup_cons.1 hring.nodup).2
  have hprefix : acquired (scanCalls t m last (t.round server)) <+: t.round server :=
    acquired_scanCalls _
  refine ⟨_, _, ?_, ServerTable.takes_incRefOption t _, ?_, hprefix⟩
  · rw [locking_findAvaliable_eq hring hs hf, findAvaliable_eq_choice hn hs hl]
  · exact (List.nodup_rotate.2 hn).sublist hprefix.sublist

/-- From the second of two servers, of which the first is online and the second is being checked. -/
theorem findAvaliableServer_searches_two :
    ∃ t' ops, Locking.findAvaliableServerFormCurrentServer sampleRing 2
        (sampleServers [(ssOnline, 1), (ssOnline ||| ssChecking, 1)]) 2 .ipv4 true =
          SpinM.returns (t', some 1) ops
      ∧ (sampleServers [(ssOnline, 1), (ssOnline ||| ssChecking, 1)]).Takes t' (some 1)
      ∧ (acquired ops).Nodup ∧ acquired ops <+: [2, 1] :=
  findAvaliableServer_searches (t := sampleServers [(ssOnline, 1), (ssOnline ||| ssChecking, 1)])
    sampleRing_isRing (by decide) (fun _ => ⟨rfl, rfl⟩) (by decide)

section LockCount

/-! A list that is locked inside a lock of it is locked as often again after each unlock. -/

theorem incRefOption_lst (t : ServerTable) (server : Option ServerPtr) :
    (incRefOption t server).lst = t.lst := by
  rcases server with _ | p <;> rfl

theorem decRefListEntry_lockCount (p : ServerPtr) :
    (decRefListEntry t p).lst.lockCount = t.lst.lockCount := by
  unfold decRefListEntry
  dsimp only
  split_ifs
  · exact removeEntryfromLcxlList_lockCount _ p
  · rfl

theorem leastConnectionLoop_lockCount : ∀ (ps : List ServerPtr) (t : ServerTable)
    (best : Option ServerPtr),
      (leastConnectionLoop m ps t best).1.lst.lockCount = t.lst.lockCount
  | [], t, best => rfl
  | p :: ps, t, best => by
    simp only [leastConnectionLoop]
    split_ifs
    · rw [leastConnectionLoop_lockCount ps]
      rcases best with _ | b
      · rfl
      · exact decRefListEntry_lockCount b
    · exact leastConnectionLoop_lockCount ps t best

theorem findAvaliable_lockCount :
    (findAvaliableServerFormCurrentServer t server m last).1.lst.lockCount = t.lst.lockCount := by
  rw [findAvaliable_eq, unlockServerList, unlockLcxlList_lockCount, incRefOption_lst]
  exact UInt8.add_sub_cancel _ _

theorem findFromIndex_lockCount (index : ℤ) :
    (findFromIndex t m index).1.lst.lockCount = t.lst.lockCount := by
  unfold findFromIndex
  split
  · exact findAvaliable_lockCount
  · rfl

theorem selectBestServer_lockCount (dstAddr : List UInt8) (alg : ℤ) (ra : RoutingAlgorithmData) :
    (selectBestServer t m dstAddr alg ra).1.lst.lockCount = t.lst.lockCount := by
  have hunlock : ∀ {t' : ServerTable}, t'.lst.lockCount = (lockServerList t).lst.lockCount →
      (unlockServerList t').lst.lockCount = t.lst.lockCount := fun {t'} h => by
    rw [unlockServerList, unlockLcxlList_lockCount, h]
    exact UInt8.add_sub_cancel _ _
  simp only [selectBestServer]
  split_ifs
  · exact hunlock (leastConnectionLoop_lockCount _ _ _)
  · exact hunlock (findFromIndex_lockCount _)
  · exact hunlock (findFromIndex_lockCount _)
  · exact hunlock (findFromIndex_lockCount _)
  · exact hunlock rfl
  · exact hunlock rfl
  · exact hunlock rfl

end LockCount

section Releases

theorem releases_iff_replay {α : Type} {t' : ServerTable} {a : α} {ops : List (SpinOp ServerPtr)}
    (h : t'.lst.lockCount = t.lst.lockCount) :
    Locking.Releases held t (SpinM.returns (t', a) ops) ↔ replay held ops = some held := by
  refine ⟨?_, fun hops => ⟨t', a, ops, rfl, hops, h⟩⟩
  rintro ⟨_, _, ops', heq, hops, -⟩
  rwa [(SpinM.returns_inj.1 heq).2]

/-- The loop leaves a server locked if it stops at one. -/
theorem replay_scanCalls_iff {order : List ServerPtr} (h : ∀ p ∈ order, p ∉ held) :
    replay held (scanCalls t m last order) = some held ↔ ∀ p ∈ order, t.stops m last p = false := by
  have hlooked : ∀ p ∈ order.takeWhile fun p => !t.stops m last p, p ∉ held := fun p hp =>
    h p ((List.takeWhile_sublist _).subset hp)
  rw [scanCalls, replay_brackets hlooked]
  rcases hfind : order.find? (t.stops m last) with _ | p
  · have hnone : ∀ p ∈ order, t.stops m last p = false := by simpa using hfind
    exact iff_of_true rfl hnone
  · have hp : p ∈ order := List.mem_of_find?_eq_some hfind
    have hlocked : insert p held ≠ held := fun heq => h p hp (heq ▸ Finset.mem_insert_self p held)
    refine iff_of_false ?_ fun hnone => ?_
    · simp [replay, h p hp]
    · have hstop : t.stops m last p = true := List.find?_some hfind
      rw [hnone p hp] at hstop
      exact Bool.false_ne_true hstop

theorem stops_eq_false_iff (p : ServerPtr) :
    t.stops m last p = false ↔ (t.avaliable m p → last ∧ t.checking p) := by
  simp only [ServerTable.stops]
  cases t.avaliable m p <;> cases last <;> cases t.checking p <;> decide

variable (fuel held) in
/-- The locks are released again if the search passes over every server, or there is none. -/
theorem releases_iff (hring : Ring.IsRing ring.links ring.head t.lst.list)
    (hcount : t.lst.listCount = t.lst.list.length) (hf : t.lst.list.length ≤ fuel)
    (hheld : ∀ p ∈ t.lst.list, p ∉ held) :
    (∀ server ∈ t.lst.list, ∀ last, Locking.Releases held t
        (Locking.findAvaliableServerFormCurrentServer ring fuel t server m last) ↔
      ∀ p ∈ t.lst.list, t.avaliable m p → last ∧ t.checking p)
    ∧ ∀ dstAddr alg ra, Locking.Releases held t
        (Locking.selectBestServer ring fuel t m dstAddr alg ra) ↔
      (t.SearchesRing m dstAddr alg → ∀ p ∈ t.lst.list, t.avaliable m p → t.checking p) := by
  constructor
  · intro server hs last
    rw [locking_findAvaliable_eq hring hs hf, releases_iff_replay findAvaliable_lockCount,
      replay_scanCalls_iff (by simpa [ServerTable.round] using hheld)]
    simp only [ServerTable.round, List.mem_rotate, stops_eq_false_iff]
  · intro dstAddr alg ra
    rw [locking_selectBestServer_eq hring hcount hf,
      releases_iff_replay (selectBestServer_lockCount dstAddr alg ra)]
    split_ifs with hleast hsearch
    · have hnot : ¬ t.SearchesRing m dstAddr alg := by
        rintro (hpoll | hhash)
        · exact absurd hleast (hpoll ▸ by decide)
        · exact absurd hleast (hhash.1 ▸ by decide)
      rw [← List.append_nil (t.lst.list.flatMap bracket), replay_brackets hheld]
      exact iff_of_true rfl fun h => absurd h hnot
    · rw [replay_scanCalls_iff (by simpa using hheld)]
      simp [stops_eq_false_iff, hsearch]
    · exact iff_of_true rfl fun h => absurd h hsearch

/-- The selection returns from a server it stopped at, and nothing unlocks that. -/
theorem locking_selectBestServer_not_releases : ¬ Locking.Releases ∅
    (sampleServers [(ssOnline, 1), (ssOnline, 1)])
    (Locking.selectBestServer sampleRing 2 (sampleServers [(ssOnline, 1), (ssOnline, 1)]) .ipv4 []
      raPoll ⟨0⟩) := by
  rintro ⟨t', a, ops, hrun, hops, -⟩
  have hcalls : some [.acquire 1] = some ops := congrArg (Option.map Prod.snd) hrun
  rw [← Option.some_inj.1 hcalls] at hops
  exact absurd hops (by decide)

/-- A server that is not online, and one that is and is being checked. -/
theorem releases_iff_two :
    Locking.Releases ∅ (sampleServers [(0, 1), (ssOnline ||| ssChecking, 1)])
        (Locking.findAvaliableServerFormCurrentServer sampleRing 2
          (sampleServers [(0, 1), (ssOnline ||| ssChecking, 1)]) 2 .ipv4 true)
      ∧ Locking.Releases ∅ (sampleServers [(0, 1), (ssOnline ||| ssChecking, 1)])
        (Locking.selectBestServer sampleRing 2
          (sampleServers [(0, 1), (ssOnline ||| ssChecking, 1)]) .ipv4 [] raPoll ⟨0⟩) := by
  have h := releases_iff (t := sampleServers [(0, 1), (ssOnline ||| ssChecking, 1)]) (m := .ipv4) 2
    ∅ sampleRing_isRing rfl (by decide) (by simp)
  exact ⟨(h.1 2 (by decide) true).2 (by decide), (h.2 [] raPoll ⟨0⟩).2 fun _ => by decide⟩

end Releases

/-- A selection that returns a server takes one reference to it, and changes nothing else. -/
theorem locking_selectBestServer_takes (hring : Ring.IsRing ring.links ring.head t.lst.list)
    (hcount : t.lst.listCount = t.lst.list.length) (hs : t.lst.Settled)
    (hl : (lockServerList t).lst.Settled)
    (hr : ∀ p ∈ t.lst.list, t.avaliable m p → 1 ≤ (t.mem p).refCount)
    (hf : t.lst.list.length ≤ fuel) (dstAddr : List UInt8) (alg : ℤ) (ra : RoutingAlgorithmData) :
    ∃ t' ra' s ops, Locking.selectBestServer ring fuel t m dstAddr alg ra =
        SpinM.returns (t', ra', s) ops
      ∧ t.Takes t' s ∧ ∀ p ∈ s, p ∈ t.lst.list ∧ t.avaliable m p := by
  have hspec := selectBestServer_spec t m dstAddr alg ra
  have htakes : t.Takes (selectBestServer t m dstAddr alg ra).1
      (selectBestServer t m dstAddr alg ra).2.2 := by
    rw [selectBestServer_fst hs hl hr]
    exact ServerTable.takes_incRefOption t _
  exact ⟨_, _, _, _, locking_selectBestServer_eq hring hcount hf dstAddr alg ra, htakes,
    fun p hp => ⟨hspec.linked p hp, hspec.avaliable p hp⟩⟩

/-- Two servers, the second of them with fewer references. -/
theorem locking_selectBestServer_takes_two :
    let t := sampleServers [(ssOnline, 3), (ssOnline, 2)]
    ∃ t' ra' s ops, Locking.selectBestServer sampleRing 2 t .ipv4 [] raLeastConnection ⟨0⟩ =
        SpinM.returns (t', ra', s) ops
      ∧ t.Takes t' s ∧ ∀ p ∈ s, p ∈ t.lst.list ∧ t.avaliable .ipv4 p :=
  locking_selectBestServer_takes (t := sampleServers [(ssOnline, 3), (ssOnline, 2)])
    sampleRing_isRing rfl (fun _ => ⟨rfl, rfl⟩) (fun _ => ⟨rfl, rfl⟩) (by decide) (by decide) []
    raLeastConnection ⟨0⟩

end LcxlNetLoader
