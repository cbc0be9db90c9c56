import LcxlNetLoader.Proofs.ServerLocks

/-!
# What the algorithms select

A search of the ring returns the choice of the round it begins, so it finds a server if there is
one (`selectBestServer_none_iff`), and takes the ready servers in turn if it begins behind the
last one it found (`pollRun_takes_turns`). Where it begins makes a difference only to servers one
of two beginnings is in front of and the other behind (`ipHash_same_iff`).
-/

namespace LcxlNetLoader

variable {t t' : ServerTable} {m : IpMode}

namespace ServerTable

/-- A choice is the first server of the order or its reverse that a search may return. -/
theorem choice_eq_find? (order : List ServerPtr) : t.choice m true order =
    if order.any (t.ready m) then order.find? (t.ready m)
    else order.reverse.find? (t.avaliable m) := by
  rw [choice, if_pos rfl]
  split_ifs with hready
  · rw [List.any_eq_true, ← List.find?_isSome, Option.isSome_iff_exists] at hready
    obtain ⟨p, hp⟩ := hready
    rw [hp]
    rfl
  · have hnone : ∀ p ∈ order, t.ready m p = false := by simpa using hready
    have hfind : order.find? (t.ready m) = none := by simpa using hnone
    rw [hfind]
    refine List.find?_congr fun p hp => ?_
    have := hnone p (List.mem_reverse.1 hp)
    rw [ready] at this
    cases ha : t.avaliable m p
    · rfl
    · simpa [ha] using this

theorem choice_eq_none_iff (order : List ServerPtr) :
    t.choice m true order = none ↔ ∀ p ∈ order, t.avaliable m p = false := by
  rw [choice_eq_find?]
  split_ifs with hready
  · rw [List.any_eq_true] at hready
    obtain ⟨p, hp, hr⟩ := hready
    have ha : t.avaliable m p = true := (Bool.and_eq_true_iff.1 hr).1
    refine iff_of_false (fun h => ?_) fun h => ?_
    · exact List.find?_eq_none.1 h p hp hr
    · exact Bool.false_ne_true ((h p hp).symm.trans ha)
  · simp

end ServerTable

theorem leastConnectionLoop_eq_none_iff {t₀ : ServerTable} : ∀ (ps : List ServerPtr)
    (t : ServerTable) (best : Option ServerPtr), RefOnly t₀ t →
      ((leastConnectionLoop m ps t best).2 = none ↔
        best = none ∧ ∀ p ∈ ps, t₀.avaliable m p = false)
  | [], t, best, _ => by simp [leastConnectionLoop]
  | p :: ps, t, best, ht => by
    have hp : serverIsAvaliable (t.mem p) m = t₀.avaliable m p := ht.avaliable p m
    simp only [leastConnectionLoop, hp, List.forall_mem_cons]
    cases ha : t₀.avaliable m p
    · rw [Bool.false_and, if_neg Bool.false_ne_true, leastConnectionLoop_eq_none_iff ps t best ht]
      simp
    · rw [Bool.true_and]
      rcases best with _ | b
      · rw [betterServer, if_pos rfl,
          leastConnectionLoop_eq_none_iff ps _ (some p) (ht.trans RefOnly.inc)]
        simp
      · split_ifs
        · rw [leastConnectionLoop_eq_none_iff ps _ (some p)
            ((ht.trans RefOnly.dec).trans RefOnly.inc)]
          simp
        · rw [leastConnectionLoop_eq_none_iff ps t (some b) ht]
          simp

theorem selectBestServer_snd (h : t.Listed) (dstAddr : List UInt8) (alg : ℤ)
    (ra : RoutingAlgorithmData) : (selectBestServer t m dstAddr alg ra).2.2 =
      if alg = raFastResponse ∨ alg = raLeastConnection then
        (leastConnectionLoop m t.lst.list (lockServerList t) none).2
      else if t.SearchesRing m dstAddr alg then
        t.choice m true (t.lst.list.rotate (t.startIndex alg ra))
      else none := by
  have hfind : ∀ index, (findFromIndex (lockServerList t) m index).2 =
      t.choice m true (t.lst.list.rotate (index.tmod t.lst.listCount).toNat) :=
    findFromIndex_snd h.lock
  have hlen : getLcxlListCount (lockServerList t).lst > 0 ↔ t.lst.list ≠ [] := h.lock.count_pos_iff
  simp only [selectBestServer]
  by_cases hne : t.lst.list = []
  · simp only [if_neg (hlen.not.2 (not_not.2 hne)), hne, leastConnectionLoop, List.rotate_nil]
    split_ifs <;> rfl
  simp only [if_pos (hlen.2 hne)]
  by_cases hleast : alg = raFastResponse ∨ alg = raLeastConnection
  · simp only [if_pos hleast]
    rfl
  simp only [if_neg hleast]
  by_cases hpoll : alg = raPoll
  · rw [if_pos (show t.SearchesRing m dstAddr alg from .inl hpoll)]
    simp only [ServerTable.startIndex, hpoll, if_true, true_and, hfind]
    rfl
  by_cases hhash : alg = raIpHash ∧ ipHash m dstAddr (getLcxlListCount (lockServerList t).lst) > 0
  · rw [if_pos (show t.SearchesRing m dstAddr alg from .inr hhash)]
    simp only [if_pos hhash.1, if_pos hhash.2, hfind, ServerTable.startIndex, hpoll,
      false_and, if_false]
    rfl
  · rw [if_neg fun h : t.SearchesRing m dstAddr alg => h.elim hpoll hhash]
    split_ifs with h1 h2
    · exact absurd ⟨h1, h2⟩ hhash
    · rfl
    · rfl

/-- An algorithm that searches the servers finds one if any is available. -/
theorem selectBestServer_of_searches (h : t.Listed) {dstAddr : List UInt8} {alg : ℤ}
    (hs : t.Searches m dstAddr alg) (ra : RoutingAlgorithmData) :
    (selectBestServer t m dstAddr alg ra).2.2 = none ↔
      ∀ p ∈ t.lst.list, t.avaliable m p = false := by
  rw [selectBestServer_snd h]
  split_ifs with hleast hring
  · rw [leastConnectionLoop_eq_none_iff _ _ none RefOnly.lock]
    simp
  · simp only [ServerTable.choice_eq_none_iff, List.mem_rotate]
  · exact absurd (or_assoc.2 hs) (not_or.2 ⟨hleast, hring⟩)

/-- A selection that looks for a server returns one if any is available, and no other does. -/
theorem selectBestServer_none_iff (h : t.Listed) (dstAddr : List UInt8) (alg : ℤ)
    (ra : RoutingAlgorithmData) :
    ((selectBestServer t m dstAddr alg ra).2.2 = none ↔ ∀ p ∈ t.lst.list, t.avaliable m p = false)
      ↔ ((∃ p ∈ t.lst.list, t.avaliable m p) → t.Searches m dstAddr alg) := by
  have hsome : (∃ p ∈ t.lst.list, t.avaliable m p) ↔
      ¬ ∀ p ∈ t.lst.list, t.avaliable m p = false := by
    simp only [not_forall, Bool.not_eq_false, exists_prop]
  rw [selectBestServer_snd h, hsome]
  split_ifs with hleast hring
  · refine iff_of_true ?_ fun _ => or_assoc.1 (.inl hleast)
    rw [leastConnectionLoop_eq_none_iff _ _ none RefOnly.lock]
    simp
  · refine iff_of_true ?_ fun _ => .inr (.inr hring)
    simp only [ServerTable.choice_eq_none_iff, List.mem_rotate]
  · have hnot : ¬ t.Searches m dstAddr alg := fun hs =>
      (or_assoc.2 hs).elim hleast hring
    simp only [hnot, imp_false, not_not, true_iff]

/-- With one server, every hash of an address is 0. -/
theorem selectBestServer_not_none_iff :
    ¬ ((selectBestServer (sampleServers [(ssOnline, 1)]) .ipv4 [10, 0, 0, 1] raIpHash ⟨0⟩).2.2
        = none
      ↔ ∀ p ∈ (sampleServers [(ssOnline, 1)]).lst.list,
        (sampleServers [(ssOnline, 1)]).avaliable .ipv4 p = false) := by
  decide

theorem selectBestServer_none_iff_two :
    ((selectBestServer (sampleServers [(0, 1), (ssOnline, 1)]) .ipv4 [1, 0, 0, 0] raIpHash ⟨0⟩).2.2
        = none
      ↔ ∀ p ∈ [1, 2], (sampleServers [(0, 1), (ssOnline, 1)]).avaliable .ipv4 p = false)
    ↔ ((∃ p ∈ [1, 2], (sampleServers [(0, 1), (ssOnline, 1)]).avaliable .ipv4 p)
      → (sampleServers [(0, 1), (ssOnline, 1)]).Searches .ipv4 [1, 0, 0, 0] raIpHash) :=
  selectBestServer_none_iff (t := sampleServers [(0, 1), (ssOnline, 1)]) (m := .ipv4)
    ⟨by decide, rfl⟩ [1, 0, 0, 0] raIpHash ⟨0⟩

namespace ServerTable

theorem SameServers.avaliable (h : SameServers t t') {p : ServerPtr} (hp : p ∈ t.lst.list) :
    t'.avaliable m p = t.avaliable m p := by
  simp only [ServerTable.avaliable, serverIsAvaliable, h.status p hp, h.ipStatus p hp]

theorem SameServers.checking (h : SameServers t t') {p : ServerPtr} (hp : p ∈ t.lst.list) :
    t'.checking p = t.checking p := by
  simp only [ServerTable.checking, h.status p hp]

theorem SameServers.ready (h : SameServers t t') {p : ServerPtr} (hp : p ∈ t.lst.list) :
    t'.ready m p = t.ready m p := by
  simp only [ServerTable.ready, h.avaliable hp, h.checking hp]

theorem SameServers.choice (h : SameServers t t') {order : List ServerPtr}
    (horder : ∀ p ∈ order, p ∈ t.lst.list) : t'.choice m true order = t.choice m true order := by
  have hready : order.any (t'.ready m) = order.any (t.ready m) := by
    rw [Bool.eq_iff_iff, List.any_eq_true, List.any_eq_true]
    exact exists_congr fun p => and_congr_right fun hp => by rw [h.ready (horder p hp)]
  rw [choice_eq_find?, choice_eq_find?, hready,
    List.find?_congr fun p hp => h.ready (horder p hp),
    List.find?_congr fun p hp => h.avaliable (horder p (List.mem_reverse.1 hp))]

theorem SameServers.startIndex (h : SameServers t t') (ht : t.Listed) (ht' : t'.Listed) (alg : ℤ)
    (ra : RoutingAlgorithmData) : t'.startIndex alg ra = t.startIndex alg ra := by
  simp only [ServerTable.startIndex, getLcxlListCount, ht.listCount, ht'.listCount, h.list]

theorem choice_of_ready {order as : List ServerPtr} {p : ServerPtr}
    (h : order.filter (t.ready m) = p :: as) : t.choice m true order = some p := by
  have hp : p ∈ order ∧ t.ready m p = true := List.mem_filter.1 (h ▸ List.mem_cons_self)
  have hany : order.any (t.ready m) = true := List.any_eq_true.2 ⟨p, hp⟩
  rw [choice_eq_find?, if_pos hany, ← List.head?_filter, h, List.head?_cons]

/-- A poll behind a linked server begins its round there. -/
theorem rotate_startIndex (h : t.Listed) {p : ServerPtr} (hp : p ∈ t.lst.list) :
    t.lst.list.rotate (t.startIndex raPoll ⟨t.lst.list.idxOf p + 1⟩) =
      t.lst.list.rotate (t.lst.list.idxOf p + 1) := by
  have hlt : t.lst.list.idxOf p < t.lst.list.length := List.idxOf_lt_length_of_mem hp
  simp only [ServerTable.startIndex, getLcxlListCount, h.listCount, true_and]
  split_ifs with hlast
  · have heq : t.lst.list.idxOf p + 1 = t.lst.list.length := by omega
    rw [heq, List.rotate_length]
    simp
  · rw [← Nat.cast_succ, ← Int.ofNat_tmod]
    rw [Int.toNat_natCast, List.rotate_mod]

end ServerTable

/-- A poll leaves the index behind the server it returns. -/
theorem selectBestServer_index (hl : (lockServerList t).lst.Settled) {dstAddr : List UInt8}
    {ra : RoutingAlgorithmData} {p : ServerPtr}
    (h : (selectBestServer t m dstAddr raPoll ra).2.2 = some p) :
    (selectBestServer t m dstAddr raPoll ra).2.1 = ⟨getListEntryIndex t.lst.list p + 1⟩ := by
  have hleast : ¬ (raPoll = raFastResponse ∨ raPoll = raLeastConnection) := by decide
  have hlst : ∀ index, (findFromIndex (lockServerList t) m index).1.lst = (lockServerList t).lst :=
    fun index => by rw [findFromIndex_fst hl, incRefOption_lst]
  simp only [selectBestServer, if_neg hleast, if_true] at h ⊢
  by_cases hcount : getLcxlListCount (lockServerList t).lst > 0
  · simp only [if_pos hcount] at h ⊢
    rw [h, hlst]
    rfl
  · simp only [if_neg hcount, reduceCtorEq] at h

theorem selectBestServer_poll (h : t.Listed) (h' : t.Polled t') (dstAddr : List UInt8)
    {ra : RoutingAlgorithmData} {p : ServerPtr} {as : List ServerPtr} (hp : p ∈ t.lst.list)
    (hround : (t.lst.list.rotate (t.startIndex raPoll ra)).filter (t.ready m) = p :: as) :
    (selectBestServer t' m dstAddr raPoll ra).2 = (⟨t.lst.list.idxOf p + 1⟩, some p) := by
  have hserver : (selectBestServer t' m dstAddr raPoll ra).2.2 = some p := by
    rw [selectBestServer_snd h'.listed, if_neg (by decide),
      if_pos (show t'.SearchesRing m dstAddr raPoll from .inl rfl),
      h'.same.startIndex h h'.listed, h'.same.list,
      h'.same.choice fun q hq => List.mem_rotate.1 hq]
    exact ServerTable.choice_of_ready hround
  refine Prod.ext ?_ hserver
  rw [selectBestServer_index h'.settled hserver, getListEntryIndex, h'.same.list, if_pos hp]

/-- The ready servers take turns: a poll returns the first of them in the round it begins, which
is last in the next. -/
theorem pollRun_takes_turns : ∀ (calls : List (ServerTable × List UInt8))
    (ra : RoutingAlgorithmData) (turn behind : List ServerPtr), t.Listed →
      (∀ c ∈ calls, t.Polled c.1) → calls.length = turn.length →
      (t.lst.list.rotate (t.startIndex raPoll ra)).filter (t.ready m) = turn ++ behind →
      (pollRun m calls ra).map Prod.fst = turn.map some
        ∧ ∀ r ∈ pollRun m calls ra,
          1 ≤ r.2.currentServerIndex ∧ r.2.currentServerIndex ≤ t.lst.list.length
  | [], ra, [], behind, _, _, _, _ => by simp [pollRun]
  | (t', dstAddr) :: calls, ra, p :: turn, behind, h, hcalls, hlen, hround => by
    obtain ⟨hcall, hcalls⟩ := List.forall_mem_cons.1 hcalls
    have hp : p ∈ t.lst.list := by
      have : p ∈ (t.lst.list.rotate (t.startIndex raPoll ra)).filter (t.ready m) := by simp [hround]
      exact List.mem_rotate.1 (List.mem_filter.1 this).1
    have hpoll := selectBestServer_poll h hcall dstAddr hp hround
    have hnext : (t.lst.list.rotate (t.startIndex raPoll ⟨t.lst.list.idxOf p + 1⟩)).filter
        (t.ready m) = turn ++ (behind ++ [p]) := by
      rw [ServerTable.rotate_startIndex h hp, Cyclic.filter_rotate_next h.nodup hround]
      exact List.append_assoc turn behind [p]
    have ih := pollRun_takes_turns calls ⟨t.lst.list.idxOf p + 1⟩ turn (behind ++ [p]) h hcalls
      (by simpa using hlen) hnext
    have hlt : t.lst.list.idxOf p < t.lst.list.length := List.idxOf_lt_length_of_mem hp
    simp only [pollRun, hpoll, List.map_cons, ih.1, List.forall_mem_cons]
    exact ⟨trivial, ⟨by omega, by omega⟩, ih.2⟩

/-- As many polls as there are ready servers return each of these once, whatever the index is. -/
theorem pollRun_fair (h : t.Listed) (calls : List (ServerTable × List UInt8))
    (ra : RoutingAlgorithmData) (hcalls : ∀ c ∈ calls, t.Polled c.1)
    (hlen : calls.length = (t.lst.list.filter (t.ready m)).length) :
    ((pollRun m calls ra).map Prod.fst).Perm ((t.lst.list.filter (t.ready m)).map some)
      ∧ ∀ r ∈ pollRun m calls ra,
        1 ≤ r.2.currentServerIndex ∧ r.2.currentServerIndex ≤ t.lst.list.length := by
  have hperm : ((t.lst.list.rotate (t.startIndex raPoll ra)).filter (t.ready m)).Perm
      (t.lst.list.filter (t.ready m)) := (List.rotate_perm _ _).filter _
  obtain ⟨hturn, hindex⟩ := pollRun_takes_turns calls ra _ [] h hcalls
    (hlen.trans hperm.length_eq.symm) (List.append_nil _).symm
  exact ⟨hturn ▸ hperm.map some, hindex⟩

/-- The table is found again as a selection leaves it. -/
theorem ServerTable.Polled.next (h : t.Polled t') (hs : t'.lst.Settled)
    (hr : ∀ p ∈ t'.lst.list, t'.avaliable m p → 1 ≤ (t'.mem p).refCount) (dstAddr : List UInt8)
    (alg : ℤ) (ra : RoutingAlgorithmData) :
    t.Polled (selectBestServer t' m dstAddr alg ra).1 := by
  rw [selectBestServer_fst hs h.settled hr]
  have hlst := incRefOption_lst t' (selectBestServer t' m dstAddr alg ra).2.2
  have hinfo := (refOnly_incRefOption t' (selectBestServer t' m dstAddr alg ra).2.2).info
  refine ⟨⟨?_, fun p hp => ?_, fun p hp => ?_⟩, ⟨?_, ?_⟩, ?_⟩
  · rw [hlst, h.same.list]
  · rw [hinfo, h.same.status p hp]
  · rw [hinfo, h.same.ipStatus p hp]
  · rw [hlst]
    exact h.listed.nodup
  · rw [hlst, h.listed.listCount]
  · rw [lockServerList, hlst]
    exact h.settled

/-- Two polls of three servers of which the second is offline, from an index past the end. -/
theorem pollRun_fair_two :
    let t := sampleServers [(ssOnline, 1), (0, 1), (ssOnline, 1)]
    let calls := [(t, []), ((selectBestServer t .ipv4 [] raPoll ⟨7⟩).1, [])]
    ((pollRun .ipv4 calls ⟨7⟩).map Prod.fst).Perm [some 1, some 3]
      ∧ ∀ r ∈ pollRun .ipv4 calls ⟨7⟩,
        1 ≤ r.2.currentServerIndex ∧ r.2.currentServerIndex ≤ 3 := by
  intro t calls
  have ht : t.Polled t :=
    ⟨⟨rfl, fun _ _ => rfl, fun _ _ => rfl⟩, ⟨by decide, rfl⟩, fun _ => ⟨rfl, rfl⟩⟩
  have hnext : t.Polled (selectBestServer t .ipv4 [] raPoll ⟨7⟩).1 :=
    ht.next (fun _ => ⟨rfl, rfl⟩) (by decide) [] raPoll ⟨7⟩
  have hready : t.lst.list.filter (t.ready .ipv4) = [1, 3] := by decide
  have hfair := pollRun_fair (t := t) (m := .ipv4) ⟨by decide, rfl⟩ calls ⟨7⟩
    (by simp [calls, ht, hnext]) (by rw [hready]; rfl)
  rwa [hready] at hfair

namespace ServerTable

/-- Two parts of the servers may be searched in either order if only one of them has any that may
be returned. -/
theorem choice_append_comm_iff {as bs : List ServerPtr} (hn : t.lst.list.Nodup)
    (hperm : (as ++ bs).Perm t.lst.list) : t.choice m true (as ++ bs) = t.choice m true (bs ++ as) ↔
      (∀ p ∈ t.eligible m, p ∈ as) ∨ ∀ p ∈ t.eligible m, p ∉ as := by
  have hd : ∀ a ∈ as, a ∉ bs := List.disjoint_of_nodup_append (hperm.nodup_iff.2 hn)
  have hmem : ∀ p, p ∈ t.lst.list ↔ p ∈ as ∨ p ∈ bs := fun p => by
    rw [← hperm.mem_iff, List.mem_append]
  have hin : ∀ f : ServerPtr → Bool, (∀ p ∈ t.lst.list.filter f, p ∈ as) ↔
      ∀ b ∈ bs, f b = false := fun f => by
    simp only [List.mem_filter, hmem, and_imp]
    refine ⟨fun h b hb => Bool.eq_false_iff.2 fun hf => hd b (h b (.inr hb) hf) hb,
      fun h p hp hf => hp.resolve_right fun hb => ?_⟩
    exact Bool.false_ne_true ((h p hb).symm.trans hf)
  have hout : ∀ f : ServerPtr → Bool, (∀ p ∈ t.lst.list.filter f, p ∉ as) ↔
      ∀ a ∈ as, f a = false := fun f => by
    simp only [List.mem_filter, hmem, and_imp]
    refine ⟨fun h a ha => Bool.eq_false_iff.2 fun hf => h a (.inl ha) hf ha,
      fun h p _ hf ha => Bool.false_ne_true ((h p ha).symm.trans hf)⟩
  have hany : ∀ cs : List ServerPtr, cs.Perm t.lst.list →
      cs.any (t.ready m) = t.lst.list.any (t.ready m) := fun cs h => h.any_eq
  rw [choice_eq_find?, choice_eq_find?, hany _ hperm, hany _ (List.perm_append_comm.trans hperm),
    eligible]
  split_ifs
  · rw [hin, hout, Cyclic.find?_append_comm_iff hd, or_comm]
  · rw [hin, hout, List.reverse_append, List.reverse_append, Cyclic.find?_append_comm_iff]
    · simp only [List.mem_reverse]
    · simpa using fun b hb ha => hd b ha hb

theorem between_comm (i j : ℕ) : t.between i j = t.between j i := by
  rw [between, between, min_comm, max_comm]

theorem choice_rotate_iff {i j : ℕ} (hn : t.lst.list.Nodup) (hi : i ≤ t.lst.list.length)
    (hj : j ≤ t.lst.list.length) :
    t.choice m true (t.lst.list.rotate i) = t.choice m true (t.lst.list.rotate j) ↔
      (∀ p ∈ t.eligible m, p ∈ t.between i j) ∨ ∀ p ∈ t.eligible m, p ∉ t.between i j := by
  wlog hij : i ≤ j
  · rw [eq_comm, between_comm]
    exact this hn hj hi (Nat.le_of_not_le hij)
  obtain ⟨hfirst, hsecond⟩ := Cyclic.rotate_between hij hj
  have hbetween : t.between i j = (t.lst.list.drop i).take (j - i) := by
    rw [between, min_eq_left hij, max_eq_right hij]
  rw [hbetween, hfirst, hsecond, choice_append_comm_iff hn (hfirst ▸ List.rotate_perm _ _)]

/-- Searches that begin at two places find the same if no server they may return is between the
two places, or every one is. -/
theorem choice_startIndex_iff (h : t.Listed) (alg : ℤ) (ra ra' : RoutingAlgorithmData) :
    t.choice m true (t.lst.list.rotate (t.startIndex alg ra)) =
        t.choice m true (t.lst.list.rotate (t.startIndex alg ra')) ↔
      (∀ p ∈ t.eligible m, p ∈ t.between (t.startIndex alg ra) (t.startIndex alg ra'))
        ∨ ∀ p ∈ t.eligible m, p ∉ t.between (t.startIndex alg ra) (t.startIndex alg ra') := by
  by_cases hne : t.lst.list = []
  · have heligible : t.eligible m = [] := by simp [eligible, hne]
    simp [hne, heligible]
  · have hpos := List.length_pos_iff.2 hne
    have hle : ∀ ra, t.startIndex alg ra ≤ t.lst.list.length := fun ra => by
      simp only [startIndex, getLcxlListCount, h.listCount]
      exact Int.toNat_le.2 (Int.tmod_lt_of_pos _ (by omega)).le
    exact choice_rotate_iff h.nodup (hle ra) (hle ra')

end ServerTable

/-- Two selections by address of the same servers return the same if the address is not searched
for, or if every server a search may return, or none, is between the places they begin at. -/
theorem ipHash_same_iff (hsame : t.SameServers t') (h : t.Listed) (h' : t'.Listed)
    (dstAddr : List UInt8) (ra ra' : RoutingAlgorithmData) :
    (selectBestServer t m dstAddr raIpHash ra).2.2 =
        (selectBestServer t' m dstAddr raIpHash ra').2.2 ↔
      ipHash m dstAddr (getLcxlListCount t.lst) ≤ 0
        ∨ (∀ p ∈ t.eligible m,
          p ∈ t.between (t.startIndex raIpHash ra) (t.startIndex raIpHash ra'))
        ∨ ∀ p ∈ t.eligible m,
          p ∉ t.between (t.startIndex raIpHash ra) (t.startIndex raIpHash ra') := by
  have hsearch : ∀ t : ServerTable, t.SearchesRing m dstAddr raIpHash ↔
      ipHash m dstAddr (getLcxlListCount t.lst) > 0 := fun t => by
    simp [ServerTable.SearchesRing, show raIpHash ≠ raPoll by decide]
  have hcount : getLcxlListCount t'.lst = getLcxlListCount t.lst := by
    rw [getLcxlListCount, h'.listCount, hsame.list, ← h.listCount, getLcxlListCount]
  have hleast : ¬ (raIpHash = raFastResponse ∨ raIpHash = raLeastConnection) := by decide
  rw [selectBestServer_snd h, selectBestServer_snd h', if_neg hleast, if_neg hleast]
  simp only [hsearch, hcount]
  split_ifs with hpos
  · rw [hsame.startIndex h h', hsame.list, hsame.choice fun q hq => List.mem_rotate.1 hq,
      ServerTable.choice_startIndex_iff h]
    exact (or_iff_right (not_le.2 hpos)).symm
  · exact iff_of_true rfl (.inl (not_lt.1 hpos))

/-- One poll in between sends the address to the other server. -/
theorem ipHash_not_same :
    (selectBestServer (sampleServers [(ssOnline, 1), (ssOnline, 1)]) .ipv4 [1, 0, 0, 0] raIpHash
        ⟨0⟩).2.2
      ≠ (selectBestServer (sampleServers [(ssOnline, 1), (ssOnline, 1)]) .ipv4 [1, 0, 0, 0] raIpHash
        ⟨1⟩).2.2 := by
  decide

/-- Only the second server is online, and both searches begin in front of it. -/
theorem ipHash_same_iff_two :
    (selectBestServer (sampleServers [(0, 1), (ssOnline, 1)]) .ipv4 [1, 0, 0, 0] raIpHash ⟨0⟩).2.2
      = (selectBestServer (sampleServers [(0, 1), (ssOnline, 2)]) .ipv4 [1, 0, 0, 0] raIpHash
        ⟨1⟩).2.2 :=
  have hsame : (sampleServers [(0, 1), (ssOnline, 1)]).SameServers
      (sampleServers [(0, 1), (ssOnline, 2)]) := ⟨rfl, by decide, by decide⟩
  (ipHash_same_iff hsame ⟨by decide, rfl⟩ ⟨by decide, rfl⟩ [1, 0, 0, 0] ⟨0⟩ ⟨1⟩).2 (by decide)

end LcxlNetLoader
