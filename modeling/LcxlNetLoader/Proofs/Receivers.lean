import LcxlNetLoader.Proofs.Connections
import LcxlNetLoader.Receivers

/-!
# Routes in use

While no call frees a route that another one has, every route a call has is linked (`Held`), so each
is linked when it is dereferenced and freed once. A route that was freed in another call's hands is
never linked again, and the call dereferences it before it is done.
-/

namespace LcxlNetLoader

open Sys

namespace Walk

variable {old : LcxlRouteListEntry → Bool} {pkt : TcpPacket} {now : ℤ}
  {xs kept gone : List LcxlRouteListEntry} {p : Option RoutePtr}

/-- A lookup leaves the entries it does not throw out. -/
theorem perm_selfs (h : Walk old pkt now xs kept gone p) :
    (kept.map (·.self) ++ gone.map (·.self)).Perm (xs.map (·.self)) := by
  induction h with
  | nil => simp
  | found => simp
  | purge _ _ _ ih =>
    simp only [List.map_cons]
    exact List.perm_middle.trans (ih.cons _)
  | keep _ _ _ ih => exact ih.cons _

/-- It throws out what has expired of the entries it passes. -/
theorem gone_eq (h : Walk old pkt now xs kept gone p) :
    gone = (xs.takeWhile fun r => !r.matches pkt).filter old := by
  have hpass : ∀ {r : LcxlRouteListEntry}, r.key ≠ pkt.key → (!r.matches pkt) = true :=
    fun hk => by simpa [← matches_iff] using hk
  induction h with
  | nil => rfl
  | found hk =>
    rw [List.takeWhile_cons, if_neg (by simp [matches_iff.2 hk])]
    rfl
  | purge hk ho _ ih =>
    rw [List.takeWhile_cons, if_pos (hpass hk), List.filter_cons_of_pos ho, ← ih]
  | keep hk ho _ ih =>
    rw [List.takeWhile_cons, if_pos (hpass hk), List.filter_cons_of_neg (by simp [ho]), ← ih]

end Walk

namespace RouteTable

variable {rt : RouteTable}

def selfs (rt : RouteTable) : List RoutePtr := rt.list.map (·.self)

/-- One entry an address, all below the next. -/
structure Tidy (rt : RouteTable) : Prop where
  nodup : rt.selfs.Nodup
  fresh : ∀ p ∈ rt.selfs, p < rt.next

theorem modify_selfs (rt : RouteTable) (p : RoutePtr) {g : LcxlRouteListEntry → LcxlRouteListEntry}
    (hg : ∀ r, (g r).self = r.self) : (rt.modify p g).selfs = rt.selfs := by
  simp only [selfs, modify, List.map_map]
  refine List.map_congr_left fun r _ => ?_
  simp only [Function.comp]
  split_ifs
  · exact hg r
  · rfl

/-- What a packet does to the addresses after its lookup: it may put a new one in front. -/
theorem packet_selfs (rt : RouteTable) (p : Option RoutePtr) (pkt : TcpPacket)
    (server : Option ServerPtr) (later : ℤ) (hp : ∀ q ∈ p, q ∈ rt.selfs) :
    let r := rt.packet p pkt server later
    r.1.freed = rt.freed
      ∧ (r.1.selfs = rt.selfs ∧ r.1.next = rt.next
        ∨ r.1.selfs = rt.next :: rt.selfs ∧ r.1.next = rt.next + 1)
      ∧ ∀ q ∈ r.2, q ∈ r.1.selfs := by
  have hinit : ∀ (rt : RouteTable) q s,
      (initRouteListEntry rt q pkt s later).selfs = rt.selfs := fun rt q s =>
    modify_selfs rt q fun _ => rfl
  simp only [packet]
  split_ifs
  · rcases server with _ | s
    · exact ⟨rfl, .inl ⟨rfl, rfl⟩, by simp⟩
    · rcases p with _ | p
      · have hnew : (initRouteListEntry (createRouteListEntry rt).1 rt.next pkt s later).selfs
            = rt.next :: rt.selfs := hinit _ _ _
        refine ⟨rfl, .inr ⟨hnew, rfl⟩, fun q hq => ?_⟩
        obtain rfl : rt.next = q := by simpa using hq
        exact hnew ▸ List.mem_cons_self
      · exact ⟨rfl, .inl ⟨hinit _ _ _, rfl⟩, fun q hq => hinit rt p s ▸ hp q hq⟩
  · rcases p with _ | p
    · exact ⟨rfl, .inl ⟨rfl, rfl⟩, by simp⟩
    · have hset := modify_selfs rt p
        (g := fun r => { r with status := nextStatus r.status pkt.thFlags }) fun _ => rfl
      exact ⟨rfl, .inl ⟨hset, rfl⟩, fun q hq => hset ▸ hp q hq⟩

end RouteTable

variable {cfg : LcxlSetting}

/-- What one call of `RouteTCPNBL` does to the addresses of the table: it frees what it passes that
has expired, and may link a new one. -/
theorem routeTCPNBL_selfs (cfg : LcxlSetting) (f : LcxlFilter) (pkt : TcpPacket) (now later : ℤ) :
    ∃ gone new, gone = (passed f.routeTable pkt).filter
        (·.expired cfg f.module.routeTimeout now)
      ∧ (routeTCPNBL cfg f pkt now later).1.routeTable.freed = f.routeTable.freed ++ gone
      ∧ ((routeTCPNBL cfg f pkt now later).1.routeTable.selfs ++ gone.map (·.self)).Perm
        (new ++ f.routeTable.selfs)
      ∧ (new = [] ∧ (routeTCPNBL cfg f pkt now later).1.routeTable.next = f.routeTable.next
        ∨ new = [f.routeTable.next]
          ∧ (routeTCPNBL cfg f pkt now later).1.routeTable.next = f.routeTable.next + 1)
      ∧ ∀ q ∈ (routeTCPNBL cfg f pkt now later).2,
        q ∈ (routeTCPNBL cfg f pkt now later).1.routeTable.selfs := by
  obtain ⟨gone, hw, hfreed, hnext, -⟩ := lookup_walk cfg f pkt now
  obtain ⟨htable, hroute⟩ := Prod.ext_iff.1 (routeTCPNBL_table cfg f pkt now later)
  simp only at htable hroute
  have hstop : ∀ q ∈ (lookup cfg f pkt now).2.2, q ∈ (lookup cfg f pkt now).1.selfs :=
    fun q hq => by
      obtain ⟨r, hr, hs, -⟩ := hw.stop.1 q hq
      exact List.mem_map.2 ⟨r, hr, hs⟩
  obtain ⟨h1, h2, h3⟩ := RouteTable.packet_selfs (lookup cfg f pkt now).1 (lookup cfg f pkt now).2.2
    pkt (synServer f (lookup cfg f pkt now).2.1 pkt) later hstop
  rw [← htable] at h1 h2 h3
  rw [← hroute] at h3
  rw [hfreed] at h1
  rw [hnext] at h2
  have hperm := hw.perm_selfs
  rcases h2 with ⟨h2, h4⟩ | ⟨h2, h4⟩
  · exact ⟨gone, [], hw.gone_eq, h1, h2 ▸ hperm, .inl ⟨rfl, h4⟩, h3⟩
  · exact ⟨gone, _, hw.gone_eq, h1, h2 ▸ hperm.cons _, .inr ⟨rfl, h4⟩, h3⟩

namespace RouteTable

variable {rt rt' : RouteTable} {gone : List RoutePtr} {p : RoutePtr}

/-- The entries at `gone` are unlinked, and at most one new one is linked. -/
def Turns (rt rt' : RouteTable) (gone : List RoutePtr) : Prop :=
  ∃ new, (rt'.selfs ++ gone).Perm (new ++ rt.selfs)
    ∧ (new = [] ∧ rt'.next = rt.next ∨ new = [rt.next] ∧ rt'.next = rt.next + 1)

theorem Turns.of_selfs_eq (hs : rt'.selfs = rt.selfs) (hn : rt'.next = rt.next) :
    Turns rt rt' [] := ⟨[], by simp [hs], .inl ⟨rfl, hn⟩⟩

namespace Turns

theorem next_le (h : Turns rt rt' gone) : rt.next ≤ rt'.next := by
  obtain ⟨new, -, ⟨-, h⟩ | ⟨-, h⟩⟩ := h
  · exact h.ge
  · exact h ▸ Nat.le_succ _

/-- What is linked or unlinked was linked before, or is new. -/
theorem mem_old (h : Turns rt rt' gone) (hp : p ∈ rt'.selfs ∨ p ∈ gone) :
    p ∈ rt.selfs ∨ p = rt.next ∧ rt'.next = rt.next + 1 := by
  obtain ⟨new, hperm, hnew⟩ := h
  rcases List.mem_append.1 (hperm.subset (List.mem_append.2 hp)) with hn | hp
  · rcases hnew with ⟨rfl, -⟩ | ⟨rfl, h⟩
    · simp at hn
    · exact .inr ⟨by simpa using hn, h⟩
  · exact .inl hp

/-- An address given out that is not linked will not be linked again. -/
theorem notMem (h : Turns rt rt' gone) (hp : p ∉ rt.selfs) (hlt : p < rt.next) :
    p ∉ rt'.selfs ∧ p ∉ gone :=
  not_or.1 fun hm => (h.mem_old hm).elim hp fun heq => Nat.ne_of_lt hlt heq.1

theorem mem_of_notMem_gone (h : Turns rt rt' gone) (hp : p ∈ rt.selfs) (hg : p ∉ gone) :
    p ∈ rt'.selfs := by
  obtain ⟨new, hperm, -⟩ := h
  exact (List.mem_append.1 (hperm.mem_iff.2 (List.mem_append_right _ hp))).resolve_right hg

theorem lt_next (h : Turns rt rt' gone) (ht : rt.Tidy) (hp : p ∈ rt'.selfs ∨ p ∈ gone) :
    p < rt'.next := by
  rcases h.mem_old hp with hp | ⟨rfl, hn⟩
  · exact (ht.fresh p hp).trans_le h.next_le
  · exact hn ▸ Nat.lt_succ_self _

theorem nodup (h : Turns rt rt' gone) (ht : rt.Tidy) : (rt'.selfs ++ gone).Nodup := by
  obtain ⟨new, hperm, hnew⟩ := h
  refine hperm.nodup_iff.2 ?_
  rcases hnew with ⟨rfl, -⟩ | ⟨rfl, -⟩
  · exact ht.nodup
  · exact List.nodup_cons.2 ⟨fun hm => (ht.fresh _ hm).false, ht.nodup⟩

theorem tidy (h : Turns rt rt' gone) (ht : rt.Tidy) : rt'.Tidy :=
  ⟨(h.nodup ht).of_append_left, fun _ hp => h.lt_next ht (.inl hp)⟩

theorem notMem_of_gone (h : Turns rt rt' gone) (ht : rt.Tidy) (hp : p ∈ gone) : p ∉ rt'.selfs :=
  fun hm => List.disjoint_of_nodup_append (h.nodup ht) hm hp

end Turns

end RouteTable

/-- The call that takes the step. -/
def ReceiveStep.actor {ι : Type*} : ReceiveStep ι → Option ι
  | .route i _ _ _ | .use i => some i
  | .other _ => none

namespace Receivers

variable {ι : Type*} {s : Receivers ι} {i j : ι} {p : RoutePtr} {a : ReceiveStep ι}
  {tr : List (ReceiveStep ι)}

theorem linked_iff : s.Linked p ↔ p ∈ s.filter.routeTable.selfs := List.mem_map.symm

variable [DecidableEq ι]

/-- A step frees the entries `gone`, is harmless just when no other call has one of them, and leaves
a call that takes it with a linked route or none. -/
structure Frees (cfg : LcxlSetting) (s : Receivers ι) (a : ReceiveStep ι) (gone : List RoutePtr) :
    Prop where
  turns : s.filter.routeTable.Turns (s.exec cfg a).filter.routeTable gone
  frees : (s.exec cfg a).frees = s.frees ++ gone
  leaves : s.LeavesHeld cfg a ↔ ∀ p ∈ gone, ∀ j, a.actor ≠ some j → ¬ s.Holds j p
  holds : ∀ j p, (s.exec cfg a).Holds j p →
    (s.exec cfg a).Linked p ∨ a.actor ≠ some j ∧ s.Holds j p
  others : ∀ j, a.actor ≠ some j → (s.exec cfg a).hand j = s.hand j

theorem take_holds {h : Option (RouteUse × RoutePtr)} :
    (s.take i h).Holds j p ↔ (i = j ∧ ∃ u, h = some (u, p)) ∨ (i ≠ j ∧ s.Holds j p) := by
  by_cases hij : i = j
  · subst hij
    simp [Holds, take]
  · simp [Holds, take, hij, Function.update_of_ne (Ne.symm hij)]

theorem route_frees (hi : s.hand i = none) (pkt : TcpPacket) (now later : ℤ) :
    ∃ gone, s.Frees cfg (.route i pkt now later) gone := by
  obtain ⟨gone, new, hgone, hfreed, hperm, hnew, hp⟩ :=
    routeTCPNBL_selfs cfg s.filter pkt now later
  refine ⟨gone.map (·.self), ?_, ?_, ?_, fun j p hh => ?_, fun j hj => ?_⟩
  · exact ⟨new, hperm, hnew⟩
  · simp only [exec, hfreed, List.drop_left]
  · simp only [LeavesHeld, ReceiveStep.actor, ne_eq, Option.some.injEq, hgone, List.mem_map,
      List.mem_filter, forall_exists_index, and_imp]
    refine ⟨fun h p r hr he hp j _ => hp ▸ h r hr he j, fun h r hr he j => ?_⟩
    by_cases hij : i = j
    · rintro ⟨u, hu⟩
      simp [← hij, hi] at hu
    · exact h _ r hr he rfl j hij
  · rcases take_holds.1 hh with ⟨-, u, hu⟩ | ⟨hij, hh⟩
    · refine .inl (linked_iff.2 (hp p ?_))
      obtain ⟨q, hq, heq⟩ := Option.map_eq_some_iff.1 hu
      cases heq
      exact hq
    · exact .inr ⟨by simpa [ReceiveStep.actor] using hij, hh⟩
  · exact Function.update_of_ne (fun h => hj (congrArg some h.symm)) _ _

omit [DecidableEq ι] in
theorem find_of_linked (h : s.Linked p) : ∃ r, s.filter.routeTable.find p = some r :=
  Option.isSome_iff_exists.1 (List.find?_isSome.2 (by simpa [Linked] using h))

/-- The table after a linked entry was deleted. -/
theorem delete_turns {rt : RouteTable} {t : ServerTable} {r : LcxlRouteListEntry}
    (hf : rt.find p = some r) : rt.Turns (deleteRouteListEntry rt t p).1 [p] := by
  have hp : r.self = p := by simpa using List.find?_some hf
  have hmem := List.mem_of_find?_eq_some hf
  obtain ⟨r', l₁, l₂, -, hr', hl, he⟩ :=
    List.exists_of_eraseP (p := fun r => decide (r.self = p)) hmem (by simpa using hp)
  have hr'p : r'.self = p := by simpa using hr'
  refine ⟨[], ?_, .inl ⟨rfl, by simp [deleteRouteListEntry, hf]⟩⟩
  simp only [deleteRouteListEntry, hf, RouteTable.selfs, he, List.nil_append]
  simp only [hl, List.map_append, List.map_cons, hr'p]
  exact (List.perm_append_singleton _ _).trans List.perm_middle.symm

/-- A step that only moves the call on from a linked route. -/
theorem take_frees {h : Option (RouteUse × RoutePtr)}
    (hexec : s.exec cfg (.use i) = s.take i h) (hl : ∀ u p, h = some (u, p) → s.Linked p)
    (hd : ∀ p, s.hand i ≠ some (.delete, p)) : s.Frees cfg (.use i) [] := by
  refine ⟨hexec ▸ .of_selfs_eq rfl rfl, ?_, ?_, fun j p hh => ?_, fun j hj => ?_⟩
  · rw [hexec, List.append_nil]
    rfl
  · simp [LeavesHeld, hd]
  · rw [hexec] at hh ⊢
    rcases take_holds.1 hh with ⟨-, u, hu⟩ | ⟨hij, hh⟩
    · exact .inl (hl u p hu)
    · exact .inr ⟨by simpa [ReceiveStep.actor] using hij, hh⟩
  · rw [hexec]
    exact Function.update_of_ne (fun h => hj (congrArg some h.symm)) _ _

theorem use_frees (hi : s.hand i ≠ none) (hu : s.UsesLinked (.use i)) :
    ∃ gone, s.Frees cfg (.use i) gone := by
  obtain ⟨⟨u, p⟩, hp⟩ := Option.ne_none_iff_exists'.1 hi
  have hlinked : s.Linked p := hu p ⟨u, hp⟩
  cases u with
  | copyFrame =>
    refine ⟨[], take_frees (h := some (.readStatus, p)) (by simp only [exec, hp]) ?_ (by simp [hp])⟩
    rintro u q ⟨⟩
    exact hlinked
  | readStatus =>
    have hexec : s.exec cfg (.use i) = s.take i
        (if (s.filter.routeTable.find p).any (·.status = .closed) then some (.delete, p)
          else none) := by simp only [exec, hp]
    refine ⟨[], take_frees hexec (fun u q h => ?_) (by simp [hp])⟩
    split_ifs at h
    cases h
    exact hlinked
  | delete =>
    obtain ⟨r, hr⟩ := find_of_linked hlinked
    have hexec : s.exec cfg (.use i) = { s.take i none with
        filter := s.filter.setRouting
          (deleteRouteListEntry s.filter.routeTable s.filter.module.serverList p).1
          (deleteRouteListEntry s.filter.routeTable s.filter.module.serverList p).2
        frees := s.frees ++ [p] } := by simp only [exec, hp]
    refine ⟨[p], ?_, ?_, ?_, fun j q hh => ?_, fun j hj => ?_⟩
    · rw [hexec]
      exact delete_turns hr
    · rw [hexec]
    · simp only [LeavesHeld, hp, ReceiveStep.actor, Option.some.injEq, Prod.mk.injEq, true_and,
        List.mem_singleton, ne_eq, forall_eq', eq_comm]
    · rw [hexec] at hh
      rcases take_holds.1 hh with ⟨-, u, hu⟩ | ⟨hij, hh⟩
      · cases hu
      · exact .inr ⟨by simpa [ReceiveStep.actor] using hij, hh⟩
    · rw [hexec]
      exact Function.update_of_ne (fun h => hj (congrArg some h.symm)) _ _

theorem step_frees (he : s.Enabled a) (hu : s.UsesLinked a) : ∃ gone, s.Frees cfg a gone := by
  cases a with
  | route i pkt now later => exact route_frees he pkt now later
  | use i => exact use_frees he hu
  | other f =>
    have hf : f.routeTable = s.filter.routeTable := he
    refine ⟨[], .of_selfs_eq (congrArg _ hf) (congrArg _ hf), (List.append_nil _).symm, ?_,
      fun j p hh => .inr ⟨by simp [ReceiveStep.actor], hh⟩, fun _ _ => rfl⟩
    simp [LeavesHeld]

/-- Every route a call has is linked, and what was freed is not, nor was it freed twice. -/
structure Held (s : Receivers ι) : Prop where
  tidy : s.filter.routeTable.Tidy
  linked : ∀ i p, s.Holds i p → s.Linked p
  nodup : s.frees.Nodup
  freed : ∀ p ∈ s.frees, ¬ s.Linked p ∧ p < s.filter.routeTable.next

omit [DecidableEq ι] in
theorem start_held (f : LcxlFilter) : (start f : Receivers ι).Held :=
  ⟨⟨List.nodup_nil, by simp [start, RouteTable.selfs]⟩, by simp [Holds, start], List.nodup_nil,
    by simp [start]⟩

omit [DecidableEq ι] in
theorem Held.usesLinked (h : s.Held) (a : ReceiveStep ι) : s.UsesLinked a := by
  cases a with
  | use i => exact h.linked i
  | _ => trivial

theorem Held.step (h : s.Held) (he : s.Enabled a) (hl : s.LeavesHeld cfg a) :
    (s.exec cfg a).Held := by
  obtain ⟨gone, hg⟩ : ∃ gone, s.Frees cfg a gone := step_frees he (h.usesLinked a)
  have hold : ∀ q ∈ s.frees, q ∉ (s.exec cfg a).filter.routeTable.selfs ∧ q ∉ gone := fun q hq =>
    hg.turns.notMem (fun hm => (h.freed q hq).1 (linked_iff.2 hm)) (h.freed q hq).2
  refine ⟨hg.turns.tidy h.tidy, fun j p hh => ?_, ?_, fun p hp => ?_⟩
  · rcases hg.holds j p hh with hp | ⟨hj, hh⟩
    · exact hp
    · have hp := linked_iff.1 (h.linked j p hh)
      exact linked_iff.2 (hg.turns.mem_of_notMem_gone hp fun hm => hg.leaves.1 hl p hm j hj hh)
  · rw [hg.frees, List.nodup_append']
    exact ⟨h.nodup, (hg.turns.nodup h.tidy).of_append_right, fun q hq => (hold q hq).2⟩
  · rw [linked_iff]
    rcases List.mem_append.1 (hg.frees ▸ hp) with hp | hp
    · exact ⟨(hold p hp).1, (h.freed p hp).2.trans_le hg.turns.next_le⟩
    · exact ⟨hg.turns.notMem_of_gone h.tidy hp, hg.turns.lt_next h.tidy (.inr hp)⟩

/-- A call whose route was freed has it until it dereferences it. -/
theorem hand_of_freed : ∀ {tr : List (ReceiveStep ι)} {s : Receivers ι}, s.Holds j p →
    ¬ s.Linked p → p < s.filter.routeTable.next → Allowed Enabled (exec cfg) s tr →
      Allowed UsesLinked (exec cfg) s tr → (tr.foldl (exec cfg) s).Holds j p
  | [], _, hh, _, _, _, _ => hh
  | a :: _, s, hh, hp, hlt, he, hu => by
    obtain ⟨gone, hg⟩ : ∃ gone, s.Frees cfg a gone := step_frees he.1 hu.1
    have hj : a.actor ≠ some j := by
      obtain ⟨u, hu'⟩ := hh
      intro ha
      cases a with
      | route i =>
        cases ha
        exact absurd (hu'.symm.trans he.1) (by simp)
      | use i =>
        cases ha
        exact hp (hu.1 p ⟨u, hu'⟩)
      | other => cases ha
    have hp' := (hg.turns.notMem (fun hm => hp (linked_iff.2 hm)) hlt).1
    have hh' : (s.exec cfg a).Holds j p := hh.imp fun u hu' => (hg.others j hj).trans hu'
    have hlt' := hlt.trans_le hg.turns.next_le
    exact hand_of_freed (s := s.exec cfg a) hh' (fun h => hp' (linked_iff.1 h)) hlt' he.2 hu.2

/-- Calls that are all done have freed nothing another one had, if their uses were of linked
routes. -/
theorem Held.leaves : ∀ {tr : List (ReceiveStep ι)} {s : Receivers ι}, s.Held →
    Allowed Enabled (exec cfg) s tr → Allowed UsesLinked (exec cfg) s tr →
      (∀ i, (tr.foldl (exec cfg) s).hand i = none) → Allowed (LeavesHeld cfg) (exec cfg) s tr
  | [], _, _, _, _, _ => trivial
  | a :: tr, s, h, he, hu, hend => by
    have hl : s.LeavesHeld cfg a := by
      obtain ⟨gone, hg⟩ : ∃ gone, s.Frees cfg a gone := step_frees he.1 hu.1
      refine hg.leaves.2 fun p hp j hj hh => ?_
      have hh' : (s.exec cfg a).Holds j p := hh.imp fun u hu' => (hg.others j hj).trans hu'
      obtain ⟨u, hu'⟩ := hand_of_freed hh'
        (fun hm => hg.turns.notMem_of_gone h.tidy hp (linked_iff.1 hm))
        (hg.turns.lt_next h.tidy (.inr hp)) he.2 hu.2
      exact absurd (hu'.symm.trans (hend j)) (by simp)
    exact ⟨hl, leaves (h.step he.1 hl) he.2 hu.2 hend⟩

/-- In every interleaving of the calls in which none frees a route another one has, each route is
linked whenever it is dereferenced, and each is freed at most once. Where the calls are all done,
their uses were of linked routes only in such an interleaving. -/
theorem uses_linked_iff (cfg : LcxlSetting) (f : LcxlFilter)
    (he : Allowed Enabled (exec cfg) (start f) tr) :
    (Allowed (LeavesHeld cfg) (exec cfg) (start f) tr →
        Allowed UsesLinked (exec cfg) (start f) tr ∧ (tr.foldl (exec cfg) (start f)).frees.Nodup)
      ∧ ((∀ i, (tr.foldl (exec cfg) (start f)).hand i = none) →
        Allowed UsesLinked (exec cfg) (start f) tr →
          Allowed (LeavesHeld cfg) (exec cfg) (start f) tr) := by
  refine ⟨fun hl => ?_, fun hend hu => (start_held f).leaves he hu hend⟩
  have hstep : ∀ (s : Receivers ι) a, s.Held → s.Enabled a → s.LeavesHeld cfg a →
      (s.exec cfg a).Held := fun _ _ h he hl => h.step he hl
  exact ⟨Allowed.of_inv hstep (fun _ a h _ => h.usesLinked a) (start_held f) he hl,
    (Allowed.keeps hstep (start_held f) he hl).nodup⟩

/-- A router with a server that is up. -/
def served : LcxlFilter :=
  Sample.router.setServers
    (routerAddServer (fun _ => false) 0 Sample.router.module.serverList Sample.server)

def packet (flags : UInt8) : TcpPacket :=
  ⟨.ipv4, [10, 0, 0, 9], [10, 0, 0, 1], 0x901F, 0x5000, flags⟩

/-- A connection is opened, and its next packet is received by another call meanwhile, which then
deletes the route for a packet that resets the connection. -/
def resetting : List (ReceiveStep Bool) :=
  [.route false (packet thSyn) 1 1, .use false, .route true (packet thAck) 2 2, .use true,
    .use false, .use true, .route true (packet thRst) 3 3, .use true, .use true, .use true]

theorem uses_linked_iff_resetting :
    (resetting.foldl (exec Sample.setting) (start served)).frees = [0]
      ∧ Allowed UsesLinked (exec Sample.setting) (start served) resetting := by
  have he : Allowed Enabled (exec Sample.setting) (start served) resetting := by
    refine ⟨?_, ?_, ?_, ?_, ?_, ?_, ?_, ?_, ?_, ?_, trivial⟩
    all_goals simp only [Enabled]; decide +kernel
  have hkeeps : ∀ {s : Receivers Bool} {i}, (s.hand i).map (·.1) ≠ some .delete →
      s.LeavesHeld Sample.setting (.use i) := fun hu p hp => absurd (by rw [hp]; rfl) hu
  have hone : ∀ {s : Receivers Bool}, s.hand false = none →
      s.LeavesHeld Sample.setting (.use true) := fun ht p _ j hj => by
    obtain rfl : j = false := by simpa using hj
    rintro ⟨u, hu⟩
    simp [ht] at hu
  have hpass : ∀ {s : Receivers Bool} {i pkt now later}, passed s.filter.routeTable pkt = [] →
      s.LeavesHeld Sample.setting (.route i pkt now later) := fun hp r hr => by
    simp [hp] at hr
  have hl : Allowed (LeavesHeld Sample.setting) (exec Sample.setting) (start served) resetting := by
    refine ⟨hpass ?_, hkeeps ?_, hpass ?_, hkeeps ?_, hkeeps ?_, hkeeps ?_, hpass ?_, hkeeps ?_,
      hkeeps ?_, hone ?_, trivial⟩
    all_goals decide +kernel
  exact ⟨by decide +kernel, ((uses_linked_iff Sample.setting served he).1 hl).1⟩

/-- Two calls have the route of a connection that was reset twice, and both delete it. -/
theorem not_uses_linked_of_reset : ¬ ∀ (cfg : LcxlSetting) (f : LcxlFilter)
    (tr : List (ReceiveStep Bool)), Allowed Enabled (exec cfg) (start f) tr →
      Allowed UsesLinked (exec cfg) (start f) tr
        ∧ (tr.foldl (exec cfg) (start f)).frees.Nodup := by
  intro h
  have he : Allowed Enabled (exec Sample.setting) (start served)
      [.route false (packet thSyn) 1 1, .use false, .use false, .route false (packet thRst) 2 2,
        .route true (packet thRst) 2 2, .use false, .use true, .use false, .use true, .use false,
        .use true] := by
    refine ⟨?_, ?_, ?_, ?_, ?_, ?_, ?_, ?_, ?_, ?_, ?_, trivial⟩
    all_goals simp only [Enabled]; decide +kernel
  exact absurd (h _ _ _ he).2 (by decide +kernel)

end Receivers

end LcxlNetLoader
