import Mathlib.Data.List.TakeWhile
import LcxlNetLoader.Lib.LastWrite
import LcxlNetLoader.Proofs.Select

/-!
# The route table as a map

`Walk` is what a lookup does to the list it walks. Over it a route table with one entry a
connection is a map from connections to servers (`serverOf`), and each operation on the table is
that operation on the map.
-/

namespace LcxlNetLoader

theorem matches_iff {r : LcxlRouteListEntry} {pkt : TcpPacket} :
    r.matches pkt = true ↔ r.key = pkt.key := by
  simp only [LcxlRouteListEntry.matches, LcxlRouteListEntry.key, TcpPacket.key, ConnKey.mk.injEq,
    Bool.and_eq_true, beq_iff_eq]
  tauto

/-- A lookup at time `now` walks over the entries: what it leaves, what it throws out and where
it stops. -/
inductive Walk (old : LcxlRouteListEntry → Bool) (pkt : TcpPacket) (now : ℤ) :
    List LcxlRouteListEntry → List LcxlRouteListEntry → List LcxlRouteListEntry →
      Option RoutePtr → Prop
  | nil : Walk old pkt now [] [] [] none
  | found {r rs} : r.key = pkt.key →
      Walk old pkt now (r :: rs) ({ r with recvTimestamp := now } :: rs) [] (some r.self)
  | purge {r rs kept gone p} : r.key ≠ pkt.key → old r = true → Walk old pkt now rs kept gone p →
      Walk old pkt now (r :: rs) kept (r :: gone) p
  | keep {r rs kept gone p} : r.key ≠ pkt.key → old r = false → Walk old pkt now rs kept gone p →
      Walk old pkt now (r :: rs) (r :: kept) gone p

theorem getRouteLoop_walk (cfg : LcxlSetting) (routeTimeout now : ℤ) (pkt : TcpPacket) :
    ∀ (xs : List LcxlRouteListEntry) (t : ServerTable),
      let r := getRouteLoop cfg routeTimeout now pkt xs t
      Walk (·.expired cfg routeTimeout now) pkt now xs r.1 r.2.1 r.2.2.2
        ∧ r.2.2.1 = r.2.1.foldl dropServer t
  | [], t => ⟨.nil, rfl⟩
  | r :: rs, t => by
    simp only [getRouteLoop]
    split_ifs with hm he
    · exact ⟨.found (matches_iff.1 hm), rfl⟩
    · have ih := getRouteLoop_walk cfg routeTimeout now pkt rs (dropServer t r)
      exact ⟨.purge (fun h => hm (matches_iff.2 h)) he ih.1, ih.2⟩
    · have ih := getRouteLoop_walk cfg routeTimeout now pkt rs t
      exact ⟨.keep (fun h => hm (matches_iff.2 h)) (by simpa using he) ih.1, ih.2⟩

/-- The server of a connection's first entry. -/
def serverOf (xs : List LcxlRouteListEntry) (k : ConnKey) : Option ServerPtr :=
  (xs.find? (·.key = k)).bind (·.dstServer)

theorem serverOf_cons (r : LcxlRouteListEntry) (rs : List LcxlRouteListEntry) (k : ConnKey) :
    serverOf (r :: rs) k = if r.key = k then r.dstServer else serverOf rs k := by
  unfold serverOf
  rw [List.find?_cons]
  split_ifs with h <;> simp [h]

theorem serverOf_of_notMem : ∀ {xs : List LcxlRouteListEntry} {k : ConnKey},
    k ∉ xs.map (·.key) → serverOf xs k = none
  | [], _, _ => rfl
  | r :: rs, k, h => by
    simp only [List.map_cons, List.mem_cons, not_or] at h
    rw [serverOf_cons, if_neg (Ne.symm h.1), serverOf_of_notMem h.2]

theorem serverOf_of_mem : ∀ {xs : List LcxlRouteListEntry} {r : LcxlRouteListEntry},
    (xs.map (·.key)).Nodup → r ∈ xs → serverOf xs r.key = r.dstServer
  | x :: xs, r, hn, hr => by
    simp only [List.map_cons, List.nodup_cons] at hn
    rw [serverOf_cons]
    rcases List.mem_cons.1 hr with rfl | hr
    · rw [if_pos rfl]
    · have hk : x.key ≠ r.key := fun h => hn.1 (h ▸ List.mem_map_of_mem (f := (·.key)) hr)
      rw [if_neg hk, serverOf_of_mem hn.2 hr]

namespace Walk

variable {old : LcxlRouteListEntry → Bool} {pkt : TcpPacket} {now : ℤ}
  {xs kept gone : List LcxlRouteListEntry} {p : Option RoutePtr}

theorem keys_sublist (h : Walk old pkt now xs kept gone p) :
    (kept.map (·.key)).Sublist (xs.map (·.key)) := by
  induction h with
  | nil => simp
  | found => simp [LcxlRouteListEntry.key]
  | purge _ _ _ ih => exact ih.cons _
  | keep _ _ _ ih => exact ih.cons_cons _

theorem selfs_sublist (h : Walk old pkt now xs kept gone p) :
    (kept.map (·.self)).Sublist (xs.map (·.self)) := by
  induction h with
  | nil => simp
  | found => simp
  | purge _ _ _ ih => exact ih.cons _
  | keep _ _ _ ih => exact ih.cons_cons _

theorem gone_sublist (h : Walk old pkt now xs kept gone p) : gone.Sublist xs := by
  induction h with
  | nil => simp
  | found => simp
  | purge _ _ _ ih => exact ih.cons_cons _
  | keep _ _ _ ih => exact ih.cons _

/-- An entry left is one of those walked over, but for its timestamp. -/
theorem mem_kept (h : Walk old pkt now xs kept gone p) :
    ∀ r' ∈ kept, ∃ r ∈ xs, ∃ ts, r' = { r with recvTimestamp := ts } := by
  induction h with
  | nil => simp
  | found =>
    rename_i r rs _
    intro r' hr'
    rcases List.mem_cons.1 hr' with rfl | hr'
    · exact ⟨r, List.mem_cons_self, now, rfl⟩
    · exact ⟨r', List.mem_cons_of_mem _ hr', r'.recvTimestamp, rfl⟩
  | purge _ _ _ ih =>
    intro r' hr'
    obtain ⟨r, hr, ts, h⟩ := ih r' hr'
    exact ⟨r, List.mem_cons_of_mem _ hr, ts, h⟩
  | keep _ _ _ ih =>
    intro r' hr'
    rcases List.mem_cons.1 hr' with rfl | hr'
    · exact ⟨r', List.mem_cons_self, r'.recvTimestamp, rfl⟩
    · obtain ⟨r, hr, ts, h⟩ := ih r' hr'
      exact ⟨r, List.mem_cons_of_mem _ hr, ts, h⟩

/-- The entry it stops at is the packet's, and stops it where there is one. -/
theorem stop (h : Walk old pkt now xs kept gone p) :
    (∀ q ∈ p, ∃ r ∈ kept, r.self = q ∧ r.key = pkt.key)
      ∧ (p = none → ∀ r ∈ kept, r.key ≠ pkt.key) := by
  induction h with
  | nil => simp
  | found hk => exact ⟨fun q hq => ⟨_, List.mem_cons_self, by simpa using hq, hk⟩, by simp⟩
  | purge _ _ _ ih => exact ih
  | keep hk _ _ ih =>
    refine ⟨fun q hq => ?_, fun hp r hr => ?_⟩
    · obtain ⟨r, hr, h⟩ := ih.1 q hq
      exact ⟨r, List.mem_cons_of_mem _ hr, h⟩
    · rcases List.mem_cons.1 hr with rfl | hr
      · exact hk
      · exact ih.2 hp r hr

theorem gone_key (h : Walk old pkt now xs kept gone p) : ∀ r ∈ gone, r.key ≠ pkt.key := by
  induction h with
  | nil => simp
  | found => simp
  | purge hk _ _ ih =>
    intro r hr
    rcases List.mem_cons.1 hr with rfl | hr
    · exact hk
    · exact ih r hr
  | keep _ _ _ ih => exact ih

theorem serverOf_kept (h : Walk old pkt now xs kept gone p) (hn : (xs.map (·.key)).Nodup)
    (k : ConnKey) :
    serverOf kept k = if k ∈ gone.map (·.key) then none else serverOf xs k := by
  induction h with
  | nil => simp
  | found hk =>
    simp only [List.map_nil, List.not_mem_nil, if_false, serverOf_cons]
    rfl
  | @purge r _ _ _ _ _ _ _ ih =>
    simp only [List.map_cons, List.nodup_cons] at hn
    rw [ih hn.2, serverOf_cons]
    by_cases hk : k = r.key
    · subst hk
      simp [serverOf_of_notMem hn.1]
    · simp [hk, Ne.symm hk]
  | keep _ _ hw ih =>
    simp only [List.map_cons, List.nodup_cons] at hn
    rw [serverOf_cons, serverOf_cons, ih hn.2]
    split_ifs with h1 h2
    · subst h1
      exact absurd ((hw.gone_sublist.map _).subset h2) hn.1
    · rfl
    · rfl
    · rfl

/-- The lookup passes the routes before the packet's own, which it stamps, and none behind. -/
theorem split (h : Walk old pkt now xs kept gone p) : ∃ behind,
      xs = xs.takeWhile (·.key ≠ pkt.key)
          ++ ((xs.find? (·.key = pkt.key)).toList ++ behind)
        ∧ gone = (xs.takeWhile (·.key ≠ pkt.key)).filter old
        ∧ kept = (xs.takeWhile (·.key ≠ pkt.key)).filter (!old ·)
          ++ (((xs.find? (·.key = pkt.key)).map fun r => { r with recvTimestamp := now }).toList
            ++ behind)
        ∧ p = (xs.find? (·.key = pkt.key)).map (·.self) := by
  induction h with
  | nil => exact ⟨[], by simp⟩
  | @found r rs hk => exact ⟨rs, by simp [hk]⟩
  | purge hk ho _ ih | keep hk ho _ ih =>
    obtain ⟨behind, h1, h2, h3, h4⟩ := ih
    refine ⟨behind, ?_, ?_, ?_, ?_⟩
    · simpa [hk] using h1
    · simp [hk, ho, h2]
    · simpa [hk, ho] using h3
    · simpa [hk] using h4

end Walk

theorem serverOf_map {g : LcxlRouteListEntry → LcxlRouteListEntry} {k : ConnKey} :
    ∀ {xs : List LcxlRouteListEntry}, (∀ r ∈ xs, (g r).key = r.key) →
      (∀ r ∈ xs, r.key = k → (g r).dstServer = r.dstServer) →
      serverOf (xs.map g) k = serverOf xs k
  | [], _, _ => rfl
  | r :: rs, hk, hd => by
    simp only [List.mem_cons, forall_eq_or_imp] at hk hd
    rw [List.map_cons, serverOf_cons, serverOf_cons, hk.1, serverOf_map hk.2 hd.2]
    split_ifs with h
    · exact hd.1 h
    · rfl

theorem serverOf_erase {r : LcxlRouteListEntry} {k : ConnKey} :
    ∀ {xs : List LcxlRouteListEntry}, (xs.map (·.self)).Nodup → (xs.map (·.key)).Nodup → r ∈ xs →
      serverOf (xs.eraseP (·.self = r.self)) k = if k = r.key then none else serverOf xs k
  | x :: xs, hs, hk, hr => by
    simp only [List.map_cons, List.nodup_cons] at hs hk
    by_cases hx : x.self = r.self
    · have hxr : r = x := by
        rcases List.mem_cons.1 hr with hr | hr
        · exact hr
        · exact absurd (hx ▸ List.mem_map_of_mem (f := (·.self)) hr) hs.1
      subst hxr
      rw [List.eraseP_cons_of_pos (by simp), serverOf_cons]
      split_ifs with h h'
      · rw [h, serverOf_of_notMem hk.1]
      · exact absurd h'.symm h
      · rfl
    · have hr' : r ∈ xs := by
        rcases List.mem_cons.1 hr with hr | hr
        · exact absurd (congrArg _ hr.symm) hx
        · exact hr
      have hkx : x.key ≠ r.key := fun h => hk.1 (h ▸ List.mem_map_of_mem (f := (·.key)) hr')
      rw [List.eraseP_cons_of_neg (by simpa using hx), serverOf_cons, serverOf_cons,
        serverOf_erase hs.2 hk.2 hr']
      split_ifs with h h'
      · exact absurd (h.trans h') hkx
      · rfl
      · rfl
      · rfl

namespace RouteTable

/-- One entry an address and one a connection, each with a server. -/
structure Ok (rt : RouteTable) : Prop where
  selfs : (rt.list.map (·.self)).Nodup
  fresh : ∀ r ∈ rt.list, r.self < rt.next
  keys : (rt.list.map (·.key)).Nodup
  served : ∀ r ∈ rt.list, ∃ s, r.dstServer = some s

variable {rt rt' : RouteTable} {p : RoutePtr} {r r' : LcxlRouteListEntry}

theorem Ok.eq_of_self (h : rt.Ok) (hr : r ∈ rt.list) (hr' : r' ∈ rt.list)
    (hs : r.self = r'.self) : r = r' := List.inj_on_of_nodup_map h.selfs hr hr' hs

theorem exists_find (hr : r ∈ rt.list) : ∃ r', rt.find r.self = some r' := by
  rw [← Option.isSome_iff_exists, RouteTable.find, List.find?_isSome]
  exact ⟨r, hr, by simp⟩

theorem find_of_mem (hn : (rt.list.map (·.self)).Nodup) (hr : r ∈ rt.list) :
    rt.find r.self = some r := by
  obtain ⟨r', hr'⟩ := exists_find hr
  have hself : r'.self = r.self := by simpa using List.find?_some hr'
  rw [hr', List.inj_on_of_nodup_map hn (List.mem_of_find?_eq_some hr') hr hself]

theorem Ok.find (h : rt.Ok) (hr : r ∈ rt.list) : rt.find r.self = some r :=
  find_of_mem h.selfs hr

theorem Ok.walk {old : LcxlRouteListEntry → Bool} {pkt : TcpPacket} {now : ℤ}
    {gone : List LcxlRouteListEntry} {q : Option RoutePtr} (h : rt.Ok)
    (hw : Walk old pkt now rt.list rt'.list gone q) (hn : rt'.next = rt.next) : rt'.Ok := by
  refine ⟨h.selfs.sublist hw.selfs_sublist, fun r' hr' => ?_, h.keys.sublist hw.keys_sublist,
    fun r' hr' => ?_⟩
  · obtain ⟨r, hr, ts, rfl⟩ := hw.mem_kept r' hr'
    exact hn ▸ h.fresh r hr
  · obtain ⟨r, hr, ts, rfl⟩ := hw.mem_kept r' hr'
    exact h.served r hr

/-- An entry changed in place, neither its address nor its connection. -/
theorem Ok.modify {g : LcxlRouteListEntry → LcxlRouteListEntry} (h : rt.Ok) (hr : r ∈ rt.list)
    (hs : (g r).self = r.self) (hk : (g r).key = r.key) (hd : ∃ s, (g r).dstServer = some s) :
    (rt.modify r.self g).Ok := by
  have hg : ∀ x ∈ rt.list, x.self = r.self → x = r := fun x hx hxr => h.eq_of_self hx hr hxr
  have hmap : ∀ {β} (φ : LcxlRouteListEntry → β), φ (g r) = φ r →
      (rt.modify r.self g).list.map φ = rt.list.map φ := by
    intro β φ hφ
    simp only [RouteTable.modify, List.map_map]
    refine List.map_congr_left fun x hx => ?_
    simp only [Function.comp]
    split_ifs with hxr
    · rw [hg x hx hxr, hφ]
    · rfl
  refine ⟨hmap (·.self) hs ▸ h.selfs, ?_, hmap (·.key) hk ▸ h.keys, ?_⟩
  · intro x hx
    obtain ⟨y, hy, rfl⟩ := List.mem_map.1 hx
    split_ifs with hyr
    · rw [hg y hy hyr, hs]
      exact h.fresh r hr
    · exact h.fresh y hy
  · intro x hx
    obtain ⟨y, hy, rfl⟩ := List.mem_map.1 hx
    split_ifs with hyr
    · rw [hg y hy hyr]
      exact hd
    · exact h.served y hy

theorem Ok.serverOf_modify {g : LcxlRouteListEntry → LcxlRouteListEntry} (h : rt.Ok)
    (hr : r ∈ rt.list) (hs : (g r).self = r.self) (hk : (g r).key = r.key)
    (hd : ∃ s, (g r).dstServer = some s) :
    serverOf (rt.modify r.self g).list
      = Function.update (serverOf rt.list) r.key (g r).dstServer := by
  have h' := h.modify hr hs hk hd
  funext k
  by_cases hkr : k = r.key
  · subst hkr
    have hmem : g r ∈ (rt.modify r.self g).list :=
      List.mem_map.2 ⟨r, hr, by rw [if_pos rfl]⟩
    rw [Function.update_self, ← hk, serverOf_of_mem h'.keys hmem]
  · rw [Function.update_of_ne hkr]
    refine serverOf_map (fun x hx => ?_) fun x hx hxk => ?_
    · split_ifs with hxr
      · rw [h.eq_of_self hx hr hxr, hk]
      · rfl
    · rw [if_neg fun hxr => hkr (hxk ▸ congrArg _ (h.eq_of_self hx hr hxr))]

/-- A new entry initialised for a connection that has none. -/
theorem create_init_list (h : rt.Ok) (pkt : TcpPacket) (s : ServerPtr) (now : ℤ) :
    (initRouteListEntry (createRouteListEntry rt).1 rt.next pkt s now).list
      = ⟨rt.next, .normal, ⟨some pkt.ipMode, pkt.srcAddr⟩, pkt.thSport, pkt.thDport, some s, now⟩
        :: rt.list := by
  simp only [initRouteListEntry, RouteTable.modify, createRouteListEntry, allocRoute,
    List.map_cons, if_true, List.cons.injEq, true_and]
  refine (List.map_congr_left fun r hr => ?_).trans (List.map_id _)
  rw [if_neg (Nat.ne_of_lt (h.fresh r hr))]
  rfl

theorem Ok.create_init (h : rt.Ok) {pkt : TcpPacket} (hk : ∀ r ∈ rt.list, r.key ≠ pkt.key)
    (s : ServerPtr) (now : ℤ) :
    (initRouteListEntry (createRouteListEntry rt).1 rt.next pkt s now).Ok := by
  refine ⟨?_, ?_, ?_, ?_⟩ <;> rw [create_init_list h]
  · rw [List.map_cons, List.nodup_cons]
    refine ⟨fun hm => ?_, h.selfs⟩
    obtain ⟨r, hr, hs⟩ := List.mem_map.1 hm
    exact Nat.ne_of_lt (h.fresh r hr) hs
  · intro r hr
    rcases List.mem_cons.1 hr with rfl | hr
    · exact Nat.lt_succ_self _
    · exact Nat.lt_succ_of_lt (h.fresh r hr)
  · rw [List.map_cons, List.nodup_cons]
    refine ⟨fun hm => ?_, h.keys⟩
    obtain ⟨r, hr, hs⟩ := List.mem_map.1 hm
    exact hk r hr hs
  · intro r hr
    rcases List.mem_cons.1 hr with rfl | hr
    · exact ⟨s, rfl⟩
    · exact h.served r hr

theorem serverOf_create_init (h : rt.Ok) (pkt : TcpPacket) (s : ServerPtr) (now : ℤ) :
    serverOf (initRouteListEntry (createRouteListEntry rt).1 rt.next pkt s now).list
      = Function.update (serverOf rt.list) pkt.key (some s) := by
  funext k
  rw [create_init_list h, serverOf_cons, Function.update_apply]
  by_cases hk : k = pkt.key
  · rw [if_pos hk]
    exact if_pos hk.symm
  · rw [if_neg hk]
    exact if_neg (Ne.symm hk)

theorem Ok.erase (h : rt.Ok) (p : RoutePtr) (freed : List LcxlRouteListEntry) :
    Ok { rt with list := rt.list.eraseP (·.self = p), freed := freed } := by
  have hsub : (rt.list.eraseP (·.self = p)).Sublist rt.list := List.eraseP_sublist
  exact ⟨h.selfs.sublist (hsub.map _), fun r hr => h.fresh r (hsub.subset hr),
    h.keys.sublist (hsub.map _), fun r hr => h.served r (hsub.subset hr)⟩

end RouteTable

end LcxlNetLoader
