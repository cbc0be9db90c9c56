import LcxlNetLoader.Proofs.Receive
import LcxlNetLoader.Proofs.ServerTable
import LcxlNetLoader.SharedServers

/-!
# One server an address

While no request adds an address that already waits to be added, or that another request is about to
add, the servers linked and the servers waiting to be have all different addresses, and differ from
those about to be added (`Apart`). So no two linked ones ever have the same.
-/

namespace LcxlNetLoader

open Sys

variable {past : ServerPtr → Bool} {now : ℤ} {t t' : ServerTable} {p q : ServerPtr}
  {macAddr : IfPhysicalAddress} {server : LcxlServer}

theorem findServer_six (h : macAddr.length = 6) :
    findServer past t macAddr = t.lst.list.find? fun p => t.mac p = macAddr.mac := by
  unfold findServer getLcxlListHead
  congr 1
  funext p
  rw [Bool.eq_iff_iff, decide_eq_true_iff]
  simp [rtlEqualMemory, h, ServerTable.mac, IfPhysicalAddress.mac]

theorem mac_of_found (h6 : macAddr.length = 6) (h : findServer past t macAddr = some p) :
    t.mac p = macAddr.mac := by
  rw [findServer_six h6] at h
  simpa using List.find?_some h

theorem oneServerAMac_of_macs (h : (t.lst.list.map t.mac).Nodup) : OneServerAMac t :=
  ⟨h, fun _ _ _ _ h6 hf hq hm => List.inj_on_of_nodup_map h hq (findServer_mem hf)
    (hm.trans (mac_of_found h6 hf).symm)⟩

namespace LcxlList

variable {α : Type*}

theorem known_add (l : LcxlList α) (e : α) :
    ((addEntrytoLcxlList l e).list ++ (addEntrytoLcxlList l e).toBeAddList).Perm
      (e :: (l.list ++ l.toBeAddList)) := by
  unfold addEntrytoLcxlList
  split_ifs
  · simpa using List.perm_append_singleton e (l.list ++ l.toBeAddList)
  · simp [linkEntry]

variable [DecidableEq α]

theorem known_unlock (l : LcxlList α) :
    ((unlockLcxlList l).list ++ (unlockLcxlList l).toBeAddList).Sublist
      (l.list ++ l.toBeAddList) := by
  by_cases h : l.lockCount = 1
  · rw [unlockLcxlList_of_last h, applyToBe_eq, List.append_nil]
    exact (List.diff_sublist _ _).append_right _
  · rw [unlockLcxlList_of_not_last h]

theorem known_remove (l : LcxlList α) (e : α) :
    ((removeEntryfromLcxlList l e).list ++ (removeEntryfromLcxlList l e).toBeAddList).Sublist
      (l.list ++ l.toBeAddList) := by
  unfold removeEntryfromLcxlList
  split_ifs
  · exact List.Sublist.refl _
  · exact List.erase_sublist.append_right _

end LcxlList

namespace ServerTable

/-- Nothing becomes known, and the servers there are keep their addresses. -/
structure Shrinks (t t' : ServerTable) : Prop where
  known : t'.known.Sublist t.known
  next : t'.next = t.next
  mac : ∀ p, t'.mac p = t.mac p

theorem Shrinks.refl (t : ServerTable) : Shrinks t t :=
  ⟨List.Sublist.refl _, rfl, fun _ => rfl⟩

theorem Shrinks.trans {t'' : ServerTable} (h : Shrinks t t') (h' : Shrinks t' t'') :
    Shrinks t t'' :=
  ⟨h'.known.trans h.known, h'.next.trans h.next, fun p => (h'.mac p).trans (h.mac p)⟩

theorem shrinks_lock (t : ServerTable) : Shrinks t (lockServerList t) :=
  ⟨List.Sublist.refl _, rfl, fun _ => rfl⟩

theorem shrinks_unlock (t : ServerTable) : Shrinks t (unlockServerList t) :=
  ⟨LcxlList.known_unlock t.lst, rfl, fun _ => rfl⟩

theorem shrinks_modify {g : ServerInfoListEntry → ServerInfoListEntry}
    (hg : (g (t.mem p)).info.macAddr.mac = (t.mem p).info.macAddr.mac) :
    Shrinks t (t.modify p g) := by
  refine ⟨List.Sublist.refl _, rfl, fun q => ?_⟩
  by_cases hq : q = p
  · subst hq
    simpa [mac, modify] using hg
  · simp [mac, modify, Function.update_of_ne hq]

theorem shrinks_decRef (t : ServerTable) (p : ServerPtr) : Shrinks t (decRefListEntry t p) := by
  have hmod : Shrinks t (t.modify p fun s => { s with refCount := s.refCount - 1 }) :=
    shrinks_modify rfl
  unfold decRefListEntry
  simp only
  split_ifs
  · exact hmod.trans ⟨LcxlList.known_remove _ p, rfl, fun _ => rfl⟩
  · exact hmod

theorem shrinks_markDeleted (t : ServerTable) (p : ServerPtr) : Shrinks t (markDeleted t p) := by
  unfold markDeleted
  split_ifs
  · exact .refl t
  · exact (shrinks_modify rfl).trans (shrinks_decRef _ p)

theorem known_addNewServer (now : ℤ) (t : ServerTable) (server : LcxlServer) :
    (addNewServer now t server).known.Perm (t.next :: t.known) :=
  LcxlList.known_add t.lst t.next

theorem addNewServer_info (now : ℤ) (t : ServerTable) (server : LcxlServer) :
    ((addNewServer now t server).mem t.next).info = server := by
  simp [addNewServer]

theorem addNewServer_mem_of_lt (h : p < t.next) : (addNewServer now t server).mem p = t.mem p :=
  Function.update_of_ne h.ne _ _

end ServerTable

namespace SharedServers

variable {ι : Type*} {s s' : SharedServers ι} {i j : ι} {a : ServerStep ι}
  {tr : List (ServerStep ι)}

/-- The request has found no server of its address, and is about to add one. -/
def Adding (s : SharedServers ι) (i : ι) (server : LcxlServer) : Prop :=
  s.position i = .found (.add server) none

/-- The servers known and those about to be added have all different addresses, and a server found
has the address asked for. -/
structure Apart (s : SharedServers ι) : Prop where
  macs : (s.table.known.map s.table.mac).Nodup
  fresh : ∀ p ∈ s.table.known, p < s.table.next
  six : ∀ i r, s.position i = .locked r → r.macAddr.length = 6
  found : ∀ i server p, s.position i = .found (.add server) (some p) →
    p < s.table.next ∧ s.table.mac p = server.macAddr.mac
  adding : ∀ i server, s.Adding i server →
    ∀ p ∈ s.table.known, s.table.mac p ≠ server.macAddr.mac
  alone : ∀ i j server other, s.Adding i server → s.Adding j other → i ≠ j →
    server.macAddr.mac ≠ other.macAddr.mac

theorem apart_init (mem : ServerPtr → ServerInfoListEntry) (next : ServerPtr) :
    (init mem next : SharedServers ι).Apart :=
  ⟨List.nodup_nil, by simp [init, ServerTable.known, initLcxlList], by simp [init],
    by simp [init], by simp [init, Adding], by simp [init, Adding]⟩

/-- A step that makes nothing known and takes no request to `FindServer`. -/
theorem Apart.shrink (h : s.Apart) (ht : s.table.Shrinks s'.table)
    (hl : ∀ i r, s'.position i = .locked r → r.macAddr.length = 6)
    (hf : ∀ i r p, s'.position i = .found r p → s.position i = .found r p) : s'.Apart := by
  have hmac : s'.table.mac = s.table.mac := funext ht.mac
  refine ⟨?_, fun p hp => ?_, hl, fun i server p hp => ?_, fun i server hp q hq => ?_, ?_⟩
  · rw [hmac]
    exact h.macs.sublist (ht.known.map _)
  · rw [ht.next]
    exact h.fresh p (ht.known.subset hp)
  · rw [ht.next, hmac]
    exact h.found i server p (hf _ _ _ hp)
  · rw [hmac]
    exact h.adding i server (hf _ _ _ hp) q (ht.known.subset hq)
  · exact fun i j server other hi hj => h.alone i j server other (hf _ _ _ hi) (hf _ _ _ hj)

variable [DecidableEq ι]

theorem move_position {t : ServerTable} {position : ServerPosition} :
    (s.move i t position).position j = if j = i then position else s.position j :=
  Function.update_apply _ _ _ _

/-- The calls of a request to add, nothing coming in between. -/
theorem exec_add (s : SharedServers ι) (i : ι) (past : ServerPtr → Bool) (now : ℤ)
    (server : LcxlServer) :
    ([.lock i (.add server), .find i past, .write i now, .unlock i].foldl exec s).table
      = routerAddServer past now s.table server := by
  simp only [List.foldl_cons, List.foldl_nil, exec, move_position, if_true]
  rcases hf : findServer past s.table server.macAddr with _ | p
  · rw [routerAddServer_of_none hf]
    have hf' : findServer past (lockServerList s.table) server.macAddr = none := hf
    simp only [move, ServerRequest.macAddr, hf', ServerRequest.write]
    rfl
  · rw [routerAddServer_of_some hf]
    have hf' : findServer past (lockServerList s.table) server.macAddr = some p := hf
    simp only [move, ServerRequest.macAddr, hf', ServerRequest.write]
    rfl

/-- The calls of a request to delete, nothing coming in between. -/
theorem exec_del (s : SharedServers ι) (i : ι) (past : ServerPtr → Bool) (now : ℤ)
    (macAddr : IfPhysicalAddress) :
    ([.lock i (.del macAddr), .find i past, .write i now].foldl exec s).table
      = (routerDelServer past s.table macAddr).1 := by
  simp only [List.foldl_cons, List.foldl_nil, exec, move_position, if_true]
  rcases hf : findServer past s.table macAddr with _ | p
  · rw [routerDelServer_of_none hf]
    have hf' : findServer past (lockServerList s.table) macAddr = none := hf
    simp only [move, ServerRequest.macAddr, hf', ServerRequest.write]
  · have hf' : findServer past (lockServerList s.table) macAddr = some p := hf
    simp only [move, ServerRequest.macAddr, hf', ServerRequest.write, markDeleted]
    by_cases hd : has (s.table.mem p).info.status ssDeleted
    · rw [routerDelServer_of_deleted hf hd]
      exact if_pos hd
    · rw [routerDelServer_of_live hf hd]
      exact if_neg hd

/-- A call after which the party is somewhere else than in `FindServer`. -/
theorem Apart.move (h : s.Apart) {position : ServerPosition} (ht : s.table.Shrinks t)
    (hl : ∀ r, position = .locked r → r.macAddr.length = 6)
    (hf : ∀ r p, position ≠ .found r p) : (s.move i t position).Apart := by
  refine h.shrink ht (fun j r hj => ?_) fun j r p hj => ?_
  all_goals
    rw [move_position] at hj
    split_ifs at hj
  · exact hl r hj
  · exact h.six j r hj
  · exact absurd hj (hf r p)
  · exact hj

theorem Apart.find (h : s.Apart) {r : ServerRequest} (hr : s.position i = .locked r)
    (hc : s.AddsNew (.find i past)) : (s.exec (.find i past)).Apart := by
  have hexec : s.exec (.find i past) =
      s.move i s.table (.found r (findServer past s.table r.macAddr)) := by simp only [exec, hr]
  have h6 := h.six i r hr
  have hadd : ∀ {j server}, (s.exec (.find i past)).Adding j server →
      j = i ∧ r = .add server ∧ findServer past s.table server.macAddr = none
        ∨ j ≠ i ∧ s.Adding j server := fun {j server} hj => by
    simp only [Adding, hexec, move_position] at hj
    split_ifs at hj with hji
    · obtain ⟨rfl, hf⟩ := ServerPosition.found.inj hj
      exact .inl ⟨hji, rfl, hf⟩
    · exact .inr ⟨hji, hj⟩
  have hnew : ∀ {server}, r = .add server → findServer past s.table server.macAddr = none →
      (∀ p ∈ s.table.known, s.table.mac p ≠ server.macAddr.mac)
        ∧ ∀ j other, s.Adding j other → other.macAddr.mac ≠ server.macAddr.mac := by
    rintro server rfl hf
    refine ⟨fun p hp => ?_, (hc server hr hf).2⟩
    rcases List.mem_append.1 hp with hp | hp
    · rw [findServer_six (show server.macAddr.length = 6 from h6), List.find?_eq_none] at hf
      simpa using hf p hp
    · exact (hc server hr hf).1 p hp
  refine ⟨hexec ▸ h.macs, hexec ▸ h.fresh, fun j r' hj => ?_, fun j server p hj => ?_,
    fun j server hj => ?_, fun j k server other hj hk hjk => ?_⟩
  · rw [hexec, move_position] at hj
    split_ifs at hj
    exact h.six j r' hj
  · rw [hexec, move_position] at hj
    rw [hexec]
    split_ifs at hj with hji
    · obtain ⟨rfl, hf⟩ := ServerPosition.found.inj hj
      exact ⟨h.fresh p (List.mem_append_left _ (findServer_mem hf)), mac_of_found h6 hf⟩
    · exact h.found j server p hj
  · rw [hexec]
    rcases hadd hj with ⟨-, hrs, hf⟩ | ⟨-, hj⟩
    · exact (hnew hrs hf).1
    · exact h.adding j server hj
  · rcases hadd hj with ⟨rfl, hrs, hf⟩ | ⟨-, hj'⟩
    · rcases hadd hk with ⟨rfl, -⟩ | ⟨-, hk'⟩
      · exact absurd rfl hjk
      · exact ((hnew hrs hf).2 k other hk').symm
    · rcases hadd hk with ⟨-, hrs, hf⟩ | ⟨-, hk'⟩
      · exact (hnew hrs hf).2 j server hj'
      · exact h.alone j k server other hj' hk' hjk

theorem Apart.add (h : s.Apart) (hi : s.Adding i server) :
    (s.move i (addNewServer now s.table server) (.added server)).Apart := by
  have hknown := ServerTable.known_addNewServer now s.table server
  have hnew : (addNewServer now s.table server).mac s.table.next = server.macAddr.mac := by
    rw [ServerTable.mac, ServerTable.addNewServer_info]
  have hold : ∀ {p}, p < s.table.next →
      (addNewServer now s.table server).mac p = s.table.mac p := fun hp => by
    rw [ServerTable.mac, ServerTable.addNewServer_mem_of_lt hp, ServerTable.mac]
  have hadd : ∀ {j other},
      (s.move i (addNewServer now s.table server) (.added server)).Adding j other →
        j ≠ i ∧ s.Adding j other := fun {j other} hj => by
    rw [Adding, move_position] at hj
    split_ifs at hj with hji
    exact ⟨hji, hj⟩
  refine ⟨?_, fun p hp => ?_, fun j r hj => ?_, fun j other p hj => ?_, fun j other hj p hp => ?_,
    fun j k other other' hj hk => h.alone j k other other' (hadd hj).2 (hadd hk).2⟩
  · have hmap : s.table.known.map (addNewServer now s.table server).mac
        = s.table.known.map s.table.mac := List.map_congr_left fun p hp => hold (h.fresh p hp)
    have hnd : ((addNewServer now s.table server).known.map
        (addNewServer now s.table server).mac).Nodup := by
      rw [(hknown.map _).nodup_iff, List.map_cons, hmap, hnew, List.nodup_cons]
      refine ⟨fun hm => ?_, h.macs⟩
      obtain ⟨p, hp, hm⟩ := List.mem_map.1 hm
      exact h.adding i server hi p hp hm
    exact hnd
  · rcases List.mem_cons.1 (hknown.subset hp) with rfl | hp
    · exact Nat.lt_succ_self _
    · exact (h.fresh p hp).trans (Nat.lt_succ_self _)
  · rw [move_position] at hj
    split_ifs at hj
    exact h.six j r hj
  · rw [move_position] at hj
    split_ifs at hj
    obtain ⟨hlt, hm⟩ := h.found j other p hj
    exact ⟨hlt.trans (Nat.lt_succ_self _), (hold hlt).trans hm⟩
  · rcases List.mem_cons.1 (hknown.subset hp) with rfl | hp
    · exact hnew.trans_ne (h.alone i j server other hi (hadd hj).2 (hadd hj).1.symm)
    · exact hold (h.fresh p hp) ▸ h.adding j other (hadd hj).2 p hp

theorem Apart.step (h : s.Apart) (he : s.Enabled a) (hc : s.AddsNew a) : (s.exec a).Apart := by
  cases a with
  | lock i r =>
    refine h.move s.table.shrinks_lock (fun r' hr' => ?_) (by simp)
    cases hr'
    exact he.2
  | find i past => exact h.find he.choose_spec hc
  | write i now =>
    obtain ⟨r, p, hp⟩ := he
    have hexec : s.exec (.write i now) =
        s.move i (r.write now s.table p).1 (r.write now s.table p).2 := by simp only [exec, hp]
    rw [hexec]
    cases r with
    | add server =>
      rcases p with _ | p
      · exact h.add hp
      · have hmac : server.macAddr.mac = (s.table.mem p).info.macAddr.mac :=
          (h.found i server p hp).2.symm
        exact h.move (ServerTable.shrinks_modify (g := fun s => { s with info := server }) hmac)
          (fun _ hr => by cases hr) fun _ _ hr => by cases hr
    | del macAddr =>
      rcases p with _ | p
      · exact h.move (.refl s.table) (fun _ hr => by cases hr) fun _ _ hr => by cases hr
      · exact h.move (s.table.shrinks_markDeleted p) (fun _ hr => by cases hr)
          fun _ _ hr => by cases hr
  | hold i => exact h.move s.table.shrinks_lock (by simp) (by simp)
  | unlock i => exact h.move s.table.shrinks_unlock (by simp) (by simp)
  | update p server =>
    have hmac : server.info.macAddr.mac = (s.table.mem p).info.macAddr.mac := congrArg _ he
    exact h.shrink (ServerTable.shrinks_modify (g := fun _ => server) hmac) h.six
      fun _ _ _ hf => hf
  | decRef p => exact h.shrink (s.table.shrinks_decRef p) h.six fun _ _ _ hf => hf

/-- In every interleaving in which a request to add that finds no server of its address linked finds
none waiting to be, nor another request about to add one, an address names one server. -/
theorem oneServerAMac (mem : ServerPtr → ServerInfoListEntry) (next : ServerPtr)
    (he : Allowed Enabled exec (init mem next : SharedServers ι) tr)
    (hc : Allowed AddsNew exec (init mem next) tr) :
    OneServerAMac (tr.foldl exec (init mem next)).table := by
  have h := (Allowed.keeps (I := Apart) (fun _ _ h he hc => h.step he hc) (apart_init mem next)
    he hc).macs
  rw [ServerTable.known, List.map_append] at h
  exact oneServerAMac_of_macs h.of_append_left

/-- One request to add the sample server. -/
def adding : List (ServerStep Bool) :=
  [.lock false (.add Sample.server), .find false fun _ => false, .write false 0, .unlock false]

def another : LcxlServer :=
  { Sample.server with macAddr := ⟨6, (Bytes.zero 32).move [2, 0, 0, 0, 0, 8]⟩ }

/-- Two requests side by side, each to add a server of its own. -/
def addingBoth : List (ServerStep Bool) :=
  [.lock false (.add Sample.server), .lock true (.add another), .find false fun _ => false,
    .find true fun _ => false, .write true 0, .write false 0, .unlock false, .unlock true]

theorem oneServerAMac_added :
    (addingBoth.foldl exec (init (fun _ => allocServer 0) 0)).table.lst.list = [0, 1]
      ∧ OneServerAMac (addingBoth.foldl exec (init (fun _ => allocServer 0) 0)).table := by
  have he : Allowed Enabled exec (init (fun _ => allocServer 0) 0) addingBoth :=
    ⟨⟨rfl, rfl⟩, ⟨rfl, rfl⟩, ⟨_, rfl⟩, ⟨_, rfl⟩, ⟨_, _, rfl⟩, ⟨_, _, rfl⟩, .inl ⟨_, rfl⟩,
      .inl ⟨_, rfl⟩, trivial⟩
  have hc : Allowed AddsNew exec (init (fun _ => allocServer 0) 0) addingBoth := by
    refine ⟨trivial, trivial, fun server _ _ => ⟨fun p hp => ?_, fun j other hj => ?_⟩,
      fun server hl _ => ⟨fun p hp => ?_, fun j other hj => ?_⟩, trivial, trivial, trivial, trivial,
      trivial⟩
    · cases hp
    · cases j <;> cases hj
    · cases hp
    · cases hl
      cases j <;> cases hj
      decide +kernel
  exact ⟨by decide +kernel, oneServerAMac _ 0 he hc⟩

/-- While the worker thread holds the list, a server is added twice. -/
theorem not_oneServerAMac_of_held : ¬ ∀ (mem : ServerPtr → ServerInfoListEntry) (next : ServerPtr)
    (tr : List (ServerStep Bool)), Allowed Enabled exec (init mem next) tr →
      OneServerAMac (tr.foldl exec (init mem next)).table := by
  intro h
  have he : Allowed Enabled exec (init (fun _ => allocServer 0) 0)
      ([.hold true] ++ adding ++ adding ++ [.unlock true]) :=
    ⟨rfl, ⟨rfl, rfl⟩, ⟨_, rfl⟩, ⟨_, _, rfl⟩, .inl ⟨_, rfl⟩,
      ⟨rfl, rfl⟩, ⟨_, rfl⟩, ⟨_, _, rfl⟩, .inl ⟨_, rfl⟩, .inr rfl, trivial⟩
  exact absurd (h _ 0 _ he).macs (by decide +kernel)

end SharedServers

end LcxlNetLoader
