import LcxlNetLoader.Buffers
import LcxlNetLoader.Proofs.Replay
import LcxlNetLoader.Proofs.ServerLocks

/-!
# Requests for a list

Each record is written to a place of its own, none of it outside. The list of modules is answered
for as many bytes as it takes; the list of a module's servers is, just when there is room for as
many servers as there are modules (`listQueries_answered_iff`).
-/

namespace LcxlNetLoader

variable {d : Driver} {irp : Irp} {p : FilterPtr} {w : Write}

/-! ## What is written -/

theorem NdisString.length_bytes (s : NdisString) (n : ℕ) : (s.bytes n).length = n := by
  simp [NdisString.bytes, List.length_flatMap]
  omega

theorem LcxlServerCheck.length_bytes (c : LcxlServerCheck) : c.bytes.length = 12 := by
  simp [LcxlServerCheck.bytes]

theorem IfPhysicalAddress.length_bytes (a : IfPhysicalAddress) : a.bytes.length = 34 := by
  simp [IfPhysicalAddress.bytes]

theorem nameWrites_inside {s : NdisString} {buflen name : ℕ} (h : w ∈ nameWrites s buflen name) :
    w.offset + w.bytes.length ≤ name + buflen + 2 := by
  simp only [nameWrites, List.mem_cons, List.not_mem_nil, or_false] at h
  rcases h with rfl | rfl
  · simp [NdisString.length_bytes]
  · simp only [List.length_cons, List.length_nil]
    omega

/-- A name may run out of its array, but not out of the record. -/
theorem appModuleWrites_inside {module : LcxlModuleSettingInfo} {curBuf : ℕ}
    (h : w ∈ appModuleWrites module curBuf) :
    w.offset + w.bytes.length ≤ curBuf + sizeofAppModule := by
  have hfilter : filterModuleNameLength module.filterModuleName ≤ 510 := by
    unfold filterModuleNameLength
    split_ifs <;> omega
  have hfriendly : miniportFriendlyNameLength module.miniportFriendlyName ≤ 510 := by
    unfold miniportFriendlyNameLength
    split_ifs <;> omega
  have hminiport : miniportNameLength module.miniportName ≤ 514 := by
    unfold miniportNameLength
    split_ifs <;> omega
  unfold sizeofAppModule
  simp only [appModuleWrites, List.mem_append] at h
  rcases h with (((h | h) | h) | h) | h
  · simp only [List.mem_cons, List.not_mem_nil, or_false] at h
    rcases h with rfl | rfl | rfl
    · simp
    · simp
    · simp [IfPhysicalAddress.length_bytes]
  · have := nameWrites_inside h
    omega
  · have := nameWrites_inside h
    omega
  · have := nameWrites_inside h
    omega
  · simp only [List.mem_cons, List.not_mem_nil, or_false] at h
    rcases h with rfl | rfl | rfl | rfl | rfl | rfl
    · simp
    · simp
    · simp
    · simp [LcxlAddrInfo.length_bytes]
    · simp [LcxlServerCheck.length_bytes]
    · simp

theorem moduleListWrites_inside : ∀ {ps : List FilterPtr} {curBuf : ℕ},
    w ∈ moduleListWrites d ps curBuf →
      w.offset + w.bytes.length ≤ curBuf + ps.length * sizeofAppModule
  | p :: ps, curBuf, h => by
    rw [List.length_cons, Nat.succ_mul]
    rcases List.mem_append.1 h with h | h
    · have := appModuleWrites_inside h
      omega
    · have := moduleListWrites_inside h
      omega

theorem serverListWrites_inside {t : ServerTable} : ∀ {ps : List ServerPtr} {curBuf : ℕ},
    w ∈ serverListWrites t ps curBuf →
      w.offset + w.bytes.length ≤ curBuf + ps.length * sizeofLcxlServer
  | p :: ps, curBuf, h => by
    rw [List.length_cons, Nat.succ_mul]
    rcases List.mem_cons.1 h with rfl | h
    · rw [LcxlServer.length_bytes, sizeofLcxlServer]
      dsimp only
      omega
    · have := serverListWrites_inside h
      omega

theorem moduleListWrites_eq : ∀ (ps : List FilterPtr) (curBuf : ℕ), moduleListWrites d ps curBuf =
    (ps.mapIdx fun i p =>
      appModuleWrites (d.filter p).module (curBuf + i * sizeofAppModule)).flatten
  | [], _ => rfl
  | p :: ps, curBuf => by
    rw [moduleListWrites, moduleListWrites_eq ps, List.mapIdx_cons, List.flatten_cons]
    simp only [Nat.zero_mul, Nat.add_zero, Nat.succ_mul, Nat.add_assoc, Nat.add_comm]

theorem serverListWrites_eq {t : ServerTable} : ∀ (ps : List ServerPtr) (curBuf : ℕ),
    serverListWrites t ps curBuf = (ps.map fun p => (t.mem p).info).mapIdx fun i s =>
      ⟨curBuf + i * sizeofLcxlServer, s.bytes⟩
  | [], _ => rfl
  | p :: ps, curBuf => by
    rw [serverListWrites, serverListWrites_eq ps, List.map_cons, List.mapIdx_cons]
    simp only [Nat.zero_mul, Nat.add_zero, Nat.succ_mul, Nat.add_assoc, Nat.add_comm]

/-! ## What is told -/

theorem NdisString.begins_copied {s : NdisString} {buflen : ℕ}
    (h : min (s.length / 2) 255 ≤ buflen / 2) : s.Begins (s.copied buflen) := by
  intro i hi
  rw [NdisString.copied, List.getElem?_append_left (by simp; omega), List.getElem?_map,
    List.getElem?_range (by omega)]
  rfl

theorem appModule_describes {f : LcxlFilter} {serverCount : ℤ}
    (h : serverCount = f.module.serverList.lst.list.length) :
    (appModule f serverCount).Describes f := by
  have hfilter : f.module.filterModuleName.Begins (appModule f serverCount).filterModuleName := by
    refine NdisString.begins_copied ?_
    unfold filterModuleNameLength
    split_ifs <;> omega
  have hfriendly :
      f.module.miniportFriendlyName.Begins (appModule f serverCount).miniportFriendlyName := by
    refine NdisString.begins_copied ?_
    unfold miniportFriendlyNameLength
    split_ifs <;> omega
  have hminiport : f.module.miniportName.Begins (appModule f serverCount).miniportName := by
    refine NdisString.begins_copied ?_
    unfold miniportNameLength
    split_ifs <;> omega
  exact ⟨rfl, rfl, rfl, rfl, hfilter, hfriendly, hminiport, rfl, h, rfl, rfl, rfl⟩

theorem moduleListLoop_snd : ∀ (ps : List FilterPtr) (d : Driver), ps.Nodup →
    (moduleListLoop ps d).2 = ps.map fun p =>
      appModule (d.filter p) (getLcxlListCount (d.filter p).module.serverList.lst)
  | [], d, _ => rfl
  | p :: ps, d, hn => by
    obtain ⟨hp, hn⟩ := List.nodup_cons.1 hn
    rw [moduleListLoop]
    dsimp only
    rw [moduleListLoop_snd ps _ hn, List.map_cons]
    congr 1
    refine List.map_congr_left fun q hq => ?_
    have hqp : q ≠ p := fun h => hp (h ▸ hq)
    simp only [Driver.setFilter, Function.update_of_ne hqp]

/-- What is checked is the room for as many records as a list has entries. -/
theorem hasRoom_iff {l : LcxlList FilterPtr} (h : l.listCount = l.list.length) (size : ℕ) :
    irp.hasRoom (getLcxlListCount l) size ↔ l.list.length * size ≤ irp.outputBufferLength := by
  rw [Irp.hasRoom, decide_eq_true_iff, getLcxlListCount, h]
  exact ⟨fun h => by exact_mod_cast h.2, fun h => ⟨Int.natCast_nonneg _, by exact_mod_cast h⟩⟩

/-! ## The two requests -/

theorem getModuleList_answered (hn : d.gFilterList.list.Nodup)
    (hcount : d.gFilterList.listCount = d.gFilterList.list.length)
    (hservers : ∀ p ∈ d.gFilterList.list, (d.filter p).module.serverList.lst.listCount =
      (d.filter p).module.serverList.lst.list.length) :
    ListAnswered irp d.gFilterList.list.length sizeofAppModule (getModuleList d irp).2
      (getModuleListWrites d irp) d.ModulesListed := by
  have hroom : irp.hasRoom (getLcxlListCount d.lock.gFilterList) sizeofAppModule ↔
      d.gFilterList.list.length * sizeofAppModule ≤ irp.outputBufferLength :=
    hasRoom_iff hcount _
  have hlist := moduleListLoop_snd d.gFilterList.list d.lock hn
  refine ⟨fun w hw => ?_, fun hle => ?_, fun hlt => ?_⟩
  · unfold getModuleListWrites at hw
    split_ifs at hw with h
    · have := moduleListWrites_inside hw
      have := hroom.1 h
      simp only [getLcxlListHead] at *
      omega
    · simp at hw
  · simp only [getModuleList, if_pos (hroom.2 hle)]
    have hlength : (moduleListLoop (getLcxlListHead d.lock.gFilterList) d.lock).2.length =
        d.gFilterList.list.length := (congrArg List.length hlist).trans (List.length_map _)
    refine ⟨trivial, by rw [hlength], _, rfl, (congrArg (List.Forall₂ _ · _) hlist).mpr ?_, ?_⟩
    · rw [List.forall₂_map_left_iff, List.forall₂_map_right_iff, List.forall₂_same]
      exact fun p hp => appModule_describes (hservers p hp)
    · rw [getModuleListWrites, if_pos ((hasRoom_iff hcount _).2 hle), moduleListWrites_eq]
      simp only [Nat.zero_add]
      rfl
  · simp only [getModuleList, if_neg (hroom.not.2 (not_le.2 hlt))]
    exact ⟨rfl, rfl⟩

theorem getServerList_of_found (hin : irp.inputBufferLength = sizeofNetLuid)
    (hfind : findFilter d irp.miniportNetLuid = some p) : (getServerList d irp).2 =
      if irp.hasRoom (getLcxlListCount d.gFilterList) sizeofLcxlServer then
        ⟨.success, (d.filter p).module.serverList.lst.list.length * sizeofLcxlServer,
          .servers ((d.filter p).module.serverList.lst.list.map
            fun s => ((d.filter p).module.serverList.mem s).info)⟩
      else .ofStatus .bufferTooSmall := by
  have hfind' : findFilter d.lock irp.miniportNetLuid = some p := hfind
  simp only [getServerList, ofSize, if_pos hin, withFilter, hfind']
  split_ifs
  · simp only [List.length_map]
    rfl
  · rfl

/-- There is room for the modules just if there is for the servers. -/
theorem getServerList_answered_iff (hcount : d.gFilterList.listCount = d.gFilterList.list.length)
    (hin : irp.inputBufferLength = sizeofNetLuid)
    (hfind : findFilter d irp.miniportNetLuid = some p) :
    ListAnswered irp (d.filter p).module.serverList.lst.list.length sizeofLcxlServer
        (getServerList d irp).2 (getServerListWrites d irp) (d.ServersListed p) ↔
      (d.gFilterList.list.length * sizeofLcxlServer ≤ irp.outputBufferLength ↔
        (d.filter p).module.serverList.lst.list.length * sizeofLcxlServer
          ≤ irp.outputBufferLength) := by
  rw [getServerList_of_found hin hfind, ← hasRoom_iff hcount]
  constructor
  · intro h
    by_cases hr : irp.hasRoom (getLcxlListCount d.gFilterList) sizeofLcxlServer
    · refine iff_of_true hr (not_lt.1 fun hlt => ?_)
      have := (h.short hlt).1
      rw [if_pos hr] at this
      cases this
    · refine iff_of_false hr fun hle => ?_
      have := (h.whole hle).1
      rw [if_neg hr] at this
      cases this
  · intro h
    refine ⟨fun w hw => ?_, fun hle => ?_, fun hlt => ?_⟩
    · simp only [getServerListWrites, if_pos hin, hfind] at hw
      split_ifs at hw with hr
      · have hle := h.1 hr
        have := serverListWrites_inside hw
        simp only [getLcxlListHead] at this
        omega
      · simp at hw
    · rw [if_pos (h.2 hle)]
      refine ⟨rfl, rfl, _, rfl, rfl, ?_⟩
      simp only [getServerListWrites, if_pos hin, hfind, if_pos (h.2 hle), serverListWrites_eq,
        Nat.zero_add]
      rfl
    · rw [if_neg fun hr => absurd (h.1 hr) (not_le.2 hlt)]
      exact ⟨rfl, rfl⟩

variable (d irp) in
/-- The two requests for a list: that for the modules is answered, and that for a module's servers
is if there is room for these and for as many as there are modules, or for neither. -/
theorem listQueries_answered_iff (past : ServerPtr → Bool) (now : ℤ)
    (hn : d.gFilterList.list.Nodup)
    (hcount : d.gFilterList.listCount = d.gFilterList.list.length)
    (hservers : ∀ p ∈ d.gFilterList.list, (d.filter p).module.serverList.lst.listCount =
      (d.filter p).module.serverList.lst.list.length) (hfile : irp.fileObject) :
    (irp.ioControlCode = ioctlGetModuleList →
      ListAnswered irp d.gFilterList.list.length sizeofAppModule
        (filterDeviceIoControl past now d irp).2 (getModuleListWrites d irp) d.ModulesListed)
    ∧ (irp.ioControlCode = ioctlRouterGetServerList → irp.inputBufferLength = sizeofNetLuid →
      ∀ p, findFilter d irp.miniportNetLuid = some p →
        (ListAnswered irp (d.filter p).module.serverList.lst.list.length sizeofLcxlServer
            (filterDeviceIoControl past now d irp).2 (getServerListWrites d irp)
            (d.ServersListed p) ↔
          (d.gFilterList.list.length * sizeofLcxlServer ≤ irp.outputBufferLength ↔
            (d.filter p).module.serverList.lst.list.length * sizeofLcxlServer
              ≤ irp.outputBufferLength))) := by
  constructor
  · intro hcode
    have hget : filterDeviceIoControl past now d irp = getModuleList d irp := by
      rw [filterDeviceIoControl, if_neg (not_not.2 hfile), hcode]
      rfl
    rw [hget]
    exact getModuleList_answered hn hcount hservers
  · intro hcode hin p hfind
    have hget : filterDeviceIoControl past now d irp = getServerList d irp := by
      rw [filterDeviceIoControl, if_neg (not_not.2 hfile), hcode]
      rfl
    rw [hget]
    exact getServerList_answered_iff hcount hin hfind

section Samples

/-- Modules of one LUID, with these numbers of servers. -/
def sampleDriver (servers : List ℕ) : Driver where
  gFilterList := ⟨List.range servers.length, servers.length, [], [], 0, []⟩
  filter p := Sample.router.setServers
    (sampleServers (List.replicate (servers.getD p 0) (ssOnline, 1)))

/-- The servers of the first module are asked for. -/
def sampleQuery (outputBufferLength : ℕ) : Irp :=
  ⟨true, ioctlRouterGetServerList, fun i => if i = 0 then 1 else 0, 8, outputBufferLength⟩

/-- The only module has two servers, and the buffer holds one. -/
theorem listQueries_not_answered : ¬ ListAnswered (sampleQuery 36) 2 sizeofLcxlServer
    (filterDeviceIoControl (fun _ => false) 0 (sampleDriver [2]) (sampleQuery 36)).2
    (getServerListWrites (sampleDriver [2]) (sampleQuery 36))
    ((sampleDriver [2]).ServersListed 0) := by
  intro h
  have hends : (getServerListWrites (sampleDriver [2]) (sampleQuery 36)).map
      (fun w => w.offset + w.bytes.length) = [36, 72] := by decide
  have hin : ∀ n ∈ [36, 72], n ≤ 36 := hends ▸ List.forall_mem_map.2 h.inside
  exact absurd (hin 72 (by simp)) (by decide)

/-- Two modules, the first of them with two servers, and a buffer that holds these. -/
theorem listQueries_answered_iff_two : ListAnswered (sampleQuery 72) 2 sizeofLcxlServer
    (filterDeviceIoControl (fun _ => false) 0 (sampleDriver [2, 0]) (sampleQuery 72)).2
    (getServerListWrites (sampleDriver [2, 0]) (sampleQuery 72))
    ((sampleDriver [2, 0]).ServersListed 0) :=
  ((listQueries_answered_iff (sampleDriver [2, 0]) (sampleQuery 72) (fun _ => false) 0 (by decide)
    rfl (by decide) rfl).2 rfl rfl 0 (by decide)).2 (by decide)

end Samples

end LcxlNetLoader
