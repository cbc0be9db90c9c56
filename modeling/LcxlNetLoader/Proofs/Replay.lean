import LcxlNetLoader.Replay
import LcxlNetLoader.Proofs.ConfigFile
import LcxlNetLoader.Proofs.Lifecycle
import LcxlNetLoader.Proofs.Requests

/-!
# What the driver has after a replay

A record is taken apart by the driver as it was put together. With its list unlocked a request
changes just the module it finds, and each of the six puts what it carries there; a server not yet
linked is linked last. So the module ends up with the configuration but for the route timeout, which
no request carries and which is still that of `InitModuleSetting`.
-/

namespace LcxlNetLoader

/-! ## Records -/

section Records

@[simp] theorem length_leBytes : ∀ n v, (leBytes n v).length = n
  | 0, _ => rfl
  | n + 1, v => by rw [leBytes, List.length_cons, length_leBytes n]

theorem leNat_leBytes : ∀ n v, v < 256 ^ n → leNat (leBytes n v) = v
  | 0, v, h => by
    simp only [pow_zero, Nat.lt_one_iff] at h
    rw [h]
    rfl
  | n + 1, v, h => by
    have h' : v / 256 < 256 ^ n := by
      rw [Nat.div_lt_iff_lt_mul (by norm_num), ← pow_succ]
      exact h
    rw [leBytes, leNat, leNat_leBytes n _ h', UInt8.toNat_ofNat']
    omega

@[simp] theorem length_luidBytes (miniportNetLuid : UInt64) :
    (luidBytes miniportNetLuid).length = 8 := length_leBytes 8 _

@[simp] theorem length_intBytes (n : Int32) : (intBytes n).length = 4 := length_leBytes 4 _

theorem LcxlAddrInfo.length_bytes (a : LcxlAddrInfo) : a.bytes.length = 28 := by
  simp [LcxlAddrInfo.bytes]

theorem LcxlServer.length_bytes (s : LcxlServer) : s.bytes.length = 36 := by
  simp [LcxlServer.bytes, IfPhysicalAddress.bytes]

theorem ConfigServerCheck.length_bytes (c : ConfigServerCheck) : c.bytes.length = 12 := by
  simp [ConfigServerCheck.bytes]

section

variable {irp : Irp} {off : ℕ}

theorem int_of_bytes {n : Int32} (h : irp.bytes off 4 = intBytes n) : irp.int off = n.toInt := by
  have hlt : n.toUInt32.toNat < 256 ^ 4 := n.toUInt32.toNat_lt
  rw [Irp.int, h, intBytes, leNat_leBytes 4 _ hlt]
  simp

theorem field_of_bytes {n : ℕ} {v : Bytes n} (h : irp.bytes off n = v.toList) :
    irp.field off n = v := Subtype.ext h

theorem byte_of_bytes {b : UInt8} (h : irp.bytes off 1 = [b]) : irp.systemBuffer off = b := by
  simpa [Irp.bytes] using h

end

/-- What the driver reads is what has been put there, in front of and behind what else there is. -/
theorem bytes_of_eq {bs : List UInt8} {code : UInt32} {out off n : ℕ} (pre mid post : List UInt8)
    (h : bs = pre ++ mid ++ post) (hoff : pre.length = off) (hn : mid.length = n) :
    (lnlDeviceIoControl code bs out).bytes off n = mid := by
  subst h hoff hn
  refine List.ext_getElem (by simp [Irp.bytes]) fun i h1 h2 => ?_
  simp only [Irp.bytes, lnlDeviceIoControl, List.getElem_map, List.getElem_range]
  rw [List.getD_eq_getElem?_getD, List.append_assoc, List.getElem?_append_right (by omega),
    List.getElem?_append_left (by omega), Nat.add_sub_cancel_left, List.getElem?_eq_getElem h2]
  rfl

variable (l : UInt64)

@[simp] theorem miniportNetLuid_lnlDeviceIoControl (code : UInt32) (bs : List UInt8) (out : ℕ) :
    (lnlDeviceIoControl code (luidBytes l ++ bs) out).miniportNetLuid = l := by
  have h : (lnlDeviceIoControl code (luidBytes l ++ bs) out).bytes 0 8 = luidBytes l :=
    bytes_of_eq [] (luidBytes l) bs rfl rfl (length_luidBytes l)
  rw [Irp.miniportNetLuid, h, luidBytes, leNat_leBytes 8 _ l.toNat_lt]
  simp

theorem length_lnlDeviceIoControl (code : UInt32) (bs : List UInt8) (out : ℕ) :
    (lnlDeviceIoControl code (luidBytes l ++ bs) out).inputBufferLength = 8 + bs.length := by
  simp [lnlDeviceIoControl]

@[simp] theorem int_lnlSetLcxlRole (n : Int32) : (lnlSetLcxlRole l n).int 8 = n.toInt :=
  int_of_bytes (bytes_of_eq (luidBytes l) (intBytes n) [] (by simp) (by simp) (by simp))

@[simp] theorem int_lnlSetRoutingAlgorithm (n : Int32) :
    (lnlSetRoutingAlgorithm l n).int 8 = n.toInt :=
  int_of_bytes (bytes_of_eq (luidBytes l) (intBytes n) [] (by simp) (by simp) (by simp))

@[simp] theorem lcxlServerCheck_lnlSetServerCheck (c : ConfigServerCheck) :
    (lnlSetServerCheck l c).lcxlServerCheck = c.toServerCheck := by
  have h1 : (lnlSetServerCheck l c).int 8 = c.interval.toInt :=
    int_of_bytes (bytes_of_eq (luidBytes l) (intBytes c.interval)
      (intBytes c.timeout ++ intBytes c.retryNumber) (by simp [ConfigServerCheck.bytes])
      (by simp) (by simp))
  have h2 : (lnlSetServerCheck l c).int 12 = c.timeout.toInt :=
    int_of_bytes (bytes_of_eq (luidBytes l ++ intBytes c.interval) (intBytes c.timeout)
      (intBytes c.retryNumber) (by simp [ConfigServerCheck.bytes]) (by simp) (by simp))
  have h3 : (lnlSetServerCheck l c).int 16 = c.retryNumber.toInt :=
    int_of_bytes (bytes_of_eq (luidBytes l ++ intBytes c.interval ++ intBytes c.timeout)
      (intBytes c.retryNumber) [] (by simp [ConfigServerCheck.bytes]) (by simp) (by simp))
  rw [Irp.lcxlServerCheck, h1, h2, h3]
  rfl

@[simp] theorem lcxlAddrInfo_lnlSetVirtualAddr (a : LcxlAddrInfo) :
    (lnlSetVirtualAddr l a).lcxlAddrInfo = a := by
  have h4 : a.ipv4.toList.length = 4 := a.ipv4.toList_length
  have h6 : a.ipv6.toList.length = 16 := a.ipv6.toList_length
  have hstatus : (lnlSetVirtualAddr l a).systemBuffer 8 = a.status :=
    byte_of_bytes (bytes_of_eq (luidBytes l) [a.status] ([0, 0, 0] ++ a.ipv4.toList
      ++ [a.ipv4OnlinkPrefixLength, 0] ++ a.ipv6.toList ++ [a.ipv6OnlinkPrefixLength, 0])
      (by simp [LcxlAddrInfo.bytes]) (by simp) rfl)
  have hipv4 : (lnlSetVirtualAddr l a).field 12 4 = a.ipv4 :=
    field_of_bytes (bytes_of_eq (luidBytes l ++ [a.status, 0, 0, 0]) a.ipv4.toList
      ([a.ipv4OnlinkPrefixLength, 0] ++ a.ipv6.toList ++ [a.ipv6OnlinkPrefixLength, 0])
      (by simp [LcxlAddrInfo.bytes]) (by simp) h4)
  have hprefix4 : (lnlSetVirtualAddr l a).systemBuffer 16 = a.ipv4OnlinkPrefixLength :=
    byte_of_bytes (bytes_of_eq (luidBytes l ++ [a.status, 0, 0, 0] ++ a.ipv4.toList)
      [a.ipv4OnlinkPrefixLength] ([0] ++ a.ipv6.toList ++ [a.ipv6OnlinkPrefixLength, 0])
      (by simp [LcxlAddrInfo.bytes]) (by simp [h4]) rfl)
  have hipv6 : (lnlSetVirtualAddr l a).field 18 16 = a.ipv6 :=
    field_of_bytes (bytes_of_eq (luidBytes l ++ [a.status, 0, 0, 0] ++ a.ipv4.toList
      ++ [a.ipv4OnlinkPrefixLength, 0]) a.ipv6.toList [a.ipv6OnlinkPrefixLength, 0]
      (by simp [LcxlAddrInfo.bytes]) (by simp [h4]) h6)
  have hprefix6 : (lnlSetVirtualAddr l a).systemBuffer 34 = a.ipv6OnlinkPrefixLength :=
    byte_of_bytes (bytes_of_eq (luidBytes l ++ [a.status, 0, 0, 0] ++ a.ipv4.toList
      ++ [a.ipv4OnlinkPrefixLength, 0] ++ a.ipv6.toList) [a.ipv6OnlinkPrefixLength] [0]
      (by simp [LcxlAddrInfo.bytes]) (by simp [h4, h6]) rfl)
  rw [Irp.lcxlAddrInfo, hstatus, hipv4, hprefix4, hipv6, hprefix6]

theorem lcxlServer_lnlAddServer {s : LcxlServer} (h : s.macAddr.length < 256 ^ 2) :
    (lnlAddServer l s).lcxlServer = s := by
  have h32 : s.macAddr.address.toList.length = 32 := s.macAddr.address.toList_length
  have hstatus : (lnlAddServer l s).systemBuffer 8 = s.status :=
    byte_of_bytes (bytes_of_eq (luidBytes l) [s.status] ([s.ipStatus] ++ s.macAddr.bytes)
      (by simp [LcxlServer.bytes]) (by simp) rfl)
  have hipStatus : (lnlAddServer l s).systemBuffer 9 = s.ipStatus :=
    byte_of_bytes (bytes_of_eq (luidBytes l ++ [s.status]) [s.ipStatus] s.macAddr.bytes
      (by simp [LcxlServer.bytes]) (by simp) rfl)
  have hlength : (lnlAddServer l s).bytes 10 2 = leBytes 2 s.macAddr.length :=
    bytes_of_eq (luidBytes l ++ [s.status, s.ipStatus]) (leBytes 2 s.macAddr.length)
      s.macAddr.address.toList (by simp [LcxlServer.bytes, IfPhysicalAddress.bytes])
      (by simp) (by simp)
  have haddress : (lnlAddServer l s).field 12 32 = s.macAddr.address :=
    field_of_bytes (bytes_of_eq (luidBytes l ++ [s.status, s.ipStatus]
      ++ leBytes 2 s.macAddr.length) s.macAddr.address.toList []
      (by simp [LcxlServer.bytes, IfPhysicalAddress.bytes]) (by simp) h32)
  rw [Irp.lcxlServer, hstatus, hipStatus, Irp.ifPhysicalAddress, hlength, haddress,
    leNat_leBytes 2 _ h]

end Records

/-! ## Requests -/

namespace Driver

variable (past : ServerPtr → Bool) (n : ℤ) {d : Driver} {p : FilterPtr} {l : UInt64}

/-- Requests about `l` find the module at `p`, and nobody holds `g_filter_list`. -/
structure Finds (d : Driver) (l : UInt64) (p : FilterPtr) : Prop where
  found : findFilter d l = some p
  unlocked : d.gFilterList.lockCount = 0
  settled : d.gFilterList.toBeAddList = [] ∧ d.gFilterList.toBeDelList = []

@[simp] theorem setFilter_filter (f : LcxlFilter) : (d.setFilter p f).filter p = f :=
  Function.update_self ..

theorem setFilter_eq_self (d : Driver) (p : FilterPtr) : d.setFilter p (d.filter p) = d := by
  simp [setFilter]

@[simp] theorem setFilter_setFilter (f f' : LcxlFilter) :
    (d.setFilter p f).setFilter p f' = d.setFilter p f' := by
  simp [setFilter]

/-- Which module a LUID finds does not change where the modules keep their LUIDs. -/
theorem findFilter_setFilter {f : LcxlFilter} (l : UInt64)
    (hf : f.module.miniportNetLuid = (d.filter p).module.miniportNetLuid) :
    findFilter (d.setFilter p f) l = findFilter d l := by
  refine congrArg (getLcxlListHead d.gFilterList).find? (funext fun q => ?_)
  by_cases hq : q = p
  · subst hq
    simp [hf]
  · have : (d.setFilter p f).filter q = d.filter q := Function.update_of_ne hq _ _
    rw [this]

/-- The module changes, and keeps its LUID. -/
theorem Finds.setFilter (h : d.Finds l p) {f : LcxlFilter}
    (hf : f.module.miniportNetLuid = (d.filter p).module.miniportNetLuid) :
    (d.setFilter p f).Finds l p :=
  ⟨(findFilter_setFilter l hf).trans h.found, h.unlocked, h.settled⟩

theorem Finds.unlock_lock (h : d.Finds l p) (f : LcxlFilter) :
    (d.lock.setFilter p f).unlock = d.setFilter p f := by
  have := LcxlList.unlock_lock h.unlocked h.settled.1 h.settled.2
  simp only [Driver.unlock, Driver.lock, Driver.setFilter, this]

/-- A request of the right size changes just the module it finds. -/
theorem Finds.request (h : d.Finds l p) {irp : Irp} {size : ℕ} {otherwise missing : NtStatus}
    {found : LcxlFilter → LcxlFilter × Reply} (hl : irp.miniportNetLuid = l)
    (hs : irp.inputBufferLength = size) :
    (ofSize d irp size otherwise <| withFilter d irp missing found).1 =
      d.setFilter p (found (d.filter p)).1 := by
  subst hl
  rw [ofSize, if_pos hs, Tells.withFilter_some h.found]
  exact h.unlock_lock _

theorem Finds.setVirtualAddr (h : d.Finds l p) (addr : LcxlAddrInfo) :
    (filterDeviceIoControl past n d (lnlSetVirtualAddr l addr)).1 = d.setFilter p
      { d.filter p with module := { (d.filter p).module with virtualAddr := addr } } := by
  rw [filterDeviceIoControl_eq_handle (r := .setVirtualAddr) rfl rfl]
  refine (h.request (miniportNetLuid_lnlDeviceIoControl ..) ?_).trans ?_
  · exact (length_lnlDeviceIoControl ..).trans (congrArg (8 + ·) addr.length_bytes)
  · rw [lcxlAddrInfo_lnlSetVirtualAddr]

/-- Only the role of a module that has one is refused. -/
theorem Finds.setRole (h : d.Finds l p) (h0 : (d.filter p).module.lcxlRole = roleUnknown)
    (lcxlRole : Int32) :
    (filterDeviceIoControl past n d (lnlSetLcxlRole l lcxlRole)).1 = d.setFilter p
      { d.filter p with module := { (d.filter p).module with lcxlRole := lcxlRole.toInt } } := by
  rw [filterDeviceIoControl_eq_handle (r := .setRole) rfl rfl]
  refine (h.request (miniportNetLuid_lnlDeviceIoControl ..) ?_).trans (congrArg _ ?_)
  · exact (length_lnlDeviceIoControl ..).trans (congrArg (8 + ·) (length_intBytes _))
  · rw [int_lnlSetLcxlRole]
    simp only
    split_ifs with h1 h2
    · exact absurd h0 h2.2
    · rfl
    · rw [not_not.1 h1]

theorem Finds.setServerCheck (h : d.Finds l p) (c : ConfigServerCheck) :
    (filterDeviceIoControl past n d (lnlSetServerCheck l c)).1 = d.setFilter p { d.filter p with
      module := { (d.filter p).module with serverCheck := c.toServerCheck } } := by
  rw [filterDeviceIoControl_eq_handle (r := .setServerCheck) rfl rfl]
  refine (h.request (miniportNetLuid_lnlDeviceIoControl ..) ?_).trans ?_
  · exact (length_lnlDeviceIoControl ..).trans (congrArg (8 + ·) c.length_bytes)
  · rw [lcxlServerCheck_lnlSetServerCheck]

theorem Finds.setRoutingAlgorithm (h : d.Finds l p) (routingAlgorithm : Int32) :
    (filterDeviceIoControl past n d (lnlSetRoutingAlgorithm l routingAlgorithm)).1 = d.setFilter p
      { d.filter p with
        module := { (d.filter p).module with routingAlgorithm := routingAlgorithm.toInt } } := by
  rw [filterDeviceIoControl_eq_handle (r := .setRoutingAlgorithm) rfl rfl]
  refine (h.request (miniportNetLuid_lnlDeviceIoControl ..) ?_).trans ?_
  · exact (length_lnlDeviceIoControl ..).trans (congrArg (8 + ·) (length_intBytes _))
  · rw [int_lnlSetRoutingAlgorithm]

theorem Finds.addServer (h : d.Finds l p) {server : LcxlServer}
    (hs : server.macAddr.length < 256 ^ 2) :
    (filterDeviceIoControl past n d (lnlAddServer l server)).1 = d.setFilter p
      ((d.filter p).setServers
        (routerAddServer past n (d.filter p).module.serverList server)) := by
  rw [filterDeviceIoControl_eq_handle (r := .addServer) rfl rfl]
  refine (h.request (miniportNetLuid_lnlDeviceIoControl ..) ?_).trans ?_
  · exact (length_lnlDeviceIoControl ..).trans (congrArg (8 + ·) server.length_bytes)
  · rw [lcxlServer_lnlAddServer l hs]

end Driver

/-! ## Servers -/

/-- Nobody holds the list, and it has servers with just this data in this order. -/
structure ServerTable.Holds (t : ServerTable) (servers : List LcxlServer) : Prop where
  unlocked : t.lst.lockCount = 0
  settled : t.lst.toBeAddList = [] ∧ t.lst.toBeDelList = []
  infos : t.lst.list.map (fun q => (t.mem q).info) = servers
  count : t.lst.listCount = servers.length
  fresh : ∀ q ∈ t.lst.list, q < t.next

namespace ServerTable.Holds

variable {past : ServerPtr → Bool} {now : ℤ} {t : ServerTable} {servers : List LcxlServer}
  {server : LcxlServer}

/-- None of the servers has the address asked for. -/
theorem findServer_eq_none (h : t.Holds servers) (hs : server.macAddr.length = 6)
    (hd : ∀ s ∈ servers, s.macAddr.mac ≠ server.macAddr.mac) :
    findServer past t server.macAddr = none := by
  refine List.find?_eq_none.2 fun q hq => ?_
  have hq' : (t.mem q).info ∈ servers := h.infos ▸ List.mem_map_of_mem hq
  have hne : (t.mem q).info.macAddr.address.toList.take 6 ≠ server.macAddr.address.toList.take 6 :=
    hd _ hq'
  simp [rtlEqualMemory, hs, hne]

/-- A server not found is linked last. -/
theorem add (h : t.Holds servers) (hf : findServer past t server.macAddr = none) :
    (routerAddServer past now t server).Holds (servers ++ [server]) := by
  have hlock : (addEntrytoLcxlList (lockLcxlList t.lst) t.next).lockCount = 1 := by
    simp [h.unlocked]
  have hlst : unlockLcxlList (addEntrytoLcxlList (lockLcxlList t.lst) t.next) =
      { t.lst with list := t.lst.list ++ [t.next], listCount := t.lst.listCount + 1 } := by
    have hpos : 0 < (lockLcxlList t.lst).lockCount := by simp [h.unlocked]
    rw [unlockLcxlList_of_last hlock, applyToBe_eq, addEntrytoLcxlList, if_pos hpos]
    simp [lockLcxlList, h.settled, h.unlocked]
  rw [routerAddServer_of_none hf, unlockServerList]
  simp only [hlst]
  refine ⟨h.unlocked, h.settled, ?_, ?_, fun q hq => ?_⟩
  · have hold : t.lst.list.map (fun q => (Function.update t.mem t.next
        { allocServer now with info := server } q).info) = servers := by
      rw [← h.infos]
      refine List.map_congr_left fun q hq => ?_
      rw [Function.update_of_ne (Nat.ne_of_lt (h.fresh q hq))]
    simp [hold]
  · simp [h.count]
  · rcases List.mem_append.1 hq with hq | hq
    · exact Nat.lt_succ_of_lt (h.fresh q hq)
    · rw [List.mem_singleton.1 hq]
      exact Nat.lt_succ_self _

end ServerTable.Holds

/-- Six bytes of the addresses are all there is to them. -/
theorem ConfigModule.DistinctServers.nodup_take {module : ConfigModule}
    (h : module.DistinctServers) :
    ((([] : List LcxlServer) ++ module.servers).map (·.macAddr.mac)).Nodup := by
  have heq : module.servers.map (·.macAddr.mac) = module.servers.map (·.macAddr.value) := by
    refine List.map_congr_left fun s hs => ?_
    rw [IfPhysicalAddress.value, h.length s hs]
    rfl
  rw [List.nil_append, heq]
  exact h.nodup

namespace Driver

variable (past : ServerPtr → Bool) {d : Driver} {p : FilterPtr} {l : UInt64}

theorem serve_append : ∀ (irps irps' : List Irp) (now : ℕ → ℤ) (d : Driver),
    serve past now (irps ++ irps') d =
      serve past (fun n => now (n + irps.length)) irps' (serve past now irps d)
  | [], _, _, _ => rfl
  | irp :: irps, irps', now, d => by
    rw [List.cons_append, serve, serve_append irps irps']
    simp only [serve, List.length_cons, Nat.add_assoc]

/-- The servers of a configuration, of which no address is another's, are all linked. -/
theorem Finds.addServers : ∀ (servers : List LcxlServer) {done : List LcxlServer} (now : ℕ → ℤ)
    {d : Driver}, d.Finds l p → (d.filter p).module.serverList.Holds done →
    (∀ s ∈ servers, s.macAddr.length = 6) →
    ((done ++ servers).map (·.macAddr.mac)).Nodup →
    ∃ t, t.Holds (done ++ servers) ∧ serve past now (servers.map (lnlAddServer l)) d =
      d.setFilter p ((d.filter p).setServers t)
  | [], done, _, d, _, ht, _, _ => by
    refine ⟨_, by rwa [List.append_nil], ?_⟩
    exact (setFilter_eq_self d p).symm
  | s :: servers, done, now, d, h, ht, hlen, hnd => by
    have hs := hlen s List.mem_cons_self
    have hf : findServer past (d.filter p).module.serverList s.macAddr = none := by
      refine ht.findServer_eq_none hs fun s' hs' heq => ?_
      rw [List.map_append, List.map_cons] at hnd
      exact (List.nodup_append.1 hnd).2.2 _ (List.mem_map_of_mem hs') _ List.mem_cons_self heq
    have hadd := h.addServer past (now 0) (show s.macAddr.length < 256 ^ 2 by omega)
    set f := (d.filter p).setServers
      (routerAddServer past (now 0) (d.filter p).module.serverList s) with hfdef
    have h' : (d.setFilter p f).Finds l p := h.setFilter rfl
    have ht' : ((d.setFilter p f).filter p).module.serverList.Holds (done ++ [s]) := by
      rw [setFilter_filter]
      exact ht.add hf
    have hnd' : ((done ++ [s] ++ servers).map (·.macAddr.mac)).Nodup := by
      rwa [List.append_assoc]
    obtain ⟨t, htt, heq⟩ := Finds.addServers servers (fun n => now (n + 1)) h' ht'
      (fun s' hs' => hlen s' (List.mem_cons_of_mem s hs')) hnd'
    refine ⟨t, by rwa [List.append_assoc] at htt, ?_⟩
    rw [List.map_cons, serve, hadd, heq, setFilter_filter, setFilter_setFilter]
    rfl

/-- What a replay leaves. -/
theorem JustAttached.replayed (now : ℕ → ℤ) {module : ConfigModule} (h : d.JustAttached p module)
    (hr : module.module.lcxlRole.toInt = roleRouter) (hd : module.DistinctServers) :
    ∃ f t, d.serve past now (setModuleInfo module) = d.setFilter p f ∧ t.Holds module.servers ∧
      f.module =
        { (d.filter p).module with
          virtualAddr := module.module.virtualAddr
          lcxlRole := module.module.lcxlRole.toInt
          serverList := t
          serverCheck := module.module.serverCheck.toServerCheck
          routingAlgorithm := module.module.routingAlgorithm.toInt } := by
  obtain ⟨memory, parameters, hset⟩ := h.setting
  have h0 : d.Finds module.module.miniportNetLuid p := ⟨h.found, h.unlocked, h.settled⟩
  set f := d.filter p with hf
  -- The virtual address and the role.
  have h1 := h0.setVirtualAddr past (now 0) module.module.virtualAddr
  set f1 := { f with module := { f.module with virtualAddr := module.module.virtualAddr } } with hf1
  have hrole : ((d.setFilter p f1).filter p).module.lcxlRole = roleUnknown := by
    rw [setFilter_filter, hf1]
    simp only [hset]
    rfl
  have h2 := (h0.setFilter (f := f1) rfl).setRole past (now 1) hrole module.module.lcxlRole
  rw [setFilter_filter, setFilter_setFilter] at h2
  set f2 := { f1 with module := { f1.module with lcxlRole := module.module.lcxlRole.toInt } }
    with hf2
  -- The servers.
  have hempty : ((d.setFilter p f2).filter p).module.serverList.Holds [] := by
    rw [setFilter_filter]
    simp only [hf2, hf1, hset]
    exact ⟨rfl, ⟨rfl, rfl⟩, rfl, rfl, fun q hq => by cases hq⟩
  obtain ⟨t, ht, h3⟩ := (h0.setFilter (f := f2) rfl).addServers past
    module.servers (fun n => now (n + 2)) hempty
    hd.length hd.nodup_take
  rw [setFilter_filter, setFilter_setFilter] at h3
  -- The check and the algorithm.
  have h4 := fun n => (h0.setFilter (f := f2.setServers t) rfl).setServerCheck past n
    module.module.serverCheck
  simp only [setFilter_filter, setFilter_setFilter] at h4
  set f4 := { f2.setServers t with
    module := { (f2.setServers t).module with
      serverCheck := module.module.serverCheck.toServerCheck } } with hf4
  have h5 := fun n => (h0.setFilter (f := f4) rfl).setRoutingAlgorithm past n
    module.module.routingAlgorithm
  simp only [setFilter_filter, setFilter_setFilter] at h5
  have hinfo : setModuleInfo module =
      lnlSetVirtualAddr module.module.miniportNetLuid module.module.virtualAddr
        :: lnlSetLcxlRole module.module.miniportNetLuid module.module.lcxlRole
        :: (module.servers.map (lnlAddServer module.module.miniportNetLuid)
          ++ [lnlSetServerCheck module.module.miniportNetLuid module.module.serverCheck,
            lnlSetRoutingAlgorithm module.module.miniportNetLuid
              module.module.routingAlgorithm]) := by
    simp only [setModuleInfo, if_pos hr]
    rfl
  rw [hinfo, serve, h1, serve, h2, serve_append, h3]
  simp only [serve, h4, h5]
  exact ⟨_, t, rfl, ht, rfl⟩

end Driver

theorem appModule_miniportNetLuid (f : LcxlFilter) (serverCount : ℤ) :
    (appModule f serverCount).miniportNetLuid = f.module.miniportNetLuid := rfl

/-- The first record of a LUID is of the module that requests about it find. -/
theorem moduleListLoop_find {l : UInt64} {p : FilterPtr} : ∀ (ps : List FilterPtr) (d : Driver),
    ps.find? (fun q => (d.filter q).module.miniportNetLuid == l) = some p →
    (moduleListLoop ps d).2.find? (·.miniportNetLuid == l) =
      some (appModule (d.filter p) (getLcxlListCount (d.filter p).module.serverList.lst))
  | [], _, h => by cases h
  | q :: ps, d, h => by
    set f := (d.filter q).setServers (unlockServerList
      (lockServerList (d.filter q).module.serverList)) with hf
    have hloop : (moduleListLoop (q :: ps) d).2 = appModule (d.filter q)
        (getLcxlListCount (d.filter q).module.serverList.lst) ::
        (moduleListLoop ps (d.setFilter q f)).2 := rfl
    rw [hloop, List.find?_cons]
    rw [List.find?_cons] at h
    cases hq : (d.filter q).module.miniportNetLuid == l with
    | true =>
      rw [hq] at h
      cases h
      rw [appModule_miniportNetLuid, hq]
    | false =>
      rw [hq] at h
      have hne : p ≠ q := by
        rintro rfl
        have := List.find?_some h
        simp only [hq] at this
        cases this
      have hp : (d.setFilter q f).filter p = d.filter p := Function.update_of_ne hne _ _
      have hluid : ∀ q', ((d.setFilter q f).filter q').module.miniportNetLuid =
          (d.filter q').module.miniportNetLuid := by
        intro q'
        by_cases hq' : q' = q
        · subst hq'
          rw [Driver.setFilter_filter]
          rfl
        · rw [show (d.setFilter q f).filter q' = d.filter q' from Function.update_of_ne hq' _ _]
      have hrest := moduleListLoop_find ps (d.setFilter q f) (by simpa only [hluid] using h)
      rw [appModule_miniportNetLuid, hq]
      rw [hp] at hrest
      exact hrest

namespace Driver

variable {past : ServerPtr → Bool} {now : ℤ} {d : Driver} {p : FilterPtr} {l : UInt64}

/-- A module list that there is room for reports the module that requests about a LUID find. -/
theorem Finds.getModuleList (h : d.Finds l p) (n : ℕ)
    (hok : (filterDeviceIoControl past now d (lnlGetModuleList n)).2.status = .success) :
    ∃ buffer, (filterDeviceIoControl past now d (lnlGetModuleList n)).2.output = .modules buffer ∧
      buffer.find? (·.miniportNetLuid == l) =
        some (appModule (d.filter p) (d.filter p).module.serverList.lst.listCount) := by
  have hget : filterDeviceIoControl past now d (lnlGetModuleList n) =
      LcxlNetLoader.getModuleList d (lnlGetModuleList n) := rfl
  rw [hget, LcxlNetLoader.getModuleList] at hok ⊢
  simp only at hok ⊢
  split_ifs at hok ⊢ with hroom
  · exact ⟨_, rfl, moduleListLoop_find _ d.lock h.found⟩
  · cases hok

end Driver

/-- A replay reproduces the configuration exactly if its route timeout is the one that modules are
attached with. -/
theorem replay_reproduces_iff (past : ServerPtr → Bool) (now : ℕ → ℤ) (later : ℤ) (d : Driver)
    (p : FilterPtr) (module : ConfigModule) (n : ℕ) (h : d.JustAttached p module)
    (hr : module.module.lcxlRole.toInt = roleRouter) (hd : module.DistinctServers)
    (hok : (filterDeviceIoControl past later (d.serve past now (setModuleInfo module))
      (lnlGetModuleList n)).2.status = .success) :
    module.Reproduced (d.serve past now (setModuleInfo module)) p
        (filterDeviceIoControl past later (d.serve past now (setModuleInfo module))
          (lnlGetModuleList n)).2 ↔
      module.module.routeTimeout.toInt = 1800 := by
  obtain ⟨f, t, heq, ht, hf⟩ := h.replayed past now hr hd
  obtain ⟨memory, parameters, hset⟩ := h.setting
  have h0 : d.Finds module.module.miniportNetLuid p := ⟨h.found, h.unlocked, h.settled⟩
  have hluid : f.module.miniportNetLuid = (d.filter p).module.miniportNetLuid := by rw [hf]
  have htimeout : f.module.routeTimeout = 1800 := by
    rw [hf]
    simp only [hset]
    rfl
  rw [heq] at hok ⊢
  obtain ⟨buffer, hout, hfind⟩ := (h0.setFilter hluid).getModuleList n hok
  rw [Driver.setFilter_filter] at hfind
  refine ⟨fun hrep => ?_, fun ht1800 => ⟨⟨buffer, _, hout, hfind, ?_⟩, ?_⟩⟩
  · obtain ⟨buffer', m, hout', hfind', hm⟩ := hrep.reported
    rw [hout] at hout'
    cases hout'
    rw [hfind] at hfind'
    cases hfind'
    rw [← hm.routeTimeout]
    exact htimeout
  · refine ⟨?_, ?_, htimeout.trans ht1800.symm, ?_, ?_, ?_⟩ <;> simp only [appModule, hf]
    exact ht.count
  · rw [Driver.setFilter_filter, hf]
    exact ht.infos

section Runs

/-- The first module is attached. -/
def justAttached : Driver :=
  filterAttach (Driver.start fun _ => Sample.router) 0 1 Driver.ethernet true

/-- The configuration of a router with one server, whose routes time out after so many seconds. -/
def timingOut (routeTimeout : Int32) : ConfigModule :=
  { routerWith [storedWith 6] with
    module :=
      { (routerWith []).module with
        miniportNetLuid := 1
        routeTimeout := routeTimeout } }

theorem justAttached_timingOut (routeTimeout : Int32) :
    justAttached.JustAttached 0 (timingOut routeTimeout) :=
  ⟨rfl, ⟨_, _, rfl⟩, rfl, rfl, rfl⟩

/-- The driver after the replay, and its answer to a caller with room for a module. -/
def replayed (routeTimeout : Int32) : Driver × Reply :=
  let d := justAttached.serve (fun _ => false) (fun _ => 0) (setModuleInfo (timingOut routeTimeout))
  (d, (filterDeviceIoControl (fun _ => false) 0 d (lnlGetModuleList 1)).2)

/-- Half an hour is reproduced. -/
theorem replay_reproduces_iff_default :
    (timingOut 1800).Reproduced (replayed 1800).1 0 (replayed 1800).2 := by
  refine (replay_reproduces_iff (fun _ => false) (fun _ => 0) 0 justAttached 0 (timingOut 1800) 1
    (justAttached_timingOut 1800) (by decide) ⟨by decide, by decide⟩ (by decide +kernel)).2 ?_
  decide

/-- Five minutes are not. -/
theorem not_reproduced_of_timeout :
    ¬ (timingOut 300).Reproduced (replayed 300).1 0 (replayed 300).2 := by
  rintro ⟨⟨buffer, m, hout, hfind, hm⟩, -⟩
  have htimeouts : (match (replayed 300).2.output with
      | .modules buffer => buffer.map (·.routeTimeout)
      | _ => []) = [1800] := by decide +kernel
  rw [hout] at htimeouts
  simp only at htimeouts
  have hmem : m.routeTimeout ∈ buffer.map (·.routeTimeout) :=
    List.mem_map_of_mem (List.mem_of_find?_eq_some hfind)
  rw [htimeouts, List.mem_singleton, hm.routeTimeout] at hmem
  exact absurd hmem (by decide)

end Runs

end LcxlNetLoader
