import LcxlNetLoader.Health
import LcxlNetLoader.Proofs.Frames

/-!
# What a received frame does

A received frame either routes the virtual address's TCP packet it is (`vipPacket`), or tells a
router that a server is up (`checkingSource`), or leaves the module as it is.
-/

namespace LcxlNetLoader

namespace ServerTable

variable {t : ServerTable} {p q : ServerPtr} {g g' : ServerInfoListEntry → ServerInfoListEntry}

@[simp] theorem modify_lst : (t.modify p g).lst = t.lst := rfl

@[simp] theorem modify_mem_same : (t.modify p g).mem p = g (t.mem p) := by
  simp [modify]

theorem modify_mem_of_ne (h : q ≠ p) : (t.modify p g).mem q = t.mem q := by
  simp [modify, h]

theorem modify_mem : (t.modify p g).mem q = if q = p then g (t.mem q) else t.mem q := by
  split_ifs with h
  · rw [h, modify_mem_same]
  · exact modify_mem_of_ne h

theorem modify_modify : (t.modify p g).modify p g' = t.modify p (g' ∘ g) := by
  simp [modify]

end ServerTable

/-- A server after a checking frame from it received at time `now`. -/
structure Responded (now : ℤ) (s s' : ServerInfoListEntry) : Prop where
  refCount : s'.refCount = s.refCount
  timestamp : s'.timestamp = now
  currentRetryNumber : s'.currentRetryNumber = s.currentRetryNumber
  info : s'.info = { s.info with status := (s.info.status ||| ssOnline) &&& ~~~ssChecking }

/-- The servers after a checking frame from `mac`. -/
def RespondedTable (mac : List UInt8) (now : ℤ) (t t' : ServerTable) : Prop :=
  match findServer (fun _ => false) (lockServerList t) ⟨6, (Bytes.zero 32).move mac⟩ with
  | none => t' = unlockServerList (lockServerList t)
  | some p => ∃ g, (∀ s, Responded now s (g s)) ∧
    t' = unlockServerList ((lockServerList t).modify p g)

theorem updatePerformance_val (t : ServerTable) (p : ServerPtr) (mem : ℕ → UInt8) :
    ∃ perf : LcxlServerPerformance → LcxlServerPerformance, (updatePerformance t p).val mem
      = t.modify p fun s => { s with performance := perf s.performance } := by
  simp only [updatePerformance, ReadLog.val_bind, ReadLog.val_ite, ReadLog.val_pure]
  split_ifs
  · exact ⟨fun x => x.move _, rfl⟩
  · refine ⟨id, ?_⟩
    simp [ServerTable.modify]

variable {cfg : LcxlSetting} {f : LcxlFilter} {fr : Frame} {amb : Ambient}

theorem processCheckingNBL_val (fr : Frame) (amb : Ambient) (result : ProcessNblResult)
    (hr : f.module.lcxlRole = roleRouter) :
    ∃ t code, (code = result.code ∨ code = .checkingNbl)
      ∧ (processCheckingNBL f true amb result).val fr.byte
        = (f.setServers t, { result with code := code })
      ∧ RespondedTable (fr.slice 6 6) amb.now f.module.serverList t := by
  obtain ⟨code, hcode, hres⟩ : ∃ code, (code = result.code ∨ code = .checkingNbl) ∧
      (if (readU16 16).val fr.byte = checkingCodeRequest then
        { result with code := .checkingNbl } else result) = { result with code := code } := by
    split_ifs
    · exact ⟨_, .inr rfl, rfl⟩
    · exact ⟨_, .inl rfl, rfl⟩
  unfold processCheckingNBL serverResponded RespondedTable
  rw [if_pos rfl, ReadLog.val_bind, ReadLog.val_ite, if_pos hr, ReadLog.val_bind, range_eq_slice,
    hres]
  simp only []
  rcases findServer (fun _ => false) (lockServerList f.module.serverList)
    ⟨6, (Bytes.zero 32).move (fr.slice 6 6)⟩ with _ | p
  · exact ⟨_, code, hcode, rfl, rfl⟩
  · obtain ⟨perf, hperf⟩ := updatePerformance_val ((lockServerList f.module.serverList).modify p
      fun s => { s with
        timestamp := amb.now
        info := { s.info with status := (s.info.status ||| ssOnline) &&& ~~~ssChecking } })
      p fr.byte
    rw [ServerTable.modify_modify] at hperf
    refine ⟨_, code, hcode, rfl, _, ?_, congrArg unlockServerList hperf⟩
    exact fun s => ⟨rfl, rfl, rfl, rfl⟩

theorem ipModeOf_eq_some {ty : UInt16} {m : IpMode} {protocol size : ℕ} :
    ipModeOf ty = some (m, protocol, size) ↔
      ty = ethernetTypeIpv4 ∧ m = .ipv4 ∧ protocol = 9 ∧ size = sizeofIpv4Header
        ∨ ty = ethernetTypeIpv6 ∧ m = .ipv6 ∧ protocol = 6 ∧ size = sizeofIpv6Header := by
  unfold ipModeOf
  split_ifs with h4 h6
  · subst h4
    simp [ethernetTypeIpv4, ethernetTypeIpv6, eq_comm]
  · subst h6
    simp [ethernetTypeIpv4, ethernetTypeIpv6, eq_comm]
  · simp [h4, h6]

theorem vipPacket_eq_some {pkt : TcpPacket} : vipPacket f fr = some pkt ↔
    ∃ ty data len m protocol size,
      (getEthernetData fr.dataLength).val fr.byte = some (ty, data, len)
        ∧ ipModeOf ty = some (m, protocol, size)
        ∧ (f.module.lcxlRole = roleRouter ∧ size ≤ len ∧ f.module.virtualAddr.enabled m
          ∧ fr.byte (data + protocol) = 0x06
          ∧ (checkTCPNBLMacAddr f.module.macAddr true).val fr.byte
          ∧ pkt.dstAddr = f.module.virtualAddr.virtualIp m)
        ∧ (readTcpPacket m data).val fr.byte = pkt := by
  simp only [vipPacket, Option.bind_eq_bind, Option.bind_eq_some_iff, Prod.exists,
    Option.ite_none_right_eq_some, Option.some.injEq]
  refine ⟨?_, ?_⟩
  · rintro ⟨ty, data, len, hd, m, protocol, size, hm, h, rfl⟩
    exact ⟨ty, data, len, m, protocol, size, hd, hm, h, rfl⟩
  · rintro ⟨ty, data, len, m, protocol, size, hd, hm, h, rfl⟩
    exact ⟨ty, data, len, hd, m, protocol, size, hm, h, rfl⟩

/-- The packet's destination is read where the handler looks for the virtual address. -/
theorem readTcpPacket_dstAddr (m : IpMode) (data : ℕ) (mem : ℕ → UInt8) :
    ((readTcpPacket m data).val mem).dstAddr =
      (ReadLog.readRange (data + (sourceAddress m).1 + (sourceAddress m).2)
        (sourceAddress m).2).val mem := by
  simp [readTcpPacket]

theorem processTCP_val {m : IpMode} {data : ℕ} {result : ProcessNblResult}
    (hr : f.module.lcxlRole = roleRouter) :
    (processTCP cfg f true data m f.module.virtualAddr amb result).val fr.byte =
      if ((readTcpPacket m data).val fr.byte).dstAddr = f.module.virtualAddr.virtualIp m then
        let routed := routeTCPNBL cfg f ((readTcpPacket m data).val fr.byte) amb.now amb.later
        (routed.1, { result with
          route := routed.2
          code := if routed.2.isSome then .router else result.code })
      else (f, result) := by
  simp only [processTCP, hr, if_true, ReadLog.val_bind, ReadLog.val_ite, ReadLog.val_pure,
    readTcpPacket_dstAddr]
  split_ifs <;> rfl

theorem processTCPFrame_val {m : IpMode} {data : ℕ} {result : ProcessNblResult} :
    (processTCPFrame cfg f true data m f.module.virtualAddr amb result).val fr.byte =
      if (checkTCPNBLMacAddr f.module.macAddr true).val fr.byte then
        (processTCP cfg f true data m f.module.virtualAddr amb result).val fr.byte
      else (f, { result with code := .drop }) := by
  simp only [processTCPFrame, ReadLog.val_bind, ReadLog.val_ite, ReadLog.val_pure]

theorem processNBL_vip {pkt : TcpPacket} (h : vipPacket f fr = some pkt) :
    (processNBL cfg f true fr.dataLength amb).val fr.byte =
      ((routeTCPNBL cfg f pkt amb.now amb.later).1,
        { code := if (routeTCPNBL cfg f pkt amb.now amb.later).2.isSome then .router else .pass
          route := (routeTCPNBL cfg f pkt amb.now amb.later).2
          modifyip := ⟨none, []⟩ }) := by
  obtain ⟨ty, data, len, m, protocol, size, hd, hm, ⟨hr, hl, hv, hp, hmac, hdst⟩, rfl⟩ :=
    vipPacket_eq_some.1 h
  rcases ipModeOf_eq_some.1 hm with ⟨rfl, rfl, rfl, rfl⟩ | ⟨rfl, rfl, rfl, rfl⟩
  · simp only [LcxlAddrInfo.enabled] at hv
    simp only [processNBL, ReadLog.val_bind, hd, ReadLog.val_ite, hv, hp, hl, hr,
      processTCPFrame_val, hmac, processTCP_val, hdst, ReadLog.val_read]
    simp [ethernetTypeIpv4, ethernetTypeArp, ethernetTypeLcxlChecking, ProcessNblResult.zero]
  · simp only [LcxlAddrInfo.enabled] at hv
    simp only [processNBL, ReadLog.val_bind, hd, ReadLog.val_ite, hv, hp, hl, hr,
      processTCPFrame_val, hmac, processTCP_val, hdst, ReadLog.val_read]
    simp [ethernetTypeIpv4, ethernetTypeIpv6, ethernetTypeArp, ethernetTypeLcxlChecking,
      ProcessNblResult.zero]

/-- A result that lets the frame up or drops it, and routes nothing. -/
def Kept (result : ProcessNblResult) : Prop :=
  result.code = .pass ∨ result.code = .drop ∨ result.code = .icmpv6Na
    ∨ result.code = .checkingNbl

theorem processARP_kept {data : ℕ} :
    Kept ((processARP f data f.module.virtualAddr amb .zero).val fr.byte) := by
  simp only [processARP, ReadLog.val_bind, ReadLog.val_ite, ReadLog.val_pure]
  split_ifs <;> simp [Kept, ProcessNblResult.zero]

/-- A solicitation leaves the code it is given, or sets one of its own. -/
theorem processSolicit_code (isRecv : Bool) (virtualAddr : LcxlAddrInfo)
    (source destination : List UInt8) (result : ProcessNblResult) :
    let code := (processSolicit isRecv virtualAddr source destination result).code
    code = .drop ∨ ¬ isRecv ∧ code = .icmpv6Ns ∨ code = result.code := by
  unfold processSolicit
  split_ifs with h1 h2
  · exact .inl rfl
  · exact .inr (.inl ⟨h2.1, rfl⟩)
  · exact .inr (.inr rfl)

theorem processICMPv6_code (cfg : LcxlSetting) (f : LcxlFilter) (isRecv : Bool) (ipHeader : ℕ)
    (virtualAddr : LcxlAddrInfo) (mem : ℕ → UInt8) :
    let code := ((processICMPv6 cfg f isRecv ipHeader virtualAddr .zero).val mem).code
    code = .pass ∨ code = .drop ∨ ¬ isRecv ∧ code = .icmpv6Ns ∨ isRecv ∧ code = .icmpv6Na := by
  have hsolicit : ∀ (source destination : List UInt8) (result : ProcessNblResult),
      result.code = .pass ∨ result.code = .drop →
      let code := (processSolicit isRecv virtualAddr source destination result).code
      code = .pass ∨ code = .drop ∨ ¬ isRecv ∧ code = .icmpv6Ns ∨ isRecv ∧ code = .icmpv6Na := by
    intro source destination result hr code
    rcases processSolicit_code isRecv virtualAddr source destination result with h | h | h
    · exact .inr (.inl h)
    · exact .inr (.inr (.inl h))
    · rcases hr with hr | hr
      · exact .inl (h.trans hr)
      · exact .inr (.inl (h.trans hr))
  simp only [processICMPv6, ReadLog.val_bind, ReadLog.val_ite, ReadLog.val_pure, ite_self]
  -- By the message's type; a router solicitation drops the frame first, or not.
  by_cases hr : f.module.lcxlRole = roleServer
  · rw [if_pos hr]
    split_ifs with h1 h2 h3 h4 h5 h6
    · exact hsolicit _ _ _ (.inr rfl)
    · exact hsolicit _ _ _ (.inl rfl)
    · exact hsolicit _ _ _ (.inl rfl)
    · exact .inr (.inl rfl)
    · exact .inr (.inr (.inr ⟨h6.2, rfl⟩))
    · exact .inl rfl
    · exact .inl rfl
  · rw [if_neg hr]
    exact .inl rfl

theorem processICMPv6_kept {data : ℕ} :
    Kept ((processICMPv6 cfg f true data f.module.virtualAddr .zero).val fr.byte) := by
  rcases processICMPv6_code cfg f true data f.module.virtualAddr fr.byte with h | h | h | h
  · exact .inl h
  · exact .inr (.inl h)
  · exact absurd rfl h.1
  · exact .inr (.inr (.inl h.2))

theorem processUDP_kept {data : ℕ} {m : IpMode} :
    Kept ((processUDP f true data m f.module.virtualAddr .zero).val fr.byte) := by
  simp only [processUDP, ReadLog.val_bind, ReadLog.val_ite, ReadLog.val_pure]
  split_ifs <;> simp [Kept, ProcessNblResult.zero]

theorem processCheckingNBL_kept (hr : f.module.lcxlRole ≠ roleRouter) :
    ((processCheckingNBL f true amb .zero).val fr.byte).1 = f
      ∧ Kept ((processCheckingNBL f true amb .zero).val fr.byte).2 := by
  simp only [processCheckingNBL, if_true, ReadLog.val_bind, hr, if_false, ReadLog.val_pure]
  split_ifs <;> simp [Kept, ProcessNblResult.zero]

/-- A TCP packet that is not for the virtual address, or to another MAC address. -/
theorem processTCPFrame_kept {m : IpMode} {data : ℕ}
    (h : ¬ (f.module.lcxlRole = roleRouter
      ∧ (checkTCPNBLMacAddr f.module.macAddr true).val fr.byte
      ∧ ((readTcpPacket m data).val fr.byte).dstAddr = f.module.virtualAddr.virtualIp m)) :
    ((processTCPFrame cfg f true data m f.module.virtualAddr amb .zero).val fr.byte).1 = f
      ∧ Kept
        ((processTCPFrame cfg f true data m f.module.virtualAddr amb .zero).val fr.byte).2 := by
  rw [processTCPFrame_val]
  split_ifs with hmac
  · by_cases hr : f.module.lcxlRole = roleRouter
    · rw [processTCP_val hr, if_neg fun hdst => h ⟨hr, hmac, hdst⟩]
      simp [Kept, ProcessNblResult.zero]
    · simp only [processTCP, hr, if_false, if_true, ReadLog.val_ite, ReadLog.val_pure]
      split_ifs <;> simp [Kept, ProcessNblResult.zero]
  · simp [Kept]

theorem checkingSource_eq_some {mac : List UInt8} : checkingSource f fr = some mac ↔
    ∃ data len, (getEthernetData fr.dataLength).val fr.byte
        = some (ethernetTypeLcxlChecking, data, len)
      ∧ f.module.lcxlRole = roleRouter ∧ sizeofLcxlCheckingHeader ≤ len
      ∧ fr.slice 6 6 = mac := by
  simp only [checkingSource, Option.bind_eq_bind, Option.bind_eq_some_iff, Prod.exists,
    Option.ite_none_right_eq_some, Option.some.injEq]
  refine ⟨?_, ?_⟩
  · rintro ⟨ty, data, len, hd, ⟨hr, rfl, hl⟩, hmac⟩
    exact ⟨data, len, hd, hr, hl, hmac⟩
  · rintro ⟨data, len, hd, hr, hl, hmac⟩
    exact ⟨_, data, len, hd, ⟨hr, rfl, hl⟩, hmac⟩

variable (cfg amb) in
theorem processNBL_checking {mac : List UInt8} (h : checkingSource f fr = some mac) :
    ∃ t code, (code = .pass ∨ code = .checkingNbl)
      ∧ (processNBL cfg f true fr.dataLength amb).val fr.byte
        = (f.setServers t, { ProcessNblResult.zero with code := code })
      ∧ RespondedTable mac amb.now f.module.serverList t := by
  obtain ⟨data, len, hd, hr, hl, rfl⟩ := checkingSource_eq_some.1 h
  obtain ⟨t, code, hcode, hval, ht⟩ :=
    processCheckingNBL_val fr amb .zero hr
  refine ⟨t, code, hcode, ?_, ht⟩
  simp only [processNBL, ReadLog.val_bind, hd, if_true, if_pos hl, hval]

/-- A frame is left alone, or one of the handlers decides. -/
theorem processNBL_cases {P : LcxlFilter × ProcessNblResult → Prop} {isRecv : Bool}
    (hzero : P (f, .zero))
    (hchecking : ∀ {data len}, (getEthernetData fr.dataLength).val fr.byte
        = some (ethernetTypeLcxlChecking, data, len) → sizeofLcxlCheckingHeader ≤ len →
      P ((processCheckingNBL f isRecv amb .zero).val fr.byte))
    (harp : ∀ data, P (f, (processARP f data f.module.virtualAddr amb .zero).val fr.byte))
    (hicmp : ∀ {data len}, (getEthernetData fr.dataLength).val fr.byte
        = some (ethernetTypeIpv6, data, len) → sizeofIpv6Header ≤ len →
      f.module.virtualAddr.enabled .ipv6 → fr.byte (data + 6) = 0x3A →
      P (f, (processICMPv6 cfg f isRecv data f.module.virtualAddr .zero).val fr.byte))
    (htcp : ∀ {ty data len m protocol size},
      (getEthernetData fr.dataLength).val fr.byte = some (ty, data, len) →
      ipModeOf ty = some (m, protocol, size) → size ≤ len → f.module.virtualAddr.enabled m →
      fr.byte (data + protocol) = 0x06 →
      P ((processTCPFrame cfg f isRecv data m f.module.virtualAddr amb .zero).val fr.byte))
    (hudp : ∀ data,
      P (f, (processUDP f isRecv data .ipv6 f.module.virtualAddr .zero).val fr.byte)) :
    P ((processNBL cfg f isRecv fr.dataLength amb).val fr.byte) := by
  simp only [processNBL, ReadLog.val_bind]
  rcases hd : (getEthernetData fr.dataLength).val fr.byte with _ | ⟨ty, data, len⟩
  · exact hzero
  simp only [ReadLog.val_ite, ReadLog.val_bind, ReadLog.val_pure]
  split_ifs with h1 h2 h3 h4 h5 h6 h7 h8 h9 h10 h11 h12
  · exact hchecking (h1 ▸ hd) h2
  · exact hzero
  · exact harp data
  · exact hzero
  · exact htcp hd (ipModeOf_eq_some.2 (.inl ⟨h5, rfl, rfl, rfl⟩)) h6.1 h6.2 h7
  · exact hzero
  · exact hzero
  · exact hicmp (h8 ▸ hd) h9.1 h9.2 h10
  · exact htcp hd (ipModeOf_eq_some.2 (.inr ⟨h8, rfl, rfl, rfl⟩)) h9.1 h9.2 h11
  · exact hudp data
  · exact hzero
  · exact hzero
  · exact hzero

variable (cfg amb) in
theorem processNBL_other (hv : vipPacket f fr = none) (hc : checkingSource f fr = none) :
    ((processNBL cfg f true fr.dataLength amb).val fr.byte).1 = f
      ∧ Kept ((processNBL cfg f true fr.dataLength amb).val fr.byte).2 := by
  have hzero : Kept ProcessNblResult.zero := .inl rfl
  refine processNBL_cases (P := fun r => r.1 = f ∧ Kept r.2) ⟨rfl, hzero⟩ (fun hd hl => ?_)
    (fun _ => ⟨rfl, processARP_kept⟩) (fun _ _ _ _ => ⟨rfl, processICMPv6_kept⟩)
    (fun hd hm hl hen hp => ?_) (fun _ => ⟨rfl, processUDP_kept⟩)
  · refine processCheckingNBL_kept fun hr => ?_
    have := checkingSource_eq_some.2 ⟨_, _, hd, hr, hl, rfl⟩
    rw [hc] at this
    simp at this
  · refine processTCPFrame_kept fun ⟨hr, hmac, hdst⟩ => ?_
    have := vipPacket_eq_some.2 ⟨_, _, _, _, _, _, hd, hm, ⟨hr, hl, hen, hp, hmac, hdst⟩, rfl⟩
    rw [hv] at this
    simp at this

/-- A packet routed, its route deleted once closed. -/
def routePacket (cfg : LcxlSetting) (f : LcxlFilter) (pkt : TcpPacket) (amb : Ambient) :
    LcxlFilter :=
  match (routeTCPNBL cfg f pkt amb.now amb.later).2 with
  | some p => (routeTCPNBL cfg f pkt amb.now amb.later).1.dropClosed p
  | none => (routeTCPNBL cfg f pkt amb.now amb.later).1

theorem receiveFrame_vip {pkt : TcpPacket} (h : vipPacket f fr = some pkt) :
    (receiveFrame cfg f fr amb).1 = routePacket cfg f pkt amb := by
  simp only [receiveFrame, processNBL_vip h, routePacket]
  rcases (routeTCPNBL cfg f pkt amb.now amb.later).2 with _ | p <;> rfl

/-- A packet of the virtual address is forwarded when it has a route, to the route's server. -/
theorem receiveFrame_vip_router {pkt : TcpPacket} (h : vipPacket f fr = some pkt) :
    (receiveFrame cfg f fr amb).2 =
      match (routeTCPNBL cfg f pkt amb.now amb.later).2 with
      | some p => (.router, some (.send
          (fr.routedTo ((routeTCPNBL cfg f pkt amb.now amb.later).1.routeMac p) amb.heap)))
      | none => (.pass, none) := by
  simp only [receiveFrame, processNBL_vip h]
  rcases (routeTCPNBL cfg f pkt amb.now amb.later).2 with _ | p <;> rfl

variable (cfg amb) in
theorem receiveFrame_checking {mac : List UInt8} (h : checkingSource f fr = some mac) :
    ∃ t, (receiveFrame cfg f fr amb).1 = f.setServers t
      ∧ RespondedTable mac amb.now f.module.serverList t := by
  obtain ⟨t, code, hcode, hval, ht⟩ := processNBL_checking cfg amb h
  refine ⟨t, ?_, ht⟩
  simp only [receiveFrame, hval, ProcessNblResult.zero]
  rcases hcode with rfl | rfl <;> rfl

theorem receiveFrame_other (hv : vipPacket f fr = none) (hc : checkingSource f fr = none) :
    (receiveFrame cfg f fr amb).1 = f := by
  obtain ⟨hf, hk⟩ := processNBL_other cfg amb hv hc
  generalize hr : (processNBL cfg f true fr.dataLength amb).val fr.byte = r at hf hk
  obtain ⟨f', code, route, ip⟩ := r
  simp only at hf
  subst hf
  simp only [receiveFrame, hr]
  rcases hk with hk | hk | hk | hk <;> simp only at hk <;> subst hk <;> rfl

end LcxlNetLoader
