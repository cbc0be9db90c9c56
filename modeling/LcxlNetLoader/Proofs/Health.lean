import LcxlNetLoader.Health
import LcxlNetLoader.Proofs.Connections

/-!
# The health of a server

What a tick, a frame and anything else do to the server watched (`Moves`), the invariant that ties
its status, timestamp and retry counter to what the observer has seen, and what follows: it is
declared offline only after `retry_number` requests that went unanswered for long enough, and a
silent server does not stay online for long.
-/

namespace LcxlNetLoader

theorem createCheckingNBL_dest (a b : IfPhysicalAddress) (code : UInt16)
    (perf : LcxlServerPerformance) :
    (createCheckingNBL a.mac b.mac code perf).slice 0 6 = b.mac := by
  unfold createCheckingNBL
  simp only
  rw [Frame.slice_write_of_le (by omega), Frame.slice_write_of_le (by omega),
    Frame.slice_write_of_le (by omega), ← length_mac b, Frame.slice_write]

theorem isRequestTo_request (a b : IfPhysicalAddress) (mac : List UInt8) :
    (createCheckingNBL a.mac b.mac checkingCodeRequest (.zero 40)).isRequestTo mac
      = (b.mac == mac) := by
  unfold Frame.isRequestTo
  rw [createCheckingNBL_dest]
  have h12 : (createCheckingNBL a.mac b.mac checkingCodeRequest (.zero 40)).byte 12
      = (ntohs ethernetTypeLcxlChecking).toUInt8 := rfl
  have h13 : (createCheckingNBL a.mac b.mac checkingCodeRequest (.zero 40)).byte 13
      = (ntohs ethernetTypeLcxlChecking >>> 8).toUInt8 := rfl
  have h16 : (createCheckingNBL a.mac b.mac checkingCodeRequest (.zero 40)).byte 16
      = checkingCodeRequest.toUInt8 := rfl
  have h17 : (createCheckingNBL a.mac b.mac checkingCodeRequest (.zero 40)).byte 17
      = (checkingCodeRequest >>> 8).toUInt8 := rfl
  have hcode : u16OfBytes checkingCodeRequest.toUInt8 (checkingCodeRequest >>> 8).toUInt8
      = checkingCodeRequest := by decide
  have htype : ntohs (u16OfBytes (ntohs ethernetTypeLcxlChecking).toUInt8
      (ntohs ethernetTypeLcxlChecking >>> 8).toUInt8) = ethernetTypeLcxlChecking := by decide
  rw [h12, h13, h16, h17, hcode, htype]
  simp

/-- What one check keeps of a server. -/
theorem checkServer_macAddr (cfg : LcxlSetting) (check : LcxlServerCheck) (now : ℤ)
    (s : ServerInfoListEntry) : (checkServer cfg check now s).1.info.macAddr = s.info.macAddr := by
  simp only [checkServer]
  split_ifs <;> rfl

section Loop

variable (cfg : LcxlSetting) (module : LcxlModuleSettingInfo) (now : ℤ) {mac : List UInt8}

theorem modify_checkServer_macAddr (t : ServerTable) (q r : ServerPtr) :
    ((t.modify q fun _ => (checkServer cfg module.serverCheck now (t.mem q)).1).mem r).info.macAddr
      = (t.mem r).info.macAddr := by
  rw [ServerTable.modify_mem]
  split_ifs with hr
  · rw [checkServer_macAddr, hr]
  · rfl

/-- One server more: what its check does to the table, and the request it may be sent. -/
theorem countP_checkServersLoop_cons (mac : List UInt8) (q : ServerPtr) (ps : List ServerPtr)
    (t : ServerTable) :
    let s := checkServer cfg module.serverCheck now (t.mem q)
    let loop := checkServersLoop cfg module now ps (t.modify q fun _ => s.1)
    (checkServersLoop cfg module now (q :: ps) t).1 = loop.1
      ∧ (checkServersLoop cfg module now (q :: ps) t).2.countP (·.isRequestTo mac)
        = loop.2.countP (·.isRequestTo mac)
          + if s.2 ∧ (t.mem q).info.macAddr.mac = mac then 1 else 0 := by
  intro s loop
  have hmac : s.1.info.macAddr = (t.mem q).info.macAddr := checkServer_macAddr ..
  by_cases hs : s.2
  · have h : checkServersLoop cfg module now (q :: ps) t = (loop.1, createCheckingNBL
        module.macAddr.mac s.1.info.macAddr.mac checkingCodeRequest (.zero 40) :: loop.2) := by
      simp only [checkServersLoop]
      exact if_pos hs
    rw [h]
    refine ⟨rfl, ?_⟩
    rw [List.countP_cons, isRequestTo_request, hmac]
    simp [hs]
  · have h : checkServersLoop cfg module now (q :: ps) t = loop := by
      simp only [checkServersLoop]
      exact if_neg hs
    rw [h]
    simp [hs]

/-- The checks of servers none of which has the MAC address. -/
theorem checkServersLoop_without {p : ServerPtr} : ∀ (ps : List ServerPtr) (t : ServerTable),
    (∀ q ∈ ps, (t.mem q).info.macAddr.mac ≠ mac) → p ∉ ps →
    (checkServersLoop cfg module now ps t).1.mem p = t.mem p
      ∧ (checkServersLoop cfg module now ps t).2.countP (·.isRequestTo mac) = 0
  | [], t, _, _ => ⟨rfl, rfl⟩
  | q :: ps, t, hm, hp => by
    simp only [List.mem_cons, forall_eq_or_imp, not_or] at hm hp
    obtain ⟨h1, h2⟩ := checkServersLoop_without ps
      (t.modify q fun _ => (checkServer cfg module.serverCheck now (t.mem q)).1)
      (fun r hr => by rw [modify_checkServer_macAddr]; exact hm.2 r hr) hp.2
    obtain ⟨e1, e2⟩ := countP_checkServersLoop_cons cfg module now mac q ps t
    rw [ServerTable.modify_mem_of_ne hp.1] at h1
    rw [e1, e2, h1, h2]
    simp [hm.1]

/-- The checks of servers of which `p` alone has the MAC address. -/
theorem checkServersLoop_with {p : ServerPtr} : ∀ (ps : List ServerPtr) (t : ServerTable),
    (ps.filter fun q => (t.mem q).info.macAddr.mac = mac) = [p] →
    (checkServersLoop cfg module now ps t).1.mem p
        = (checkServer cfg module.serverCheck now (t.mem p)).1
      ∧ (checkServersLoop cfg module now ps t).2.countP (·.isRequestTo mac)
        = if (checkServer cfg module.serverCheck now (t.mem p)).2 then 1 else 0
  | [], t, h => by simp at h
  | q :: ps, t, h => by
    obtain ⟨e1, e2⟩ := countP_checkServersLoop_cons cfg module now mac q ps t
    rw [e1, e2]
    by_cases hq : (t.mem q).info.macAddr.mac = mac
    · rw [List.filter_cons_of_pos (by simpa using hq), List.cons.injEq,
        List.filter_eq_nil_iff] at h
      obtain ⟨rfl, h⟩ := h
      simp only [decide_eq_true_eq] at h
      obtain ⟨h1, h2⟩ := checkServersLoop_without cfg module now ps
        (t.modify q fun _ => (checkServer cfg module.serverCheck now (t.mem q)).1)
        (fun r hr => by rw [modify_checkServer_macAddr]; exact h r hr) fun hm => h q hm hq
      rw [h1, h2, ServerTable.modify_mem_same]
      simp [hq]
    · have hpq : p ≠ q := by
        rintro rfl
        have hm : p ∈ [p] := List.mem_cons_self
        rw [← h] at hm
        exact hq (by simpa using (List.mem_filter.1 hm).2)
      rw [List.filter_cons_of_neg (by simpa using hq)] at h
      obtain ⟨h1, h2⟩ := checkServersLoop_with (p := p) ps
        (t.modify q fun _ => (checkServer cfg module.serverCheck now (t.mem q)).1)
        (by simpa only [modify_checkServer_macAddr] using h)
      rw [h1, h2, ServerTable.modify_mem_of_ne hpq]
      simp [hq]

end Loop

/-- What a check at time `now` can make of a server, and whether it is sent a request. -/
inductive Checked (cfg : LcxlSetting) (check : LcxlServerCheck) (now : ℤ)
    (s : ServerInfoListEntry) : ServerInfoListEntry × Bool → Prop
  | deleted : has s.info.status ssDeleted → Checked cfg check now s (s, false)
  /-- An offline server is only asked again. -/
  | offline {k : ℤ} {sent : Bool} : has s.info.status ssOnline = false →
      Checked cfg check now s ({ s with currentRetryNumber := k }, sent)
  | rests : has s.info.status ssOnline → has s.info.status ssChecking = false →
      now - s.timestamp ≤ cfg.frequency * check.interval → Checked cfg check now s (s, false)
  | asks : has s.info.status ssOnline → has s.info.status ssChecking = false →
      Checked cfg check now s ({ s with
        currentRetryNumber := 0
        info := { s.info with status := s.info.status ||| ssChecking }
        timestamp := now }, true)
  | waits : has s.info.status ssOnline → has s.info.status ssChecking →
      now - s.timestamp ≤ cfg.frequency * check.timeout * (s.currentRetryNumber + 1) →
      Checked cfg check now s (s, false)
  | retries : has s.info.status ssOnline → has s.info.status ssChecking →
      s.currentRetryNumber + 1 < check.retryNumber →
      Checked cfg check now s ({ s with currentRetryNumber := s.currentRetryNumber + 1 }, true)
  | givesUp : has s.info.status ssOnline → has s.info.status ssChecking →
      cfg.frequency * check.timeout * (s.currentRetryNumber + 1) < now - s.timestamp →
      check.retryNumber ≤ s.currentRetryNumber + 1 →
      Checked cfg check now s ({ s with
        currentRetryNumber := s.currentRetryNumber + 1
        info := { s.info with status := s.info.status &&& ~~~ssOnline } }, true)

theorem checkServer_checked (cfg : LcxlSetting) (check : LcxlServerCheck) (now : ℤ)
    (s : ServerInfoListEntry) : Checked cfg check now s (checkServer cfg check now s) := by
  simp only [checkServer]
  split_ifs with hd ho hc hl hk ha
  · exact .deleted hd
  · exact .givesUp ho hc hl hk
  · exact .retries ho hc (by omega)
  · exact .waits ho hc (by omega)
  · exact .asks ho (by simpa using hc)
  · exact .rests ho (by simpa using hc) (by omega)
  · exact .offline (by simpa using ho)
  · exact .offline (k := s.currentRetryNumber) (by simpa using ho)

section Effects

variable {f : LcxlFilter} {p : ServerPtr} {mac mac' : List UInt8}

theorem tick_server (cfg : LcxlSetting) (h : f.HasServer p mac) (now : ℤ) :
    (workerTick cfg f now).1.module.serverList.mem p
        = (checkServer cfg f.module.serverCheck now (f.module.serverList.mem p)).1
      ∧ (workerTick cfg f now).2.countP (·.isRequestTo mac)
        = if (checkServer cfg f.module.serverCheck now (f.module.serverList.mem p)).2 then 1
          else 0 := by
  obtain ⟨h1, h2⟩ := checkServersLoop_with cfg f.module now _
    (lockServerList f.module.serverList) h.unique
  rw [workerTick, if_pos h.role]
  exact ⟨h1, h2⟩

theorem take_move (mac : List UInt8) (h : mac.length = 6) :
    ((Bytes.zero 32).move mac).toList.take 6 = mac := by
  obtain ⟨a, b, c, d, e, f, rfl⟩ : ∃ a b c d e f, mac = [a, b, c, d, e, f] := by
    match mac, h with
    | [a, b, c, d, e, f], _ => exact ⟨a, b, c, d, e, f, rfl⟩
  rfl

theorem findServer_mac (t : ServerTable) (h : mac.length = 6) :
    findServer (fun _ => false) t ⟨6, (Bytes.zero 32).move mac⟩
      = (t.lst.list.filter fun q => (t.mem q).info.macAddr.mac = mac).head? := by
  rw [List.head?_filter]
  unfold findServer rtlEqualMemory
  congr 1
  funext q
  refine Bool.eq_iff_iff.2 (Iff.trans ?_ decide_eq_true_iff.symm)
  simp [take_move mac h, IfPhysicalAddress.mac]

/-- A checking frame reaches the server it comes from, and no other. -/
theorem responded_server {now : ℤ} {t t' : ServerTable}
    (h : (t.lst.list.filter fun q => (t.mem q).info.macAddr.mac = mac) = [p])
    (hl : mac'.length = 6) (ht : RespondedTable mac' now t t') :
    if mac' = mac then Responded now (t.mem p) (t'.mem p) else t'.mem p = t.mem p := by
  have hp : p ∈ t.lst.list.filter fun q => (t.mem q).info.macAddr.mac = mac := by
    rw [h]
    exact List.mem_cons_self
  unfold RespondedTable at ht
  rw [findServer_mac _ hl] at ht
  split_ifs with hm
  · subst hm
    have hf : ((lockServerList t).lst.list.filter
        fun q => ((lockServerList t).mem q).info.macAddr.mac = mac') = [p] := h
    rw [hf] at ht
    obtain ⟨g, hg, rfl⟩ := ht
    exact (ServerTable.modify_mem_same (t := lockServerList t) (p := p) (g := g)) ▸ hg _
  · split at ht
    · rw [ht]
      rfl
    · rename_i q hq
      obtain ⟨g, -, rfl⟩ := ht
      have hq := (List.mem_filter.1 (List.mem_of_mem_head? hq)).2
      have hpq : p ≠ q := by
        rintro rfl
        have hp := (List.mem_filter.1 hp).2
        simp only [decide_eq_true_eq] at hp hq
        exact hm (hq.symm.trans hp)
      exact ServerTable.modify_mem_of_ne hpq

theorem receive_server (cfg : LcxlSetting) (h : f.HasServer p mac) (fr : Frame) (amb : Ambient) :
    (receiveFrame cfg f fr amb).1.module.serverCheck = f.module.serverCheck ∧
      if checkingSource f fr = some mac then Responded amb.now (f.module.serverList.mem p)
        ((receiveFrame cfg f fr amb).1.module.serverList.mem p)
      else ∃ n, (receiveFrame cfg f fr amb).1.module.serverList.mem p
        = { f.module.serverList.mem p with refCount := n } := by
  rcases hv : vipPacket f fr with _ | pkt
  · rcases hc : checkingSource f fr with _ | mac'
    · rw [receiveFrame_other hv hc, if_neg (by simp)]
      exact ⟨rfl, _, rfl⟩
    · obtain ⟨t, ht, hrt⟩ := receiveFrame_checking cfg amb hc
      obtain ⟨data, len, -, -, -, hmac⟩ := checkingSource_eq_some.1 hc
      have hs := responded_server h.unique (by rw [← hmac]; simp [Frame.slice]) hrt
      rw [ht]
      refine ⟨rfl, ?_⟩
      simp only [Option.some.injEq]
      split_ifs at hs ⊢ with hm
      · exact hs
      · exact ⟨_, hs⟩
  · have hc : checkingSource f fr = none := by
      rcases hc : checkingSource f fr with _ | mac'
      · rfl
      · obtain ⟨ty, data, len, m, protocol, size, hd, hm, -⟩ := vipPacket_eq_some.1 hv
        obtain ⟨data', len', hd', -⟩ := checkingSource_eq_some.1 hc
        rw [hd, Option.some.injEq, Prod.mk.injEq] at hd'
        rw [hd'.1] at hm
        simp [ipModeOf, ethernetTypeLcxlChecking, ethernetTypeIpv4, ethernetTypeIpv6] at hm
    have hr := routePacket_routesOnly cfg f pkt amb
    rw [receiveFrame_vip hv, hc, if_neg (by simp)]
    refine ⟨?_, hr.servers.mem p⟩
    rw [hr.eq]
    rfl

end Effects

namespace Watched

/-- What a step means for the server watched. -/
inductive Moves (cfg : LcxlSetting) (p : ServerPtr) (s s' : Watched) : Event → Prop
  | tick {now : ℤ} : s.clock ≤ now → s'.clock = now → s'.mark = now →
      s'.lastSeen = s.lastSeen →
      s'.server p = (checkServer cfg s.filter.module.serverCheck now (s.server p)).1 →
      s'.requests = s.requests +
        (if (checkServer cfg s.filter.module.serverCheck now (s.server p)).2 then 1 else 0) →
      Moves cfg p s s' (.tick now)
  | responds {e : Event} : s.clock ≤ s'.lastSeen → s'.lastSeen ≤ s'.clock →
      s'.mark = s'.lastSeen → Responded s'.lastSeen (s.server p) (s'.server p) → Moves cfg p s s' e
  | rests {e : Event} : s.clock ≤ s'.clock → s'.mark = s.mark → s'.lastSeen = s.lastSeen →
      s'.requests = s.requests → (∃ n, s'.server p = { s.server p with refCount := n }) →
      Moves cfg p s s' e

variable {cfg : LcxlSetting} {p : ServerPtr} {mac : List UInt8} {s s' : Watched} {e : Event}

theorem step_moves (h : Step cfg p mac s e s') : Moves cfg p s s' e
    ∧ s'.filter.module.serverCheck = s.filter.module.serverCheck := by
  obtain ⟨hw, rfl⟩ := h
  cases e with
  | tick now =>
    obtain ⟨h1, h2⟩ := tick_server cfg hw.1 now
    refine ⟨.tick hw.2 rfl rfl rfl h1 (congrArg (s.requests + ·) h2), ?_⟩
    simp only [exec, LcxlFilter.exec, workerTick]
    split_ifs <;> rfl
  | recv fr amb =>
    obtain ⟨hs, hnow, hlater⟩ := hw
    obtain ⟨h1, h2⟩ := receive_server cfg hs fr amb
    simp only [exec]
    split_ifs at h2 ⊢
    · exact ⟨.responds hnow hlater rfl h2, h1⟩
    · exact ⟨.rests (hnow.trans hlater) rfl rfl rfl h2, h1⟩
  | addServer past now server => exact ⟨.rests le_rfl rfl rfl rfl hw.server, hw.check⟩
  | delServer past macAddr => exact ⟨.rests le_rfl rfl rfl rfl hw.server, hw.check⟩
  | other f => exact ⟨.rests le_rfl rfl rfl rfl hw.server, hw.check⟩

theorem has_asked (status : UInt8) :
    has (status ||| ssChecking) ssOnline = has status ssOnline
      ∧ has (status ||| ssChecking) ssChecking = true
      ∧ has (status ||| ssChecking) ssDeleted = has status ssDeleted := by
  have h1 : has ssChecking ssOnline = false := by decide
  have h2 : has ssChecking ssChecking = true := by decide
  have h3 : has ssChecking ssDeleted = false := by decide
  simp only [has_or, h1, h2, h3, Bool.or_false, Bool.or_true, and_self]

theorem has_answered (status : UInt8) :
    has ((status ||| ssOnline) &&& ~~~ssChecking) ssChecking = false
      ∧ has ((status ||| ssOnline) &&& ~~~ssChecking) ssDeleted = has status ssDeleted := by
  have h : has ssOnline ssDeleted = false := by decide
  refine ⟨has_and_of_clear (by decide) _, ?_⟩
  rw [has_and_of_keep (by decide), has_or, h, Bool.or_false]

/-- The invariant behind giving up: a check under way began no earlier than the server was last
heard of, and has sent a request for every retry counted and one more. -/
structure Attentive (p : ServerPtr) (s : Watched) : Prop where
  lastSeen_le : s.lastSeen ≤ s.clock
  asking : has (s.server p).info.status ssOnline → has (s.server p).info.status ssChecking →
    s.lastSeen ≤ (s.server p).timestamp ∧ 0 ≤ (s.server p).currentRetryNumber
      ∧ (s.server p).currentRetryNumber + 1 ≤ s.filter.module.serverCheck.retryNumber
      ∧ (s.server p).currentRetryNumber + 1 ≤ s.requests

theorem Attentive.step (h : Attentive p s) (hr : 1 ≤ s.filter.module.serverCheck.retryNumber)
    (hs : Step cfg p mac s e s') : Attentive p s' := by
  obtain ⟨hm, hcheck⟩ := step_moves hs
  have hask := h.asking
  have hseen := h.lastSeen_le
  cases hm with
  | responds h1 h2 _ hresp =>
    refine ⟨h2, fun _ hc => ?_⟩
    rw [hresp.info, (has_answered _).1] at hc
    simp at hc
  | rests h1 _ h3 h4 h5 =>
    obtain ⟨n, hn⟩ := h5
    refine ⟨by omega, ?_⟩
    rw [hn, hcheck, h3, h4]
    exact hask
  | tick h1 h2 _ h4 h5 h6 =>
    refine ⟨by omega, ?_⟩
    have hk := checkServer_checked cfg s.filter.module.serverCheck s'.clock (s.server p)
    rw [← h2] at h5 h6
    rw [h5, hcheck, h4, h6]
    generalize checkServer cfg s.filter.module.serverCheck s'.clock (s.server p) = r at hk
    cases hk with
    | deleted _ => simpa using hask
    | offline ho => simp [ho]
    | rests ho hc _ => simp [hc]
    | asks ho hc => simp; omega
    | waits ho hc _ => simpa using hask
    | retries ho hc hlt =>
      have := hask ho hc
      simp
      omega
    | givesUp _ _ _ _ => simp [has_and_of_clear]

theorem step_check (hs : Step cfg p mac s e s') :
    s'.filter.module.serverCheck = s.filter.module.serverCheck := (step_moves hs).2

/-- The invariant behind going offline in time: how old the last sign of the server, and the check
under way, can be at the last tick `mark`. -/
structure Prompt (cfg : LcxlSetting) (check : LcxlServerCheck) (g lastSeen mark : ℤ)
    (x : ServerInfoListEntry) : Prop where
  not_deleted : has x.info.status ssDeleted = false
  resting : has x.info.status ssOnline → has x.info.status ssChecking = false →
    x.timestamp ≤ lastSeen ∧ mark - lastSeen ≤ cfg.frequency * check.interval
  asking : has x.info.status ssOnline → has x.info.status ssChecking →
    0 ≤ x.currentRetryNumber ∧ x.currentRetryNumber < check.retryNumber
      ∧ x.timestamp - lastSeen ≤ cfg.frequency * check.interval + g
      ∧ mark - x.timestamp ≤ cfg.frequency * check.timeout * (x.currentRetryNumber + 1)
        + x.currentRetryNumber * g

theorem Prompt.responded {check : LcxlServerCheck} {g lastSeen mark now : ℤ}
    {x x' : ServerInfoListEntry} (h : Prompt cfg check g lastSeen mark x)
    (hi : 0 ≤ check.interval) (hx : Responded now x x') : Prompt cfg check g now now x' := by
  refine ⟨?_, fun _ _ => ⟨hx.timestamp.le, ?_⟩, fun _ hc => ?_⟩
  · rw [hx.info, (has_answered _).2, h.not_deleted]
  · have : 0 ≤ cfg.frequency * check.interval := by positivity
    omega
  · rw [hx.info, (has_answered _).1] at hc
    simp at hc

theorem Prompt.checked {check : LcxlServerCheck} {g lastSeen mark now : ℤ}
    {x : ServerInfoListEntry} {r : ServerInfoListEntry × Bool}
    (h : Prompt cfg check g lastSeen mark x) (ht : 0 ≤ check.timeout) (hr : 1 ≤ check.retryNumber)
    (hm : mark ≤ now) (hg : now - mark ≤ g) (hk : Checked cfg check now x r) :
    Prompt cfg check g lastSeen now r.1 := by
  obtain ⟨hdel, hrest, hask⟩ := h
  have hft : 0 ≤ cfg.frequency * check.timeout := by positivity
  cases hk with
  | deleted hd => simp [hdel] at hd
  | offline ho => exact ⟨hdel, fun h => by simp [ho] at h, fun h => by simp [ho] at h⟩
  | rests ho hc hl =>
    obtain ⟨h1, h2⟩ := hrest ho hc
    exact ⟨hdel, fun _ _ => ⟨h1, by omega⟩, fun _ h => by simp [hc] at h⟩
  | asks ho hc =>
    obtain ⟨h1, h2⟩ := hrest ho hc
    obtain ⟨b1, b2, b3⟩ := has_asked x.info.status
    refine ⟨b3.trans hdel, fun _ h => by simp [b2] at h, fun _ _ => ?_⟩
    simp
    omega
  | waits ho hc hl =>
    obtain ⟨h1, h2, h3, h4⟩ := hask ho hc
    refine ⟨hdel, fun _ h => by simp [hc] at h, fun _ _ => ⟨h1, h2, h3, ?_⟩⟩
    have : 0 ≤ x.currentRetryNumber * g := mul_nonneg h1 (by omega)
    exact le_add_of_le_of_nonneg hl this
  | retries ho hc hlt =>
    obtain ⟨h1, h2, h3, h4⟩ := hask ho hc
    refine ⟨hdel, fun _ h => by simp [hc] at h, fun _ _ => ⟨by simp; omega, hlt, h3, ?_⟩⟩
    simp only
    nlinarith
  | givesUp _ _ _ _ =>
    have b : has (x.info.status &&& ~~~ssOnline) ssOnline = false := has_and_of_clear (by decide) _
    refine ⟨?_, fun h => by simp [b] at h, fun h => by simp [b] at h⟩
    exact (has_and_of_keep (by decide) _).trans hdel

/-- The bound on a server that is still online at the last tick. -/
theorem Prompt.bound {check : LcxlServerCheck} {g lastSeen mark : ℤ} {x : ServerInfoListEntry}
    (h : Prompt cfg check g lastSeen mark x) (ht : 0 ≤ check.timeout) (hr : 1 ≤ check.retryNumber)
    (hg : 0 ≤ g) (ho : has x.info.status ssOnline) : mark - lastSeen
      ≤ cfg.frequency * (check.interval + check.retryNumber * check.timeout)
        + (check.retryNumber + 1) * g := by
  have hft : 0 ≤ cfg.frequency * check.timeout := by positivity
  have hsplit : cfg.frequency * (check.interval + check.retryNumber * check.timeout)
      = cfg.frequency * check.interval + cfg.frequency * check.timeout * check.retryNumber := by
    ring
  rw [hsplit]
  by_cases hc : has x.info.status ssChecking
  · obtain ⟨h1, h2, h3, h4⟩ := h.asking ho hc
    have h5 : cfg.frequency * check.timeout * (x.currentRetryNumber + 1)
        ≤ cfg.frequency * check.timeout * check.retryNumber :=
      mul_le_mul_of_nonneg_left (by omega) hft
    have h6 : x.currentRetryNumber * g ≤ check.retryNumber * g :=
      mul_le_mul_of_nonneg_right (by omega) hg
    rw [add_mul, one_mul]
    omega
  · obtain ⟨-, h2⟩ := h.resting ho (by simpa using hc)
    have h5 : 0 ≤ cfg.frequency * check.timeout * check.retryNumber := by positivity
    have h6 : 0 ≤ (check.retryNumber + 1) * g := by positivity
    omega

/-- The invariant of the state watched. -/
structure Prompted (cfg : LcxlSetting) (check : LcxlServerCheck) (g : ℤ) (p : ServerPtr)
    (s : Watched) : Prop where
  check_eq : s.filter.module.serverCheck = check
  lastSeen_le : s.lastSeen ≤ s.mark
  mark_le : s.mark ≤ s.clock
  server : Prompt cfg check g s.lastSeen s.mark (s.server p)

theorem Prompted.step {check : LcxlServerCheck} {g : ℤ} (h : Prompted cfg check g p s)
    (hi : 0 ≤ check.interval) (ht : 0 ≤ check.timeout) (hr : 1 ≤ check.retryNumber)
    (hs : TimelyStep cfg p mac g s e s') : Prompted cfg check g p s' := by
  obtain ⟨hs, hg⟩ := hs
  obtain ⟨hm, hcheck⟩ := step_moves hs
  obtain ⟨rfl, hseen, hmark, hx⟩ := h
  cases hm with
  | responds h1 h2 h3 hresp =>
    refine ⟨hcheck, h3.ge, h3 ▸ h2, ?_⟩
    rw [h3]
    exact hx.responded hi hresp
  | rests h1 h2 h3 h4 h5 =>
    obtain ⟨n, hn⟩ := h5
    refine ⟨hcheck, h3 ▸ h2 ▸ hseen, h2 ▸ hmark.trans h1, ?_⟩
    rw [hn, h2, h3]
    exact ⟨hx.1, hx.2, hx.3⟩
  | tick h1 h2 h3 h4 h5 h6 =>
    have hle := hmark.trans h1
    refine ⟨hcheck, by omega, by omega, ?_⟩
    rw [h5, h3, h4]
    exact hx.checked ht hr hle (hg _ rfl) (checkServer_checked _ _ _ _)

section Runs

variable {f : LcxlFilter} {past : ServerPtr → Bool} {now : ℤ} {server : LcxlServer}
  {tr : List Event}

theorem start_info (cfg : LcxlSetting) (f : LcxlFilter) (past : ServerPtr → Bool) (now : ℤ)
    (server : LcxlServer) : ((start cfg f past now server).server
      (added past f.module.serverList server)).info = server := by
  simp only [Watched.server, start, added, LcxlFilter.exec, LcxlFilter.setServers, routerAddServer]
  rcases findServer past (lockServerList f.module.serverList) server.macAddr with _ | q
  · simp [unlockServerList, lockServerList]
  · simp [unlockServerList, ServerTable.modify, lockServerList]

/-- A server that is overwritten keeps its timestamp. -/
theorem start_timestamp_le (cfg : LcxlSetting)
    (h : ∀ q ∈ findServer past (lockServerList f.module.serverList) server.macAddr,
      (f.module.serverList.mem q).timestamp ≤ now) :
    ((start cfg f past now server).server
      (added past f.module.serverList server)).timestamp ≤ now := by
  simp only [Watched.server, start, added, LcxlFilter.exec, LcxlFilter.setServers, routerAddServer]
  revert h
  rcases findServer past (lockServerList f.module.serverList) server.macAddr with _ | q
  · simp [unlockServerList, lockServerList, allocServer]
  · simp [unlockServerList, ServerTable.modify, lockServerList]

theorem attentive (h : Sys.Run (Step cfg p mac) (start cfg f past now server) tr s)
    (hp : p = added past f.module.serverList server) (hc : has server.status ssChecking = false)
    (hr : 1 ≤ f.module.serverCheck.retryNumber) :
    Attentive p s ∧ s.filter.module.serverCheck = f.module.serverCheck := by
  refine h.preserves (I := fun s => Attentive p s
    ∧ s.filter.module.serverCheck = f.module.serverCheck) ?_ ⟨⟨le_rfl, fun _ h => ?_⟩, rfl⟩
  · rintro s₁ a s₂ ⟨h1, h2⟩ hs
    exact ⟨h1.step (h2 ▸ hr) hs, (step_check hs).trans h2⟩
  · rw [hp, start_info, hc] at h
    simp at h

/-- A tick declares a server offline only when it was not heard of for longer than all retries
take, and was asked at least `retry_number` times since. -/
theorem offline_unanswered {t : ℤ}
    (h : Sys.Run (Step cfg p mac) (start cfg f past now server) tr s)
    (hp : p = added past f.module.serverList server) (hc : has server.status ssChecking = false)
    (hr : 1 ≤ f.module.serverCheck.retryNumber) (hs : Step cfg p mac s (.tick t) s')
    (hon : has (s.server p).info.status ssOnline)
    (hoff : has (s'.server p).info.status ssOnline = false) :
    cfg.frequency * f.module.serverCheck.timeout * f.module.serverCheck.retryNumber
        < t - s.lastSeen
      ∧ f.module.serverCheck.retryNumber ≤ s.requests := by
  obtain ⟨hatt, hcheck⟩ := attentive h hp hc hr
  obtain ⟨hm, -⟩ := step_moves hs
  cases hm with
  | responds _ _ _ hresp =>
    rw [hresp.info, has_and_of_keep (by decide), has_or] at hoff
    simp [has, ssOnline] at hoff
  | rests _ _ _ _ h5 =>
    obtain ⟨n, hn⟩ := h5
    simp [hn, hon] at hoff
  | tick _ _ _ _ h5 _ =>
    rw [h5] at hoff
    have hk := checkServer_checked cfg s.filter.module.serverCheck t (s.server p)
    generalize checkServer cfg s.filter.module.serverCheck t (s.server p) = r at hk hoff
    cases hk with
    | deleted _ => simp [hon] at hoff
    | offline ho => simp [hon] at ho
    | rests _ _ _ => simp [hon] at hoff
    | asks _ _ => simp [has_asked, hon] at hoff
    | waits _ _ _ => simp [hon] at hoff
    | retries _ _ _ => simp [hon] at hoff
    | givesUp ho hc hl hk =>
      obtain ⟨h1, h2, h3, h4⟩ := hatt.asking ho hc
      have hk : (s.server p).currentRetryNumber + 1 = s.filter.module.serverCheck.retryNumber := by
        omega
      rw [hk] at hl h4
      rw [← hcheck]
      exact ⟨by omega, h4⟩

/-- A silent server: added at time 0, and ticks that ask it twice. -/
def silent : List Event := [.tick 11, .tick 22]

def silenced : Watched :=
  silent.foldl (exec Sample.setting Sample.server.macAddr.mac)
    (start Sample.setting Sample.router (fun _ => false) 0 Sample.server)

theorem silent_run : Sys.Run (Step Sample.setting 0 Sample.server.macAddr.mac)
    (start Sample.setting Sample.router (fun _ => false) 0 Sample.server) silent silenced :=
  Sys.Allowed.run ⟨⟨⟨rfl, by decide +kernel⟩, by decide⟩, ⟨⟨rfl, by decide +kernel⟩, by decide⟩,
    trivial⟩

theorem offline_unanswered_silent :
    has (silenced.server 0).info.status ssOnline ∧ 20 < 32 - silenced.lastSeen
      ∧ 2 ≤ silenced.requests := by
  have hon : has (silenced.server 0).info.status ssOnline := by decide +kernel
  refine ⟨hon, ?_⟩
  have hs : Step Sample.setting 0 Sample.server.macAddr.mac silenced (.tick 32)
      (silenced.exec Sample.setting Sample.server.macAddr.mac (.tick 32)) :=
    ⟨⟨⟨rfl, by decide +kernel⟩, by decide⟩, rfl⟩
  have h := offline_unanswered silent_run rfl (by decide) (by decide) hs hon (by decide +kernel)
  exact ⟨h.1, Int.ofNat_le.1 h.2⟩

/-- A server that is still online after a tick was last heard of not longer ago than one interval
and all retries take, each rounded up to the next tick. -/
theorem online_recent {g t : ℤ}
    (h : Sys.Run (TimelyStep cfg p mac g) (start cfg f past now server) tr s)
    (hp : p = added past f.module.serverList server)
    (hpast : ∀ q ∈ findServer past (lockServerList f.module.serverList) server.macAddr,
      (f.module.serverList.mem q).timestamp ≤ now)
    (hc : has server.status ssChecking = false) (hd : has server.status ssDeleted = false)
    (hi : 0 ≤ f.module.serverCheck.interval) (ht : 0 ≤ f.module.serverCheck.timeout)
    (hr : 1 ≤ f.module.serverCheck.retryNumber) (hs : TimelyStep cfg p mac g s (.tick t) s')
    (hon : has (s'.server p).info.status ssOnline) :
    t - s'.lastSeen ≤ cfg.frequency * (f.module.serverCheck.interval
        + f.module.serverCheck.retryNumber * f.module.serverCheck.timeout)
      + (f.module.serverCheck.retryNumber + 1) * g := by
  have hstart : Prompted cfg f.module.serverCheck g p (start cfg f past now server) := by
    have hinfo := start_info cfg f past now server
    have htime := start_timestamp_le cfg hpast
    rw [← hp] at hinfo htime
    refine ⟨rfl, le_rfl, le_rfl, by rw [hinfo, hd], fun _ _ => ⟨htime, ?_⟩, fun _ h => ?_⟩
    · have : 0 ≤ cfg.frequency * f.module.serverCheck.interval := by positivity
      simpa [start] using this
    · simp [hinfo, hc] at h
  have h' := h.preserves (fun h hs => h.step hi ht hr hs) hstart
  have hmark : s'.mark = t := by rw [hs.1.2]; rfl
  have hg : 0 ≤ g := by
    have h1 := hs.2 t rfl
    have h2 := h'.mark_le.trans hs.1.1.2
    omega
  have hx := (h'.step hi ht hr hs).server
  exact hmark ▸ hx.bound ht hr hg hon

theorem online_recent_silent :
    has (silenced.server 0).info.status ssOnline ∧ 22 - silenced.lastSeen ≤ 63 := by
  have hon : has (silenced.server 0).info.status ssOnline := by decide +kernel
  refine ⟨hon, ?_⟩
  have hfirst : TimelyStep Sample.setting 0 Sample.server.macAddr.mac 11
      (start Sample.setting Sample.router (fun _ => false) 0 Sample.server) (.tick 11)
      ((start Sample.setting Sample.router (fun _ => false) 0 Sample.server).exec Sample.setting
        Sample.server.macAddr.mac (.tick 11)) := by
    refine ⟨⟨⟨⟨rfl, by decide +kernel⟩, by decide⟩, rfl⟩, fun t h => ?_⟩
    cases h
    decide
  refine online_recent (Sys.Run.nil.snoc hfirst) rfl (by decide +kernel) (by decide) (by decide)
    (by decide) (by decide) (by decide) (g := 11) (t := 22) ⟨⟨⟨⟨rfl, ?_⟩, ?_⟩, rfl⟩, ?_⟩ hon
  · decide +kernel
  · decide
  · intro t h
    cases h
    decide

end Runs

end Watched

end LcxlNetLoader
