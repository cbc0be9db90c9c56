import LcxlNetLoader.Proofs.Accounting
import LcxlNetLoader.Proofs.Config
import LcxlNetLoader.Proofs.Health
import LcxlNetLoader.Proofs.SharedServers
import LcxlNetLoader.ServerStores

/-!
# The two lists agree

While every request finds what lets the driver follow it, the addresses of the live servers that the
driver has linked or waiting are those in the service's list, and the one a request has just added
to the driver (`InStep`). Nothing waits once the operations are over, so the two lists agree then.
-/

namespace LcxlNetLoader

open Sys

variable {past : ServerPtr → Bool} {now : ℤ} {t t' : ServerTable} {p q : ServerPtr}
  {macAddr : IfPhysicalAddress} {server : LcxlServer}

namespace ServerTable

/-- The addresses of the live servers that are linked or wait to be. -/
def liveMacs (t : ServerTable) : Set (List UInt8) := {v | ∃ p ∈ t.known, t.Live p ∧ t.value p = v}

/-- The servers known, with the addresses they have and whether they are live, are the same. -/
structure Calm (t t' : ServerTable) : Prop where
  list : t'.lst.list = t.lst.list
  toBeAddList : t'.lst.toBeAddList = t.lst.toBeAddList
  next : t'.next = t.next
  macAddr : ∀ p, (t'.mem p).info.macAddr = (t.mem p).info.macAddr
  live : ∀ p, t'.Live p ↔ t.Live p

theorem Calm.known (h : Calm t t') : t'.known = t.known := by
  rw [ServerTable.known, h.list, h.toBeAddList, ServerTable.known]

theorem Calm.value (h : Calm t t') (p : ServerPtr) : t'.value p = t.value p := by
  rw [ServerTable.value, h.macAddr, ServerTable.value]

theorem Calm.liveMacs (h : Calm t t') : t'.liveMacs = t.liveMacs := by
  simp only [ServerTable.liveMacs, h.known, h.live, h.value]

theorem calm_lock (t : ServerTable) : Calm t (lockServerList t) :=
  ⟨rfl, rfl, rfl, fun _ => rfl, fun _ => Iff.rfl⟩

theorem calm_check (cfg : LcxlSetting) (check : LcxlServerCheck) (t : ServerTable) (p : ServerPtr) :
    Calm t (t.modify p fun _ => (checkServer cfg check now (t.mem p)).1) := by
  refine ⟨rfl, rfl, rfl, fun q => ?_, fun q => ?_⟩
  · rw [modify_mem]
    split_ifs with hq
    · rw [checkServer_macAddr, hq]
    · rfl
  · unfold Live
    rw [modify_mem]
    split_ifs with hq
    · rw [(checkServer_counted cfg check now (t.mem p)).2, hq]
    · rfl

/-- The last lock let go takes out what waits to be removed, which none of the live servers do. -/
theorem liveMacs_unlock (h : t.lst.lockCount = 1 → ∀ p ∈ t.lst.toBeDelList, ¬ t.Live p) :
    (unlockServerList t).liveMacs = t.liveMacs := by
  by_cases h1 : t.lst.lockCount = 1
  · have hlst : (unlockServerList t).lst = applyToBe { t.lst with lockCount := 0 } :=
      unlockLcxlList_of_last h1
    ext v
    refine ⟨fun ⟨p, hp, hl, hv⟩ => ⟨p, (LcxlList.known_unlock t.lst).subset hp, hl, hv⟩,
      fun ⟨p, hp, hl, hv⟩ => ⟨p, ?_, hl, hv⟩⟩
    rw [known, hlst, applyToBe_eq, List.append_nil]
    rcases List.mem_append.1 hp with hp | hp
    · exact List.mem_append_left _ (List.mem_diff_of_mem hp fun hd => h h1 p hd hl)
    · exact List.mem_append_right _ hp
  · have hlst : (unlockServerList t).lst = { t.lst with lockCount := t.lst.lockCount - 1 } :=
      unlockLcxlList_of_not_last h1
    simp only [liveMacs, known, hlst]
    rfl

theorem liveMacs_addNewServer (hf : ∀ p ∈ t.known, p < t.next)
    (hl : has server.status ssDeleted = false) :
    (addNewServer now t server).liveMacs = insert server.macAddr.value t.liveMacs := by
  have hknown : ∀ p, p ∈ (addNewServer now t server).known ↔ p = t.next ∨ p ∈ t.known := fun p =>
    (known_addNewServer now t server).mem_iff.trans List.mem_cons
  have hold : ∀ p ∈ t.known, (addNewServer now t server).mem p = t.mem p := fun p hp =>
    addNewServer_mem_of_lt (hf p hp)
  have hnew := addNewServer_info now t server
  ext v
  simp only [liveMacs, Set.mem_ofPred_eq, Set.mem_insert_iff, hknown]
  constructor
  · rintro ⟨p, rfl | hp, hlive, hv⟩
    · rw [value, hnew] at hv
      exact .inl hv.symm
    · rw [Live, hold p hp] at hlive
      rw [value, hold p hp] at hv
      exact .inr ⟨p, hp, hlive, hv⟩
  · rintro (rfl | ⟨p, hp, hlive, hv⟩)
    · exact ⟨t.next, .inl rfl, by rw [Live, hnew, hl], by rw [value, hnew]⟩
    · exact ⟨p, .inr hp, by rw [Live, hold p hp]; exact hlive, by rw [value, hold p hp]; exact hv⟩

theorem overwrite_info (t : ServerTable) (p q : ServerPtr) (server : LcxlServer) :
    ((t.modify p fun s => { s with info := server }).mem q).info
      = if q = p then server else (t.mem q).info := by
  rw [modify_mem]
  split_ifs <;> rfl

/-- A known server overwritten with one of its address. -/
theorem liveMacs_overwrite (hp : p ∈ t.known) (hv : t.value p = server.macAddr.value)
    (hl : has server.status ssDeleted = false) :
    (t.modify p fun s => { s with info := server }).liveMacs
      = insert server.macAddr.value t.liveMacs := by
  ext v
  simp only [liveMacs, Set.mem_ofPred_eq, Set.mem_insert_iff, Live, value, overwrite_info]
  constructor
  · rintro ⟨q, hq, hlive, hqv⟩
    split_ifs at hlive hqv with h
    · exact .inl hqv.symm
    · exact .inr ⟨q, hq, hlive, hqv⟩
  · rintro (rfl | ⟨q, hq, hlive, hqv⟩)
    · exact ⟨p, hp, by rw [if_pos rfl]; exact hl, by rw [if_pos rfl]⟩
    · by_cases h : q = p
      · subst h
        exact ⟨q, hq, by rw [if_pos rfl]; exact hl, by rw [if_pos rfl, ← hqv]; exact hv.symm⟩
      · exact ⟨q, hq, by rw [if_neg h]; exact hlive, by rw [if_neg h]; exact hqv⟩

theorem decRef_toBeAddList (t : ServerTable) (p : ServerPtr) :
    (decRefListEntry t p).lst.toBeAddList = t.lst.toBeAddList := by
  unfold decRefListEntry removeEntryfromLcxlList
  simp only
  split_ifs <;> rfl

theorem decRef_live (t : ServerTable) (p q : ServerPtr) :
    (decRefListEntry t p).Live q ↔ t.Live q := by
  unfold Live
  rw [RefOnly.dec.info q]

theorem decRef_value (t : ServerTable) (p q : ServerPtr) :
    (decRefListEntry t p).value q = t.value q := by
  unfold value
  rw [RefOnly.dec.info q]

/-- A reference given back of a server that is not live. -/
theorem liveMacs_decRef (hp : ¬ t.Live p) : (decRefListEntry t p).liveMacs = t.liveMacs := by
  ext v
  simp only [liveMacs, Set.mem_ofPred_eq, decRef_live, decRef_value]
  refine exists_congr fun q => and_congr_left fun ⟨hl, _⟩ => ?_
  have hq : q ≠ p := fun h => hp (h ▸ hl)
  rw [known, known, List.mem_append, List.mem_append, decRef_toBeAddList, mem_decRefListEntry hq]

/-- A live server marked deleted, the only known one of its address. -/
theorem liveMacs_markDeleted (hp : p ∈ t.known) (hl : t.Live p) (hn : (t.known.map t.value).Nodup) :
    (markDeleted t p).liveMacs = t.liveMacs \ {t.value p} := by
  have hmark : ∀ q, ((t.modify p fun s =>
      { s with info := { s.info with status := s.info.status ||| ssDeleted } }).mem q).info
        = if q = p then { (t.mem q).info with status := (t.mem q).info.status ||| ssDeleted }
          else (t.mem q).info := fun q => by
    rw [modify_mem]
    split_ifs with hq <;> rfl
  have hdead : has ((t.mem p).info.status ||| ssDeleted) ssDeleted = true := by
    rw [has_or]
    simp [has, ssDeleted]
  unfold markDeleted
  rw [if_neg (by simpa [Live] using hl), liveMacs_decRef]
  · ext v
    simp only [liveMacs, Set.mem_ofPred_eq, Set.mem_sdiff, Set.mem_singleton_iff, Live, value,
      hmark]
    constructor
    · rintro ⟨q, hq, hlive, hv⟩
      by_cases h : q = p
      · rw [if_pos h] at hlive
        subst h
        simp [hdead] at hlive
      · rw [if_neg h] at hlive hv
        exact ⟨⟨q, hq, hlive, hv⟩, fun he => h (List.inj_on_of_nodup_map hn hq hp (hv.trans he))⟩
    · rintro ⟨⟨q, hq, hlive, hv⟩, hne⟩
      have h : q ≠ p := fun h => hne (h ▸ hv.symm)
      exact ⟨q, hq, by rw [if_neg h]; exact hlive, by rw [if_neg h]; exact hv⟩
  · unfold Live
    rw [hmark, if_pos rfl, hdead]
    simp

end ServerTable

/-- What `FindServer` gave is still so: a linked server that begins as the address asked for does,
or there is none of that address. -/
structure Answers (t : ServerTable) (macAddr : IfPhysicalAddress) (p : Option ServerPtr) :
    Prop where
  linked : ∀ q, p = some q →
    q ∈ t.lst.list ∧ (t.mem q).info.macAddr.address.toList.take macAddr.length
    = macAddr.address.toList.take macAddr.length
  absent : p = none → ∀ q ∈ t.lst.list, t.value q ≠ macAddr.value

theorem findServer_answers (h : macAddr.length ≤ 32)
    (hs : ∀ q ∈ t.lst.list, (t.mem q).info.macAddr.length ≤ 32) :
    Answers t macAddr (findServer past t macAddr) := by
  refine ⟨fun q hq => ⟨findServer_mem hq, ?_⟩, fun hn q hq hv => ?_⟩
  · have := List.find?_some hq
    simp only [rtlEqualMemory, Bool.and_eq_true, beq_iff_eq] at this
    exact this.1
  · have hsame := (IfPhysicalAddress.same_iff (hs q hq) h).2 hv
    simp only [IfPhysicalAddress.same, Bool.and_eq_true, beq_iff_eq] at hsame
    have := List.find?_eq_none.1 hn q hq
    simp [rtlEqualMemory, h, hsame.2] at this

theorem Answers.calm {p : Option ServerPtr} (h : Answers t macAddr p) (hc : t.Calm t') :
    Answers t' macAddr p := by
  refine ⟨fun q hq => ?_, fun hn q hq => ?_⟩
  · rw [hc.list, hc.macAddr]
    exact h.linked q hq
  · rw [hc.list] at hq
    rw [hc.value]
    exact h.absent hn q hq

/-- A lock let go, if what it lets happen is nothing to the answer. -/
theorem Answers.unlock {p : Option ServerPtr} (h : Answers t macAddr p)
    (hadd : t.lst.lockCount = 1 → t.lst.toBeAddList = [])
    (hdel : t.lst.lockCount = 1 → ∀ q ∈ t.lst.toBeDelList, p ≠ some q) :
    Answers (unlockServerList t) macAddr p := by
  by_cases h1 : t.lst.lockCount = 1
  · have hlist : (unlockServerList t).lst.list = t.lst.list.diff t.lst.toBeDelList := by
      rw [show (unlockServerList t).lst = _ from unlockLcxlList_of_last h1, applyToBe_eq]
      simp [hadd h1]
    refine ⟨fun q hq => ⟨?_, (h.linked q hq).2⟩, fun hn q hq => ?_⟩
    · rw [hlist]
      exact List.mem_diff_of_mem (h.linked q hq).1 fun hd => hdel h1 q hd hq
    · rw [hlist] at hq
      exact h.absent hn q ((List.diff_sublist _ _).subset hq)
  · have hlist : (unlockServerList t).lst.list = t.lst.list := by
      rw [show (unlockServerList t).lst = _ from unlockLcxlList_of_not_last h1]
    refine ⟨fun q hq => ⟨hlist ▸ (h.linked q hq).1, (h.linked q hq).2⟩, fun hn q hq => ?_⟩
    exact h.absent hn q (hlist ▸ hq)

/-- A server that is found and has an address of the length asked for has the address itself. -/
theorem Answers.value (h : Answers t macAddr (some p))
    (hl : (t.mem p).info.macAddr.length = macAddr.length) : t.value p = macAddr.value := by
  rw [ServerTable.value, IfPhysicalAddress.value, hl]
  exact (h.linked p rfl).2

namespace ServerStores

variable {cfg : LcxlSetting} {s : ServerStores} {a : StoreStep} {tr : List StoreStep}
  {serverList : List ConfigServer} {position : ServerPosition}

/-- Where the service is in a request, the live servers' addresses are those in its list, and that
of the server it has added. -/
def Stands (t : ServerTable) (serverList : List ConfigServer) : ServerPosition → Prop
  | .idle => t.liveMacs = {v | v ∈ LcxlConfig.macs serverList}
  | .locked r => r.macAddr.length ≤ 32 ∧ t.liveMacs = {v | v ∈ LcxlConfig.macs serverList}
  | .found r p => r.macAddr.length ≤ 32 ∧ Answers t r.macAddr p
      ∧ t.liveMacs = {v | v ∈ LcxlConfig.macs serverList}
  | .added server => server.macAddr.length ≤ 32
      ∧ t.liveMacs = insert server.macAddr.value {v | v ∈ LcxlConfig.macs serverList}
  | .holding => False

/-- The addresses of the servers known are distinct and fit. -/
structure Distinct (t : ServerTable) : Prop where
  values : (t.known.map t.value).Nodup
  short : ∀ p ∈ t.known, (t.mem p).info.macAddr.length ≤ 32
  fresh : ∀ p ∈ t.known, p < t.next

structure InStep (s : ServerStores) : Prop where
  driver : Distinct s.driver.table
  service : (LcxlConfig.macs s.serverList).Nodup
  short : LcxlConfig.Short s.serverList
  waiting : s.driver.table.lst.toBeAddList ≠ [] →
    s.driver.table.lst.lockCount = s.locks ∧ s.driver.table.lst.lockCount ≠ 0
  worker : s.driver.position .worker = .idle ∨ s.driver.position .worker = .holding
  stands : Stands s.driver.table s.serverList (s.driver.position .service)

theorem Stands.calm (h : Stands t serverList position) (hc : t.Calm t') :
    Stands t' serverList position := by
  cases position with
  | idle => exact hc.liveMacs.trans h
  | locked r => exact ⟨h.1, hc.liveMacs.trans h.2⟩
  | found r p => exact ⟨h.1, h.2.1.calm hc, hc.liveMacs.trans h.2.2⟩
  | added server => exact ⟨h.1, hc.liveMacs.trans h.2⟩
  | holding => exact h

theorem Distinct.calm (h : Distinct t) (hc : t.Calm t') : Distinct t' := by
  refine ⟨?_, fun p hp => ?_, fun p hp => ?_⟩
  · rw [hc.known, funext hc.value]
    exact h.values
  · rw [hc.known] at hp
    rw [hc.macAddr]
    exact h.short p hp
  · rw [hc.known] at hp
    rw [hc.next]
    exact h.fresh p hp

theorem locks_cases (position : ServerPosition) : position.locks = 0 ∨ position.locks = 1 := by
  cases position <;> simp [ServerPosition.locks]

/-- What is one lock more than another count. -/
theorem add_one_ne_zero (position : ServerPosition) : 1 + position.locks ≠ 0 := by
  rcases locks_cases position with h | h <;> rw [h] <;> decide

theorem InStep.request (h : s.InStep) {r : ServerRequest} (hi : s.driver.position .service = .idle)
    (hr : r.macAddr.length ≤ 32) : (s.exec cfg (.request r)).InStep := by
  have hcalm := s.driver.table.calm_lock
  have hs : Stands s.driver.table s.serverList .idle := hi ▸ h.stands
  refine ⟨h.driver.calm hcalm, h.service, h.short, fun hne => ?_, h.worker,
    ⟨hr, hcalm.liveMacs.trans hs⟩⟩
  have hlocks : s.locks = 0 + (s.driver.position .worker).locks := by rw [locks, hi]; rfl
  have hcount : s.driver.table.lst.lockCount + 1 = 1 + (s.driver.position .worker).locks := by
    rw [(h.waiting hne).1, hlocks, UInt8.zero_add, UInt8.add_comm]
  exact ⟨hcount, hcount.trans_ne (add_one_ne_zero _)⟩

theorem InStep.find (h : s.InStep) {r : ServerRequest} (past : ServerPtr → Bool)
    (hi : s.driver.position .service = .locked r) : (s.exec cfg (.find past)).InStep := by
  have hexec : s.exec cfg (.find past) = ⟨s.driver.move .service s.driver.table
      (.found r (findServer past s.driver.table r.macAddr)), s.serverList⟩ := by
    simp only [exec, SharedServers.exec, hi]
  have hs : Stands s.driver.table s.serverList (.locked r) := hi ▸ h.stands
  have hlocks : (s.exec cfg (.find past)).locks = s.locks := by
    rw [hexec, locks, locks, hi]
    rfl
  rw [hexec] at hlocks ⊢
  refine ⟨h.driver, h.service, h.short, fun hne => ?_, h.worker, hs.1, ?_, hs.2⟩
  · rw [hlocks]
    exact h.waiting hne
  · exact findServer_answers hs.1 fun q hq => h.driver.short q (List.mem_append_left _ hq)

theorem InStep.tick (h : s.InStep) (hi : s.driver.position .worker = .idle) :
    (s.exec cfg .tick).InStep := by
  have hcalm := s.driver.table.calm_lock
  refine ⟨h.driver.calm hcalm, h.service, h.short, fun hne => ?_, .inr rfl, h.stands.calm hcalm⟩
  have hlocks : s.locks = (s.driver.position .service).locks + 0 := by rw [locks, hi]; rfl
  have hcount : s.driver.table.lst.lockCount + 1 = 1 + (s.driver.position .service).locks := by
    rw [(h.waiting hne).1, hlocks, UInt8.add_zero, UInt8.add_comm]
  exact ⟨hcount.trans (UInt8.add_comm _ _), hcount.trans_ne (add_one_ne_zero _)⟩

theorem InStep.check (h : s.InStep) (p : ServerPtr) (serverCheck : LcxlServerCheck)
    (timestamp : ℤ) : (s.exec cfg (.check p serverCheck timestamp)).InStep := by
  have hcalm : ServerTable.Calm s.driver.table (s.driver.table.modify p fun _ =>
      (checkServer cfg serverCheck timestamp (s.driver.table.mem p)).1) :=
    ServerTable.calm_check cfg serverCheck s.driver.table p
  exact ⟨h.driver.calm hcalm, h.service, h.short, h.waiting, h.worker, h.stands.calm hcalm⟩

theorem Distinct.unlock (h : Distinct t) : Distinct (unlockServerList t) := by
  have hsub := t.shrinks_unlock.known
  exact ⟨h.values.sublist (hsub.map _), fun p hp => h.short p (hsub.subset hp),
    fun p hp => h.fresh p (hsub.subset hp)⟩

/-- After a lock was let go with something still waiting, it was not the last. -/
theorem waiting_unlock {position : ServerPosition} {l : LcxlList ServerPtr}
    (h : l.toBeAddList ≠ [] → l.lockCount = 1 + position.locks)
    (hne : (unlockLcxlList l).toBeAddList ≠ []) :
    (unlockLcxlList l).lockCount = position.locks ∧ (unlockLcxlList l).lockCount ≠ 0 := by
  by_cases h1 : l.lockCount = 1
  · rw [unlockLcxlList_of_last h1, applyToBe_eq] at hne
    exact absurd rfl hne
  · rw [unlockLcxlList_of_not_last h1] at hne ⊢
    have hcount := h hne
    refine ⟨?_, fun h0 => h1 ?_⟩
    · rw [hcount, UInt8.add_comm]
      simp
    · simpa using UInt8.sub_eq_iff_eq_add.1 h0

theorem InStep.tickEnds (h : s.InStep) (hi : s.driver.position .worker = .holding)
    (hg : s.LetsGo) : (s.exec cfg .tickEnds).InStep := by
  have hlive : (unlockServerList s.driver.table).liveMacs = s.driver.table.liveMacs :=
    ServerTable.liveMacs_unlock fun h1 p hp => (hg h1 p hp).1
  have hcount : s.driver.table.lst.toBeAddList ≠ [] →
      s.driver.table.lst.lockCount = 1 + (s.driver.position .service).locks := fun hne => by
    rw [(h.waiting hne).1, locks, hi, UInt8.add_comm]
    rfl
  refine ⟨h.driver.unlock, h.service, h.short, fun hne => ?_, .inl rfl, ?_⟩
  · obtain ⟨h1, h2⟩ := waiting_unlock hcount hne
    exact ⟨h1.trans (UInt8.add_zero _).symm, h2⟩
  · have hs := h.stands
    change Stands (unlockServerList s.driver.table) s.serverList (s.driver.position .service)
    rcases hpos : s.driver.position .service with _ | r | ⟨r, p⟩ | server | _ <;> rw [hpos] at hs
    · exact hlive.trans hs
    · exact ⟨hs.1, hlive.trans hs.2⟩
    · refine ⟨hs.1, hs.2.1.unlock (fun h1 => ?_) (fun h1 q hq hp => ?_), hlive.trans hs.2.2⟩
      · by_contra hne
        have htwo : (1 : UInt8) = 1 + 1 := by
          simpa [h1, hpos, ServerPosition.locks] using hcount hne
        exact absurd htwo (by decide)
      · exact (hg h1 q hq).2 r (hp ▸ hpos)
    · exact ⟨hs.1, hlive.trans hs.2⟩
    · exact hs

theorem macs_updateServer_set {c : ConfigServer} (hl : LcxlConfig.Short serverList)
    (hm : c.server.macAddr.length ≤ 32) :
    {v | v ∈ LcxlConfig.macs (LcxlConfig.updateServer serverList c)}
      = insert c.server.macAddr.value {v | v ∈ LcxlConfig.macs serverList} := by
  rw [LcxlConfig.macs_updateServer hl hm]
  ext v
  split_ifs with h
  · refine ⟨.inr, ?_⟩
    rintro (rfl | hv)
    · exact h
    · exact hv
  · simp [or_comm]

theorem nodup_updateServer {c : ConfigServer} (hn : (LcxlConfig.macs serverList).Nodup)
    (hl : LcxlConfig.Short serverList) (hm : c.server.macAddr.length ≤ 32) :
    (LcxlConfig.macs (LcxlConfig.updateServer serverList c)).Nodup := by
  rw [LcxlConfig.macs_updateServer hl hm]
  split_ifs with h
  · exact hn
  · simpa using List.Nodup.concat h hn

theorem InStep.finish (h : s.InStep) (comment : WideText)
    (hi : s.driver.position .service = .added server) (hg : s.LetsGo) :
    (s.exec cfg (.finish comment)).InStep := by
  have hexec : s.exec cfg (.finish comment) =
      ⟨s.driver.move .service (unlockServerList s.driver.table) .idle,
        LcxlConfig.updateServer s.serverList ⟨server, comment⟩⟩ := by
    simp only [exec, SharedServers.exec, hi]
  have hs : Stands s.driver.table s.serverList (.added server) := hi ▸ h.stands
  have hlive : (unlockServerList s.driver.table).liveMacs = s.driver.table.liveMacs :=
    ServerTable.liveMacs_unlock fun h1 p hp => (hg h1 p hp).1
  have hcount : s.driver.table.lst.toBeAddList ≠ [] →
      s.driver.table.lst.lockCount = 1 + (s.driver.position .worker).locks := fun hne => by
    rw [(h.waiting hne).1, locks, hi]
    rfl
  rw [hexec]
  refine ⟨h.driver.unlock, nodup_updateServer h.service h.short hs.1,
    LcxlConfig.short_updateServer h.short hs.1, fun hne => ?_, h.worker, ?_⟩
  · obtain ⟨h1, h2⟩ := waiting_unlock hcount hne
    exact ⟨h1.trans (UInt8.zero_add _).symm, h2⟩
  · have hset := macs_updateServer_set (c := ⟨server, comment⟩) h.short hs.1
    exact hlive.trans (hs.2.trans hset.symm)

theorem macs_removeServer_set (hn : (LcxlConfig.macs serverList).Nodup)
    (hl : LcxlConfig.Short serverList) (hm : macAddr.length ≤ 32) :
    {v | v ∈ LcxlConfig.macs (LcxlConfig.removeServer serverList macAddr).1}
      = {v | v ∈ LcxlConfig.macs serverList} \ {macAddr.value} := by
  rw [LcxlConfig.macs_removeServer hl hm]
  ext v
  simp [hn.mem_erase_iff, and_comm]

theorem nodup_removeServer (hn : (LcxlConfig.macs serverList).Nodup)
    (hl : LcxlConfig.Short serverList) (hm : macAddr.length ≤ 32) :
    (LcxlConfig.macs (LcxlConfig.removeServer serverList macAddr).1).Nodup := by
  rw [LcxlConfig.macs_removeServer hl hm]
  exact hn.erase _

theorem Distinct.add (h : Distinct t) (hm : server.macAddr.length ≤ 32)
    (hnew : ∀ p ∈ t.known, t.value p ≠ server.macAddr.value) :
    Distinct (addNewServer now t server) := by
  have hknown := ServerTable.known_addNewServer now t server
  have hinfo := ServerTable.addNewServer_info now t server
  have hold : ∀ p ∈ t.known, (addNewServer now t server).mem p = t.mem p := fun p hp =>
    ServerTable.addNewServer_mem_of_lt (h.fresh p hp)
  refine ⟨?_, fun p hp => ?_, fun p hp => ?_⟩
  · have hmap : t.known.map (addNewServer now t server).value = t.known.map t.value :=
      List.map_congr_left fun p hp => by rw [ServerTable.value, hold p hp, ServerTable.value]
    rw [(hknown.map _).nodup_iff, List.map_cons, hmap, List.nodup_cons]
    refine ⟨fun hv => ?_, h.values⟩
    obtain ⟨p, hp, hv⟩ := List.mem_map.1 hv
    exact hnew p hp (hv.trans (by rw [ServerTable.value, hinfo]))
  · rcases List.mem_cons.1 (hknown.subset hp) with rfl | hp
    · rw [hinfo]
      exact hm
    · rw [hold p hp]
      exact h.short p hp
  · rcases List.mem_cons.1 (hknown.subset hp) with rfl | hp
    · exact Nat.lt_succ_self _
    · exact (h.fresh p hp).trans (Nat.lt_succ_self _)

theorem Distinct.overwrite (h : Distinct t) (hm : server.macAddr.length ≤ 32)
    (hv : t.value p = server.macAddr.value) :
    Distinct (t.modify p fun s => { s with info := server }) := by
  have hval : (t.modify p fun s => { s with info := server }).value = t.value := by
    funext q
    rw [ServerTable.value, ServerTable.overwrite_info]
    split_ifs with hq
    · rw [hq, hv]
    · rfl
  refine ⟨?_, fun q hq => ?_, h.fresh⟩
  · rw [hval]
    exact h.values
  · rw [ServerTable.overwrite_info]
    split_ifs
    · exact hm
    · exact h.short q hq

theorem markDeleted_macAddr (t : ServerTable) (p q : ServerPtr) :
    ((markDeleted t p).mem q).info.macAddr = (t.mem q).info.macAddr := by
  unfold markDeleted
  split_ifs
  · rfl
  · rw [RefOnly.dec.info q, ServerTable.modify_mem]
    split_ifs <;> rfl

theorem markDeleted_toBeAddList (t : ServerTable) (p : ServerPtr) :
    (markDeleted t p).lst.toBeAddList = t.lst.toBeAddList := by
  unfold markDeleted
  split_ifs
  · rfl
  · exact ServerTable.decRef_toBeAddList _ p

theorem Distinct.markDeleted (h : Distinct t) (p : ServerPtr) : Distinct (markDeleted t p) := by
  have hsub := (t.shrinks_markDeleted p).known
  have hval : (LcxlNetLoader.markDeleted t p).value = t.value := funext fun q => by
    rw [ServerTable.value, markDeleted_macAddr, ServerTable.value]
  refine ⟨?_, fun q hq => ?_, fun q hq => ?_⟩
  · rw [hval]
    exact h.values.sublist (hsub.map _)
  · rw [markDeleted_macAddr]
    exact h.short q (hsub.subset hq)
  · rw [(t.shrinks_markDeleted p).next]
    exact h.fresh q (hsub.subset hq)

theorem InStep.writeAdd (h : s.InStep) {p : Option ServerPtr} (now : ℤ)
    (hi : s.driver.position .service = .found (.add server) p) (hf : s.Follows (.add server) p) :
    (s.exec cfg (.write now)).InStep := by
  obtain ⟨hm, hans, hlive⟩ : Stands s.driver.table s.serverList (.found (.add server) p) :=
    hi ▸ h.stands
  have hlocks : s.locks = 1 + (s.driver.position .worker).locks := by rw [locks, hi]; rfl
  have hexec : s.exec cfg (.write now) =
      ⟨s.driver.move .service ((ServerRequest.add server).write now s.driver.table p).1
        ((ServerRequest.add server).write now s.driver.table p).2, s.serverList⟩ := by
    simp only [exec, SharedServers.exec, hi]
  rw [hexec]
  rcases p with _ | p
  · obtain ⟨hwait, hcount⟩ := hf.2.2 rfl
    have hnew : ∀ q ∈ s.driver.table.known, s.driver.table.value q ≠ server.macAddr.value :=
      fun q hq => (List.mem_append.1 hq).elim (hans.absent rfl q) (hwait q)
    refine ⟨h.driver.add hm hnew, h.service, h.short, fun _ => ?_, h.worker, hm, ?_⟩
    · have hsame : (addNewServer now s.driver.table server).lst.lockCount = s.locks :=
        (addEntrytoLcxlList_lockCount _ _).trans hcount
      exact ⟨hsame.trans hlocks, (hsame.trans hlocks).trans_ne (add_one_ne_zero _)⟩
    · rw [← hlive]
      exact ServerTable.liveMacs_addNewServer h.driver.fresh hf.2.1
  · have hv := hans.value (hf.1 p rfl)
    have hp : p ∈ s.driver.table.known := List.mem_append_left _ (hans.linked p rfl).1
    refine ⟨h.driver.overwrite hm hv, h.service, h.short, fun hne => ?_, h.worker, hm, ?_⟩
    · obtain ⟨h1, h2⟩ := h.waiting hne
      exact ⟨h1.trans hlocks, h2⟩
    · rw [← hlive]
      exact ServerTable.liveMacs_overwrite hp hv hf.2.1

theorem InStep.writeDel (h : s.InStep) {p : Option ServerPtr} (now : ℤ)
    (hi : s.driver.position .service = .found (.del macAddr) p) (hf : s.Follows (.del macAddr) p) :
    (s.exec cfg (.write now)).InStep := by
  obtain ⟨hm, hans, hlive⟩ : Stands s.driver.table s.serverList (.found (.del macAddr) p) :=
    hi ▸ h.stands
  have hexec : s.exec cfg (.write now) =
      ⟨s.driver.move .service ((ServerRequest.del macAddr).write now s.driver.table p).1
        ((ServerRequest.del macAddr).write now s.driver.table p).2, s.afterDel macAddr p⟩ := by
    simp only [exec, SharedServers.exec, hi]
  have hadd : s.driver.table.lst.toBeAddList = [] := hf.2
  have hremoved := macs_removeServer_set h.service h.short hm
  rw [hexec]
  rcases p with _ | p
  · -- Nothing is linked or waits of that address, and so the service has none to remove.
    have hnone : macAddr.value ∉ s.driver.table.liveMacs := by
      rintro ⟨q, hq, -, hv⟩
      rw [ServerTable.known, hadd, List.append_nil] at hq
      exact hans.absent rfl q hq hv
    refine ⟨h.driver, nodup_removeServer h.service h.short hm,
      LcxlConfig.short_removeServer h.short, fun hne => absurd hadd hne, h.worker, ?_⟩
    refine Eq.trans ?_ hremoved.symm
    rw [← show _ = _ from hlive]
    exact (Set.sdiff_singleton_eq_self hnone).symm
  · have hv := hans.value (hf.1 p rfl)
    have hp : p ∈ s.driver.table.known := List.mem_append_left _ (hans.linked p rfl).1
    have hwait : (markDeleted s.driver.table p).lst.toBeAddList = [] :=
      (markDeleted_toBeAddList s.driver.table p).trans hadd
    by_cases hl : s.driver.table.Live p
    · have hafter : s.afterDel macAddr (some p)
          = (LcxlConfig.removeServer s.serverList macAddr).1 :=
        if_neg (by simpa [ServerTable.Live] using hl)
      rw [hafter]
      refine ⟨h.driver.markDeleted p, nodup_removeServer h.service h.short hm,
        LcxlConfig.short_removeServer h.short, fun hne => absurd hwait hne, h.worker, ?_⟩
      refine (ServerTable.liveMacs_markDeleted hp hl h.driver.values).trans ?_
      rw [hv, show s.driver.table.liveMacs = _ from hlive]
      exact hremoved.symm
    · have hd : has (s.driver.table.mem p).info.status ssDeleted := by
        simpa [ServerTable.Live] using hl
      have hafter : s.afterDel macAddr (some p) = s.serverList := if_pos hd
      have hsame : markDeleted s.driver.table p = s.driver.table := if_pos hd
      rw [hafter]
      refine ⟨h.driver.markDeleted p, h.service, h.short, fun hne => absurd hwait hne, h.worker, ?_⟩
      exact (congrArg _ hsame).trans hlive

theorem InStep.step (h : s.InStep) (he : s.Enabled a) (hk : s.KeepsUp a) :
    (s.exec cfg a).InStep := by
  cases a with
  | request r => exact h.request he.1 he.2
  | find past => exact h.find past he.choose_spec
  | write now =>
    obtain ⟨r, p, hp⟩ := he
    cases r with
    | add server => exact h.writeAdd now hp (hk _ _ hp)
    | del macAddr => exact h.writeDel now hp (hk _ _ hp)
  | finish comment => exact h.finish comment he.choose_spec hk
  | tick => exact h.tick he
  | check p serverCheck timestamp => exact h.check p serverCheck timestamp
  | tickEnds => exact h.tickEnds he hk

theorem serviceMacs_eq (s : ServerStores) :
    s.serviceMacs = {v | v ∈ LcxlConfig.macs s.serverList} := by
  ext v
  simp [serviceMacs, LcxlConfig.macs]

/-- Where nothing waits to be added, the known servers are the linked ones. -/
theorem driverMacs_eq (h : s.driver.table.lst.toBeAddList = []) :
    s.driverMacs = s.driver.table.liveMacs := by
  rw [driverMacs, ServerTable.liveMacs, ServerTable.known, h, List.append_nil]

theorem Start.inStep (h : s.Start) : s.InStep := by
  have hknown : s.driver.table.known = s.driver.table.lst.list := by
    rw [ServerTable.known, h.toBeAddList, List.append_nil]
  refine ⟨⟨hknown ▸ h.values, fun p hp => ?_, hknown ▸ h.fresh⟩, h.serviceValues, fun c hc => ?_,
    fun hne => absurd h.toBeAddList hne, .inl (h.rest .worker), ?_⟩
  · rw [h.six p (hknown ▸ hp)]
    decide
  · rw [h.serviceSix c hc]
    decide
  · rw [h.rest .service]
    exact (driverMacs_eq h.toBeAddList).symm.trans (h.macs.symm.trans s.serviceMacs_eq)

/-- Once no operation is in progress nothing waits to be added, and the two lists have the same
addresses. -/
theorem InStep.agree (h : s.InStep) (hr : s.AtRest) : s.serviceMacs = s.driverMacs := by
  have hadd : s.driver.table.lst.toBeAddList = [] := by
    by_contra hne
    obtain ⟨h1, h2⟩ := h.waiting hne
    rw [locks, hr .service, hr .worker] at h1
    exact h2 h1
  have hs : Stands s.driver.table s.serverList .idle := hr .service ▸ h.stands
  rw [driverMacs_eq hadd, s.serviceMacs_eq]
  exact Eq.symm hs

/-- After every sequence of requests, however the ticks of the worker thread come in between, in
which each request finds what lets the driver follow the service, the service's list and the
driver's have the same addresses once no operation is in progress. -/
theorem macs_agree (cfg : LcxlSetting) (h : s.Start) (he : Allowed Enabled (exec cfg) s tr)
    (hk : Allowed KeepsUp (exec cfg) s tr) (hr : (tr.foldl (exec cfg) s).AtRest) :
    (tr.foldl (exec cfg) s).serviceMacs = (tr.foldl (exec cfg) s).driverMacs :=
  (Allowed.keeps (I := InStep) (fun _ _ h he hk => h.step he hk) h.inStep he hk).agree hr

/-- The sample server is the only one, in both lists. -/
def oneServer : ServerStores where
  driver := {
    table := ⟨linkEntry initLcxlList 0, fun _ => { allocServer 0 with info := Sample.server }, 1⟩
    position := fun _ => .idle }
  serverList := [⟨Sample.server, ⟨[], List.not_mem_nil⟩⟩]

def otherServer : LcxlServer :=
  { Sample.server with macAddr := ⟨6, (Bytes.zero 32).move [2, 0, 0, 0, 0, 8]⟩ }

theorem oneServer_start : oneServer.Start := by
  refine ⟨fun _ => rfl, rfl, rfl, rfl, ?_, ?_, ?_, ?_, ?_, ?_⟩
  · simp [oneServer, linkEntry, initLcxlList]
  · simp [oneServer, Sample.server, Sample.serverMac]
  · simp [oneServer, Sample.server, Sample.serverMac]
  · exact List.nodup_singleton _
  · exact List.nodup_singleton _
  · have hlive : has Sample.server.status ssDeleted = false := rfl
    ext v
    simp [serviceMacs, driverMacs, oneServer, linkEntry, initLcxlList, ServerTable.Live,
      ServerTable.value, hlive]

/-- One more server is added while the worker thread holds the list. -/
def addingDuringTick : List StoreStep :=
  [.tick, .request (.add otherServer), .find fun _ => false, .write 0,
    .finish ⟨[], List.not_mem_nil⟩, .tickEnds]

theorem macs_agree_added :
    (addingDuringTick.foldl (exec Sample.setting) oneServer).driver.table.lst.list = [0, 1]
      ∧ (addingDuringTick.foldl (exec Sample.setting) oneServer).serviceMacs
        = (addingDuringTick.foldl (exec Sample.setting) oneServer).driverMacs := by
  have he : Allowed Enabled (exec Sample.setting) oneServer addingDuringTick :=
    ⟨rfl, ⟨rfl, by decide⟩, ⟨_, rfl⟩, ⟨_, _, rfl⟩, ⟨_, rfl⟩, rfl, trivial⟩
  have hk : Allowed KeepsUp (exec Sample.setting) oneServer addingDuringTick := by
    refine ⟨trivial, trivial, trivial, fun r p hp => ?_, fun _ q hq => ?_, fun _ q hq => ?_,
      trivial⟩
    · cases hp
      exact ⟨fun _ hq => (Option.not_mem_none _ hq).elim, rfl, fun _ =>
        ⟨fun _ hq => (List.not_mem_nil hq).elim, rfl⟩⟩
    · cases hq
    · cases hq
  have hr : (addingDuringTick.foldl (exec Sample.setting) oneServer).AtRest := by
    intro i
    cases i <;> rfl
  exact ⟨by decide +kernel, macs_agree _ oneServer_start he hk hr⟩

/-- The deletion of one server leaves the list locked, so that the next one added waits for ever. -/
theorem not_macs_agree_of_deleted : ¬ ∀ (cfg : LcxlSetting) (s : ServerStores)
    (tr : List StoreStep), s.Start → Allowed Enabled (exec cfg) s tr →
      (tr.foldl (exec cfg) s).AtRest →
        (tr.foldl (exec cfg) s).serviceMacs = (tr.foldl (exec cfg) s).driverMacs := by
  intro h
  have he : Allowed Enabled (exec Sample.setting) oneServer
      [.request (.del Sample.serverMac), .find fun _ => false, .write 0,
        .request (.add otherServer), .find fun _ => false, .write 0,
        .finish ⟨[], List.not_mem_nil⟩] :=
    ⟨⟨rfl, by decide⟩, ⟨_, rfl⟩, ⟨_, _, rfl⟩, ⟨rfl, by decide⟩, ⟨_, rfl⟩, ⟨_, _, rfl⟩, ⟨_, rfl⟩,
      trivial⟩
  have heq := Set.ext_iff.1 (h _ _ _ oneServer_start he fun i => by cases i <;> rfl)
    otherServer.macAddr.value
  obtain ⟨p, hp, hlive, -⟩ := heq.1
    ⟨⟨otherServer, ⟨[], List.not_mem_nil⟩⟩, List.mem_singleton_self _, rfl⟩
  obtain rfl : p = 0 := List.mem_singleton.1 hp
  cases hlive

end ServerStores

end LcxlNetLoader
