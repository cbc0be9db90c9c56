import LcxlNetLoader.Exchange
import LcxlNetLoader.Proofs.Dispatch
import LcxlNetLoader.Proofs.HandedOn
import LcxlNetLoader.Proofs.Health

/-!
# Requests and responses

Any frame `CreateCheckingNBL` builds is read back as it was written. A module that a chain of such
frames reaches hears them one after the other, and answers the requests among them, so over a run
there are as many answers as requests that reached a running module.
-/

namespace LcxlNetLoader

variable {cfg : LcxlSetting} {f : LcxlFilter} {fr : Frame} {amb : Ambient} {now : ℤ} {c : Checking}

section Format

namespace Frame

/-- The checking frame is one that the handler takes for one. -/
structure Recognised (fr : Frame) : Prop extends fr.Untagged where
  checking : ntohs (u16OfBytes (fr.byte 12) (fr.byte 13)) = ethernetTypeLcxlChecking
  complete : 14 + sizeofLcxlCheckingHeader ≤ fr.dataLength

end Frame

variable (a : IfPhysicalAddress) {destMac : List UInt8} (code : UInt16)
  (performance : LcxlServerPerformance)

theorem createCheckingNBL_recognised (a destMac : List UInt8) :
    (createCheckingNBL a destMac code performance).Recognised := by
  have htype : ntohs (u16OfBytes ((createCheckingNBL a destMac code performance).byte 12)
      ((createCheckingNBL a destMac code performance).byte 13)) = ethernetTypeLcxlChecking :=
    show ntohs (u16OfBytes (ntohs ethernetTypeLcxlChecking).toUInt8
      (ntohs ethernetTypeLcxlChecking >>> 8).toUInt8) = _ by decide
  have hlen : (createCheckingNBL a destMac code performance).dataLength = 64 := rfl
  refine ⟨⟨?_, ?_⟩, htype, ?_⟩
  · rw [hlen]
    decide
  · rw [htype]
    decide
  · rw [hlen]
    decide

theorem createCheckingNBL_destMac (hd : destMac.length = 6) :
    (createCheckingNBL a.mac destMac code performance).slice 0 6 = destMac := by
  unfold createCheckingNBL
  simp only
  rw [Frame.slice_write_of_le (by omega), Frame.slice_write_of_le (by omega),
    Frame.slice_write_of_le (by omega), ← hd, Frame.slice_write]

/-- A checking frame says what it was made to say. -/
theorem createCheckingNBL_checking (hd : destMac.length = 6) :
    (createCheckingNBL a.mac destMac code performance).checking
      = ⟨code, performance.toList, a.mac⟩ := by
  have ha := length_mac a
  unfold Frame.checking
  congr 1
  · exact u16OfBytes_u16Bytes code
  · have hp : performance.toList.length = 40 := performance.toList_length
    unfold createCheckingNBL
    simp only
    generalize performance.toList = bs at hp ⊢
    rw [← hp, Frame.slice_write]
  · unfold createCheckingNBL
    simp only
    rw [Frame.slice_write_of_le (by omega), Frame.slice_write_of_le (by omega),
      Frame.slice_write_of_le (by omega), Frame.slice_write_of_ge (by omega), ← ha,
      Frame.slice_write]

theorem Frame.Recognised.processed (cfg : LcxlSetting) (f : LcxlFilter) (amb : Ambient)
    (h : fr.Recognised) : fr.processed cfg f true amb =
    (f.hear amb.now fr.checking,
      if fr.checking.code = checkingCodeRequest then
        { ProcessNblResult.zero with code := .checkingNbl }
      else .zero) := by
  have hd := Frame.getEthernetData_untagged h.toUntagged
  rw [h.checking] at hd
  have hc := h.complete
  rw [Frame.processed_of_checking hd, if_pos (by omega), processCheckingNBL_recv]

end Format

section Hearing

theorem response_hear (f : LcxlFilter) (now : ℤ) (c c' : Checking) :
    (f.hear now c).response c' = f.response c' := by
  obtain ⟨t, ht⟩ := hear_eq f now c
  rw [ht]
  rfl

/-- A request has a response made, to where it came from. -/
theorem receiveFrame_recognised (cfg : LcxlSetting) (f : LcxlFilter) (amb : Ambient)
    (h : fr.Recognised) : receiveFrame cfg f fr amb =
    (f.hear amb.now fr.checking, if fr.isRequest then .checkingNbl else .pass,
      if fr.isRequest then some (.send (f.response fr.checking)) else none) := by
  have hp := h.processed cfg f amb
  unfold Frame.processed at hp
  unfold receiveFrame
  rw [hp]
  by_cases hc : fr.checking.code = checkingCodeRequest
  · have hr : fr.isRequest = true := by simpa [Frame.isRequest] using hc
    simp only [hc, hr, if_true]
    rw [← response_hear f amb.now fr.checking]
    rfl
  · have hr : fr.isRequest = false := by simpa [Frame.isRequest] using hc
    simp only [hc, hr, if_false, Bool.false_eq_true]
    rfl

/-- The server heard of is up, and is as a response says. -/
theorem heard_of_linked (hr : f.module.lcxlRole = roleRouter) (hl : c.source.length = 6)
    (hp : c.performance.length = 40) {p : ServerPtr} (hm : p ∈ f.module.serverList.lst.list)
    (hs : (f.module.serverList.mem p).info.macAddr.mac = c.source) :
    ∃ q, f.sender c = some q ∧ Heard f now c q := by
  obtain ⟨q, hq⟩ : ∃ q, f.sender c = some q := by
    unfold LcxlFilter.sender
    rw [if_pos hr, findServer_mac _ hl]
    refine Option.ne_none_iff_exists'.1 fun hn => ?_
    have := List.head?_eq_none_iff.1 hn
    exact List.not_mem_nil (this ▸ List.mem_filter.2 ⟨hm, by simpa using hs⟩)
  have hq' := hq
  unfold LcxlFilter.sender at hq'
  rw [if_pos hr, findServer_mac _ hl] at hq'
  obtain ⟨hqm, hqs⟩ := List.mem_filter.1 (List.mem_of_head? hq')
  have hmem : (f.hear now c).module.serverList.mem
      = ((lockServerList f.module.serverList).modify q (·.heard now c)).mem := by
    unfold LcxlFilter.hear
    rw [if_pos hr, hq]
    rfl
  have hheard : (f.hear now c).module.serverList.mem q
      = (f.module.serverList.mem q).heard now c := by
    rw [hmem, ServerTable.modify_mem_same]
    rfl
  refine ⟨q, hq, hqm, by simpa using hqs, ?_, ?_, fun hc => ?_, fun r hne => ?_⟩
  · rw [hheard]
    show has (((f.module.serverList.mem q).info.status ||| ssOnline) &&& ~~~ssChecking) ssOnline
    rw [has_and_of_keep (by decide), has_or, Bool.or_eq_true]
    exact .inr rfl
  · rw [hheard]
    show ¬ has (((f.module.serverList.mem q).info.status ||| ssOnline) &&& ~~~ssChecking)
      ssChecking
    rw [has_and_of_clear (by decide)]
    exact Bool.false_ne_true
  · rw [hheard]
    unfold ServerInfoListEntry.heard
    rw [hc]
    exact toList_move _ hp
  · rw [hmem, ServerTable.modify_mem_of_ne hne]
    rfl

end Hearing

section Chain

variable {c : ReceiveCall} {frs : List Frame}

theorem isChecking_recognised (h : fr.IsChecking) : fr.Recognised := by
  obtain ⟨a, d, code, performance, rfl⟩ := h
  exact createCheckingNBL_recognised code performance a.mac d.toList

/-- A chain of checking frames: they are heard in turn, all of them go up, and each request is
answered. -/
theorem receive_checking (cfg : LcxlSetting) (amb : NblPtr → Ambient) (h : NblHeap)
    {xs : List NblPtr} {frs : List Frame} (f : LcxlFilter) (hx : xs.map h.frame = frs.map some)
    (hr : ∀ fr ∈ frs, fr.Recognised) :
    (receiveVerdict cfg amb h).after f xs
        = f.hearAll (List.zipWith (fun x fr => ((amb x).now, fr.checking)) xs frs)
      ∧ (receiveVerdict cfg amb h).owns (receiveOwn cfg amb h) f xs
        = (frs.filter Frame.isRequest).map fun fr => .send (f.response fr.checking) := by
  induction frs generalizing xs f with
  | nil =>
    obtain rfl := List.map_eq_nil_iff.1 hx
    exact ⟨rfl, rfl⟩
  | cons fr frs ih =>
    obtain ⟨x, xs, rfl, hfr, hxs⟩ := List.map_eq_cons_iff.1 hx
    have hrec := receiveFrame_recognised cfg f (amb x) (hr fr List.mem_cons_self)
    obtain ⟨hafter, howns⟩ := ih (f.hear (amb x).now fr.checking) hxs
      fun g hg => hr g (List.mem_cons_of_mem fr hg)
    have hv : (receiveVerdict cfg amb h f x).1 = f.hear (amb x).now fr.checking := by
      simp only [receiveVerdict, receiveNbl, hfr, hrec]
    have ho : receiveOwn cfg amb h f x
        = if fr.isRequest then some (.send (f.response fr.checking)) else none := by
      simp only [receiveOwn, receiveNbl, hfr, hrec]
    refine ⟨?_, ?_⟩
    · simp only [Verdict.after, List.foldl_cons, hv, List.zipWith_cons_cons, LcxlFilter.hearAll]
      exact hafter
    · simp only [Verdict.owns, hv, ho, howns, response_hear, List.filter_cons]
      split_ifs <;> rfl

/-- What a call that brings checking frames does to a running module. -/
theorem answers_of_brings (cfg : LcxlSetting) (hf : f.state = .running) (hb : c.Brings frs)
    (hc : ∀ fr ∈ frs, fr.IsChecking) : AnswersChecking cfg f c frs := by
  obtain ⟨hafter, howns⟩ := receive_checking cfg c.amb c.heap f hb fun fr hm =>
    isChecking_recognised (hc fr hm)
  obtain ⟨ss, rs, ho, hs, hsilent⟩ := receive_sent cfg c.amb c.left c.portNumber
    (UInt32.ofNat c.nbls.length) c.receiveFlags c.chain le_rfl c.alloc hf
  rw [howns] at ho
  refine ⟨?_, fun hn => hsilent ?_, ?_⟩
  · show ((c.result cfg f).nbls NdisRoutine.isSend).filterMap _ = _
    rw [ReceiveCall.result, hs, ho.sent_frames, List.filterMap_map]
    exact List.filterMap_eq_map.symm ▸ rfl
  · have hnone : frs.filter Frame.isRequest = [] := List.filter_eq_nil_iff.2 hn
    rw [hnone] at ho
    exact List.map_eq_nil_iff.1 ho.sent
  · show (filterReceiveNetBufferLists cfg c.amb c.left c.nbls.length f c.heap c.netBufferLists
      c.portNumber (UInt32.ofNat c.nbls.length) c.receiveFlags).filter.module = _
    rw [receive_filter cfg c.amb c.left c.portNumber _ c.chain le_rfl c.alloc hf, hafter]
    split_ifs <;> rfl

/-- A module that is not running sends nothing and stays as it is. -/
theorem result_of_not_running (c : ReceiveCall) (cfg : LcxlSetting) (hf : f.state ≠ .running) :
    (c.result cfg f).sentFrames = [] ∧ (c.result cfg f).filter = f := by
  unfold ReceiveCall.result filterReceiveNetBufferLists
  simp only []
  rw [if_pos hf]
  split_ifs <;> exact ⟨rfl, rfl⟩

end Chain

section Runs

open Wire

variable {ι : Type*} [DecidableEq ι] {w : Wire ι} {e : WireEvent ι}

theorem isChecking_create (a : IfPhysicalAddress) {destMac : List UInt8} (hd : destMac.length = 6)
    (code : UInt16) (performance : LcxlServerPerformance) :
    (createCheckingNBL a.mac destMac code performance).IsChecking :=
  ⟨a, ⟨destMac, hd⟩, code, performance, rfl⟩

theorem checkServersLoop_isChecking (cfg : LcxlSetting) (m : LcxlModuleSettingInfo) (now : ℤ) :
    ∀ (ps : List ServerPtr) (t : ServerTable), ∀ fr ∈ (checkServersLoop cfg m now ps t).2,
      fr.IsChecking
  | [], _, fr, h => by simp [checkServersLoop] at h
  | p :: ps, t, fr, h => by
    have ih := checkServersLoop_isChecking cfg m now ps
      (t.modify p fun _ => (checkServer cfg m.serverCheck now (t.mem p)).1)
    simp only [checkServersLoop] at h
    split_ifs at h
    · rcases List.mem_cons.1 h with rfl | h
      · exact isChecking_create _ (length_mac _) _ _
      · exact ih fr h
    · exact ih fr h

theorem workerTick_isChecking (cfg : LcxlSetting) (f : LcxlFilter) (now : ℤ) :
    ∀ fr ∈ (workerTick cfg f now).2, fr.IsChecking := by
  unfold workerTick
  split_ifs
  · exact checkServersLoop_isChecking cfg f.module now _ _
  · simp

/-- Only checking frames are on their way, and every request that reached a running module was
answered once. -/
structure Balanced (w : Wire ι) : Prop where
  flight : ∀ fr ∈ w.flight, fr.IsChecking
  answered : w.answered = w.asked

theorem Balanced.deliver {i : ι} {call : ReceiveCall} {frs rest : List Frame} (h : Balanced w)
    (hb : call.Brings frs) (hp : w.flight.Perm (frs ++ rest)) :
    Balanced (w.exec cfg (.deliver i call frs rest)) := by
  have hflight : ∀ fr ∈ frs ++ rest, fr.IsChecking := fun fr hm => h.flight fr (hp.mem_iff.2 hm)
  have hfrs : ∀ fr ∈ frs, fr.IsChecking := fun fr hm => hflight fr (List.mem_append_left rest hm)
  by_cases hf : (w.filter i).state = .running
  · have hsent := (answers_of_brings cfg hf hb hfrs).sent
    refine ⟨fun fr hm => ?_, ?_⟩
    · simp only [exec, hsent] at hm
      rcases List.mem_append.1 hm with hm | hm
      · obtain ⟨g, hg, rfl⟩ := List.mem_map.1 hm
        exact isChecking_create _ (by simp [Frame.checking, Frame.slice]) _ _
      · exact hflight fr (List.mem_append_right frs hm)
    · simp only [exec, hsent, hf, if_true, h.answered, List.length_map,
        List.countP_eq_length_filter]
  · have hsent := (result_of_not_running call cfg hf).1
    refine ⟨fun fr hm => ?_, ?_⟩
    · simp only [exec, hsent] at hm
      exact hflight fr (List.mem_append_right frs hm)
    · simp only [exec, hsent, hf, if_false, h.answered, List.length_nil]

theorem Balanced.step (h : Balanced w) (he : w.Enabled e) : Balanced (w.exec cfg e) := by
  cases e with
  | create i destMac code performance =>
    refine ⟨fun fr hm => ?_, h.answered⟩
    rcases List.mem_cons.1 hm with rfl | hm
    · exact isChecking_create _ destMac.toList_length _ _
    · exact h.flight fr hm
  | tick i now =>
    refine ⟨fun fr hm => ?_, h.answered⟩
    exact (List.mem_append.1 hm).elim (workerTick_isChecking cfg _ now fr) (h.flight fr)
  | deliver i call frs rest => exact h.deliver he.1 he.2
  | duplicate fr =>
    refine ⟨fun g hm => ?_, h.answered⟩
    rcases List.mem_cons.1 hm with rfl | hm
    · exact h.flight _ he
    · exact h.flight g hm
  | lose fr rest =>
    exact ⟨fun g hm => h.flight g (he.mem_iff.2 (List.mem_cons_of_mem fr hm)), h.answered⟩
  | other i f => exact ⟨h.flight, h.answered⟩

theorem balanced_of_run {filter : ι → LcxlFilter} {tr : List (WireEvent ι)}
    (hr : Sys.Run (Step cfg) (start filter) tr w) : Balanced w := by
  refine hr.preserves (I := Balanced) (fun hb hs => ?_) ⟨by simp [start], rfl⟩
  obtain ⟨he, rfl⟩ := hs
  exact hb.step he

/-- A frame that `CreateCheckingNBL` builds is read back as it was written. In any run of modules
each request that reaches one that is running is answered once, to where it came from and with what
the module's performance is then, and nothing else is. A router's server is up once it is heard
of, and is as its response says. -/
theorem checking_exchange (ι : Type*) [DecidableEq ι] (cfg : LcxlSetting) :
    (∀ (a : IfPhysicalAddress) (destMac : Bytes 6) (code : UInt16)
        (performance : LcxlServerPerformance) (f : LcxlFilter) (amb : Ambient),
      let fr := createCheckingNBL a.mac destMac.toList code performance
      let c : Checking := ⟨code, performance.toList, a.mac⟩
      fr.Untagged ∧ fr.slice 0 6 = destMac.toList ∧ fr.checking = c
        ∧ fr.processed cfg f true amb = (f.hear amb.now c,
          if code = checkingCodeRequest then { ProcessNblResult.zero with code := .checkingNbl }
          else .zero))
    ∧ (∀ (filter : ι → LcxlFilter) (tr : List (WireEvent ι)) (w : Wire ι),
      Sys.Run (Step cfg) (start filter) tr w →
        (∀ fr ∈ w.flight, fr.IsChecking) ∧ w.answered = w.asked
        ∧ ∀ i call frs rest, w.Enabled (.deliver i call frs rest) →
          if (w.filter i).state = .running then AnswersChecking cfg (w.filter i) call frs
          else (call.result cfg (w.filter i)).sentFrames = []
            ∧ (call.result cfg (w.filter i)).filter = w.filter i)
    ∧ ∀ (f : LcxlFilter) (now : ℤ) (fr : Frame) (p : ServerPtr), fr.IsChecking →
      f.module.lcxlRole = roleRouter → p ∈ f.module.serverList.lst.list →
      (f.module.serverList.mem p).info.macAddr.mac = fr.checking.source →
        ∃ q, Heard f now fr.checking q := by
  refine ⟨fun a destMac code performance f amb => ?_, fun filter tr w hr => ?_,
    fun f now fr p hc hrole hp hs => ?_⟩
  · have hd : destMac.toList.length = 6 := destMac.toList_length
    have hrec := createCheckingNBL_recognised code performance a.mac destMac.toList
    have hchecking := createCheckingNBL_checking a code performance hd
    have hprocessed := hrec.processed cfg f amb
    rw [hchecking] at hprocessed
    exact ⟨hrec.toUntagged, createCheckingNBL_destMac a code performance hd, hchecking,
      hprocessed⟩
  · have hb := balanced_of_run hr
    refine ⟨hb.flight, hb.answered, fun i call frs rest he => ?_⟩
    split_ifs with hf
    · exact answers_of_brings cfg hf he.1 fun fr hm =>
        hb.flight fr (he.2.mem_iff.2 (List.mem_append_left rest hm))
    · exact result_of_not_running call cfg hf
  · have hl : fr.checking.source.length = 6 := by simp [Frame.checking, Frame.slice]
    have hperf : fr.checking.performance.length = 40 := by simp [Frame.checking, Frame.slice]
    obtain ⟨q, -, hq⟩ := heard_of_linked hrole hl hperf hp hs
    exact ⟨q, hq⟩

/-- A router, and the module of a server. -/
def pair : Bool → LcxlFilter
  | false => Sample.router
  | true => { Sample.router with
      module := { Sample.router.module with lcxlRole := roleServer, macAddr := Sample.serverMac } }

/-- The router asks the server. -/
def asking : Frame :=
  createCheckingNBL Sample.router.module.macAddr.mac Sample.serverMac.mac checkingCodeRequest
    (.zero 40)

def asked : WireEvent Bool :=
  .create false ⟨Sample.serverMac.mac, rfl⟩ checkingCodeRequest (.zero 40)

def answering : WireEvent Bool := .deliver true (Sample.receive asking) [asking] []

/-- A request reaches the module it is to, and then its answer the one that has asked. -/
theorem checking_exchange_self :
    AnswersChecking Sample.setting (pair true) (Sample.receive asking) [asking] ∧
      AnswersChecking Sample.setting (pair false)
        (Sample.receive ((pair true).response asking.checking))
        [(pair true).response asking.checking] := by
  have hasked : Sys.Run (Step Sample.setting) (start pair) [asked]
      ((start pair).exec Sample.setting asked) := Sys.Run.nil.snoc ⟨trivial, rfl⟩
  have hanswers : AnswersChecking Sample.setting (pair true) (Sample.receive asking) [asking] :=
    ((checking_exchange Bool Sample.setting).2.1 pair [asked] _ hasked).2.2 true
      (Sample.receive asking) [asking] [] ⟨rfl, .refl _⟩
  refine ⟨hanswers, ?_⟩
  have hanswered := hasked.snoc (a := answering) ⟨⟨rfl, .refl _⟩, rfl⟩
  refine ((checking_exchange Bool Sample.setting).2.1 pair _ _ hanswered).2.2 false
    (Sample.receive ((pair true).response asking.checking)) [(pair true).response asking.checking]
    [] ⟨rfl, ?_⟩
  have hsent := hanswers.sent
  rw [List.filter_cons_of_pos (by decide +kernel), List.filter_nil, List.map_singleton] at hsent
  show (_ ++ []).Perm _
  rw [List.append_nil, List.append_nil]
  exact hsent ▸ .refl _

end Runs

end LcxlNetLoader
