import LcxlNetLoader.Counters
import LcxlNetLoader.Proofs.Connections
import LcxlNetLoader.Proofs.Dispatch
import LcxlNetLoader.Proofs.HandedOn
import LcxlNetLoader.Proofs.Lifecycle

/-!
# What the counters count

A call counts every NBL it is given, however many of them it passes on, and none of the driver's
own. So the counters are exact as long as all go on and none of its own is added.
-/

namespace LcxlNetLoader

open Linked DataPath

variable {cfg : LcxlSetting} {f g : LcxlFilter} {fr : Frame} {amb : Ambient} {isRecv : Bool}

namespace SameCounters

theorem refl (f : LcxlFilter) : SameCounters f f := ⟨rfl, rfl, rfl, rfl, rfl⟩

theorem trans {f₁ f₂ f₃ : LcxlFilter} (h : SameCounters f₁ f₂) (h' : SameCounters f₂ f₃) :
    SameCounters f₁ f₃ :=
  ⟨h'.1.trans h.1, h'.2.trans h.2, h'.3.trans h.3, h'.4.trans h.4, h'.5.trans h.5⟩

theorem of_routesOnly {f' : LcxlFilter} (h : RoutesOnly f f') : SameCounters f f' := by
  rw [h.eq]
  exact ⟨rfl, rfl, rfl, rfl, rfl⟩

theorem routeTCPNBL (cfg : LcxlSetting) (f : LcxlFilter) (pkt : TcpPacket) (now later : ℤ) :
    SameCounters f (routeTCPNBL cfg f pkt now later).1 :=
  of_routesOnly (routeTCPNBL_routesOnly cfg f pkt now later)

theorem dropClosed (f : LcxlFilter) (p : RoutePtr) : SameCounters f (f.dropClosed p) :=
  of_routesOnly (dropClosed_routesOnly f p)

theorem workerTick (cfg : LcxlSetting) (f : LcxlFilter) (now : ℤ) :
    SameCounters f (workerTick cfg f now).1 := by
  unfold LcxlNetLoader.workerTick
  split_ifs
  · exact ⟨rfl, rfl, rfl, rfl, rfl⟩
  · exact refl f

open ReadLog in
theorem processNBL :
    SameCounters f ((processNBL cfg f isRecv fr.dataLength amb).val fr.byte).1 := by
  refine processNBL_cases (P := fun r => SameCounters f r.1) (refl f) (fun _ _ => ?_)
    (fun _ => refl f) (fun _ _ _ _ => refl f) (fun _ _ _ _ _ => ?_) fun _ => refl f
  · cases isRecv with
    | false => exact refl f
    | true =>
      obtain ⟨t, ht⟩ := hear_eq f amb.now fr.checking
      rw [processCheckingNBL_recv, ht]
      exact ⟨rfl, rfl, rfl, rfl, rfl⟩
  · simp only [processTCPFrame, processTCP, val_bind, val_ite, val_pure]
    split_ifs
    all_goals first | exact refl f | exact routeTCPNBL ..

theorem receiveFrame : SameCounters f (receiveFrame cfg f fr amb).1 := by
  have h : SameCounters f ((LcxlNetLoader.processNBL cfg f true fr.dataLength amb).val fr.byte).1 :=
    processNBL
  unfold LcxlNetLoader.receiveFrame
  generalize (LcxlNetLoader.processNBL cfg f true fr.dataLength amb).val fr.byte = r at h ⊢
  obtain ⟨f', code, route, ip⟩ := r
  cases code <;> cases route
  all_goals first | exact h | exact h.trans (dropClosed ..)

theorem sendFrame : SameCounters f (sendFrame cfg f fr amb).1 := by
  have h : SameCounters f
      ((LcxlNetLoader.processNBL cfg f false fr.dataLength amb).val fr.byte).1 := processNBL
  unfold LcxlNetLoader.sendFrame
  generalize (LcxlNetLoader.processNBL cfg f false fr.dataLength amb).val fr.byte = r at h ⊢
  obtain ⟨f', code, route, ip⟩ := r
  cases code <;> exact h

end SameCounters

section Codes

variable {x : NblPtr} {h : NblHeap} {ambs : NblPtr → Ambient}

open ReadLog in
/-- A packet that is routed has a route. -/
theorem processNBL_route (cfg : LcxlSetting) (f : LcxlFilter) (isRecv : Bool) (fr : Frame)
    (amb : Ambient)
    (hc : ((processNBL cfg f isRecv fr.dataLength amb).val fr.byte).2.code = .router) :
    ((processNBL cfg f isRecv fr.dataLength amb).val fr.byte).2.route.isSome := by
  refine processNBL_cases (P := fun r => r.2.code = .router → r.2.route.isSome) ?_
    (fun _ _ => ?_) (fun _ => ?_) (@fun data _ _ _ _ _ => ?_) (fun _ _ _ _ _ => ?_)
    (fun _ => ?_) hc
  · rintro ⟨⟩
  · cases isRecv with
    | false => rintro ⟨⟩
    | true =>
      rw [processCheckingNBL_recv]
      split_ifs <;> rintro ⟨⟩
  · simp only [processARP, val_bind, val_ite, val_pure]
    split_ifs <;> rintro ⟨⟩
  · intro hr
    rcases processICMPv6_code cfg f isRecv data f.module.virtualAddr fr.byte with h | h | h | h
    · rw [h] at hr
      cases hr
    · rw [h] at hr
      cases hr
    · rw [h.2] at hr
      cases hr
    · rw [h.2] at hr
      cases hr
  · simp only [processTCPFrame, processTCP, val_bind, val_ite, val_pure]
    split_ifs with h1 h2 h3 h4 h5
    · exact fun _ => h5
    all_goals rintro ⟨⟩
  · simp only [processUDP, val_bind, val_ite, val_pure]
    split_ifs <;> rintro ⟨⟩

/-- A frame is sent in the place of one that is routed, and in answer to a request. -/
theorem receiveFrame_sent : ((receiveFrame cfg f fr amb).2.2.bind OwnNbl.sent).isSome
    = ((receiveFrame cfg f fr amb).2.1 == .router
      || (receiveFrame cfg f fr amb).2.1 == .checkingNbl) := by
  have hroute := processNBL_route cfg f true fr amb
  unfold receiveFrame
  generalize (processNBL cfg f true fr.dataLength amb).val fr.byte = r at hroute ⊢
  obtain ⟨f', code, route, ip⟩ := r
  cases code <;> cases route <;> first | rfl | exact absurd (hroute rfl) Bool.false_ne_true

/-- A frame is indicated in the place of an advertisement that is not dropped. -/
theorem receiveFrame_received : ((receiveFrame cfg f fr amb).2.2.bind OwnNbl.received).isSome
    = ((receiveFrame cfg f fr amb).2.1 == .icmpv6Na) := by
  unfold receiveFrame
  generalize (processNBL cfg f true fr.dataLength amb).val fr.byte = r
  obtain ⟨f', code, route, ip⟩ := r
  cases code <;> cases route <;> rfl

/-- A frame is sent in the place of a solicitation that is not dropped. -/
theorem sendFrame_sent : ((sendFrame cfg f fr amb).2.2.bind OwnNbl.sent).isSome
    = ((sendFrame cfg f fr amb).2.1 == .icmpv6Ns) := by
  unfold sendFrame
  generalize (processNBL cfg f false fr.dataLength amb).val fr.byte = r
  obtain ⟨f', code, route, ip⟩ := r
  cases code <;> rfl

theorem receiveOwn_sent (f : LcxlFilter) (x : NblPtr) :
    ((receiveOwn cfg ambs h f x).bind OwnNbl.sent).isSome
      = ((receiveVerdict cfg ambs h f x).2 == .router
        || (receiveVerdict cfg ambs h f x).2 == .checkingNbl) := by
  unfold receiveOwn receiveVerdict receiveNbl
  rcases h.frame x with _ | fr
  · rfl
  · exact receiveFrame_sent

theorem receiveOwn_received (f : LcxlFilter) (x : NblPtr) :
    ((receiveOwn cfg ambs h f x).bind OwnNbl.received).isSome
      = ((receiveVerdict cfg ambs h f x).2 == .icmpv6Na) := by
  unfold receiveOwn receiveVerdict receiveNbl
  rcases h.frame x with _ | fr
  · rfl
  · exact receiveFrame_received

theorem sendOwn_sent (f : LcxlFilter) (x : NblPtr) :
    ((sendOwn cfg ambs h f x).bind OwnNbl.sent).isSome
      = ((sendVerdict cfg ambs h f x).2 == .icmpv6Ns) := by
  unfold sendOwn sendVerdict sendNbl
  rcases h.frame x with _ | fr
  · rfl
  · exact sendFrame_sent

/-- As many NBLs are kept as there are codes to keep. -/
theorem Verdict.length_select (v : Verdict) (keep : ProcessNblResultCode → Bool) :
    ∀ (f : LcxlFilter) (xs : List NblPtr),
      (v.select keep f xs).length = (v.codes f xs).countP keep
  | _, [] => rfl
  | f, x :: xs => by
    simp only [select, codes, List.countP_cons]
    split_ifs
    · rw [List.length_cons, v.length_select keep _ xs]
    · exact v.length_select keep _ xs

theorem Verdict.length_codes (v : Verdict) :
    ∀ (f : LcxlFilter) (xs : List NblPtr), (v.codes f xs).length = xs.length
  | _, [] => rfl
  | _, _ :: xs => congrArg (· + 1) (v.length_codes _ xs)

theorem Verdict.forall_codes {v : Verdict} {P : ProcessNblResultCode → Prop}
    (hv : ∀ f x, P (v f x).2) : ∀ (f : LcxlFilter) (xs : List NblPtr), ∀ c ∈ v.codes f xs, P c
  | _, [], c, hc => by simp [codes] at hc
  | _, _ :: xs, c, hc => by
    rcases List.mem_cons.1 hc with rfl | hc
    · exact hv ..
    · exact forall_codes hv _ xs c hc

/-- As many NBLs are created as there are codes to create one for. -/
theorem Verdict.length_owns {v : Verdict} {own : LcxlFilter → NblPtr → Option OwnNbl}
    {kind : OwnNbl → Option Frame} {p : ProcessNblResultCode → Bool}
    (hp : ∀ f x, ((own f x).bind kind).isSome = p (v f x).2) :
    ∀ (f : LcxlFilter) (xs : List NblPtr),
      ((v.owns own f xs).filterMap kind).length = (v.codes f xs).countP p
  | _, [] => rfl
  | f, x :: xs => by
    have ih := length_owns hp (v f x).1 xs
    have hx := hp f x
    simp only [owns, codes, List.filterMap_append, List.length_append, List.countP_cons, ih, ← hx]
    rcases own f x with _ | o
    · simp
    · rcases ho : kind o with _ | fr <;> simp [ho, Nat.add_comm]

/-- A frame sent goes on, or another in its place, or it is dropped. -/
theorem count_sent : ∀ {cs : List ProcessNblResultCode}, (∀ c ∈ cs, handledOnSend c) →
    cs.countP passesDown + cs.countP (· == .icmpv6Ns) + cs.count .drop = cs.length
  | [], _ => rfl
  | c :: cs, h => by
    have ih := count_sent fun c hc => h c (List.mem_cons_of_mem _ hc)
    have hc := h c List.mem_cons_self
    simp only [List.countP_cons, List.count_cons, List.length_cons]
    cases c <;> simp [passesDown, handledOnSend] at hc ⊢ <;> omega

/-- A frame received goes on, or is kept from going on in one of three ways. -/
theorem count_received : ∀ {cs : List ProcessNblResultCode}, (∀ c ∈ cs, handledOnReceive c) →
    cs.countP passesUp + cs.count .drop + cs.count .router + cs.count .icmpv6Na = cs.length
  | [], _ => rfl
  | c :: cs, h => by
    have ih := count_received fun c hc => h c (List.mem_cons_of_mem _ hc)
    have hc := h c List.mem_cons_self
    simp only [List.count_cons, List.countP_cons, List.length_cons]
    cases c <;> simp [passesUp, handledOnReceive] at hc ⊢ <;> omega

theorem countP_or : ∀ cs : List ProcessNblResultCode,
    cs.countP (fun c => c == .router || c == .checkingNbl) =
      cs.count .router + cs.count .checkingNbl
  | [] => rfl
  | c :: cs => by
    simp only [List.count_cons, List.countP_cons, countP_or cs]
    cases c <;> simp <;> omega

end Codes

section Filters

variable (cfg) (ambs : NblPtr → Ambient) (h : NblHeap)

theorem sendVerdict_filter (f : LcxlFilter) (x : NblPtr) (ht : f.trackSends) : SameCounters
    { f with outstandingSends := f.outstandingSends + 1 } (sendVerdict cfg ambs h f x).1 := by
  have hs : SameCounters f (sendNbl cfg ambs h.frame f x).1 := by
    unfold sendNbl
    rcases h.frame x with _ | fr
    · exact .refl f
    · exact .sendFrame
  unfold sendVerdict
  simp only []
  rw [if_pos (hs.trackSends.trans ht)]
  exact ⟨hs.state, hs.trackSends, hs.trackReceives, congrArg (· + 1) hs.sends, hs.rcvs⟩

/-- Each NBL sent is counted. -/
theorem send_after : ∀ (xs : List NblPtr) (f : LcxlFilter), f.trackSends → SameCounters
    { f with outstandingSends := f.outstandingSends + UInt32.ofNat xs.length }
    ((sendVerdict cfg ambs h).after f xs)
  | [], f, _ => ⟨rfl, rfl, rfl, (UInt32.add_zero _).symm, rfl⟩
  | x :: xs, f, ht => by
    have hx := sendVerdict_filter cfg ambs h f x ht
    have ih := send_after xs _ (hx.trackSends.trans ht)
    refine ⟨ih.state.trans hx.state, ih.trackSends.trans hx.trackSends,
      ih.trackReceives.trans hx.trackReceives, ih.sends.trans ?_, ih.rcvs.trans hx.rcvs⟩
    show (sendVerdict cfg ambs h f x).1.outstandingSends + UInt32.ofNat xs.length
      = f.outstandingSends + UInt32.ofNat (xs.length + 1)
    rw [hx.sends, UInt32.ofNat_add]
    show f.outstandingSends + 1 + _ = _
    rw [UInt32.add_assoc, UInt32.add_comm 1]
    rfl

theorem receive_after : ∀ (xs : List NblPtr) (f : LcxlFilter),
    SameCounters f ((receiveVerdict cfg ambs h).after f xs)
  | [], f => .refl f
  | x :: xs, f => by
    have hx : SameCounters f (receiveVerdict cfg ambs h f x).1 := by
      unfold receiveVerdict receiveNbl
      rcases h.frame x with _ | fr
      · exact .refl f
      · exact .receiveFrame
    exact hx.trans (receive_after xs _)

end Filters

theorem walk_count {next : NblPtr → Option NblPtr} : ∀ {xs : List NblPtr} {fuel : ℕ}
    {p : Option NblPtr} (n : UInt32), IsChain next p xs → xs.length ≤ fuel →
    walk (fun _ => next) (fun n _ => n + 1) fuel p n = n + UInt32.ofNat xs.length
  | [], 0, _, n, _, _ => (UInt32.add_zero n).symm
  | [], _ + 1, p, n, h, _ => by
    obtain rfl : p = none := h
    exact (UInt32.add_zero n).symm
  | x :: xs, fuel + 1, p, n, h, hf => by
    obtain ⟨rfl, h⟩ := h
    show walk (fun _ => next) (fun n _ => n + 1) fuel (next x) (n + 1) = _
    rw [walk_count (n + 1) h (by simpa using hf), List.length_cons, UInt32.ofNat_add,
      UInt32.add_assoc, UInt32.add_comm 1]
    rfl

theorem NblChain.count (c : NblChain) :
    countNbls c.nbls.length c.heap.next c.netBufferLists = UInt32.ofNat c.nbls.length := by
  rw [countNbls, walk_count 0 c.chain le_rfl, UInt32.zero_add]

section DropOwner

variable {own : NblPtr → Bool} {xs : List NblPtr} {p : Option NblPtr} {x : NblPtr}

/-- The cell is in no chain that is followed any more. -/
theorem isChain_update {next : NblPtr → Option NblPtr} (hx : x ∉ xs) (h : IsChain next p xs)
    (v : Option NblPtr) : IsChain (Function.update next x v) p xs := by
  refine h.congr fun y hy => Function.update_of_ne ?_ _ _
  rintro rfl
  exact hx hy

/-- The loop at `p` with `rest` ahead, `kept` being what it has left of the chain so far. -/
theorem dropOwnerLoop_spec : ∀ (rest kept : List NblPtr) (fuel : ℕ) (p : Option NblPtr)
    (s : DropOwner), IsChain s.next s.netBufferLists (kept ++ rest) → IsChain s.next p rest →
    s.prepNbl = kept.getLast? → rest.length ≤ fuel →
    let s' := dropOwnerLoop own fuel p s
    IsChain s'.next s'.netBufferLists (kept ++ rest.filter fun x => !own x)
      ∧ s'.freed = s.freed ++ rest.filter own
  | [], kept, fuel, p, s, hc, hp, _, _ => by
    obtain rfl : p = none := hp
    cases fuel <;> simpa [dropOwnerLoop] using hc
  | x :: rest, kept, fuel + 1, p, s, hc, hp, hprep, hf => by
    obtain ⟨rfl, hrest⟩ := hp
    have hnd := hc.nodup
    have hx : x ∉ kept ++ rest := (List.nodup_cons.1 (List.nodup_middle.1 hnd)).1
    have hxr : x ∉ rest := fun hm => hx (List.mem_append_right kept hm)
    have hf' : rest.length ≤ fuel := by simpa using hf
    by_cases ho : own x
    · rcases List.eq_nil_or_concat' kept with rfl | ⟨ys, t, rfl⟩
      · have hhead : s.netBufferLists = some x := hc.1
        simp only [dropOwnerLoop, ho, hhead, if_true, ne_eq, not_true, if_false]
        obtain ⟨h1, h2⟩ := dropOwnerLoop_spec rest [] fuel (s.next x)
          ⟨Function.update s.next x none, s.next x, s.prepNbl, s.freed ++ [x]⟩
          (isChain_update hxr hrest none) (isChain_update hxr hrest none) hprep hf'
        refine ⟨by simpa [ho] using h1, by simpa [ho] using h2⟩
      · have hhead : some x ≠ s.netBufferLists := by
          rw [hc.head, List.head?_append_of_ne_nil _ (by simp)]
          exact fun h => hx (List.mem_append_left rest (List.mem_of_mem_head? h.symm))
        have ht : s.prepNbl = some t := by simpa using hprep
        have hspliced : IsChain (Function.update s.next t (s.next x)) s.netBufferLists
            ((ys ++ [t]) ++ rest) := by
          rw [List.append_assoc] at hc ⊢
          exact hc.splice
        have htr : t ∉ rest := fun hm =>
          (List.disjoint_of_nodup_append hnd) (by simp : t ∈ ys ++ [t])
            (List.mem_cons_of_mem x hm)
        simp only [dropOwnerLoop, ho, hhead, ht, if_true, ne_eq, not_false_eq_true]
        obtain ⟨h1, h2⟩ := dropOwnerLoop_spec rest (ys ++ [t]) fuel (s.next x)
          ⟨Function.update (Function.update s.next t (s.next x)) x none, s.netBufferLists,
            some t, s.freed ++ [x]⟩
          (isChain_update hx hspliced none)
          (isChain_update hxr (isChain_update htr hrest _) none) (by simp) hf'
        refine ⟨by simpa [ho] using h1, by simpa [ho] using h2⟩
    · obtain ⟨h1, h2⟩ := dropOwnerLoop_spec rest (kept ++ [x]) fuel (s.next x)
        { s with prepNbl := some x } (by simpa using hc) hrest (by simp) hf'
      simp only [dropOwnerLoop, ho, Bool.false_eq_true, if_false]
      refine ⟨by simpa [ho] using h1, by simpa [ho] using h2⟩

/-- What is taken back goes on without the NBLs that the driver has created, which are freed. -/
theorem NblChain.dropOwner (c : NblChain) (f : LcxlFilter) :
    let own : NblPtr → Bool := fun x => c.heap.sourceHandle x == f.filterHandle
    let s := dropOwnerNBL c.nbls.length f c.heap c.netBufferLists
    IsChain s.next s.netBufferLists (c.nbls.filter fun x => !own x)
      ∧ s.freed = c.nbls.filter own :=
  dropOwnerLoop_spec c.nbls [] c.nbls.length c.netBufferLists _ c.chain c.chain rfl le_rfl

end DropOwner

namespace Outstanding

variable {s : Outstanding} {e : CountEvent}

/-- The module runs and tracks both ways. -/
structure Tracking (f : LcxlFilter) : Prop where
  running : f.state = .running
  trackSends : f.trackSends
  trackReceives : f.trackReceives

theorem Tracking.of_same {f f' : LcxlFilter} (hs : SameCounters f f') (h : Tracking f) :
    Tracking f' :=
  ⟨hs.state.trans h.running, hs.trackSends.trans h.trackSends,
    hs.trackReceives.trans h.trackReceives⟩

theorem toNat_count_up {a : UInt32} {n : ℕ} (h : a.toNat + n < 2 ^ 32) :
    (a + UInt32.ofNat n).toNat = a.toNat + n := by
  rw [UInt32.toNat_add, UInt32.toNat_ofNat', Nat.add_mod_mod, Nat.mod_eq_of_lt h]

theorem toNat_count_down {a : UInt32} {n : ℕ} (h : n ≤ a.toNat) :
    UInt32.ofNat n ≤ a ∧ (a + -UInt32.ofNat n).toNat = a.toNat - n := by
  have hn : (UInt32.ofNat n).toNat = n := by
    rw [UInt32.toNat_ofNat', Nat.mod_eq_of_lt (h.trans_lt a.toNat_lt)]
  have hle : UInt32.ofNat n ≤ a := by
    rw [UInt32.le_iff_toNat_le, hn]
    exact h
  refine ⟨hle, ?_⟩
  rw [← UInt32.sub_eq_add_neg, UInt32.toNat_sub_of_le _ _ hle, hn]

/-- What a call to send does to the counters, and how many NBLs it passes down. -/
theorem send_effect (cfg : LcxlSetting) (call : SendCall) (h : Tracking s.filter) :
    let codes := (sendVerdict cfg call.amb call.heap).codes s.filter call.nbls
    let s' := s.exec cfg (.send call)
    SameCounters { s.filter with
        outstandingSends := s.filter.outstandingSends + UInt32.ofNat call.nbls.length } s'.filter
      ∧ s'.down.length + codes.count .drop = s.down.length + call.nbls.length ∧ s'.up = s.up := by
  intro codes s'
  obtain ⟨hfilter, -⟩ := send_running cfg call.amb call.portNumber call.sendFlags call.chain
    le_rfl call.alloc h.running
  obtain ⟨ss, rs, ho, hs, hr⟩ := send_nbls cfg call.amb call.portNumber call.sendFlags call.chain
    le_rfl call.alloc h.running
  have hcodes : codes.countP passesDown + codes.countP (· == .icmpv6Ns) + codes.count .drop
      = codes.length := count_sent (Verdict.forall_codes (P := fun c => handledOnSend c)
    (sendNbl_handled cfg call.amb call.heap.frame) s.filter call.nbls)
  have hsel : ((sendVerdict cfg call.amb call.heap).select passesDown s.filter call.nbls).length
      = codes.countP passesDown := Verdict.length_select ..
  have hss : ss.length = codes.countP (· == .icmpv6Ns) := by
    have := congrArg List.length ho.sent
    rw [List.length_map, List.length_map] at this
    rw [this]
    exact Verdict.length_owns sendOwn_sent s.filter call.nbls
  refine ⟨?_, ?_, ?_⟩
  · show SameCounters _ (call.result cfg s.filter).filter
    rw [SendCall.result, hfilter]
    exact send_after cfg call.amb call.heap call.nbls s.filter h.trackSends
  · show (s.down ++ (call.result cfg s.filter).nbls NdisRoutine.isSend).length + _ = _
    rw [SendCall.result, hs, List.length_append, List.length_append, hsel, hss]
    rw [Verdict.length_codes] at hcodes
    omega
  · show s.up ++ (call.result cfg s.filter).nbls NdisRoutine.isIndicate = _
    rw [SendCall.result, hr, List.append_nil]

/-- What a call to receive does to the counters, and how many NBLs it passes down and indicates
up. -/
theorem receive_effect (cfg : LcxlSetting) (call : ReceiveCall) (h : Tracking s.filter)
    (hp : cannotPend call.receiveFlags = false) :
    let codes := (receiveVerdict cfg call.amb call.heap).codes s.filter call.nbls
    let s' := s.exec cfg (.receive call)
    SameCounters { s.filter with
        outstandingRcvs := s.filter.outstandingRcvs + UInt32.ofNat call.nbls.length } s'.filter
      ∧ s'.down.length = s.down.length + codes.count .router + codes.count .checkingNbl
      ∧ s'.up.length + codes.count .drop + codes.count .router + codes.count .icmpv6Na
        = s.up.length + call.nbls.length + min 1 (codes.count .icmpv6Na) := by
  intro codes s'
  obtain ⟨ss, rs, ho, hs, hr⟩ := receive_nbls cfg call.amb call.left call.portNumber
    (UInt32.ofNat call.nbls.length) call.receiveFlags call.chain le_rfl call.alloc h.running hp
  have hcodes : codes.countP passesUp + codes.count .drop + codes.count .router
      + codes.count .icmpv6Na = codes.length :=
    count_received (Verdict.forall_codes (P := fun c => handledOnReceive c)
      (receiveNbl_handled cfg call.amb call.heap.frame) s.filter call.nbls)
  have hsel : ((receiveVerdict cfg call.amb call.heap).select passesUp s.filter call.nbls).length
      = codes.countP passesUp := Verdict.length_select ..
  have hss : ss.length = codes.count .router + codes.count .checkingNbl := by
    have := congrArg List.length ho.sent
    rw [List.length_map, List.length_map] at this
    rw [this, ← countP_or]
    exact Verdict.length_owns receiveOwn_sent s.filter call.nbls
  have hrs : rs.length = codes.count .icmpv6Na := by
    have := congrArg List.length ho.received
    rw [List.length_map, List.length_map] at this
    rw [this]
    exact Verdict.length_owns receiveOwn_received s.filter call.nbls
  have hlast : rs.getLast?.toList.length = min 1 rs.length := by
    rcases List.eq_nil_or_concat' rs with rfl | ⟨ys, y, rfl⟩
    · rfl
    · simp
  refine ⟨?_, ?_, ?_⟩
  · have hafter := receive_after cfg call.amb call.heap call.nbls s.filter
    show SameCounters _ (call.result cfg s.filter).filter
    rw [ReceiveCall.result, receive_filter cfg call.amb call.left call.portNumber _ call.chain
      le_rfl call.alloc h.running]
    simp only [hp, Bool.false_eq_true, if_false]
    rw [if_pos (hafter.trackReceives.trans h.trackReceives)]
    exact ⟨hafter.state, hafter.trackSends, hafter.trackReceives, hafter.sends,
      congrArg (· + _) hafter.rcvs⟩
  · show (s.down ++ (call.result cfg s.filter).nbls NdisRoutine.isSend).length = _
    rw [ReceiveCall.result, hs, List.length_append, hss, Nat.add_assoc]
  · show (s.up ++ (call.result cfg s.filter).nbls NdisRoutine.isIndicate).length + _ + _ + _ = _
    rw [ReceiveCall.result, hr, List.length_append, List.length_append, hsel, hlast, hrs]
    rw [Verdict.length_codes] at hcodes
    omega

theorem sendComplete_filter (cfg : LcxlSetting) (c : NblChain) (flags : UInt32)
    (h : Tracking s.filter) :
    SameCounters { s.filter with
        outstandingSends := s.filter.outstandingSends + -UInt32.ofNat c.nbls.length }
      (s.exec cfg (.sendComplete c flags)).filter := by
  show SameCounters _ (filterSendNetBufferListsComplete ..).filter
  unfold filterSendNetBufferListsComplete
  simp only [c.count]
  rw [if_pos h.trackSends]
  split_ifs <;> exact ⟨rfl, rfl, rfl, rfl, rfl⟩

theorem returned_filter (cfg : LcxlSetting) (c : NblChain) (flags : UInt32)
    (h : Tracking s.filter) :
    SameCounters { s.filter with
        outstandingRcvs := s.filter.outstandingRcvs + -UInt32.ofNat c.nbls.length }
      (s.exec cfg (.returned c flags)).filter := by
  show SameCounters _ (filterReturnNetBufferLists ..).filter
  unfold filterReturnNetBufferLists
  simp only [c.count]
  rw [if_pos h.trackReceives, if_pos h.trackReceives]
  split_ifs <;> exact ⟨rfl, rfl, rfl, rfl, rfl⟩

theorem send_counts (call : SendCall) (h : Tracking s.filter) (hs : s.Exact)
    (hr : s.Room (.send call)) : s.AllGoOn cfg (.send call) ↔ s.Counts cfg (.send call) := by
  obtain ⟨hfilter, hdown, hup⟩ := send_effect cfg call h
  have hroom : s.down.length + call.nbls.length < 2 ^ 32 := hr
  have hsends : (s.exec cfg (.send call)).filter.outstandingSends.toNat
      = s.down.length + call.nbls.length := by
    rw [hfilter.sends, ← hs.sends]
    exact toNat_count_up (hs.sends ▸ hroom)
  have hrcvs : (s.exec cfg (.send call)).filter.outstandingRcvs.toNat
      = (s.exec cfg (.send call)).up.length := by
    rw [hfilter.rcvs, hup]
    exact hs.rcvs
  show .drop ∉ (sendVerdict cfg call.amb call.heap).codes s.filter call.nbls ↔ _
  rw [← List.count_eq_zero]
  refine ⟨fun hd => ⟨trivial, ?_, hrcvs⟩, fun hc => ?_⟩
  · rw [hsends]
    omega
  · have := hc.2.sends
    rw [hsends] at this
    omega

theorem receive_counts (call : ReceiveCall) (h : Tracking s.filter) (hs : s.Exact)
    (hp : cannotPend call.receiveFlags = false) (hr : s.Room (.receive call)) :
    s.AllGoOn cfg (.receive call) ↔ s.Counts cfg (.receive call) := by
  obtain ⟨hfilter, hdown, hup⟩ := receive_effect cfg call h hp
  have hroom : s.up.length + call.nbls.length < 2 ^ 32 := hr
  have hrcvs : (s.exec cfg (.receive call)).filter.outstandingRcvs.toNat
      = s.up.length + call.nbls.length := by
    rw [hfilter.rcvs, ← hs.rcvs]
    exact toNat_count_up (hs.rcvs ▸ hroom)
  have hsends : (s.exec cfg (.receive call)).filter.outstandingSends.toNat = s.down.length := by
    rw [hfilter.sends]
    exact hs.sends
  show (.drop ∉ (receiveVerdict cfg call.amb call.heap).codes s.filter call.nbls
    ∧ .router ∉ (receiveVerdict cfg call.amb call.heap).codes s.filter call.nbls
    ∧ .checkingNbl ∉ (receiveVerdict cfg call.amb call.heap).codes s.filter call.nbls ∧ _) ↔ _
  rw [← List.count_eq_zero, ← List.count_eq_zero, ← List.count_eq_zero]
  refine ⟨fun hg => ⟨trivial, ?_, ?_⟩, fun hc => ?_⟩
  · rw [hsends]
    omega
  · rw [hrcvs]
    omega
  · have h1 := hc.2.sends
    have h2 := hc.2.rcvs
    rw [hsends] at h1
    rw [hrcvs] at h2
    omega

/-- What is left of the NBLs outstanding once some of them were taken back. -/
theorem length_diff {xs ys : List NblPtr} (h : xs.Subperm ys) :
    (ys.diff xs).length = ys.length - xs.length := by
  have hp := (List.subperm_append_diff_self_of_count_le fun x _ => h.count_le x).length_eq
  rw [List.length_append] at hp
  omega

theorem sendComplete_counts (c : NblChain) (flags : UInt32) (h : Tracking s.filter)
    (hs : s.Exact) (hc : c.nbls.Subperm s.down) : s.Counts cfg (.sendComplete c flags) := by
  have hle : c.nbls.length ≤ s.filter.outstandingSends.toNat := hs.sends ▸ hc.length_le
  obtain ⟨hwrap, hsub⟩ := toNat_count_down hle
  have hfilter := sendComplete_filter cfg c flags h
  refine ⟨?_, ?_, hfilter.rcvs ▸ hs.rcvs⟩
  · show countNbls _ _ _ ≤ _
    rw [c.count]
    exact hwrap
  · rw [hfilter.sends, hsub, hs.sends]
    exact (length_diff hc).symm

theorem returned_counts (c : NblChain) (flags : UInt32) (h : Tracking s.filter)
    (hs : s.Exact) (hc : c.nbls.Subperm s.up) : s.Counts cfg (.returned c flags) := by
  have hle : c.nbls.length ≤ s.filter.outstandingRcvs.toNat := hs.rcvs ▸ hc.length_le
  obtain ⟨hwrap, hsub⟩ := toNat_count_down hle
  have hfilter := returned_filter cfg c flags h
  refine ⟨?_, hfilter.sends ▸ hs.sends, ?_⟩
  · show countNbls _ _ _ ≤ _
    rw [c.count]
    exact hwrap
  · rw [hfilter.rcvs, hsub, hs.rcvs]
    exact (length_diff hc).symm

theorem tick_counts (now : ℤ) (requests : List NblPtr) (hs : s.Exact)
    (hc : requests.length = (workerTick cfg s.filter now).2.length) :
    s.AllGoOn cfg (.tick now requests) ↔ s.Counts cfg (.tick now requests) := by
  have hfilter := SameCounters.workerTick cfg s.filter now
  show ¬ s.filter.Due cfg now ↔ _
  rw [← workerTick_sent, not_not]
  refine ⟨fun hn => ?_, fun hcounts => ?_⟩
  · rw [hn] at hc
    obtain rfl := List.length_eq_zero_iff.1 hc
    exact ⟨trivial, by simpa [exec] using hfilter.sends ▸ hs.sends, hfilter.rcvs ▸ hs.rcvs⟩
  · have hsends := hcounts.2.sends
    have hdown : (s.exec cfg (.tick now requests)).down.length
        = s.down.length + requests.length := List.length_append
    have hfs : (s.exec cfg (.tick now requests)).filter.outstandingSends
        = s.filter.outstandingSends := hfilter.sends
    rw [hdown, hfs, hs.sends] at hsends
    exact List.length_eq_zero_iff.1 (by omega)

theorem counts_iff (h : Tracking s.filter) (hs : s.Exact) (hc : s.NdisContract cfg e)
    (hr : s.Room e) : s.AllGoOn cfg e ↔ s.Counts cfg e := by
  cases e with
  | send call => exact send_counts call h hs hr
  | sendComplete c flags => exact iff_of_true trivial (sendComplete_counts c flags h hs hc)
  | receive call => exact receive_counts call h hs hc hr
  | returned c flags => exact iff_of_true trivial (returned_counts c flags h hs hc)
  | tick now requests => exact tick_counts now requests hs hc
  | other f => exact iff_of_true trivial ⟨trivial, hc.sends ▸ hs.sends, hc.rcvs ▸ hs.rcvs⟩

theorem tracking_exec (h : Tracking s.filter) (hc : s.NdisContract cfg e) :
    Tracking (s.exec cfg e).filter := by
  have ⟨h1, h2, h3⟩ := h
  cases e with
  | send call => exact .of_same (send_effect cfg call h).1 ⟨h1, h2, h3⟩
  | sendComplete c flags => exact .of_same (sendComplete_filter cfg c flags h) ⟨h1, h2, h3⟩
  | receive call => exact .of_same (receive_effect cfg call h hc).1 ⟨h1, h2, h3⟩
  | returned c flags => exact .of_same (returned_filter cfg c flags h) ⟨h1, h2, h3⟩
  | tick now requests => exact .of_same (.workerTick cfg s.filter now) h
  | other f => exact .of_same hc h

/-- Over a run in which a counter can count the NBLs outstanding, the counters stay exact and do
not wrap as long as every NBL that is counted goes on, and none goes on that is not. -/
theorem counts_iff_allGoOn (cfg : LcxlSetting) {s : Outstanding} {tr : List CountEvent}
    (h : s.Idle) (hc : Sys.Allowed (NdisContract cfg) (exec cfg) s tr)
    (hr : Sys.Allowed Room (exec cfg) s tr) :
    Sys.Allowed (Counts cfg) (exec cfg) s tr ↔ Sys.Allowed (AllGoOn cfg) (exec cfg) s tr := by
  have hstart : Tracking s.filter ∧ s.Exact := by
    refine ⟨⟨h.running, h.trackSends, h.trackReceives⟩, ?_, ?_⟩
    · rw [h.sends, h.down]
      rfl
    · rw [h.rcvs, h.up]
      rfl
  refine Sys.allowed_iff_of_inv (I := fun s => Tracking s.filter ∧ s.Exact)
    (fun s e hi he hcounts => ⟨tracking_exec hi.1 he.1, hcounts.2⟩)
    (fun s e hi he => (counts_iff hi.1 hi.2 he.1 he.2).symm) hstart (hc.and hr)

theorem idle_sample : Sample.idle.Idle := ⟨rfl, rfl, rfl, rfl, rfl, rfl, rfl⟩

/-- A frame goes down, and is counted until it is completed. -/
theorem counts_iff_allGoOn_sent : Sys.Allowed (Counts Sample.setting) (exec Sample.setting)
    Sample.idle [.send (Sample.send (.zero 60)), .sendComplete (Sample.single 0 (.zero 60)) 0] := by
  have hdown : (Sample.idle.exec Sample.setting (.send (Sample.send (.zero 60)))).down = [0] := by
    decide +kernel
  have hcode : .drop ∉ (sendVerdict Sample.setting (fun _ => Sample.ambient 0)
      (Sample.single 0 (.zero 60)).heap).codes Sample.idle.filter [0] := by decide +kernel
  have hsub : (Sample.idle.exec Sample.setting (.send (Sample.send (.zero 60)))).NdisContract
      Sample.setting (.sendComplete (Sample.single 0 (.zero 60)) 0) := by
    show [0].Subperm _
    rw [hdown]
  have hroom : Sample.idle.Room (.send (Sample.send (.zero 60))) := by
    show 0 + 1 < 2 ^ 32
    decide
  have hcontract : Sys.Allowed (NdisContract Sample.setting) (exec Sample.setting) Sample.idle
      [.send (Sample.send (.zero 60)), .sendComplete (Sample.single 0 (.zero 60)) 0] :=
    ⟨trivial, hsub, trivial⟩
  exact (counts_iff_allGoOn Sample.setting idle_sample hcontract ⟨hroom, trivial, trivial⟩).2
    ⟨hcode, trivial, trivial⟩

/-- A packet that is forwarded is sent uncounted, so its completion wraps the counter. -/
theorem not_counts_of_forwarded : ¬ ∀ (cfg : LcxlSetting) (s : Outstanding) (tr : List CountEvent),
    s.Idle → Sys.Allowed (NdisContract cfg) (exec cfg) s tr →
      Sys.Allowed (Counts cfg) (exec cfg) s tr := by
  intro h
  have hdown : (Sample.idle.exec Sample.setting (.receive
      (Sample.receive (Sample.tcpFrame thSyn)))).down = [1] := by decide +kernel
  have hsub : (Sample.idle.exec Sample.setting (.receive
      (Sample.receive (Sample.tcpFrame thSyn)))).NdisContract Sample.setting
      (.sendComplete (Sample.single 1 (Sample.tcpFrame thSyn)) 0) := by
    show [1].Subperm _
    rw [hdown]
  have hc := h Sample.setting Sample.idle Sample.forwarded idle_sample ⟨rfl, hsub, trivial⟩
  have hwrap : (1 : UInt32) ≤ (Sample.idle.exec Sample.setting (.receive
      (Sample.receive (Sample.tcpFrame thSyn)))).filter.outstandingSends := hc.2.1.1
  revert hwrap
  decide +kernel

end Outstanding

end LcxlNetLoader
