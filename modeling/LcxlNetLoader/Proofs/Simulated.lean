import LcxlNetLoader.Simulated
import LcxlNetLoader.Proofs.Counters
import LcxlNetLoader.Proofs.Isolation
import LcxlNetLoader.Proofs.Resolicitation

/-!
# No simulated receive is delivered

An NBL is created for each advertisement, with the bytes it is to have (`receive_created`). But of
these only the last one is indicated, and as none (`indications_eq`). So all is well where a chain
has no advertisement in it.
-/

namespace LcxlNetLoader

open Linked DataPath ReadLog

section Classified

variable {cfg : LcxlSetting} {f f' : LcxlFilter} {fr : Frame} {amb : Ambient} {data : ℕ}

theorem processICMPv6_icmpv6Na :
    ((processICMPv6 cfg f true data f.module.virtualAddr .zero).val fr.byte).code = .icmpv6Na
      ↔ f.module.lcxlRole = roleServer ∧ fr.byte (data + sizeofIpv6Header) = 136
        ∧ fr.slice (data + 8) 16 ≠ f.module.virtualAddr.ipv6.toList
        ∧ fr.slice (data + 24) 16 = f.module.virtualAddr.ipv6.toList := by
  have hsolicit : ∀ (source destination : List UInt8) (result : ProcessNblResult),
      result.code ≠ .icmpv6Na →
      (processSolicit true f.module.virtualAddr source destination result).code ≠ .icmpv6Na := by
    intro source destination result hr h
    rcases processSolicit_code true f.module.virtualAddr source destination result
      with h' | h' | h'
    · exact absurd (h'.symm.trans h) (by decide)
    · exact h'.1 rfl
    · exact hr (h'.symm.trans h)
  have hpassed : ProcessNblResultCode.pass ≠ .icmpv6Na := by decide
  by_cases hr : f.module.lcxlRole = roleServer
  · simp only [processICMPv6, hr, if_true, true_and, val_bind, val_ite, val_read, val_pure,
      range_eq_slice, ite_self]
    split_ifs with h133 hdrop h135 h136 hsource hdest
    · refine iff_of_false (hsolicit _ _ _ (by decide)) fun h => ?_
      exact absurd (h133.symm.trans h.1) (by decide)
    · refine iff_of_false (hsolicit _ _ _ (by decide)) fun h => ?_
      exact absurd (h133.symm.trans h.1) (by decide)
    · refine iff_of_false (hsolicit _ _ _ (by decide)) fun h => ?_
      exact absurd (h135.symm.trans h.1) (by decide)
    · exact iff_of_false not_false fun h => h.2.1 hsource
    · exact iff_of_true rfl ⟨h136, hsource, hdest.1⟩
    · exact iff_of_false hpassed fun h => hdest ⟨h.2.2, trivial⟩
    · exact iff_of_false hpassed fun h => h136 h.1
  · simp only [processICMPv6, hr, if_false, false_and, iff_false, val_bind, val_pure, val_ite,
      ite_self]
    exact hpassed

/-- What is classified as an advertisement. -/
theorem processNBL_icmpv6Na :
    ((processNBL cfg f true fr.dataLength amb).val fr.byte).2.code = .icmpv6Na
      ↔ ∃ data, fr.Advertises f data := by
  have hpassed : ProcessNblResultCode.pass ≠ .icmpv6Na := by decide
  constructor
  · refine processNBL_cases (P := fun r => r.2.code = .icmpv6Na → ∃ data, fr.Advertises f data)
      ?_ (fun _ _ => ?_) (fun _ => ?_) (fun hd hl he hn h => ?_) (fun _ _ _ _ _ => ?_)
      (fun _ => ?_)
    · exact fun h => absurd h hpassed
    · rw [processCheckingNBL_recv]
      split_ifs <;> rintro ⟨⟩
    · simp only [processARP, val_bind, val_ite, val_pure]
      split_ifs <;> rintro ⟨⟩
    · obtain ⟨hr, htype, hsource, hdest⟩ := processICMPv6_icmpv6Na.1 h
      exact ⟨_, hr, he, ⟨_, hl, hd⟩, hn, htype, hsource, hdest⟩
    · simp only [processTCPFrame, processTCP, val_bind, val_ite, val_pure]
      split_ifs <;> rintro ⟨⟩
    · simp only [processUDP, val_bind, val_ite, val_pure]
      split_ifs <;> rintro ⟨⟩
  · rintro ⟨data, hr, he, ⟨len, hl, hd⟩, hn, htype, hsource, hdest⟩
    have hp : fr.processed cfg f true amb = _ := Frame.processed_of_ipv6 hd
    rw [if_pos ⟨hl, he⟩, if_pos hn] at hp
    have hcode := congrArg (·.2.code) hp
    exact hcode.trans (processICMPv6_icmpv6Na.2 ⟨hr, htype, hsource, hdest⟩)

end Classified

/-- The filters have the same settings, as far as advertisements go. -/
structure SameSettings (f f' : LcxlFilter) : Prop where
  lcxlRole : f'.module.lcxlRole = f.module.lcxlRole
  virtualAddr : f'.module.virtualAddr = f.module.virtualAddr
  macAddr : f'.module.macAddr = f.module.macAddr

namespace SameSettings

variable {cfg : LcxlSetting} {f f' : LcxlFilter} {fr : Frame} {amb : Ambient}

theorem refl (f : LcxlFilter) : SameSettings f f := ⟨rfl, rfl, rfl⟩

theorem trans {f₁ f₂ f₃ : LcxlFilter} (h : SameSettings f₁ f₂) (h' : SameSettings f₂ f₃) :
    SameSettings f₁ f₃ :=
  ⟨h'.1.trans h.1, h'.2.trans h.2, h'.3.trans h.3⟩

theorem of_routesOnly (h : RoutesOnly f f') : SameSettings f f' := by
  rw [h.eq]
  exact ⟨rfl, rfl, rfl⟩

theorem processNBL :
    SameSettings f ((processNBL cfg f true fr.dataLength amb).val fr.byte).1 := by
  refine processNBL_cases (P := fun r => SameSettings f r.1) (refl f) (fun _ _ => ?_)
    (fun _ => refl f) (fun _ _ _ _ => refl f) (fun _ _ _ _ _ => ?_) fun _ => refl f
  · obtain ⟨t, ht⟩ := hear_eq f amb.now fr.checking
    rw [processCheckingNBL_recv, ht]
    exact ⟨rfl, rfl, rfl⟩
  · simp only [processTCPFrame, processTCP, val_bind, val_ite, val_pure]
    split_ifs
    all_goals first | exact refl f | exact of_routesOnly (routeTCPNBL_routesOnly ..)

theorem receiveFrame : SameSettings f (receiveFrame cfg f fr amb).1 := by
  have h : SameSettings f
      ((LcxlNetLoader.processNBL cfg f true fr.dataLength amb).val fr.byte).1 := processNBL
  unfold LcxlNetLoader.receiveFrame
  generalize (LcxlNetLoader.processNBL cfg f true fr.dataLength amb).val fr.byte = r at h ⊢
  obtain ⟨f', code, route, ip⟩ := r
  cases code <;> cases route
  all_goals first | exact h | exact h.trans (of_routesOnly (dropClosed_routesOnly ..))

theorem receiveVerdict {ambs : NblPtr → Ambient} {h : NblHeap} {x : NblPtr} :
    SameSettings f (receiveVerdict cfg ambs h f x).1 := by
  unfold LcxlNetLoader.receiveVerdict receiveNbl
  rcases h.frame x with _ | fr
  · exact refl f
  · exact receiveFrame

theorem advertises (h : SameSettings f f') {data : ℕ} :
    fr.Advertises f' data ↔ fr.Advertises f data := by
  constructor
  · rintro ⟨hr, he, hd, hn, htype, hsource, hdest⟩
    rw [h.virtualAddr] at he hsource hdest
    exact ⟨h.lcxlRole ▸ hr, he, hd, hn, htype, hsource, hdest⟩
  · rintro ⟨hr, he, hd, hn, htype, hsource, hdest⟩
    rw [← h.virtualAddr] at he hsource hdest
    exact ⟨h.lcxlRole.trans hr, he, hd, hn, htype, hsource, hdest⟩

end SameSettings

theorem receiveFrame_icmpv6Na {cfg : LcxlSetting} {f : LcxlFilter} {fr : Frame} {amb : Ambient}
    (h : (receiveFrame cfg f fr amb).2.1 = .icmpv6Na) : (receiveFrame cfg f fr amb).2.2
      = some (.recv ((fr.copy fr.dataLength amb.heap).write 0
        (receiveFrame cfg f fr amb).1.module.macAddr.mac)) := by
  unfold receiveFrame at h ⊢
  generalize (processNBL cfg f true fr.dataLength amb).val fr.byte = r at h ⊢
  obtain ⟨f', code, route, ip⟩ := r
  cases code <;> cases route <;> first | rfl | exact absurd h nofun

theorem Frame.readdressed_copy {fr : Frame} {heap : ℕ → UInt8} (a : IfPhysicalAddress) :
    fr.Readdressed a.mac ((fr.copy fr.dataLength heap).write 0 a.mac) := by
  have hlen := length_mac a
  refine ⟨rfl, fun i hi => ?_, fun i hi hlt => ?_⟩
  · rw [Frame.write_byte, if_pos (Nat.zero_le i), Nat.sub_zero,
      List.getD_eq_getElem?_getD, List.getD_eq_getElem?_getD,
      List.getElem?_eq_getElem (show i < a.mac.length by omega)]
    rfl
  · rw [Frame.write_byte_of_ge (by omega), Frame.copy_byte hlt]

section Owns

variable (cfg : LcxlSetting) (amb : NblPtr → Ambient) (h : NblHeap) {f : LcxlFilter} {x : NblPtr}

theorem receiveVerdict_icmpv6Na : (receiveVerdict cfg amb h f x).2 = .icmpv6Na
    ↔ ∃ fr data, h.frame x = some fr ∧ fr.Advertises f data := by
  unfold receiveVerdict receiveNbl
  rcases hx : h.frame x with _ | fr
  · exact iff_of_false nofun fun ⟨_, _, h, _⟩ => nomatch h
  · simp only [receiveFrame_code, processNBL_icmpv6Na, Option.some.injEq, ↓existsAndEq, true_and]

/-- The frame created for an advertisement. -/
theorem receiveOwn_readdressed (hc : (receiveVerdict cfg amb h f x).2 = .icmpv6Na) :
    ∃ fr fr', h.frame x = some fr ∧ receiveOwn cfg amb h f x = some (.recv fr')
      ∧ fr.Readdressed f.module.macAddr.mac fr' := by
  unfold receiveVerdict receiveNbl at hc
  unfold receiveOwn receiveNbl
  rcases hx : h.frame x with _ | fr <;> rw [hx] at hc
  · exact absurd hc nofun
  · have hs : SameSettings f (receiveFrame cfg f fr (amb x)).1 := .receiveFrame
    exact ⟨fr, _, rfl, receiveFrame_icmpv6Na hc, hs.macAddr ▸ Frame.readdressed_copy _⟩

theorem owns_readdressed : ∀ (xs : List NblPtr) (f : LcxlFilter), List.Forall₂
    (fun x fr' => ∃ fr, h.frame x = some fr ∧ fr.Readdressed f.module.macAddr.mac fr')
    ((receiveVerdict cfg amb h).select (· == .icmpv6Na) f xs)
    (((receiveVerdict cfg amb h).owns (receiveOwn cfg amb h) f xs).filterMap OwnNbl.received)
  | [], _ => .nil
  | x :: xs, f => by
    have ih := owns_readdressed xs (receiveVerdict cfg amb h f x).1
    have hs : SameSettings f (receiveVerdict cfg amb h f x).1 := .receiveVerdict
    rw [hs.macAddr] at ih
    rw [Verdict.select, Verdict.owns, List.filterMap_append]
    by_cases hc : (receiveVerdict cfg amb h f x).2 = .icmpv6Na
    · obtain ⟨fr, fr', hfr, hown, hre⟩ := receiveOwn_readdressed cfg amb h hc
      rw [if_pos (by simpa using hc), hown]
      exact .cons ⟨fr, hfr, hre⟩ ih
    · have hnone : ¬ ((receiveOwn cfg amb h f x).bind OwnNbl.received).isSome := by
        rw [receiveOwn_received]
        simpa using hc
      have hown : (receiveOwn cfg amb h f x).toList.filterMap OwnNbl.received = [] := by
        rcases ho : receiveOwn cfg amb h f x with _ | o
        · rfl
        · rw [ho] at hnone
          simpa using hnone
      rw [if_neg (by simpa using hc), hown]
      exact ih

/-- No NBL has the code where none had it at the start. -/
theorem select_eq_nil_iff : ∀ (xs : List NblPtr) (f : LcxlFilter),
    (receiveVerdict cfg amb h).select (· == .icmpv6Na) f xs = []
      ↔ ∀ x ∈ xs, ∀ fr data, h.frame x = some fr → ¬ fr.Advertises f data
  | [], _ => by simp [Verdict.select]
  | x :: xs, f => by
    have hs : SameSettings f (receiveVerdict cfg amb h f x).1 := .receiveVerdict
    have ih := select_eq_nil_iff xs (receiveVerdict cfg amb h f x).1
    simp only [hs.advertises] at ih
    rw [Verdict.select, List.forall_mem_cons, ← ih]
    by_cases hc : (receiveVerdict cfg amb h f x).2 = .icmpv6Na
    · rw [if_pos (by simpa using hc)]
      obtain ⟨fr, data, hfr, had⟩ := (receiveVerdict_icmpv6Na cfg amb h).1 hc
      exact iff_of_false (List.cons_ne_nil _ _) fun hno => hno.1 fr data hfr had
    · rw [if_neg (by simpa using hc)]
      refine ⟨fun hnil => ⟨fun fr data hfr had => hc ?_, hnil⟩, fun hno => hno.2⟩
      exact (receiveVerdict_icmpv6Na cfg amb h).2 ⟨fr, data, hfr, had⟩

end Owns

theorem length_owns_eq : ∀ owns : List OwnNbl, owns.length
    = (owns.filterMap OwnNbl.sent).length + (owns.filterMap OwnNbl.received).length
  | [] => rfl
  | .send fr :: owns => by
    have ih := length_owns_eq owns
    simp only [List.filterMap_cons, OwnNbl.sent, OwnNbl.received, List.length_cons]
    omega
  | .recv fr :: owns => by
    have ih := length_owns_eq owns
    simp only [List.filterMap_cons, OwnNbl.sent, OwnNbl.received, List.length_cons]
    omega

theorem mem_of_length {a : ℕ} {ys : List ℕ} (hnd : ys.Nodup)
    (hys : ∀ y ∈ ys, a ≤ y ∧ y < a + ys.length) {y : ℕ} (hle : a ≤ y) (hlt : y < a + ys.length) :
    y ∈ ys := by
  have hsub : ys.Subperm (List.range' a ys.length) :=
    List.subperm_of_subset hnd fun y hy => List.mem_range'_1.2 (hys y hy)
  exact (hsub.perm_of_length_le (by simp)).mem_iff.2 (List.mem_range'_1.2 ⟨hle, hlt⟩)

section Indications

variable {calls : List NdisCall} {routine : NdisRoutine} {flags : UInt32} {xs : List NblPtr}
  {alloc : NblPtr}

theorem HandedOver.indicationsFrom_of_not (h : HandedOver calls routine flags xs)
    (hr : ¬ routine.isIndicate) : indicationsFrom alloc calls = [] := by
  refine List.filter_eq_nil_iff.2 fun c hc => ?_
  rw [h.routine_eq c hc]
  simp [hr]

theorem HandedOver.indicationsFrom_of_lt (h : HandedOver calls routine flags xs)
    (hx : ∀ x ∈ xs, x < alloc) : indicationsFrom alloc calls = [] := by
  rcases h with ⟨-, rfl⟩ | ⟨hne, c, rfl, -, -, hc⟩
  · rfl
  · obtain ⟨x, xs, rfl⟩ := List.exists_cons_of_ne_nil hne
    have hlt := hx x List.mem_cons_self
    simp [indicationsFrom, hc.1, hlt]

theorem HandedOver.indicationsFrom_of_ge (h : HandedOver calls routine flags xs)
    (hr : routine.isIndicate) (hx : ∀ x ∈ xs, alloc ≤ x) :
    indicationsFrom alloc calls = calls := by
  rcases h with ⟨-, rfl⟩ | ⟨hne, c, rfl, hc, -, hcarries⟩
  · rfl
  · obtain ⟨x, xs, rfl⟩ := List.exists_cons_of_ne_nil hne
    have hle := hx x List.mem_cons_self
    simp [indicationsFrom, hcarries.1, hle, hc, hr]

end Indications

section Delivery

variable (cfg : LcxlSetting) {f : LcxlFilter} {c : ReceiveCall}

theorem result_eq (hf : f.state = .running) : c.result cfg f
    = receiveDone c.portNumber (UInt32.ofNat c.nbls.length) c.receiveFlags
      (walk links (receiveStep cfg c.amb c.left c.portNumber c.receiveFlags) c.nbls.length
        c.netBufferLists (start f c.heap)) :=
  receive_running cfg c.amb c.left c.portNumber _ hf

theorem result_alloc (hf : f.state = .running) (hp : cannotPend c.receiveFlags = false) :
    (c.result cfg f).heap.alloc = c.heap.alloc + (c.owns cfg f).length := by
  rw [result_eq cfg hf, (receiveDone_heap ..).2]
  exact (receive_walk cfg c.amb c.left f c.portNumber hp c.chain le_rfl c.alloc).created

/-- The NBLs created for advertisements are as they are to be. -/
theorem receive_created (hf : f.state = .running) (hp : cannotPend c.receiveFlags = false) :
    ∃ rs, c.Created cfg f rs := by
  have hs := receive_walk cfg c.amb c.left f c.portNumber hp c.chain le_rfl c.alloc
  obtain ⟨ss, rs, hq, ho⟩ := hs.queues
  have ho' : Own c.heap.alloc (c.owns cfg f) (c.result cfg f).heap ss rs := by
    rw [result_eq cfg hf]
    exact ho.congr (receiveDone_heap ..).1 (receiveDone_heap ..).2
  refine ⟨rs, hq.recv.nodup, fun y hy => ho'.fresh y (List.mem_append_right ss hy), ?_⟩
  have hframes := owns_readdressed cfg c.amb c.heap c.nbls f
  have hsome : List.Forall₂ (fun x o => ∃ fr fr', c.heap.frame x = some fr ∧ o = some fr'
      ∧ fr.Readdressed f.module.macAddr.mac fr') (c.advertised cfg f)
      (rs.map (c.result cfg f).heap.frame) := by
    rw [ho'.received, List.forall₂_map_right_iff]
    exact hframes.imp fun x fr' ⟨fr, hfr, hre⟩ => ⟨fr, fr', hfr, rfl, hre⟩
  exact List.forall₂_map_right_iff.1 hsome

/-- Of the NBLs created to be indicated only the last one is, and counted as none. -/
theorem receive_indications (hf : f.state = .running) (hp : cannotPend c.receiveFlags = false) :
    ∃ ss rs, Own c.heap.alloc (c.owns cfg f) (c.result cfg f).heap ss rs
      ∧ HandedOver (indicationsFrom c.heap.alloc (c.result cfg f).calls)
        (.indicateReceive c.portNumber 0) (levelOf c.receiveFlags) rs.getLast?.toList
      ∧ (ss = [] ∨ ∃ call ∈ (c.result cfg f).calls, call.Carries ss) := by
  obtain ⟨up, back, own, hcalls, hup, hback, sends, recvs, ss, rs, rfl, ho, hsends, hrecvs⟩ :=
    receive_mayPend cfg c.amb c.left c.portNumber (UInt32.ofNat c.nbls.length) c.chain le_rfl
      c.alloc hf hp
  have hresult : (c.result cfg f).calls = up ++ back ++ (sends ++ recvs) := hcalls
  have hlast : ∀ y ∈ rs.getLast?.toList, c.heap.alloc ≤ y := by
    intro y hy
    rw [Option.mem_toList] at hy
    exact (ho.fresh y (List.mem_append_right ss (List.mem_of_getLast? hy))).1
  have hind : indicationsFrom c.heap.alloc (c.result cfg f).calls = recvs := by
    have hlt : ∀ x ∈ (receiveVerdict cfg c.amb c.heap).select passesUp f c.nbls,
        x < c.heap.alloc :=
      fun x hx => c.alloc x ((Verdict.select_sublist _ passesUp c.nbls f).subset hx)
    rw [hresult, indicationsFrom, List.filter_append, List.filter_append, List.filter_append]
    have h1 := hup.indicationsFrom_of_lt hlt
    have h2 : indicationsFrom c.heap.alloc back = [] :=
      hback.indicationsFrom_of_not Bool.false_ne_true
    have h3 : indicationsFrom c.heap.alloc sends = [] :=
      hsends.indicationsFrom_of_not Bool.false_ne_true
    have h4 := hrecvs.indicationsFrom_of_ge rfl hlast
    unfold indicationsFrom at h1 h2 h3 h4
    rw [h1, h2, h3, h4]
    rfl
  refine ⟨ss, rs, ho, hind ▸ hrecvs, ?_⟩
  rcases hsends with ⟨hnil, -⟩ | ⟨-, call, rfl, -, -, hcarries⟩
  · exact .inl hnil
  · exact .inr ⟨call, by simp [hresult], hcarries⟩

theorem length_received {ss rs : List NblPtr}
    (ho : Own c.heap.alloc (c.owns cfg f) (c.result cfg f).heap ss rs) :
    rs.length = (c.advertised cfg f).length := by
  have hlen := congrArg List.length ho.received
  rw [List.length_map, List.length_map] at hlen
  exact hlen.trans (owns_readdressed cfg c.amb c.heap c.nbls f).length_eq.symm

/-- Where nothing is to be indicated, what is created is sent. -/
theorem created_referenced (hf : f.state = .running) (hp : cannotPend c.receiveFlags = false)
    (hnil : c.advertised cfg f = []) (y : NblPtr) (hle : c.heap.alloc ≤ y)
    (hlt : y < (c.result cfg f).heap.alloc) :
    ∃ call ∈ (c.result cfg f).calls, ∃ xs, call.Carries xs ∧ y ∈ xs := by
  obtain ⟨ss, rs, ho, -, hss⟩ := receive_indications cfg hf hp
  have hrs : rs = [] :=
    List.length_eq_zero_iff.1 ((length_received cfg ho).trans (by rw [hnil]; rfl))
  have halloc : (c.result cfg f).heap.alloc = c.heap.alloc + ss.length := by
    have hsent := congrArg List.length ho.sent
    have hreceived := congrArg List.length ho.received
    rw [List.length_map, List.length_map] at hsent hreceived
    rw [result_alloc cfg hf hp, length_owns_eq, ← hsent, ← hreceived, hrs]
    rfl
  rw [halloc] at hlt
  rcases hss with rfl | ⟨call, hcall, hcarries⟩
  · simp only [List.length_nil, Nat.add_zero] at hlt
    exact absurd hlt hle.not_gt
  · refine ⟨call, hcall, ss, hcarries, mem_of_length hcarries.nodup (fun z hz => ?_) hle hlt⟩
    rw [← halloc]
    exact ho.fresh z (List.mem_append_left rs hz)

/-- One call cannot be about the last NBL only and about all, or count none and one. -/
theorem advertised_eq_nil (hf : f.state = .running) (hp : cannotPend c.receiveFlags = false)
    (hd : c.Delivers cfg f) : c.advertised cfg f = [] := by
  obtain ⟨ss, rs, ho, hind, -⟩ := receive_indications cfg hf hp
  obtain ⟨⟨rs', hcreated, flags, hdelivered⟩, -⟩ := hd
  have hlen := length_received cfg ho
  have hlen' : rs'.length = rs.length := hcreated.frames.length_eq.symm.trans hlen.symm
  rcases List.eq_nil_or_concat' rs with rfl | ⟨ys, y, rfl⟩
  · exact List.length_eq_zero_iff.1 hlen.symm
  · exfalso
    rcases hdelivered with ⟨rfl, -⟩ | ⟨-, call, hcall, hroutine, -, hcarries⟩
    · simp at hlen'
    · rw [hcall] at hind
      rcases hind with ⟨hnil, -⟩ | ⟨-, call', hcall', hroutine', -, hcarries'⟩
      · simp at hnil
      · obtain rfl : call = call' := List.singleton_inj.1 hcall'
        have hone : rs' = [y] := by
          rw [hcarries.unique hcarries']
          simp
        rw [hone] at hroutine
        exact absurd (hroutine.symm.trans hroutine') (by simp)

theorem delivers_of_nil (hf : f.state = .running) (hp : cannotPend c.receiveFlags = false)
    (hnil : c.advertised cfg f = []) : c.Delivers cfg f := by
  obtain ⟨ss, rs, ho, hind, -⟩ := receive_indications cfg hf hp
  obtain ⟨rs', hcreated⟩ := receive_created cfg hf hp
  have hrs' : rs' = [] := by
    have hframes := hcreated.frames
    rw [hnil] at hframes
    exact List.forall₂_nil_left_iff.1 hframes
  have hrs : rs = [] :=
    List.length_eq_zero_iff.1 ((length_received cfg ho).trans (congrArg List.length hnil))
  subst hrs hrs'
  refine ⟨⟨[], hcreated, 0, .inl ⟨rfl, ?_⟩⟩, created_referenced cfg hf hp hnil⟩
  rcases hind with ⟨-, hnone⟩ | ⟨hne, -⟩
  · exact hnone
  · exact absurd rfl hne

/-- Simulated receives are delivered exactly where there is none to be delivered. -/
theorem delivers_iff (cfg : LcxlSetting) (f : LcxlFilter) (c : ReceiveCall)
    (hf : f.state = .running) (hp : cannotPend c.receiveFlags = false) :
    c.Delivers cfg f
      ↔ ∀ x ∈ c.nbls, ∀ fr data, c.heap.frame x = some fr → ¬ fr.Advertises f data := by
  rw [← select_eq_nil_iff cfg c.amb c.heap c.nbls f]
  exact ⟨advertised_eq_nil cfg hf hp, delivers_of_nil cfg hf hp⟩

/-- A server of an IPv6 address receives a frame of IPv4. -/
theorem delivers_iff_tcp :
    (Sample.receive (Sample.tcpFrame 0x02)).Delivers Sample.setting ipv6Server := by
  refine (delivers_iff Sample.setting ipv6Server (Sample.receive (Sample.tcpFrame 0x02)) rfl
    (by decide)).2 fun x _ fr data hfr h => ?_
  obtain ⟨dataLength, -, hdata⟩ := h.ethernetData
  cases hfr
  have hipv4 : ((getEthernetData (Sample.tcpFrame 0x02).dataLength).val
      (Sample.tcpFrame 0x02).byte).map (·.1) = some ethernetTypeIpv4 := by decide +kernel
  rw [hdata] at hipv4
  have htype : ethernetTypeIpv6 = ethernetTypeIpv4 := Option.some.inj hipv4
  exact absurd htype (by decide)

/-- An advertisement from fe80::9 to fd00::1. -/
def advertisementTo : Frame := .ofBytes
  ([2, 0, 0, 0, 0, 1, 2, 0, 0, 0, 0, 9, 0x86, 0xDD]
    ++ [0x60, 0, 0, 0, 0, 24, 0x3A, 255]
    ++ [0xFE, 0x80, 0, 0, 0, 0, 0, 0, 0, 0, 0, 0, 0, 0, 0, 9]
    ++ [0xFD, 0, 0, 0, 0, 0, 0, 0, 0, 0, 0, 0, 0, 0, 0, 1]
    ++ [136, 0, 0, 0, 0x60, 0, 0, 0]
    ++ [0xFE, 0x80, 0, 0, 0, 0, 0, 0, 0, 0, 0, 0, 0, 0, 0, 9])

theorem advertisementTo_advertises : advertisementTo.Advertises ipv6Server 14 :=
  ⟨rfl, by decide, ⟨64, by decide, by decide +kernel⟩, by decide +kernel, by decide +kernel,
    by decide +kernel, by decide +kernel⟩

/-- One advertisement is indicated as no NBL. -/
theorem not_delivers : ¬ ∀ (cfg : LcxlSetting) (f : LcxlFilter) (c : ReceiveCall),
    f.state = .running → cannotPend c.receiveFlags = false → c.Delivers cfg f := by
  intro h
  have hnil := advertised_eq_nil Sample.setting rfl rfl
    (h Sample.setting ipv6Server (Sample.receive advertisementTo) rfl rfl)
  exact (select_eq_nil_iff Sample.setting _ _ _ _).1 hnil 0 (by decide) advertisementTo 14 rfl
    advertisementTo_advertises

end Delivery

end LcxlNetLoader
