import LcxlNetLoader.Proofs.Queues
import LcxlNetLoader.Proofs.Receive

/-!
# No NBL is lost

Every result code has its case, so each round of a loop puts its NBL at the end of a queue, or
indicates it alone where NBLs may not be kept. What follows the loop hands each queue over whole.
-/

namespace LcxlNetLoader

open Linked

section Codes

variable {cfg : LcxlSetting} {f : LcxlFilter} {fr : Frame} {amb : Ambient}

theorem Kept.handled {result : ProcessNblResult} (h : Kept result) :
    handledOnReceive result.code := by
  rcases h with h | h | h | h <;> rw [h] <;> rfl

/-- The codes of a frame received. -/
theorem processNBL_handledOnReceive (cfg : LcxlSetting) (f : LcxlFilter) (fr : Frame)
    (amb : Ambient) : handledOnReceive
      ((processNBL cfg f true fr.dataLength amb).val fr.byte).2.code := by
  rcases hv : vipPacket f fr with _ | pkt
  · rcases hc : checkingSource f fr with _ | mac
    · exact (processNBL_other cfg amb hv hc).2.handled
    · obtain ⟨t, code, hcode, hval, -⟩ := processNBL_checking cfg amb hc
      rw [hval]
      rcases hcode with rfl | rfl <;> rfl
  · rw [processNBL_vip hv]
    simp only
    split_ifs <;> rfl

open ReadLog in
/-- The codes of a frame sent. -/
theorem processNBL_handledOnSend (cfg : LcxlSetting) (f : LcxlFilter) (fr : Frame)
    (amb : Ambient) : handledOnSend
      ((processNBL cfg f false fr.dataLength amb).val fr.byte).2.code := by
  refine processNBL_cases (P := fun r => handledOnSend r.2.code) rfl (fun _ _ => rfl)
    (fun data => ?_) (@fun data _ _ _ _ _ => ?_) (fun _ _ _ _ _ => ?_) (fun data => ?_)
  · simp only [processARP, val_bind, val_ite, val_pure]
    split_ifs <;> rfl
  · rcases processICMPv6_code cfg f false data f.module.virtualAddr fr.byte with h | h | h | h
    · rw [h]; rfl
    · rw [h]; rfl
    · rw [h.2]; rfl
    · exact absurd h.1 Bool.false_ne_true
  · simp only [processTCPFrame, processTCP, val_bind, val_ite, val_pure, Bool.false_eq_true,
      if_false]
    split_ifs <;> rfl
  · simp only [processUDP, val_bind, val_ite, val_pure]
    split_ifs <;> rfl

theorem receiveFrame_code (cfg : LcxlSetting) (f : LcxlFilter) (fr : Frame) (amb : Ambient) :
    (receiveFrame cfg f fr amb).2.1
      = ((processNBL cfg f true fr.dataLength amb).val fr.byte).2.code := by
  unfold receiveFrame
  generalize (processNBL cfg f true fr.dataLength amb).val fr.byte = r
  obtain ⟨f', code, route, ip⟩ := r
  cases code <;> cases route <;> rfl

theorem sendFrame_code (cfg : LcxlSetting) (f : LcxlFilter) (fr : Frame) (amb : Ambient) :
    (sendFrame cfg f fr amb).2.1
      = ((processNBL cfg f false fr.dataLength amb).val fr.byte).2.code := by
  unfold sendFrame
  generalize (processNBL cfg f false fr.dataLength amb).val fr.byte = r
  obtain ⟨f', code, route, ip⟩ := r
  cases code <;> rfl

end Codes

section Loops

open DataPath

variable {cfg : LcxlSetting} {amb : NblPtr → Ambient} {left : NblPtr → Option NblPtr}
  {f f' : LcxlFilter} {h : NblHeap} {xs done rest : List NblPtr} {s : DataPath} {x : NblPtr}
  {code : ProcessNblResultCode} {own : Option OwnNbl} {owns : List OwnNbl} {p : Option NblPtr}
  {fuel : ℕ} {portNumber flags : UInt32}

theorem receiveNbl_handled (cfg : LcxlSetting) (amb : NblPtr → Ambient)
    (frame : NblPtr → Option Frame) (f : LcxlFilter) (x : NblPtr) :
    handledOnReceive (receiveNbl cfg amb frame f x).2.1 := by
  unfold receiveNbl
  rcases frame x with _ | fr
  · rfl
  · simp only [receiveFrame_code]
    exact processNBL_handledOnReceive cfg f fr (amb x)

theorem sendNbl_handled (cfg : LcxlSetting) (amb : NblPtr → Ambient)
    (frame : NblPtr → Option Frame) (f : LcxlFilter) (x : NblPtr) :
    handledOnSend (sendNbl cfg amb frame f x).2.1 := by
  unfold sendNbl
  rcases frame x with _ | fr
  · rfl
  · simp only [sendFrame_code]
    exact processNBL_handledOnSend cfg f fr (amb x)

theorem receiveStep_mayPend (hp : cannotPend flags = false)
    (hr : receiveNbl cfg amb s.heap.frame s.filter x = (f', code, own)) :
    receiveStep cfg amb left portNumber flags s x = DataPath.queueOwn
      (if passesUp code then
        { s.queuePass x with filter := f', numberOfPassNbl := s.numberOfPassNbl + 1 }
      else { s.queueDrop x with filter := f' }) own := by
  have hc := receiveNbl_handled cfg amb s.heap.frame s.filter x
  unfold receiveStep
  rw [hr] at hc ⊢
  simp only [hp]
  cases code <;> first | rfl | contradiction

theorem receiveStep_cannotPend (hp : cannotPend flags)
    (hr : receiveNbl cfg amb s.heap.frame s.filter x = (f', code, own)) :
    receiveStep cfg amb left portNumber flags s x = DataPath.queueOwn
      (if passesUp code then
        { s with filter := f' }.indicateAlone portNumber flags (left x) x
      else { s with filter := f' }) own := by
  unfold receiveStep
  rw [hr]
  simp only [hp]
  cases code <;> rfl

theorem receiveVerdict_eq (hframe : s.heap.frame x = h.frame x)
    (hr : receiveNbl cfg amb s.heap.frame s.filter x = (f', code, own)) :
    receiveVerdict cfg amb h s.filter x = (f', code) := by
  simp only [receiveNbl, hframe] at hr
  simp only [receiveVerdict, receiveNbl, hr]

theorem sendVerdict_eq (hframe : s.heap.frame x = h.frame x)
    (hr : sendNbl cfg amb s.heap.frame s.filter x = (f', code, own)) :
    sendVerdict cfg amb h s.filter x =
      (if f'.trackSends then { f' with outstandingSends := f'.outstandingSends + 1 } else f',
        code) := by
  simp only [sendNbl, hframe] at hr
  simp only [sendVerdict, sendNbl, hr]

theorem receiveOwn_eq (hframe : s.heap.frame x = h.frame x)
    (hr : receiveNbl cfg amb s.heap.frame s.filter x = (f', code, own)) :
    receiveOwn cfg amb h s.filter x = own := by
  simp only [receiveNbl, hframe] at hr
  simp only [receiveOwn, receiveNbl, hr]

theorem sendOwn_eq (hframe : s.heap.frame x = h.frame x)
    (hr : sendNbl cfg amb s.heap.frame s.filter x = (f', code, own)) :
    sendOwn cfg amb h s.filter x = own := by
  simp only [sendNbl, hframe] at hr
  simp only [sendOwn, sendNbl, hr]

/-- A passing NBL is put back into its chain whatever was done to its link. -/
theorem indicateAlone_eq (s : DataPath) (portNumber flags : UInt32) (left : Option NblPtr)
    (x : NblPtr) : s.indicateAlone portNumber flags left x =
      { s with calls := s.calls ++ [⟨.indicateReceive portNumber 1, some x,
        flags ||| receiveFlagsResources, Function.update s.heap.next x none⟩] } := by
  simp only [indicateAlone, call, setNext, NblHeap.setNext, Function.update_idem,
    Function.update_eq_self]

theorem sendStep_eq (hr : sendNbl cfg amb s.heap.frame s.filter x = (f', code, own)) :
    sendStep cfg amb s x =
      let s' := DataPath.queueOwn
        (if passesDown code then
          { s.queuePass x with filter := f', numberOfPassNbl := s.numberOfPassNbl }
        else { s.queueDrop x with filter := f' }) own
      if s'.filter.trackSends then s'.addSends 1 else s' := by
  have hc := sendNbl_handled cfg amb s.heap.frame s.filter x
  unfold sendStep
  rw [hr] at hc ⊢
  cases code <;> first | rfl | contradiction

/-- What a walk over the NBLs received that may pend has done. -/
structure ReceiveWalk (cfg : LcxlSetting) (amb : NblPtr → Ambient) (f : LcxlFilter) (h : NblHeap)
    (xs done : List NblPtr) (s : DataPath) : Prop
    extends Sorted (receiveVerdict cfg amb h) passesUp f h
      ((receiveVerdict cfg amb h).owns (receiveOwn cfg amb h) f done) xs done s where
  filter : s.filter = (receiveVerdict cfg amb h).after f done
  passed : s.numberOfPassNbl
    = UInt32.ofNat ((receiveVerdict cfg amb h).select passesUp f done).length
  created : s.heap.alloc
    = h.alloc + ((receiveVerdict cfg amb h).owns (receiveOwn cfg amb h) f done).length

variable (left portNumber) in
/-- A round puts its NBL in its queue. -/
theorem ReceiveWalk.step (hs : ReceiveWalk cfg amb f h xs done s) (hp : cannotPend flags = false)
    (hx : IsChain h.next p xs) (ha : ∀ y ∈ xs, y < h.alloc) (hxs : xs = done ++ x :: rest) :
    ReceiveWalk cfg amb f h xs (done ++ [x]) (receiveStep cfg amb left portNumber flags s x) := by
  set v := receiveVerdict cfg amb h with hv
  have hnd := hx.nodup
  have hmem : done ++ [x] ⊆ xs := by simp [hxs]
  rcases hr : receiveNbl cfg amb s.heap.frame s.filter x with ⟨f', code, own⟩
  have hframe := hs.frame x (ha x (hmem (by simp)))
  have hcode : v (v.after f done) x = (f', code) := by
    rw [← hs.filter]
    exact receiveVerdict_eq hframe hr
  have hown : receiveOwn cfg amb h (v.after f done) x = own := by
    rw [← hs.filter]
    exact receiveOwn_eq hframe hr
  rw [receiveStep_mayPend hp hr]
  refine ⟨?_, ?_, ?_, ?_⟩
  · rw [← hv, v.owns_concat, hown]
    refine Sorted.queueOwn ?_ hmem ha own
    split_ifs with hk
    · exact hs.toSorted.queuePass hxs hnd ha (by rw [← hv, hcode]; exact hk)
    · refine hs.toSorted.queueDrop hxs hnd ha ?_
      rw [← hv, hcode]
      exact Bool.eq_false_of_not_eq_true hk
  · rw [queueOwn_filter, ← hv, v.after_append]
    have hf' : f' = v.after (v.after f done) [x] := (congrArg Prod.fst hcode).symm
    rw [← hf']
    split_ifs <;> rfl
  · rw [queueOwn_numberOfPassNbl, ← hv, v.select_append, v.select_singleton, hcode]
    split_ifs
    · rw [List.length_append, List.length_singleton, UInt32.ofNat_add, ← hs.passed]
      rfl
    · rw [List.append_nil]
      exact hs.passed
  · rw [queueOwn_alloc, ← hv, v.owns_concat, hown, List.length_append, ← Nat.add_assoc,
      ← hs.created]
    split_ifs <;> rfl

variable (cfg amb left f portNumber) in
theorem receive_walk (hp : cannotPend flags = false) (hx : IsChain h.next p xs)
    (hfuel : xs.length ≤ fuel) (ha : ∀ y ∈ xs, y < h.alloc) :
    ReceiveWalk cfg amb f h xs xs
      (walk links (receiveStep cfg amb left portNumber flags) fuel p (start f h)) := by
  refine walk_inv (I := ReceiveWalk cfg amb f h xs) (fun done x rest s hxs hs => ?_) xs [] fuel p _
    rfl hx hfuel ⟨Sorted.start f h xs, rfl, rfl, rfl⟩
  have hstep := hs.step left portNumber hp hx ha hxs
  exact ⟨hstep, hstep.next hxs hx.nodup⟩

variable (cfg amb left f portNumber) in
/-- A walk over the NBLs received that may pend puts each in its queue. -/
theorem receive_sorted (hp : cannotPend flags = false) (hx : IsChain h.next p xs)
    (hfuel : xs.length ≤ fuel) (ha : ∀ y ∈ xs, y < h.alloc) :
    let v := receiveVerdict cfg amb h
    let s := walk links (receiveStep cfg amb left portNumber flags) fuel p (start f h)
    Sorted v passesUp f h (v.owns (receiveOwn cfg amb h) f xs) xs xs s ∧ s.filter = v.after f xs
      ∧ s.numberOfPassNbl = UInt32.ofNat (v.select passesUp f xs).length := by
  have hs := receive_walk cfg amb left f portNumber hp hx hfuel ha
  exact ⟨hs.toSorted, hs.filter, hs.passed⟩

/-- What a round leaves that may not keep NBLs: those passing were indicated one by one, and all
are linked as they came. -/
structure Indicated (v : Verdict) (f : LcxlFilter) (h : NblHeap) (portNumber flags : UInt32)
    (owns : List OwnNbl) (done : List NblPtr) (s : DataPath) : Prop
    extends Working h owns [] [] s where
  links : ∀ y < h.alloc, s.heap.next y = h.next y
  calls : List.Forall₂ (NdisCall.Alone portNumber flags) s.calls (v.select passesUp f done)

theorem Indicated.indicateAlone {v : Verdict} (hs : Indicated v f h portNumber flags owns done s)
    (hk : passesUp (v (v.after f done) x).2) (l : Option NblPtr) (g : LcxlFilter) :
    Indicated v f h portNumber flags owns (done ++ [x])
      ({ s with filter := g }.indicateAlone portNumber flags l x) := by
  obtain ⟨ss, rs, hq, ho⟩ := hs.queues
  rw [indicateAlone_eq]
  refine ⟨⟨hs.frame, hs.alloc, ss, rs, ⟨hq.1, hq.2, hq.3, hq.4, hq.5⟩, ho⟩, hs.links, ?_⟩
  rw [v.select_append, v.select_singleton, if_pos hk]
  refine List.rel_append hs.calls (.cons ⟨rfl, rfl, rfl, ?_⟩ .nil)
  exact Function.update_self ..

theorem Indicated.ignore {v : Verdict} (hs : Indicated v f h portNumber flags owns done s)
    (hk : ¬ passesUp (v (v.after f done) x).2) (g : LcxlFilter) :
    Indicated v f h portNumber flags owns (done ++ [x]) { s with filter := g } := by
  obtain ⟨ss, rs, hq, ho⟩ := hs.queues
  refine ⟨⟨hs.frame, hs.alloc, ss, rs, ⟨hq.1, hq.2, hq.3, hq.4, hq.5⟩, ho⟩, hs.links, ?_⟩
  rw [v.select_append, v.select_singleton, if_neg hk, List.append_nil]
  exact hs.calls

theorem Indicated.queueOwn {v : Verdict} (hs : Indicated v f h portNumber flags owns done s)
    (own : Option OwnNbl) :
    Indicated v f h portNumber flags (owns ++ own.toList) done (s.queueOwn own) := by
  refine ⟨hs.toWorking.queueOwn (by simp) own, fun y hy => ?_, ?_⟩
  · exact (hs.toWorking.queueOwn_next hy own).trans (hs.links y hy)
  · rw [queueOwn_calls]
    exact hs.calls

variable (cfg amb left f portNumber) in
/-- A walk over the NBLs received that may not keep them. -/
theorem receive_indicated (hp : cannotPend flags) (hx : IsChain h.next p xs)
    (hfuel : xs.length ≤ fuel) (ha : ∀ y ∈ xs, y < h.alloc) :
    let v := receiveVerdict cfg amb h
    let s := walk links (receiveStep cfg amb left portNumber flags) fuel p (start f h)
    Indicated v f h portNumber flags (v.owns (receiveOwn cfg amb h) f xs) xs s
      ∧ s.filter = v.after f xs := by
  intro v s
  let I : List NblPtr → DataPath → Prop := fun done s =>
    Indicated v f h portNumber flags (v.owns (receiveOwn cfg amb h) f done) done s
      ∧ s.filter = v.after f done
  have hstep : ∀ done x rest s, xs = done ++ x :: rest → I done s →
      I (done ++ [x]) (receiveStep cfg amb left portNumber flags s x)
        ∧ links (receiveStep cfg amb left portNumber flags s x) x = h.next x := by
    rintro done x rest s hxs ⟨hs, hf⟩
    have hlt := ha x (by simp [hxs])
    suffices I (done ++ [x]) (receiveStep cfg amb left portNumber flags s x) from
      ⟨this, this.1.links x hlt⟩
    rcases hr : receiveNbl cfg amb s.heap.frame s.filter x with ⟨f', code, own⟩
    have hv : v (v.after f done) x = (f', code) := by
      rw [← hf]
      exact receiveVerdict_eq (hs.frame x hlt) hr
    have hown : receiveOwn cfg amb h (v.after f done) x = own := by
      rw [← hf]
      exact receiveOwn_eq (hs.frame x hlt) hr
    rw [receiveStep_cannotPend hp hr]
    refine ⟨?_, ?_⟩
    · rw [v.owns_concat, hown]
      refine Indicated.queueOwn ?_ own
      split_ifs with hk
      · exact hs.indicateAlone (by rw [hv]; exact hk) (left x) f'
      · exact hs.ignore (by rw [hv]; exact hk) f'
    · rw [queueOwn_filter, v.after_append]
      refine Eq.trans ?_ (congrArg Prod.fst hv).symm
      split_ifs <;> rfl
  refine walk_inv hstep xs [] fuel p _ rfl hx hfuel ⟨⟨Working.start f h, ?_, .nil⟩, rfl⟩
  exact fun _ _ => rfl

variable (cfg amb f) in
/-- A walk over the NBLs sent puts each in its queue. -/
theorem send_sorted (hx : IsChain h.next p xs) (hfuel : xs.length ≤ fuel)
    (ha : ∀ y ∈ xs, y < h.alloc) :
    let v := sendVerdict cfg amb h
    let s := walk links (sendStep cfg amb) fuel p (start f h)
    Sorted v passesDown f h (v.owns (sendOwn cfg amb h) f xs) xs xs s
      ∧ s.filter = v.after f xs := by
  intro v s
  let I : List NblPtr → DataPath → Prop := fun done s =>
    Sorted v passesDown f h (v.owns (sendOwn cfg amb h) f done) xs done s
      ∧ s.filter = v.after f done
  have hstep : ∀ done x rest s, xs = done ++ x :: rest → I done s →
      I (done ++ [x]) (sendStep cfg amb s x) ∧ links (sendStep cfg amb s x) x = h.next x := by
    rintro done x rest s hxs ⟨hs, hf⟩
    have hnd := hx.nodup
    have hmem : done ++ [x] ⊆ xs := by simp [hxs]
    suffices I (done ++ [x]) (sendStep cfg amb s x) from ⟨this, this.1.next hxs hnd⟩
    rcases hr : sendNbl cfg amb s.heap.frame s.filter x with ⟨f', code, own⟩
    have hframe := hs.frame x (ha x (hmem (by simp)))
    have hv := sendVerdict_eq hframe hr
    have hown := sendOwn_eq hframe hr
    rw [hf] at hv hown
    have hcode : (v (v.after f done) x).2 = code := congrArg Prod.snd hv
    obtain ⟨t, ht, hsort, hft⟩ : ∃ t,
        sendStep cfg amb s x = (if t.filter.trackSends then t.addSends 1 else t)
          ∧ Sorted v passesDown f h (v.owns (sendOwn cfg amb h) f (done ++ [x])) xs (done ++ [x]) t
          ∧ t.filter = f' := by
      rw [v.owns_concat, hown]
      refine ⟨_, sendStep_eq hr, Sorted.queueOwn ?_ hmem ha own, ?_⟩
      · split_ifs with hk
        · exact hs.queuePass hxs hnd ha (by rw [hcode]; exact hk)
        · exact hs.queueDrop hxs hnd ha (by rw [hcode]; exact Bool.eq_false_of_not_eq_true hk)
      · rw [queueOwn_filter]
        split_ifs <;> rfl
    rw [ht, hft]
    refine ⟨?_, ?_⟩
    · split_ifs
      · exact hsort.addSends
      · exact hsort
    · rw [v.after_append]
      refine Eq.trans ?_ (congrArg Prod.fst hv).symm
      split_ifs
      · rw [← hft]
        rfl
      · exact hft
  exact walk_inv hstep xs [] fuel p _ rfl hx hfuel ⟨Sorted.start f h xs, rfl⟩

end Loops

section HandOver

open DataPath

variable {s : DataPath} {h h' : NblHeap} {owns : List OwnNbl} {q q' : Queue NblPtr}
  {present nbl : Option NblPtr} {routine : NdisRoutine} {flags portNumber : UInt32}
  {xs ps ds ys : List NblPtr}
  {y : NblPtr}

@[simp] theorem handOver_pass : (s.handOver q present nbl routine flags).pass = s.pass := by
  unfold handOver; split_ifs <;> rfl

@[simp] theorem handOver_drop : (s.handOver q present nbl routine flags).drop = s.drop := by
  unfold handOver; split_ifs <;> rfl

@[simp] theorem handOver_send : (s.handOver q present nbl routine flags).send = s.send := by
  unfold handOver; split_ifs <;> rfl

@[simp] theorem handOver_recv : (s.handOver q present nbl routine flags).recv = s.recv := by
  unfold handOver; split_ifs <;> rfl

@[simp] theorem handOver_frame :
    (s.handOver q present nbl routine flags).heap.frame = s.heap.frame := by
  unfold handOver; split_ifs <;> rfl

@[simp] theorem handOver_alloc :
    (s.handOver q present nbl routine flags).heap.alloc = s.heap.alloc := by
  unfold handOver; split_ifs <;> rfl

@[simp] theorem handOver_filter :
    (s.handOver q present nbl routine flags).filter = s.filter := by
  unfold handOver; split_ifs <;> rfl

/-- The NBLs outside the queue stay linked as they are. -/
theorem handOver_next (hq : q.Holds s.heap.next xs) (hy : y ∉ xs) :
    (s.handOver q present nbl routine flags).heap.next y = s.heap.next y := by
  unfold handOver
  split_ifs
  · exact hq.close_of_notMem hy
  · rfl

theorem handOver_holds (hq' : q'.Holds s.heap.next ys) (hq : q.Holds s.heap.next xs)
    (hd : ∀ y ∈ ys, y ∉ xs) :
    q'.Holds (s.handOver q present nbl routine flags).heap.next ys :=
  hq'.congr fun y hy => handOver_next hq (hd y hy)

theorem handOver_handedOver (routine : NdisRoutine) (flags : UInt32)
    (hq : q.Holds s.heap.next xs) (hp : present = none ↔ xs = []) :
    ∃ calls, (s.handOver q present q.head routine flags).calls = s.calls ++ calls
      ∧ HandedOver calls routine flags xs := by
  unfold handOver
  by_cases hxs : xs = []
  · refine ⟨[], ?_, .inl ⟨hxs, rfl⟩⟩
    rw [hp.2 hxs, List.append_nil]
    rfl
  · rw [if_pos (Option.isSome_iff_ne_none.2 fun h => hxs (hp.1 h))]
    exact ⟨_, rfl, .inr ⟨hxs, _, rfl, rfl, rfl, hq.close⟩⟩

theorem HandedOver.ofOwn {calls : List NdisCall} {alloc : NblPtr}
    (hc : HandedOver calls routine flags xs)
    (hr : routine = .send portNumber ∨ ∃ n, routine = .indicateReceive portNumber n)
    (ha : ∀ x ∈ xs, alloc ≤ x) : ∀ c ∈ calls, c.OfOwn alloc := by
  rcases hc with ⟨-, rfl⟩ | ⟨-, c, rfl, hc, -, hx⟩
  · simp
  · intro d hd
    rw [List.mem_singleton.1 hd]
    exact ⟨⟨portNumber, hc ▸ hr⟩, xs, hx, ha⟩

/-- Of the driver's own NBLs to be indicated only the last one is. -/
theorem handOver_tail (portNumber n flags : UInt32) (hq : q.Holds s.heap.next xs) :
    ∃ calls, (s.handOver q q.tail q.tail (.indicateReceive portNumber n) flags).calls
        = s.calls ++ calls
      ∧ HandedOver calls (.indicateReceive portNumber n) flags xs.getLast?.toList := by
  unfold handOver
  rw [← hq.tail]
  rcases ht : q.tail with _ | t
  · exact ⟨[], (List.append_nil _).symm, .inl ⟨rfl, rfl⟩⟩
  · refine ⟨_, rfl, .inr ⟨List.cons_ne_nil t [], _, rfl, rfl, rfl, rfl, ?_⟩⟩
    show q.close s.heap.next t = none
    unfold Queue.close Queue.relink
    rw [ht]
    exact Function.update_self ..

/-- The driver's own NBLs of both kinds are handed over. -/
theorem handOver_own (portNumber n flags : UInt32) (hs : s.send.Holds s.heap.next xs)
    (hr : s.recv.Holds s.heap.next ys) (hd : ∀ y ∈ ys, y ∉ xs) :
    let s' := s.handOver s.send s.send.head s.send.head (.send portNumber) flags
    ∃ sends recvs, (s'.handOver s'.recv s'.recv.tail s'.recv.tail (.indicateReceive portNumber n)
        flags).calls = s.calls ++ (sends ++ recvs)
      ∧ HandedOver sends (.send portNumber) flags xs
      ∧ HandedOver recvs (.indicateReceive portNumber n) flags ys.getLast?.toList := by
  intro s'
  have hr' : s'.recv.Holds s'.heap.next ys := by
    rw [handOver_recv]
    exact handOver_holds hr hs hd
  obtain ⟨sends, hcs, hsends⟩ :=
    handOver_handedOver (.send portNumber) flags hs hs.head_eq_none
  obtain ⟨recvs, hcr, hrecvs⟩ := handOver_tail portNumber n flags hr'
  refine ⟨sends, recvs, ?_, hsends, hrecvs⟩
  rw [hcr, hcs, List.append_assoc]

/-- The calls with the driver's own NBLs: those to be sent go as one chain, and of those to be
indicated the last one goes. -/
def OwnCalls (portNumber flags : UInt32) (alloc : NblPtr) (owns : List OwnNbl) (h : NblHeap)
    (calls : List NdisCall) : Prop :=
  ∃ sends recvs ss rs, calls = sends ++ recvs ∧ Own alloc owns h ss rs
    ∧ HandedOver sends (.send portNumber) flags ss
    ∧ HandedOver recvs (.indicateReceive portNumber 0) flags rs.getLast?.toList

theorem OwnCalls.ofOwn {calls : List NdisCall}
    (hc : OwnCalls portNumber flags h.alloc owns h' calls) : ∀ c ∈ calls, c.OfOwn h.alloc := by
  obtain ⟨sends, recvs, ss, rs, rfl, ho, hs, hr⟩ := hc
  intro c hm
  rcases List.mem_append.1 hm with hm | hm
  · exact hs.ofOwn (.inl rfl) (fun x hx => (ho.fresh x (List.mem_append_left rs hx)).1) c hm
  · refine hr.ofOwn (.inr ⟨0, rfl⟩) (fun x hx => ?_) c hm
    rw [Option.mem_toList] at hx
    exact (ho.fresh x (List.mem_append_right ss (List.mem_of_getLast? hx))).1

theorem receiveDone_filter (portNumber n flags : UInt32) (s : DataPath) :
    (receiveDone portNumber n flags s).filter = if s.filter.trackReceives then { s.filter with
      outstandingRcvs := if cannotPend flags then s.filter.outstandingRcvs + n + -n
        else s.filter.outstandingRcvs + n } else s.filter := by
  unfold receiveDone
  simp only []
  by_cases hp : cannotPend flags <;> by_cases ht : s.filter.trackReceives <;>
    simp [hp, ht, addRcvs]

/-- What is counted at the end changes the filter only. -/
theorem receiveDone_eq (portNumber n flags : UInt32) (s : DataPath) :
    ∃ g, receiveDone portNumber n flags s =
      let s1 := if cannotPend flags then s else
        let s := s.handOver s.pass s.pass.tail s.pass.head
          (.indicateReceive portNumber s.numberOfPassNbl) flags
        s.handOver s.drop s.drop.tail s.drop.head .returnNetBufferLists (levelOf flags)
      let s2 := s1.handOver s1.send s1.send.head s1.send.head (.send portNumber) (levelOf flags)
      { s2.handOver s2.recv s2.recv.tail s2.recv.tail (.indicateReceive portNumber 0)
        (levelOf flags) with filter := g } := by
  unfold receiveDone
  simp only []
  split_ifs <;> exact ⟨_, rfl⟩

theorem receiveDone_heap (portNumber n flags : UInt32) (s : DataPath) :
    (receiveDone portNumber n flags s).heap.frame = s.heap.frame
      ∧ (receiveDone portNumber n flags s).heap.alloc = s.heap.alloc := by
  obtain ⟨g, hg⟩ := receiveDone_eq portNumber n flags s
  rw [hg]
  by_cases hp : cannotPend flags <;> simp [hp]

/-- What the queues hold is handed over, and each NBL of `h` once. -/
theorem receiveDone_mayPend (hp : cannotPend flags = false) (hs : Working h owns ps ds s)
    (portNumber n : UInt32) :
    let s' := receiveDone portNumber n flags s
    ∃ up back own, s'.calls = s.calls ++ up ++ back ++ own
      ∧ HandedOver up (.indicateReceive portNumber s.numberOfPassNbl) flags ps
      ∧ HandedOver back .returnNetBufferLists (levelOf flags) ds
      ∧ OwnCalls portNumber (levelOf flags) h.alloc owns s'.heap own := by
  intro s'
  obtain ⟨ss, rs, hq, ho⟩ := hs.queues
  have ho' : Own h.alloc owns s'.heap ss rs :=
    ho.congr (receiveDone_heap ..).1 (receiveDone_heap ..).2
  obtain ⟨g, hg⟩ := receiveDone_eq portNumber n flags s
  have hcalls : s'.calls = _ := congrArg DataPath.calls hg
  rw [hcalls, hp]
  simp only [Bool.false_eq_true, if_false]
  set s1 := s.handOver s.pass s.pass.tail s.pass.head
    (.indicateReceive portNumber s.numberOfPassNbl) flags with hs1
  obtain ⟨up, hcu, hup⟩ := handOver_handedOver (.indicateReceive portNumber s.numberOfPassNbl)
    flags hq.pass hq.pass.tail_eq_none
  have hdrop : s1.drop.Holds s1.heap.next ds := by
    rw [hs1, handOver_drop]
    exact handOver_holds hq.drop hq.pass fun y hy => hq.not_pass (.inl hy)
  set s2 := s1.handOver s1.drop s1.drop.tail s1.drop.head .returnNetBufferLists (levelOf flags)
    with hs2
  obtain ⟨back, hcb, hback⟩ := handOver_handedOver .returnNetBufferLists (levelOf flags) hdrop
    hdrop.tail_eq_none
  have hsend : s2.send.Holds s2.heap.next ss := by
    rw [hs2, handOver_send, hs1, handOver_send]
    exact handOver_holds (handOver_holds hq.send hq.pass fun y hy => hq.not_pass (.inr (.inl hy)))
      hdrop fun y hy => hq.not_drop (.inr (.inl hy))
  have hrecv : s2.recv.Holds s2.heap.next rs := by
    rw [hs2, handOver_recv, hs1, handOver_recv]
    exact handOver_holds (handOver_holds hq.recv hq.pass fun y hy => hq.not_pass (.inr (.inr hy)))
      hdrop fun y hy => hq.not_drop (.inr (.inr hy))
  obtain ⟨sends, recvs, hco, hsends, hrecvs⟩ := handOver_own portNumber 0 (levelOf flags) hsend
    hrecv fun y hy => hq.not_send (.inr (.inr hy))
  refine ⟨up, back, sends ++ recvs, ?_, hup, hback, sends, recvs, ss, rs, rfl, ho', hsends, hrecvs⟩
  rw [hco, hcb, hcu]

/-- The NBLs of `h` stay linked as they are. -/
theorem receiveDone_cannotPend (hp : cannotPend flags) (hs : Working h owns [] [] s)
    (portNumber n : UInt32) :
    let s' := receiveDone portNumber n flags s
    (∃ own, s'.calls = s.calls ++ own
      ∧ OwnCalls portNumber (levelOf flags) h.alloc owns s'.heap own)
    ∧ ∀ y < h.alloc, s'.heap.next y = s.heap.next y := by
  intro s'
  obtain ⟨ss, rs, hq, ho⟩ := hs.queues
  have hd : ∀ y ∈ rs, y ∉ ss := fun y hy => hq.not_send (.inr (.inr hy))
  have ho' : Own h.alloc owns s'.heap ss rs :=
    ho.congr (receiveDone_heap ..).1 (receiveDone_heap ..).2
  obtain ⟨g, hg⟩ := receiveDone_eq portNumber n flags s
  have hs' : s' = _ := hg
  rw [hp] at hs'
  refine ⟨?_, fun y hy => ?_⟩
  · obtain ⟨sends, recvs, hco, hsends, hrecvs⟩ :=
      handOver_own portNumber 0 (levelOf flags) hq.send hq.recv hd
    refine ⟨sends ++ recvs, ?_, sends, recvs, ss, rs, rfl, ho', hsends, hrecvs⟩
    rw [hs']
    exact hco
  · have hout : y ∉ ss ++ rs := fun hm => hy.not_ge (ho.fresh y hm).1
    rw [hs']
    rw [List.mem_append, not_or] at hout
    simp only [if_true, handOver_recv]
    rw [handOver_next (handOver_holds hq.recv hq.send hd) hout.2, handOver_next hq.send hout.1]

theorem sendDone_alloc (portNumber flags : UInt32) (s : DataPath) :
    (sendDone portNumber flags s).heap.alloc = s.heap.alloc := by
  simp [sendDone]

theorem sendDone_calls (hs : Working h owns ps ds s) (portNumber : UInt32) :
    let s' := sendDone portNumber flags s
    ∃ done down own, s'.calls = s.calls ++ done ++ down ++ own
      ∧ HandedOver done .sendComplete (levelOf flags) ds
      ∧ HandedOver down (.send portNumber) flags ps
      ∧ ∃ ss rs, Own h.alloc owns s'.heap ss rs
        ∧ HandedOver own (.send portNumber) (levelOf flags) ss := by
  obtain ⟨ss, rs, hq, ho⟩ := hs.queues
  unfold sendDone
  simp only []
  set s1 := s.handOver s.drop s.drop.head s.drop.head .sendComplete (levelOf flags) with hs1
  obtain ⟨done, hcd, hdone⟩ := handOver_handedOver .sendComplete (levelOf flags) hq.drop
    hq.drop.head_eq_none
  have hpass : s1.pass.Holds s1.heap.next ps := by
    rw [hs1, handOver_pass]
    exact handOver_holds hq.pass hq.drop fun y hy => hq.not_drop (.inl hy)
  set s2 := s1.handOver s1.pass s1.pass.head s1.pass.head (.send portNumber) flags with hs2
  obtain ⟨down, hcp, hdown⟩ := handOver_handedOver (.send portNumber) flags hpass
    hpass.head_eq_none
  have hsend : s2.send.Holds s2.heap.next ss := by
    rw [hs2, handOver_send, hs1, handOver_send]
    exact handOver_holds (handOver_holds hq.send hq.drop fun y hy => hq.not_drop (.inr (.inl hy)))
      hpass fun y hy => hq.not_pass (.inr (.inl hy))
  obtain ⟨own, hco, hown'⟩ := handOver_handedOver (.send portNumber) (levelOf flags) hsend
    hsend.head_eq_none
  refine ⟨done, down, own, ?_, hdone, hdown, ss, rs, ho.congr ?_ ?_, hown'⟩
  · rw [hco, hcp, hcd]
  · simp [hs1, hs2]
  · simp [hs1, hs2]

end HandOver

section Main

open DataPath

variable {h : NblHeap} {xs : List NblPtr} {netBufferLists : Option NblPtr} {fuel : ℕ}
  (cfg : LcxlSetting) (amb : NblPtr → Ambient) (left : NblPtr → Option NblPtr) {f : LcxlFilter}
  (portNumber numberOfNetBufferLists : UInt32) {flags : UInt32}

theorem Verdict.select_divides (v : Verdict) (keep : ProcessNblResultCode → Bool) (f : LcxlFilter)
    (xs : List NblPtr) :
    Divides xs (v.select keep f xs) (v.select (fun c => !keep c) f xs) :=
  ⟨v.select_perm keep xs f, v.select_sublist keep xs f, v.select_sublist _ xs f⟩

theorem receive_running (hf : f.state = .running) :
    filterReceiveNetBufferLists cfg amb left fuel f h netBufferLists portNumber
        numberOfNetBufferLists flags
      = receiveDone portNumber numberOfNetBufferLists flags
        (walk links (receiveStep cfg amb left portNumber flags) fuel netBufferLists
          (start f h)) := by
  unfold filterReceiveNetBufferLists
  exact if_neg (not_not.2 hf)

/-- What is counted of the NBLs received, and what their frames have left of the filter. -/
theorem receive_filter (hx : IsChain h.next netBufferLists xs) (hfuel : xs.length ≤ fuel)
    (ha : ∀ x ∈ xs, x < h.alloc) (hf : f.state = .running) :
    let g := (receiveVerdict cfg amb h).after f xs
    (filterReceiveNetBufferLists cfg amb left fuel f h netBufferLists portNumber
      numberOfNetBufferLists flags).filter = if g.trackReceives then { g with
        outstandingRcvs := if cannotPend flags then
          g.outstandingRcvs + numberOfNetBufferLists + -numberOfNetBufferLists
        else g.outstandingRcvs + numberOfNetBufferLists } else g := by
  rw [receive_running cfg amb left portNumber numberOfNetBufferLists hf, receiveDone_filter]
  by_cases hp : cannotPend flags
  · rw [(receive_indicated cfg amb left f portNumber hp hx hfuel ha).2]
  · rw [(receive_sorted cfg amb left f portNumber (by simpa using hp) hx hfuel ha).2.1]

theorem receive_mayPend (hx : IsChain h.next netBufferLists xs) (hfuel : xs.length ≤ fuel)
    (ha : ∀ x ∈ xs, x < h.alloc) (hf : f.state = .running) (hp : cannotPend flags = false) :
    let v := receiveVerdict cfg amb h
    let received := filterReceiveNetBufferLists cfg amb left fuel f h netBufferLists portNumber
      numberOfNetBufferLists flags
    ∃ a b own, received.calls = a ++ b ++ own
      ∧ HandedOver a (.indicateReceive portNumber (UInt32.ofNat (v.select passesUp f xs).length))
        flags (v.select passesUp f xs)
      ∧ HandedOver b .returnNetBufferLists (levelOf flags)
        (v.select (fun c => !passesUp c) f xs)
      ∧ OwnCalls portNumber (levelOf flags) h.alloc (v.owns (receiveOwn cfg amb h) f xs)
        received.heap own := by
  obtain ⟨hs, -, hn⟩ := receive_sorted cfg amb left f portNumber hp hx hfuel ha
  obtain ⟨a, b, own, hc, hrest⟩ :=
    receiveDone_mayPend hp hs.toWorking portNumber numberOfNetBufferLists
  rw [hn] at hrest
  intro v received
  have hr : received = _ := receive_running cfg amb left portNumber numberOfNetBufferLists hf
  rw [hr]
  refine ⟨a, b, own, ?_, hrest⟩
  rw [hc, hs.calls, List.nil_append]

theorem receive_alone (hx : IsChain h.next netBufferLists xs) (hfuel : xs.length ≤ fuel)
    (ha : ∀ x ∈ xs, x < h.alloc) (hf : f.state = .running) (hp : cannotPend flags) :
    let received := filterReceiveNetBufferLists cfg amb left fuel f h netBufferLists portNumber
      numberOfNetBufferLists flags
    (∃ alone own, received.calls = alone ++ own
      ∧ List.Forall₂ (NdisCall.Alone portNumber flags) alone
        ((receiveVerdict cfg amb h).select passesUp f xs)
      ∧ OwnCalls portNumber (levelOf flags) h.alloc
        ((receiveVerdict cfg amb h).owns (receiveOwn cfg amb h) f xs) received.heap own)
    ∧ ∀ y < h.alloc, received.heap.next y = h.next y := by
  obtain ⟨hs, -⟩ := receive_indicated cfg amb left f portNumber hp hx hfuel ha
  obtain ⟨⟨own, hc, hown⟩, hlinks⟩ :=
    receiveDone_cannotPend hp hs.toWorking portNumber numberOfNetBufferLists
  intro received
  have hr : received = _ := receive_running cfg amb left portNumber numberOfNetBufferLists hf
  rw [hr]
  exact ⟨⟨_, own, hc, hs.calls, hown⟩, fun y hy => (hlinks y hy).trans (hs.links y hy)⟩

variable (flags) in
theorem send_running (hx : IsChain h.next netBufferLists xs) (hfuel : xs.length ≤ fuel)
    (ha : ∀ x ∈ xs, x < h.alloc) (hf : f.state = .running) :
    let v := sendVerdict cfg amb h
    let sent := filterSendNetBufferLists cfg amb fuel f h netBufferLists portNumber flags
    sent.filter = v.after f xs
    ∧ ∃ a b own, sent.calls = a ++ b ++ own
      ∧ HandedOver a .sendComplete (levelOf flags) (v.select (fun c => !passesDown c) f xs)
      ∧ HandedOver b (.send portNumber) flags (v.select passesDown f xs)
      ∧ ∃ ss rs, Own h.alloc (v.owns (sendOwn cfg amb h) f xs) sent.heap ss rs
        ∧ HandedOver own (.send portNumber) (levelOf flags) ss := by
  obtain ⟨hs, hfilter⟩ := send_sorted cfg amb f hx hfuel ha
  obtain ⟨a, b, own, hc, hrest⟩ := sendDone_calls hs.toWorking portNumber
  intro v sent
  have hsent : sent = _ := if_neg (not_not.2 hf)
  rw [hsent]
  refine ⟨?_, a, b, own, ?_, hrest⟩
  · rw [← hfilter]
    simp [sendDone]
  · rw [hc, hs.calls, List.nil_append]

/-- The walk that sets the status of every NBL relinks none and calls nothing. -/
theorem pause_links (f : LcxlFilter) (hx : IsChain h.next netBufferLists xs)
    (hfuel : xs.length ≤ fuel) :
    (walk links pauseStep fuel netBufferLists (start f h)).heap.next = h.next
      ∧ (walk links pauseStep fuel netBufferLists (start f h)).calls = [] := by
  let I : List NblPtr → DataPath → Prop := fun _ s => s.heap.next = h.next ∧ s.calls = []
  have hstep : ∀ done x rest s, xs = done ++ x :: rest → I done s →
      I (done ++ [x]) (pauseStep s x) ∧ links (pauseStep s x) x = h.next x :=
    fun done x rest s _ hs => ⟨hs, congrFun hs.1 x⟩
  exact walk_inv hstep xs [] fuel netBufferLists _ rfl hx hfuel ⟨rfl, rfl⟩

theorem send_paused (hx : IsChain h.next netBufferLists xs) (hfuel : xs.length ≤ fuel)
    (hf : f.state ≠ .running) :
    let sent := filterSendNetBufferLists cfg amb fuel f h netBufferLists portNumber flags
    (∃ c, sent.calls = [c] ∧ c.routine = .sendComplete ∧ c.Carries xs)
      ∧ sent.heap.next = h.next := by
  obtain ⟨hnext, hcalls⟩ := pause_links f hx hfuel
  unfold filterSendNetBufferLists
  simp only []
  rw [if_pos hf]
  generalize walk links pauseStep fuel netBufferLists (start f h) = s at hnext hcalls ⊢
  refine ⟨⟨⟨.sendComplete, netBufferLists, levelOf flags, s.heap.next⟩, ?_, rfl, ?_⟩, hnext⟩
  · unfold call
    rw [hcalls]
    rfl
  · unfold NdisCall.Carries
    rw [hnext]
    exact hx

/-- No NBL is returned that the driver below keeps. -/
theorem not_returned {calls : List NdisCall} {ups : List NblPtr} (hc : ∃ alone own,
      calls = alone ++ own ∧ List.Forall₂ (NdisCall.Alone portNumber flags) alone ups
        ∧ ∀ c ∈ own, c.OfOwn h.alloc) :
    ∀ c ∈ calls, c.routine ≠ .returnNetBufferLists := by
  obtain ⟨alone, own, rfl, halone, hown⟩ := hc
  have hup : ∀ c ∈ alone, c.routine ≠ .returnNetBufferLists :=
    ((List.forall₂_and_left alone ups).1 (halone.imp fun c x ha => ⟨by simp [ha.routine], ha⟩)).1
  intro c hm
  rcases List.mem_append.1 hm with hm | hm
  · exact hup c hm
  · obtain ⟨⟨p, hr | ⟨n, hr⟩⟩, -⟩ := hown c hm <;> simp [hr]

theorem receive_paused (hx : IsChain h.next netBufferLists xs) (hf : f.state ≠ .running) :
    let received := filterReceiveNetBufferLists cfg amb left fuel f h netBufferLists portNumber
      numberOfNetBufferLists flags
    (cannotPend flags = false →
      ∃ c, received.calls = [c] ∧ c.routine = .returnNetBufferLists ∧ c.Carries xs)
    ∧ (cannotPend flags → received.calls = []) ∧ received.heap = h := by
  unfold filterReceiveNetBufferLists
  simp only []
  rw [if_pos hf]
  refine ⟨fun hp => ?_, fun hp => ?_, ?_⟩
  · rw [hp]
    exact ⟨_, rfl, rfl, hx⟩
  · rw [hp]
    rfl
  · split_ifs <;> rfl

/-- Of a chain handed to a running filter each NBL is handed on once: up or back, or alone if the
driver below keeps it, and down or completed. A filter that is not running hands on the chain. -/
theorem no_packet_lost (f : LcxlFilter) (receiveFlags sendFlags : UInt32)
    (hx : IsChain h.next netBufferLists xs) (hfuel : xs.length ≤ fuel)
    (ha : ∀ x ∈ xs, x < h.alloc) :
    let received := filterReceiveNetBufferLists cfg amb left fuel f h netBufferLists portNumber
      numberOfNetBufferLists receiveFlags
    let sent := filterSendNetBufferLists cfg amb fuel f h netBufferLists portNumber sendFlags
    let up := (receiveVerdict cfg amb h).select passesUp f xs
    let back := (receiveVerdict cfg amb h).select (fun c => !passesUp c) f xs
    let down := (sendVerdict cfg amb h).select passesDown f xs
    let done := (sendVerdict cfg amb h).select (fun c => !passesDown c) f xs
    (f.state = .running → cannotPend receiveFlags = false → Divides xs up back
      ∧ ∃ a b own, received.calls = a ++ b ++ own
        ∧ HandedOver a (.indicateReceive portNumber (UInt32.ofNat up.length)) receiveFlags up
        ∧ HandedOver b .returnNetBufferLists (levelOf receiveFlags) back
        ∧ ∀ c ∈ own, c.OfOwn h.alloc)
    ∧ (f.state = .running → cannotPend receiveFlags →
      (∃ alone own, received.calls = alone ++ own
        ∧ List.Forall₂ (NdisCall.Alone portNumber receiveFlags) alone up
        ∧ ∀ c ∈ own, c.OfOwn h.alloc)
      ∧ (∀ c ∈ received.calls, c.routine ≠ .returnNetBufferLists)
      ∧ ∀ y < h.alloc, received.heap.next y = h.next y)
    ∧ (f.state = .running → Divides xs down done
      ∧ ∃ a b own, sent.calls = a ++ b ++ own
        ∧ HandedOver a .sendComplete (levelOf sendFlags) done
        ∧ HandedOver b (.send portNumber) sendFlags down
        ∧ ∀ c ∈ own, c.OfOwn h.alloc)
    ∧ (f.state ≠ .running →
      ((∃ c, sent.calls = [c] ∧ c.routine = .sendComplete ∧ c.Carries xs)
        ∧ sent.heap.next = h.next)
      ∧ (cannotPend receiveFlags = false →
        ∃ c, received.calls = [c] ∧ c.routine = .returnNetBufferLists ∧ c.Carries xs)
      ∧ (cannotPend receiveFlags → received.calls = []) ∧ received.heap = h)
    ∧ ∀ (f : LcxlFilter) (fr : Frame) (amb : Ambient),
      handledOnReceive ((processNBL cfg f true fr.dataLength amb).val fr.byte).2.code
      ∧ handledOnSend ((processNBL cfg f false fr.dataLength amb).val fr.byte).2.code := by
  intro received sent up back down done
  refine ⟨fun hf hp => ⟨Verdict.select_divides _ _ f xs, ?_⟩, fun hf hp => ?_,
    fun hf => ⟨Verdict.select_divides _ _ f xs, ?_⟩, fun hf => ⟨?_, ?_⟩, fun f fr amb => ⟨?_, ?_⟩⟩
  · obtain ⟨a, b, own, hc, ha, hb, hown⟩ :=
      receive_mayPend cfg amb left portNumber numberOfNetBufferLists hx hfuel ha hf hp
    exact ⟨a, b, own, hc, ha, hb, hown.ofOwn⟩
  · obtain ⟨⟨alone, own, hc, hup, hown⟩, hlinks⟩ :=
      receive_alone cfg amb left portNumber numberOfNetBufferLists hx hfuel ha hf hp
    have hr : ∃ alone own, received.calls = alone ++ own
        ∧ List.Forall₂ (NdisCall.Alone portNumber receiveFlags) alone up
        ∧ ∀ c ∈ own, c.OfOwn h.alloc := ⟨alone, own, hc, hup, hown.ofOwn⟩
    exact ⟨hr, not_returned portNumber hr, hlinks⟩
  · obtain ⟨-, a, b, own, hc, ha, hb, ss, rs, ho, hown⟩ :=
      send_running cfg amb portNumber _ hx hfuel ha hf
    exact ⟨a, b, own, hc, ha, hb,
      hown.ofOwn (.inl rfl) fun x hx => (ho.fresh x (List.mem_append_left rs hx)).1⟩
  · exact send_paused cfg amb portNumber hx hfuel hf
  · exact receive_paused cfg amb left portNumber numberOfNetBufferLists hx hf
  · exact processNBL_handledOnReceive cfg f fr amb
  · exact processNBL_handledOnSend cfg f fr amb

/-- One NBL goes up, one goes back. -/
theorem no_packet_lost_two : Divides [0, 1] [0] [1] ∧ ∃ a b own,
    (filterReceiveNetBufferLists Sample.setting (fun _ => Sample.ambient 0) (fun _ => none) 2
      Sample.router Sample.nblHeap (some 0) 0 2 0).calls = a ++ b ++ own
    ∧ HandedOver a (.indicateReceive 0 1) 0 [0] ∧ HandedOver b .returnNetBufferLists 0 [1]
    ∧ ∀ c ∈ own, c.OfOwn 2 := by
  have hx : IsChain Sample.nblHeap.next (some 0) [0, 1] := ⟨rfl, rfl, rfl⟩
  have h := (no_packet_lost Sample.setting (fun _ => Sample.ambient 0) (fun _ => none) 0 2
    Sample.router 0 0 hx le_rfl (by decide)).1 rfl (by decide)
  have hup : (receiveVerdict Sample.setting (fun _ => Sample.ambient 0) Sample.nblHeap).select
      passesUp Sample.router [0, 1] = [0] := by decide +kernel
  have hback : (receiveVerdict Sample.setting (fun _ => Sample.ambient 0) Sample.nblHeap).select
      (fun c => !passesUp c) Sample.router [0, 1] = [1] := by decide +kernel
  rw [hup, hback] at h
  exact h

end Main

end LcxlNetLoader
