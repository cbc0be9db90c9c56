import LcxlNetLoader.Proofs.DataPath

/-!
# The NBLs handed on

Read off the calls: which NBLs a call of the data path sends, which it indicates, and which of them
hold frames of the driver's own.
-/

namespace LcxlNetLoader

open Linked DataPath

variable {calls calls' : List NdisCall} {routine : NdisRoutine} {flags portNumber : UInt32}
  {xs : List NblPtr} {n : ℕ} {routines : NdisRoutine → Bool}

theorem nblsIn_append : nblsIn routines n (calls ++ calls')
    = nblsIn routines n calls ++ nblsIn routines n calls' := by
  simp [nblsIn]

theorem nblsIn_of_none (h : ∀ c ∈ calls, ¬ routines c.routine) : nblsIn routines n calls = [] := by
  rw [nblsIn, List.filter_eq_nil_iff.2 h]
  rfl

theorem length_le_of_lt (hnd : xs.Nodup) (hlt : ∀ x ∈ xs, x < n) : xs.length ≤ n := by
  have h := (List.subperm_of_subset hnd fun x hx => List.mem_range.2 (hlt x hx)).length_le
  rwa [List.length_range] at h

theorem HandedOver.routine_eq (h : HandedOver calls routine flags xs) :
    ∀ c ∈ calls, c.routine = routine := by
  rcases h with ⟨-, rfl⟩ | ⟨-, c, rfl, hr, -⟩
  · simp
  · simpa using hr

theorem HandedOver.none (h : HandedOver calls routine flags xs) (hr : ¬ routines routine) :
    nblsIn routines n calls = [] :=
  nblsIn_of_none fun c hc => by rwa [h.routine_eq c hc]

theorem HandedOver.nbls (h : HandedOver calls routine flags xs) (hr : routines routine)
    (hlt : ∀ x ∈ xs, x < n) : nblsIn routines n calls = xs := by
  rcases h with ⟨rfl, rfl⟩ | ⟨-, c, rfl, hc, -, hx⟩
  · rfl
  · have hcells := hx.cells_eq (length_le_of_lt hx.nodup hlt)
    simp [nblsIn, hc, hr, hcells]

theorem Alone.routine_eq {up : List NblPtr}
    (h : List.Forall₂ (NdisCall.Alone portNumber flags) calls up) :
    ∀ c ∈ calls, c.routine = .indicateReceive portNumber 1 :=
  ((List.forall₂_and_left calls up).1 (h.imp fun _ _ ha => ⟨ha.routine, ha⟩)).1

theorem OwnCalls.nbls {h : NblHeap} {alloc : NblPtr} {owns : List OwnNbl}
    (hc : OwnCalls portNumber flags alloc owns h calls) : ∃ ss rs, Own alloc owns h ss rs
      ∧ nblsIn NdisRoutine.isSend h.alloc calls = ss
      ∧ nblsIn NdisRoutine.isIndicate h.alloc calls = rs.getLast?.toList
      ∧ (ss = [] → ∀ c ∈ calls, ¬ c.routine.isSend) := by
  obtain ⟨sends, recvs, ss, rs, rfl, ho, hs, hr⟩ := hc
  refine ⟨ss, rs, ho, ?_, ?_, ?_⟩
  · rw [nblsIn_append, hs.nbls rfl fun x hx => (ho.fresh x (List.mem_append_left rs hx)).2,
      hr.none Bool.false_ne_true, List.append_nil]
  · rw [nblsIn_append, hs.none Bool.false_ne_true, List.nil_append]
    refine hr.nbls rfl fun x hx => ?_
    rw [Option.mem_toList] at hx
    exact (ho.fresh x (List.mem_append_right ss (List.mem_of_getLast? hx))).2
  · rintro rfl c hm
    rcases List.mem_append.1 hm with hm | hm
    · rcases hs with ⟨-, rfl⟩ | ⟨hne, -⟩
      · simp at hm
      · exact absurd rfl hne
    · rw [hr.routine_eq c hm]
      exact Bool.false_ne_true

/-- The frames of the NBLs sent are those the driver has created to be sent. -/
theorem Own.sent_frames {h : NblHeap} {alloc : NblPtr} {owns : List OwnNbl} {ss rs : List NblPtr}
    (ho : Own alloc owns h ss rs) : ss.filterMap h.frame = owns.filterMap OwnNbl.sent := by
  have hs := congrArg (List.filterMap id) ho.sent
  simpa [List.filterMap_map] using hs

section Main

variable {h : NblHeap} {netBufferLists : Option NblPtr} {fuel : ℕ} (cfg : LcxlSetting)
  (amb : NblPtr → Ambient) (left : NblPtr → Option NblPtr) {f : LcxlFilter}
  (portNumber numberOfNetBufferLists flags : UInt32)

theorem alloc_le_receive (hx : IsChain h.next netBufferLists xs) (hfuel : xs.length ≤ fuel)
    (ha : ∀ x ∈ xs, x < h.alloc) (hf : f.state = .running) :
    h.alloc ≤ (filterReceiveNetBufferLists cfg amb left fuel f h netBufferLists portNumber
      numberOfNetBufferLists flags).heap.alloc := by
  rw [receive_running cfg amb left portNumber numberOfNetBufferLists hf, (receiveDone_heap ..).2]
  by_cases hp : cannotPend flags
  · exact (receive_indicated cfg amb left f portNumber hp hx hfuel ha).1.alloc
  · exact (receive_sorted cfg amb left f portNumber (by simpa using hp) hx hfuel ha).1.alloc

theorem receive_nbls (hx : IsChain h.next netBufferLists xs) (hfuel : xs.length ≤ fuel)
    (ha : ∀ x ∈ xs, x < h.alloc) (hf : f.state = .running) (hp : cannotPend flags = false) :
    let v := receiveVerdict cfg amb h
    let received := filterReceiveNetBufferLists cfg amb left fuel f h netBufferLists portNumber
      numberOfNetBufferLists flags
    ∃ ss rs, Own h.alloc (v.owns (receiveOwn cfg amb h) f xs) received.heap ss rs
      ∧ received.nbls NdisRoutine.isSend = ss
      ∧ received.nbls NdisRoutine.isIndicate = v.select passesUp f xs ++ rs.getLast?.toList := by
  intro v received
  obtain ⟨a, b, own, hc, hup, hback, hown⟩ :=
    receive_mayPend cfg amb left portNumber numberOfNetBufferLists hx hfuel ha hf hp
  obtain ⟨ss, rs, ho, hs, hr, -⟩ := hown.nbls
  have hle : h.alloc ≤ received.heap.alloc :=
    alloc_le_receive cfg amb left portNumber numberOfNetBufferLists flags hx hfuel ha hf
  refine ⟨ss, rs, ho, ?_, ?_⟩
  · rw [DataPath.nbls, hc, nblsIn_append, nblsIn_append, hup.none Bool.false_ne_true,
      hback.none Bool.false_ne_true]
    exact hs
  · rw [DataPath.nbls, hc, nblsIn_append, nblsIn_append, hback.none Bool.false_ne_true,
      hup.nbls rfl fun x hm => ?_, List.append_nil]
    · exact congrArg _ hr
    · exact (ha x ((v.select_sublist passesUp xs f).subset hm)).trans_le hle

/-- Only NBLs of the driver's own are sent. -/
theorem receive_sent (hx : IsChain h.next netBufferLists xs) (hfuel : xs.length ≤ fuel)
    (ha : ∀ x ∈ xs, x < h.alloc) (hf : f.state = .running) :
    let v := receiveVerdict cfg amb h
    let received := filterReceiveNetBufferLists cfg amb left fuel f h netBufferLists portNumber
      numberOfNetBufferLists flags
    ∃ ss rs, Own h.alloc (v.owns (receiveOwn cfg amb h) f xs) received.heap ss rs
      ∧ received.nbls NdisRoutine.isSend = ss
      ∧ (ss = [] → ∀ c ∈ received.calls, ¬ c.routine.isSend) := by
  intro v received
  obtain ⟨others, own, hc, hothers, hown⟩ : ∃ others own, received.calls = others ++ own
      ∧ (∀ c ∈ others, ¬ c.routine.isSend)
      ∧ OwnCalls portNumber (levelOf flags) h.alloc (v.owns (receiveOwn cfg amb h) f xs)
        received.heap own := by
    by_cases hp : cannotPend flags
    · obtain ⟨⟨alone, own, hc, hup, hown⟩, -⟩ :=
        receive_alone cfg amb left portNumber numberOfNetBufferLists hx hfuel ha hf hp
      refine ⟨alone, own, hc, fun c hm => ?_, hown⟩
      rw [Alone.routine_eq hup c hm]
      exact Bool.false_ne_true
    · obtain ⟨a, b, own, hc, hup, hback, hown⟩ := receive_mayPend cfg amb left portNumber
        numberOfNetBufferLists hx hfuel ha hf (by simpa using hp)
      refine ⟨a ++ b, own, hc, fun c hm => ?_, hown⟩
      rcases List.mem_append.1 hm with hm | hm
      · rw [hup.routine_eq c hm]
        exact Bool.false_ne_true
      · rw [hback.routine_eq c hm]
        exact Bool.false_ne_true
  obtain ⟨ss, rs, ho, hs, -, hsilent⟩ := hown.nbls
  refine ⟨ss, rs, ho, ?_, fun hss c hm => ?_⟩
  · rw [DataPath.nbls, hc, nblsIn_append, nblsIn_of_none hothers]
    exact hs
  · rw [hc] at hm
    exact (List.mem_append.1 hm).elim (hothers c) (hsilent hss c)

/-- Those that go down and the driver's own are sent. -/
theorem send_nbls (hx : IsChain h.next netBufferLists xs) (hfuel : xs.length ≤ fuel)
    (ha : ∀ x ∈ xs, x < h.alloc) (hf : f.state = .running) :
    let v := sendVerdict cfg amb h
    let sent := filterSendNetBufferLists cfg amb fuel f h netBufferLists portNumber flags
    ∃ ss rs, Own h.alloc (v.owns (sendOwn cfg amb h) f xs) sent.heap ss rs
      ∧ sent.nbls NdisRoutine.isSend = v.select passesDown f xs ++ ss
      ∧ sent.nbls NdisRoutine.isIndicate = [] := by
  intro v sent
  obtain ⟨-, a, b, own, hc, hdone, hdown, ss, rs, ho, hown⟩ :=
    send_running cfg amb portNumber flags hx hfuel ha hf
  have hle : h.alloc ≤ sent.heap.alloc := by
    have hsent : sent = _ := if_neg (not_not.2 hf)
    rw [hsent, sendDone_alloc]
    exact (send_sorted cfg amb f hx hfuel ha).1.alloc
  refine ⟨ss, rs, ho, ?_, ?_⟩
  · rw [DataPath.nbls, hc, nblsIn_append, nblsIn_append, hdone.none Bool.false_ne_true,
      hdown.nbls rfl fun x hm => ?_,
      hown.nbls rfl fun x hm => (ho.fresh x (List.mem_append_left rs hm)).2, List.nil_append]
    exact (ha x ((v.select_sublist passesDown xs f).subset hm)).trans_le hle
  · rw [DataPath.nbls, hc, nblsIn_append, nblsIn_append, hdone.none Bool.false_ne_true,
      hdown.none Bool.false_ne_true, hown.none Bool.false_ne_true]
    rfl

end Main

end LcxlNetLoader
