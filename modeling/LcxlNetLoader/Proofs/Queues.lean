import LcxlNetLoader.DataPath

/-!
# The queues of the data path

The four queues stay chains of NBLs apart from each other (`Queues`), the driver's own of NBLs
that it has created (`Working`), and a loop that puts each NBL at the end of one of the other two
leaves the chain ahead as it is (`Sorted`).
-/

namespace LcxlNetLoader

open Linked

namespace Verdict

variable (v : Verdict) (keep : ProcessNblResultCode → Bool)

theorem select_append : ∀ (xs ys : List NblPtr) (f : LcxlFilter),
    v.select keep f (xs ++ ys) = v.select keep f xs ++ v.select keep (v.after f xs) ys
  | [], _, _ => rfl
  | x :: xs, ys, f => by
    simp only [List.cons_append, select, after, List.foldl_cons, select_append xs ys]
    split_ifs <;> rfl

theorem after_append (f : LcxlFilter) (xs ys : List NblPtr) :
    v.after f (xs ++ ys) = v.after (v.after f xs) ys := List.foldl_append

theorem select_singleton (f : LcxlFilter) (x : NblPtr) :
    v.select keep f [x] = if keep (v f x).2 then [x] else [] := rfl

theorem owns_append (own : LcxlFilter → NblPtr → Option OwnNbl) :
    ∀ (xs ys : List NblPtr) (f : LcxlFilter),
    v.owns own f (xs ++ ys) = v.owns own f xs ++ v.owns own (v.after f xs) ys
  | [], _, _ => rfl
  | x :: xs, ys, f => by
    simp only [List.cons_append, owns, after, List.foldl_cons, List.append_assoc]
    rw [owns_append own xs ys]
    rfl

/-- One NBL more, and what is created for it. -/
theorem owns_concat (own : LcxlFilter → NblPtr → Option OwnNbl) (xs : List NblPtr) (x : NblPtr)
    (f : LcxlFilter) :
    v.owns own f (xs ++ [x]) = v.owns own f xs ++ (own (v.after f xs) x).toList := by
  rw [v.owns_append]
  exact congrArg _ (List.append_nil _)

theorem select_sublist : ∀ (xs : List NblPtr) (f : LcxlFilter), (v.select keep f xs).Sublist xs
  | [], _ => List.Sublist.refl []
  | x :: xs, f => by
    simp only [select]
    split_ifs
    · exact (select_sublist xs _).cons_cons x
    · exact (select_sublist xs _).cons x

/-- Every NBL has a code that is kept, or one that is not. -/
theorem select_perm : ∀ (xs : List NblPtr) (f : LcxlFilter),
    (v.select keep f xs ++ v.select (fun c => !keep c) f xs).Perm xs
  | [], _ => .nil
  | x :: xs, f => by
    have ih := select_perm xs (v f x).1
    simp only [select, Bool.not_eq_true']
    by_cases hk : keep (v f x).2
    · rw [if_pos hk, if_neg (by simp [hk]), List.cons_append]
      exact ih.cons x
    · rw [if_neg hk, if_pos (by simpa using hk)]
      exact List.perm_middle.trans (ih.cons x)

end Verdict

/-- The queues of the data path, and that no NBL is in two of them. -/
structure Queues (s : DataPath) (ps ds ss rs : List NblPtr) : Prop where
  pass : s.pass.Holds s.heap.next ps
  drop : s.drop.Holds s.heap.next ds
  send : s.send.Holds s.heap.next ss
  recv : s.recv.Holds s.heap.next rs
  nodup : (ps ++ ds ++ ss ++ rs).Nodup

namespace Queues

variable {s s' : DataPath} {ps ds ss rs : List NblPtr} {x y : NblPtr}

theorem start (f : LcxlFilter) (h : NblHeap) : Queues (DataPath.start f h) [] [] [] [] :=
  ⟨.empty, .empty, .empty, .empty, List.nodup_nil⟩

section Disjoint

variable (h : Queues s ps ds ss rs)
include h

theorem not_pass (hy : y ∈ ds ∨ y ∈ ss ∨ y ∈ rs) : y ∉ ps := by
  have hnd := h.nodup
  simp only [List.append_assoc] at hnd
  intro hm
  refine List.disjoint_of_nodup_append hnd hm ?_
  simpa only [List.mem_append] using hy

theorem not_drop (hy : y ∈ ps ∨ y ∈ ss ∨ y ∈ rs) : y ∉ ds := by
  intro hm
  rcases hy with hy | hy
  · exact h.not_pass (.inl hm) hy
  · have hnd := h.nodup
    simp only [List.append_assoc] at hnd
    refine List.disjoint_of_nodup_append hnd.of_append_right hm ?_
    simpa only [List.mem_append] using hy

theorem not_send (hy : y ∈ ps ∨ y ∈ ds ∨ y ∈ rs) : y ∉ ss := by
  intro hm
  rcases hy with hy | hy | hy
  · exact h.not_pass (.inr (.inl hm)) hy
  · exact h.not_drop (.inr (.inl hm)) hy
  · have hnd := h.nodup
    simp only [List.append_assoc] at hnd
    exact List.disjoint_of_nodup_append hnd.of_append_right.of_append_right hm hy

theorem not_recv (hy : y ∈ ps ∨ y ∈ ds ∨ y ∈ ss) : y ∉ rs := by
  intro hm
  rcases hy with hy | hy | hy
  · exact h.not_pass (.inr (.inr hm)) hy
  · exact h.not_drop (.inr (.inr hm)) hy
  · exact h.not_send (.inr (.inr hm)) hy

end Disjoint

theorem nodup_insert {as bs : List NblPtr} (hnd : (as ++ bs).Nodup) (hx : x ∉ as ++ bs) :
    (as ++ x :: bs).Nodup :=
  List.nodup_middle.2 (List.nodup_cons.2 ⟨hx, hnd⟩)

theorem queuePass (h : Queues s ps ds ss rs) (hx : x ∉ ps ++ ds ++ ss ++ rs) :
    Queues (s.queuePass x) (ps ++ [x]) ds ss rs := by
  have hkeep : ∀ y, y ∈ ds ∨ y ∈ ss ∨ y ∈ rs →
      s.pass.link s.heap.next x y = s.heap.next y :=
    fun y hy => h.pass.link_of_notMem (h.not_pass hy)
  have hnd := h.nodup
  simp only [List.append_assoc] at hx hnd
  refine ⟨h.pass.push fun hm => hx (List.mem_append_left _ hm),
    h.drop.congr fun y hy => hkeep y (.inl hy),
    h.send.congr fun y hy => hkeep y (.inr (.inl hy)),
    h.recv.congr fun y hy => hkeep y (.inr (.inr hy)), ?_⟩
  simpa using nodup_insert hnd hx

theorem queueDrop (h : Queues s ps ds ss rs) (hx : x ∉ ps ++ ds ++ ss ++ rs) :
    Queues (s.queueDrop x) ps (ds ++ [x]) ss rs := by
  have hkeep : ∀ y, y ∈ ps ∨ y ∈ ss ∨ y ∈ rs →
      s.drop.link s.heap.next x y = s.heap.next y :=
    fun y hy => h.drop.link_of_notMem (h.not_drop hy)
  have hnd := h.nodup
  rw [List.append_assoc] at hx hnd
  refine ⟨h.pass.congr fun y hy => hkeep y (.inl hy), h.drop.push fun hm => ?_,
    h.send.congr fun y hy => hkeep y (.inr (.inl hy)),
    h.recv.congr fun y hy => hkeep y (.inr (.inr hy)), ?_⟩
  · exact hx (List.mem_append_left _ (List.mem_append_right _ hm))
  · simpa using nodup_insert hnd hx

/-- An NBL created to be sent joins the queue of those. -/
theorem queueSend (h : Queues s ps ds ss rs) (fr : Frame)
    (ha : s.heap.alloc ∉ ps ++ ds ++ ss ++ rs) :
    Queues (s.queueOwn (some (.send fr))) ps ds (ss ++ [s.heap.alloc]) rs := by
  have hnd := h.nodup
  have hkeep : ∀ y, y ∈ ps ∨ y ∈ ds ∨ y ∈ rs →
      s.send.link s.heap.next s.heap.alloc y = s.heap.next y :=
    fun y hy => h.send.link_of_notMem (h.not_send hy)
  refine ⟨h.pass.congr fun y hy => hkeep y (.inl hy),
    h.drop.congr fun y hy => hkeep y (.inr (.inl hy)), h.send.push fun hm => ?_,
    h.recv.congr fun y hy => hkeep y (.inr (.inr hy)), ?_⟩
  · exact ha (List.mem_append_left _ (List.mem_append_right _ hm))
  · simpa using nodup_insert hnd ha

/-- An NBL created to be indicated joins the queue of those. -/
theorem queueRecv (h : Queues s ps ds ss rs) (fr : Frame)
    (ha : s.heap.alloc ∉ ps ++ ds ++ ss ++ rs) :
    Queues (s.queueOwn (some (.recv fr))) ps ds ss (rs ++ [s.heap.alloc]) := by
  have hnd := h.nodup
  have hkeep : ∀ y, y ∈ ps ∨ y ∈ ds ∨ y ∈ ss →
      s.recv.link s.heap.next s.heap.alloc y = s.heap.next y :=
    fun y hy => h.recv.link_of_notMem (h.not_recv hy)
  refine ⟨h.pass.congr fun y hy => hkeep y (.inl hy),
    h.drop.congr fun y hy => hkeep y (.inr (.inl hy)),
    h.send.congr fun y hy => hkeep y (.inr (.inr hy)), h.recv.push fun hm => ?_, ?_⟩
  · exact ha (List.mem_append_right _ hm)
  · rw [← List.append_nil (ps ++ ds ++ ss ++ rs)] at hnd ha
    simpa using nodup_insert hnd ha

theorem queueOwn_next (h : Queues s ps ds ss rs) {own : Option OwnNbl} (hy : y ∉ ss ++ rs) :
    (s.queueOwn own).heap.next y = s.heap.next y := by
  rw [List.mem_append, not_or] at hy
  rcases own with _ | fr | fr
  · rfl
  · exact h.send.link_of_notMem hy.1
  · exact h.recv.link_of_notMem hy.2

end Queues

theorem queueOwn_frame {s : DataPath} {own : Option OwnNbl} {y : NblPtr} (hy : y < s.heap.alloc) :
    (s.queueOwn own).heap.frame y = s.heap.frame y := by
  rcases own with _ | fr | fr
  · rfl
  · exact Function.update_of_ne hy.ne _ _
  · exact Function.update_of_ne hy.ne _ _

theorem alloc_le_queueOwn (s : DataPath) (own : Option OwnNbl) :
    s.heap.alloc ≤ (s.queueOwn own).heap.alloc := by
  rcases own with _ | fr | fr
  · exact le_rfl
  · exact Nat.le_succ _
  · exact Nat.le_succ _

theorem queueOwn_alloc (s : DataPath) (own : Option OwnNbl) :
    (s.queueOwn own).heap.alloc = s.heap.alloc + own.toList.length := by
  rcases own with _ | fr | fr <;> rfl

theorem queueOwn_calls (s : DataPath) (own : Option OwnNbl) :
    (s.queueOwn own).calls = s.calls := by
  rcases own with _ | fr | fr <;> rfl

theorem queueOwn_filter (s : DataPath) (own : Option OwnNbl) :
    (s.queueOwn own).filter = s.filter := by
  rcases own with _ | fr | fr <;> rfl

theorem queueOwn_numberOfPassNbl (s : DataPath) (own : Option OwnNbl) :
    (s.queueOwn own).numberOfPassNbl = s.numberOfPassNbl := by
  rcases own with _ | fr | fr <;> rfl

/-- The NBLs that hold the driver's own frames, those to be sent and those to be indicated. -/
structure Own (alloc : NblPtr) (owns : List OwnNbl) (h : NblHeap) (ss rs : List NblPtr) :
    Prop where
  fresh : ∀ y ∈ ss ++ rs, alloc ≤ y ∧ y < h.alloc
  sent : ss.map h.frame = (owns.filterMap OwnNbl.sent).map some
  received : rs.map h.frame = (owns.filterMap OwnNbl.received).map some

namespace Own

variable {alloc : NblPtr} {owns : List OwnNbl} {s : DataPath} {h h' : NblHeap}
  {ss rs : List NblPtr}

/-- The links do not matter. -/
theorem congr (ho : Own alloc owns h ss rs) (hf : h'.frame = h.frame) (ha : h'.alloc = h.alloc) :
    Own alloc owns h' ss rs := by
  refine ⟨fun y hy => ?_, ?_, ?_⟩
  · rw [ha]
    exact ho.fresh y hy
  · rw [hf]
    exact ho.sent
  · rw [hf]
    exact ho.received

theorem frames_queueOwn (ho : Own alloc owns s.heap ss rs) (own : Option OwnNbl) :
    ss.map (s.queueOwn own).heap.frame = (owns.filterMap OwnNbl.sent).map some
      ∧ rs.map (s.queueOwn own).heap.frame = (owns.filterMap OwnNbl.received).map some := by
  rw [← ho.sent, ← ho.received]
  exact ⟨List.map_congr_left fun y hy =>
      queueOwn_frame (ho.fresh y (List.mem_append_left rs hy)).2,
    List.map_congr_left fun y hy => queueOwn_frame (ho.fresh y (List.mem_append_right ss hy)).2⟩

theorem fresh_queueOwn {y : NblPtr} (ho : Own alloc owns s.heap ss rs) (ha : alloc ≤ s.heap.alloc)
    (o : OwnNbl) (hy : y ∈ ss ++ rs ∨ y = s.heap.alloc) :
    alloc ≤ y ∧ y < (s.queueOwn (some o)).heap.alloc := by
  rw [queueOwn_alloc]
  rcases hy with hm | rfl
  · exact ⟨(ho.fresh y hm).1, Nat.lt_succ_of_lt (ho.fresh y hm).2⟩
  · exact ⟨ha, Nat.lt_succ_self _⟩

theorem queueSend (ho : Own alloc owns s.heap ss rs) (ha : alloc ≤ s.heap.alloc) (fr : Frame) :
    Own alloc (owns ++ [.send fr]) (s.queueOwn (some (.send fr))).heap (ss ++ [s.heap.alloc])
      rs := by
  have hframe : (s.queueOwn (some (.send fr))).heap.frame s.heap.alloc = some fr :=
    Function.update_self ..
  obtain ⟨hsent, hreceived⟩ := ho.frames_queueOwn (some (.send fr))
  refine ⟨fun y hy => ?_, ?_, ?_⟩
  · refine ho.fresh_queueOwn ha _ ?_
    simp only [List.mem_append, List.mem_singleton] at hy ⊢
    tauto
  · rw [List.map_append, hsent, List.filterMap_append, List.map_append]
    simp [hframe, OwnNbl.sent]
  · rw [hreceived, List.filterMap_append]
    simp [OwnNbl.received]

theorem queueRecv (ho : Own alloc owns s.heap ss rs) (ha : alloc ≤ s.heap.alloc) (fr : Frame) :
    Own alloc (owns ++ [.recv fr]) (s.queueOwn (some (.recv fr))).heap ss
      (rs ++ [s.heap.alloc]) := by
  have hframe : (s.queueOwn (some (.recv fr))).heap.frame s.heap.alloc = some fr :=
    Function.update_self ..
  obtain ⟨hsent, hreceived⟩ := ho.frames_queueOwn (some (.recv fr))
  refine ⟨fun y hy => ?_, ?_, ?_⟩
  · refine ho.fresh_queueOwn ha _ ?_
    simp only [List.mem_append, List.mem_singleton] at hy ⊢
    tauto
  · rw [hsent, List.filterMap_append]
    simp [OwnNbl.sent]
  · rw [List.map_append, hreceived, List.filterMap_append, List.map_append]
    simp [hframe, OwnNbl.received]

end Own

/-- At work on the NBLs of `h`, `ps` and `ds` of them are queued, and the driver's own queues hold
the frames it has created. -/
structure Working (h : NblHeap) (owns : List OwnNbl) (ps ds : List NblPtr) (s : DataPath) :
    Prop where
  frame : ∀ y < h.alloc, s.heap.frame y = h.frame y
  alloc : h.alloc ≤ s.heap.alloc
  queues : ∃ ss rs, Queues s ps ds ss rs ∧ Own h.alloc owns s.heap ss rs

namespace Working

variable {h : NblHeap} {owns : List OwnNbl} {ps ds : List NblPtr} {s : DataPath} {y : NblPtr}

theorem start (f : LcxlFilter) (h : NblHeap) : Working h [] [] [] (DataPath.start f h) :=
  ⟨fun _ _ => rfl, le_rfl, [], [], Queues.start f h, by simp, rfl, rfl⟩

theorem queueOwn (hs : Working h owns ps ds s) (ha : ∀ y ∈ ps ++ ds, y < h.alloc)
    (own : Option OwnNbl) : Working h (owns ++ own.toList) ps ds (s.queueOwn own) := by
  obtain ⟨ss, rs, hq, ho⟩ := hs.queues
  have hfresh : s.heap.alloc ∉ ps ++ ds ++ ss ++ rs := by
    rw [List.append_assoc, List.mem_append]
    rintro (hm | hm)
    · exact (ha _ hm).not_ge hs.alloc
    · exact (ho.fresh _ hm).2.ne rfl
  refine ⟨fun y hy => ?_, hs.alloc.trans (alloc_le_queueOwn s own), ?_⟩
  · exact (queueOwn_frame (hy.trans_le hs.alloc)).trans (hs.frame y hy)
  · rcases own with _ | fr | fr
    · exact ⟨ss, rs, hq, (List.append_nil owns).symm ▸ ho⟩
    · exact ⟨_, rs, hq.queueSend fr hfresh, ho.queueSend hs.alloc fr⟩
    · exact ⟨ss, _, hq.queueRecv fr hfresh, ho.queueRecv hs.alloc fr⟩

theorem queueOwn_next (hs : Working h owns ps ds s) (hy : y < h.alloc) (own : Option OwnNbl) :
    (s.queueOwn own).heap.next y = s.heap.next y := by
  obtain ⟨ss, rs, hq, ho⟩ := hs.queues
  exact hq.queueOwn_next fun hm => hy.not_ge (ho.fresh y hm).1

end Working

/-- What a loop's rounds keep: the NBLs passed are in the two queues by their result code, the
others and the last one are linked as they came. -/
structure Sorted (v : Verdict) (keep : ProcessNblResultCode → Bool) (f : LcxlFilter) (h : NblHeap)
    (owns : List OwnNbl) (xs done : List NblPtr) (s : DataPath) : Prop
    extends Working h owns (v.select keep f done) (v.select (fun c => !keep c) f done) s where
  links : ∀ y ∈ xs, y ∉ done.dropLast → s.heap.next y = h.next y
  calls : s.calls = []

namespace Sorted

variable {v : Verdict} {keep : ProcessNblResultCode → Bool} {f g : LcxlFilter} {h : NblHeap}
  {owns : List OwnNbl} {xs done rest : List NblPtr} {s : DataPath} {x : NblPtr} {n : UInt32}

theorem start (f : LcxlFilter) (h : NblHeap) (xs : List NblPtr) :
    Sorted v keep f h [] xs [] (DataPath.start f h) :=
  ⟨Working.start f h, fun _ _ _ => rfl, rfl⟩

/-- The NBL a loop is at was not passed. -/
theorem notMem_done (hxs : xs = done ++ x :: rest) (hnd : xs.Nodup) : x ∉ done := by
  rw [hxs, List.nodup_append] at hnd
  exact fun hm => hnd.2.2 x hm x List.mem_cons_self rfl

/-- So it is in no queue yet. -/
theorem notMem (hxs : xs = done ++ x :: rest) (hnd : xs.Nodup) (ha : ∀ y ∈ xs, y < h.alloc)
    {ss rs : List NblPtr} (ho : Own h.alloc owns s.heap ss rs) :
    x ∉ v.select keep f done ++ v.select (fun c => !keep c) f done ++ ss ++ rs := by
  have hx := notMem_done hxs hnd
  have hlt := ha x (by simp [hxs])
  simp only [List.append_assoc, List.mem_append, not_or]
  refine ⟨fun hm => hx ((v.select_sublist keep done f).subset hm),
    fun hm => hx ((v.select_sublist _ done f).subset hm), fun hm => ?_, fun hm => ?_⟩
  · exact hlt.not_ge (ho.fresh x (List.mem_append_left _ hm)).1
  · exact hlt.not_ge (ho.fresh x (List.mem_append_right _ hm)).1

theorem queuePass (hs : Sorted v keep f h owns xs done s) (hxs : xs = done ++ x :: rest)
    (hnd : xs.Nodup) (ha : ∀ y ∈ xs, y < h.alloc) (hk : keep (v (v.after f done) x).2) :
    Sorted v keep f h owns xs (done ++ [x])
      { s.queuePass x with filter := g, numberOfPassNbl := n } := by
  obtain ⟨ss, rs, hq, ho⟩ := hs.queues
  have hq' := hq.queuePass (notMem hxs hnd ha ho)
  refine ⟨⟨hs.frame, hs.alloc, ss, rs, ?_, ⟨ho.1, ho.2, ho.3⟩⟩, fun y hy hyd => ?_, hs.calls⟩
  · rw [v.select_append, v.select_append, v.select_singleton, v.select_singleton, if_pos hk,
      if_neg (by simp [hk]), List.append_nil]
    exact ⟨hq'.1, hq'.2, hq'.3, hq'.4, hq'.5⟩
  · rw [List.dropLast_concat] at hyd
    have hp : y ∉ v.select keep f done := fun hm => hyd ((v.select_sublist keep done f).subset hm)
    exact (hq.pass.link_of_notMem hp).trans
      (hs.links y hy fun hm => hyd (List.dropLast_subset _ hm))

theorem queueDrop (hs : Sorted v keep f h owns xs done s) (hxs : xs = done ++ x :: rest)
    (hnd : xs.Nodup) (ha : ∀ y ∈ xs, y < h.alloc) (hk : keep (v (v.after f done) x).2 = false) :
    Sorted v keep f h owns xs (done ++ [x]) { s.queueDrop x with filter := g } := by
  obtain ⟨ss, rs, hq, ho⟩ := hs.queues
  have hq' := hq.queueDrop (notMem hxs hnd ha ho)
  refine ⟨⟨hs.frame, hs.alloc, ss, rs, ?_, ⟨ho.1, ho.2, ho.3⟩⟩, fun y hy hyd => ?_, hs.calls⟩
  · rw [v.select_append, v.select_append, v.select_singleton, v.select_singleton,
      if_neg (by simp [hk]), if_pos (by simp [hk]), List.append_nil]
    exact ⟨hq'.1, hq'.2, hq'.3, hq'.4, hq'.5⟩
  · rw [List.dropLast_concat] at hyd
    have hp : y ∉ v.select (fun c => !keep c) f done :=
      fun hm => hyd ((v.select_sublist _ done f).subset hm)
    exact (hq.drop.link_of_notMem hp).trans
      (hs.links y hy fun hm => hyd (List.dropLast_subset _ hm))

theorem queueOwn (hs : Sorted v keep f h owns xs done s) (hd : done ⊆ xs)
    (ha : ∀ y ∈ xs, y < h.alloc) (own : Option OwnNbl) :
    Sorted v keep f h (owns ++ own.toList) xs done (s.queueOwn own) := by
  refine ⟨hs.toWorking.queueOwn (fun y hy => ha y (hd ?_)) own, fun y hy hyd => ?_,
    (queueOwn_calls s own).trans hs.calls⟩
  · exact (v.select_perm keep done f).subset hy
  · exact (hs.toWorking.queueOwn_next (ha y hy) own).trans (hs.links y hy hyd)

theorem addSends (hs : Sorted v keep f h owns xs done s) :
    Sorted v keep f h owns xs done (s.addSends n) := by
  obtain ⟨ss, rs, hq, ho⟩ := hs.queues
  exact ⟨⟨hs.frame, hs.alloc, ss, rs, ⟨hq.1, hq.2, hq.3, hq.4, hq.5⟩, ho⟩, hs.links, hs.calls⟩

/-- The loop goes on to the NBL that came next. -/
theorem next (hs : Sorted v keep f h owns xs (done ++ [x]) s) (hxs : xs = done ++ x :: rest)
    (hnd : xs.Nodup) : s.heap.next x = h.next x := by
  refine hs.links x (by simp [hxs]) ?_
  rw [List.dropLast_concat]
  exact notMem_done hxs hnd

end Sorted

end LcxlNetLoader
