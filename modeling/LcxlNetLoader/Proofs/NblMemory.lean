import LcxlNetLoader.NblMemory
import LcxlNetLoader.Proofs.Counters

/-!
# Freeing the filter's own NBLs

What `DropOwnerNBL` does in one round, to the NBLs kept so far and those ahead, and from it what it
has done when it comes to the end of the chain. What it leaves is what `dropOwnerNBL` says of the
links alone.
-/

namespace LcxlNetLoader

open Linked

namespace NblMemory

variable {m m₁ m' : NblMemory} {f : LcxlFilter} {x y t : NblPtr} {p head : Option NblPtr}
  {xs kept rest : List NblPtr}

/-! ## Links -/

/-- The memory once the link of an NBL was set. -/
def relink (m : NblMemory) (x : NblPtr) (p : Option NblPtr) : NblMemory :=
  { m with
    nbls := { m.nbls with
      cell := Function.update m.nbls.cell x ((m.nbls.cell x).map ({ · with next := p })) } }

theorem setNext_eq (hx : (m.nbls.cell x).isSome) (p : Option NblPtr) :
    m.setNext x p = some (m.relink x p) := by
  obtain ⟨c, hc⟩ := Option.isSome_iff_exists.1 hx
  simp [setNext, relink, hc, Heap.write_eq hc]

theorem relink_cell_self : (m.relink x p).nbls.cell x
    = (m.nbls.cell x).map ({ · with next := p }) := Function.update_self ..

theorem relink_cell_of_ne (h : y ≠ x) : (m.relink x p).nbls.cell y = m.nbls.cell y :=
  Function.update_of_ne h ..

theorem relink_next (hx : (m.nbls.cell x).isSome) :
    (m.relink x p).next = Function.update m.next x p := by
  obtain ⟨c, hc⟩ := Option.isSome_iff_exists.1 hx
  funext y
  by_cases h : y = x
  · subst h
    rw [next, relink_cell_self, hc, Function.update_self]
    rfl
  · rw [next, relink_cell_of_ne h, Function.update_of_ne h]
    rfl

/-- Memories in which an NBL differs by its link, if at all. -/
def SameBut (m m' : NblMemory) (x : NblPtr) : Prop :=
  m'.nbls.cell x = (m.nbls.cell x).map ({ · with next := m'.next x })

theorem SameBut.of_eq (h : m'.nbls.cell x = m.nbls.cell x) : SameBut m m' x := by
  have hn : m'.next x = m.next x := congrArg (Option.bind · _) h
  rw [SameBut, h, hn, next]
  cases m.nbls.cell x <;> rfl

theorem SameBut.trans (h : SameBut m m₁ x) (h' : SameBut m₁ m' x) : SameBut m m' x := by
  rw [SameBut, h', h, Option.map_map]
  rfl

theorem SameBut.isSome (h : SameBut m m' x) (hx : (m.nbls.cell x).isSome) :
    (m'.nbls.cell x).isSome := by
  rw [h, Option.isSome_map]
  exact hx

theorem SameBut.isOwn (h : SameBut m m' x) : m'.isOwn f x = m.isOwn f x := by
  rw [NblMemory.isOwn, h, NblMemory.isOwn]
  cases m.nbls.cell x <;> rfl

theorem SameBut.mdlOf (h : SameBut m m' x) : m'.mdlOf x = m.mdlOf x := by
  rw [NblMemory.mdlOf, h, NblMemory.mdlOf]
  cases m.nbls.cell x <;> rfl

theorem sameBut_relink (m : NblMemory) (x : NblPtr) (p : Option NblPtr) (y : NblPtr) :
    SameBut m (m.relink x p) y := by
  by_cases h : y = x
  · subst h
    rw [SameBut, next, relink_cell_self]
    cases m.nbls.cell y <;> rfl
  · exact .of_eq (relink_cell_of_ne h)

theorem relink_bufferOf (m : NblMemory) (x : NblPtr) (p : Option NblPtr) (y : NblPtr) :
    (m.relink x p).bufferOf y = m.bufferOf y := by
  rw [bufferOf, (sameBut_relink m x p y).mdlOf]
  rfl

/-! ## One round -/

/-- `x` was freed with its MDL and its buffer, and nothing else has changed but links of `xs`. -/
structure Round (m m₁ : NblMemory) (xs : List NblPtr) (x : NblPtr) : Prop where
  gone : m₁.nbls.cell x = none
  same : ∀ y, y ≠ x → SameBut m m₁ y
  others : ∀ y, y ∉ xs → y ≠ x → m₁.nbls.cell y = m.nbls.cell y
  freed : m₁.nbls.freed = m.nbls.freed ++ [x]
  mdl : ∃ d, m.mdlOf x = some d ∧ m.mdls.free d = some m₁.mdls
  buffer : ∃ b, m.bufferOf x = some b ∧ m.buffers.free b = some m₁.buffers

theorem freeOwnNBL_round {b : BufferPtr} (hb : m.bufferOf x = some b)
    (ha : (m.buffers.cell b).isSome) : ∃ m₁, m.freeOwnNBL x = some m₁ ∧ Round m m₁ [] x := by
  obtain ⟨mdl, hmdl, rfl⟩ := Option.map_eq_some_iff.1 hb
  obtain ⟨d, hd, hmdl⟩ := Option.bind_eq_some_iff.1 hmdl
  obtain ⟨c, hc, hcd⟩ := Option.bind_eq_some_iff.1 hd
  obtain ⟨bytes, hbytes⟩ := Option.isSome_iff_exists.1 ha
  have hset := setNext_eq (x := x) (by rw [hc]; rfl) none
  have hx : (m.relink x none).nbls.cell x = some { c with next := none } := by
    rw [relink_cell_self, hc, Option.map_some]
  have hfree := Heap.free_eq hx
  have hmdls : (m.relink x none).mdls = m.mdls := rfl
  have hbuffers : (m.relink x none).buffers = m.buffers := rfl
  refine ⟨_, by
    simp only [freeOwnNBL, hset, Option.bind_eq_bind, Option.bind_some, Heap.read_eq, hx, hcd,
      hmdls, hmdl, Heap.free_eq hmdl, hbuffers, Heap.free_eq hbytes, hfree]
    rfl, ?_⟩
  have hcell : ∀ y, y ≠ x →
      Function.update (m.relink x none).nbls.cell x none y = m.nbls.cell y := fun y hy =>
    (Function.update_of_ne hy ..).trans (relink_cell_of_ne hy)
  exact ⟨Function.update_self .., fun y hy => .of_eq (hcell y hy), fun y _ hy => hcell y hy, rfl,
    ⟨d, hd, Heap.free_eq hmdl⟩, ⟨_, hb, Heap.free_eq hbytes⟩⟩

/-- The link of another was set before. -/
theorem Round.of_relink (ht : t ∈ xs) (hx : x ≠ t) (h : Round (m.relink t p) m₁ [] x) :
    Round m m₁ xs x := by
  refine ⟨h.gone, fun y hy => (sameBut_relink m t p y).trans (h.same y hy), fun y hy hyx => ?_,
    h.freed, ?_, ?_⟩
  · have hyt : y ≠ t := by
      rintro rfl
      exact hy ht
    exact (h.others y (by simp) hyx).trans (relink_cell_of_ne hyt)
  · have := h.mdl
    rwa [(sameBut_relink m t p x).mdlOf] at this
  · have := h.buffer
    rwa [relink_bufferOf] at this

theorem Round.next_eq (h : Round m m₁ [] x) (hy : y ≠ x) : m₁.next y = m.next y :=
  congrArg (Option.bind · _) (h.others y (by simp) hy)

/-- The buffer of another of the filter's NBLs is still there. -/
theorem Round.bufferOf_eq (ho : m.Owns f (x :: xs)) (h : Round m m₁ xs x) (hx : m.isOwn f x)
    (hy : y ∈ xs) (hyo : m.isOwn f y) (hne : y ≠ x) : m₁.bufferOf y = m.bufferOf y
      ∧ ∀ b, m.bufferOf y = some b → m₁.buffers.cell b = m.buffers.cell b := by
  obtain ⟨d, hd, hfree⟩ := h.mdl
  obtain ⟨b, hb, hfree'⟩ := h.buffer
  obtain ⟨mdl, hmdl, hm⟩ := Option.map_eq_some_iff.1 hfree
  obtain ⟨bytes, hbytes, hm'⟩ := Option.map_eq_some_iff.1 hfree'
  have hmem : y ∈ x :: xs := List.mem_cons_of_mem x hy
  have hself : x ∈ x :: xs := List.mem_cons_self
  refine ⟨?_, fun b' hb' => ?_⟩
  · have hcell : ∀ e, m.mdlOf y = some e → m₁.mdls.cell e = m.mdls.cell e := by
      intro e he
      rw [← hm]
      refine Function.update_of_ne ?_ ..
      rintro rfl
      exact hne (ho.mdl_inj y hmem x hself hyo hx (he.trans hd.symm))
    rw [NblMemory.bufferOf, (h.same y hne).mdlOf, NblMemory.bufferOf]
    rcases he : m.mdlOf y with _ | e
    · rfl
    · rw [Option.bind_some, Option.bind_some, hcell e he]
  · rw [← hm']
    refine Function.update_of_ne ?_ ..
    rintro rfl
    exact hne (ho.buffer_inj y hmem x hself hyo hx (hb'.trans hb.symm))

theorem Round.owns (ho : m.Owns f (x :: xs)) (h : Round m m₁ xs x) (hx : m.isOwn f x)
    (hxs : x ∉ xs) : m₁.Owns f xs := by
  have hne : ∀ y ∈ xs, y ≠ x := by
    rintro y hy rfl
    exact hxs hy
  have hown : ∀ y ∈ xs, m₁.isOwn f y → m.isOwn f y := fun y hy hyo => by
    rwa [← (h.same y (hne y hy)).isOwn]
  have hbuf := fun y hy hyo => h.bufferOf_eq ho hx hy (hown y hy hyo) (hne y hy)
  refine ⟨fun y hy hyo => ?_, fun y hy z hz hyo hzo heq => ?_, fun y hy z hz hyo hzo heq => ?_⟩
  · obtain ⟨b, hb, ha⟩ := ho.buffer y (List.mem_cons_of_mem x hy) (hown y hy hyo)
    refine ⟨b, (hbuf y hy hyo).1.trans hb, ?_⟩
    rwa [(hbuf y hy hyo).2 b hb]
  · rw [(h.same y (hne y hy)).mdlOf, (h.same z (hne z hz)).mdlOf] at heq
    exact ho.mdl_inj y (List.mem_cons_of_mem x hy) z (List.mem_cons_of_mem x hz) (hown y hy hyo)
      (hown z hz hzo) heq
  · rw [(hbuf y hy hyo).1, (hbuf z hz hzo).1] at heq
    exact ho.buffer_inj y (List.mem_cons_of_mem x hy) z (List.mem_cons_of_mem x hz)
      (hown y hy hyo) (hown z hz hzo) heq

theorem Owns.mono {ys : List NblPtr} (h : m.Owns f xs) (hs : ∀ y ∈ ys, y ∈ xs) : m.Owns f ys :=
  ⟨fun y hy => h.buffer y (hs y hy), fun y hy z hz => h.mdl_inj y (hs y hy) z (hs z hz),
    fun y hy z hz => h.buffer_inj y (hs y hy) z (hs z hz)⟩

/-! ## The loop -/

theorem filter_kept {own : NblPtr → Bool} (hk : ∀ y ∈ kept, own y = false) (rest : List NblPtr) :
    (kept ++ rest).filter own = rest.filter own := by
  rw [List.filter_append, List.filter_eq_nil_iff.2 fun y hy => by simp [hk y hy], List.nil_append]

theorem Dropped.nil (h : m.Chain head kept) (hk : ∀ y ∈ kept, m.isOwn f y = false) :
    Dropped m m f kept head := by
  have hown : kept.filter (m.isOwn f) = [] := by simpa using filter_kept hk []
  refine ⟨?_, fun y _ _ => SameBut.of_eq rfl, fun _ _ => rfl, ?_, ?_, fun y hy ho => ?_, ?_, ?_⟩
  · rwa [List.filter_eq_self.2 fun y hy => by simp [hk y hy]]
  · rw [hown, List.append_nil]
  · rw [hown]
    exact List.nodup_nil
  · simp [hk y hy] at ho
  · rw [hown]
    exact .refl _
  · rw [hown]
    exact .refl _

/-- What one round has freed comes first. -/
theorem Dropped.cons (ho : m.Owns f (x :: (kept ++ rest))) (hx : m.isOwn f x)
    (hxs : x ∉ kept ++ rest) (hk : ∀ y ∈ kept, m.isOwn f y = false)
    (hr : Round m m₁ (kept ++ rest) x) (h : Dropped m₁ m' f (kept ++ rest) head) :
    Dropped m m' f (kept ++ x :: rest) head := by
  have hne : ∀ y ∈ kept ++ rest, y ≠ x := by
    rintro y hy rfl
    exact hxs hy
  have hmem : ∀ y, y ∈ kept ++ x :: rest ↔ y = x ∨ y ∈ kept ++ rest := fun y => by
    simp only [List.mem_append, List.mem_cons]
    tauto
  have hown : ∀ y ∈ kept ++ rest, m₁.isOwn f y = m.isOwn f y := fun y hy =>
    (hr.same y (hne y hy)).isOwn
  have hfilter : (kept ++ x :: rest).filter (m.isOwn f)
      = x :: (kept ++ rest).filter (m₁.isOwn f) := by
    rw [filter_kept hk, List.filter_cons_of_pos hx, List.filter_congr hown, filter_kept hk]
  have hx' : m'.nbls.cell x = none := (h.others x hxs).trans hr.gone
  obtain ⟨d, hd, hmdl⟩ := hr.mdl
  obtain ⟨b, hb, hbuffer⟩ := hr.buffer
  refine ⟨?_, fun y hy hyo => ?_, fun y hy => ?_, ?_, ?_, fun y hy hyo => ?_, ?_, ?_⟩
  · have hchain := h.chain
    rw [List.filter_congr fun y hy => congrArg (!·) (hown y hy)] at hchain
    rwa [List.filter_append, List.filter_cons_of_neg (by simp [hx]), ← List.filter_append]
  · rcases (hmem y).1 hy with rfl | hy
    · rw [hx] at hyo
      exact absurd hyo (by simp)
    · exact SameBut.trans (hr.same y (hne y hy)) (h.kept y hy ((hown y hy).trans hyo))
  · rw [hmem, not_or] at hy
    rw [h.others y hy.2, hr.others y hy.2 hy.1]
  · rw [h.freed, hr.freed, hfilter, List.append_assoc, List.singleton_append]
  · rw [hfilter]
    exact List.nodup_cons.2 ⟨fun hm => hxs (List.mem_filter.1 hm).1, h.once⟩
  · rcases (hmem y).1 hy with rfl | hy
    · exact hx'
    · exact h.gone y hy ((hown y hy).trans hyo)
  · have hmdls : ((kept ++ rest).filter (m₁.isOwn f)).filterMap m₁.mdlOf
        = ((kept ++ rest).filter (m₁.isOwn f)).filterMap m.mdlOf :=
      List.filterMap_congr fun y hy =>
        (hr.same y (hne y (List.mem_filter.1 hy).1)).mdlOf
    rw [hfilter, List.filterMap_cons_some hd, ← hmdls]
    exact h.mdls.cons hmdl
  · have hbuffers : ((kept ++ rest).filter (m₁.isOwn f)).filterMap m₁.bufferOf
        = ((kept ++ rest).filter (m₁.isOwn f)).filterMap m.bufferOf := by
      refine List.filterMap_congr fun y hy => ?_
      obtain ⟨hy, hyo⟩ := List.mem_filter.1 hy
      exact (hr.bufferOf_eq ho hx hy ((hown y hy).symm.trans hyo) (hne y hy)).1
    rw [hfilter, List.filterMap_cons_some hb, ← hbuffers]
    exact h.buffers.cons hbuffer

/-- Where the round leaves the chain. -/
theorem Round.chain (hc : m.Chain head (kept ++ rest)) (hx : x ∉ kept ++ rest)
    (hr : Round m m₁ [] x) : m₁.Chain head (kept ++ rest) := by
  have hne : ∀ y ∈ kept ++ rest, y ≠ x := by
    rintro y hy rfl
    exact hx hy
  exact ⟨hc.linked.congr fun y hy => hr.next_eq (hne y hy), fun y hy =>
    (hr.same y (hne y hy)).isSome (hc.allocated y hy)⟩

/-- An NBL of the filter's own is unlinked from the one kept last, or else from the head, and is
freed. -/
theorem unlink_round {c : NetBufferList} (hc : m.Chain head (kept ++ x :: rest))
    (hp : IsChain m.next (m.next x) rest) (ho : m.Owns f (kept ++ x :: rest))
    (hx : m.isOwn f x) (hcell : m.nbls.cell x = some c) :
    ∃ m₂ m₁ head₁, m.takeOut x c.next head kept.getLast? = some (m₂, head₁)
      ∧ m₂.freeOwnNBL x = some m₁
      ∧ m₁.Chain head₁ (kept ++ rest) ∧ IsChain m₁.next (m.next x) rest
      ∧ Round m m₁ (kept ++ rest) x := by
  have hnd := hc.linked.nodup
  have hxs : x ∉ kept ++ rest := (List.nodup_cons.1 (List.nodup_middle.1 hnd)).1
  have hxr : x ∉ rest := fun hm => hxs (List.mem_append_right kept hm)
  have hne : ∀ y ∈ rest, y ≠ x := by
    rintro y hy rfl
    exact hxr hy
  have hnext : m.next x = c.next := by
    rw [next, hcell]
    rfl
  obtain ⟨b, hb, ha⟩ := ho.buffer x (by simp) hx
  rcases List.eq_nil_or_concat' kept with rfl | ⟨ys, t, rfl⟩
  · obtain rfl : head = some x := hc.linked.1
    obtain ⟨m₁, hm₁, hr⟩ := freeOwnNBL_round hb ha
    have hrest : m.Chain c.next ([] ++ rest) :=
      ⟨hnext ▸ hp, fun y hy => hc.allocated y (List.mem_cons_of_mem x hy)⟩
    refine ⟨m, m₁, c.next, by simp [takeOut], hm₁, hr.chain hrest hxs,
      hp.congr fun y hy => hr.next_eq (hne y hy), hr.gone, hr.same,
      fun y _ hyx => hr.others y (by simp) hyx, hr.freed, hr.mdl, hr.buffer⟩
  · have hhead : some x ≠ head := by
      rw [hc.linked.head, List.head?_append_of_ne_nil _ (by simp)]
      exact fun h => hxs (List.mem_append_left rest (List.mem_of_mem_head? h.symm))
    have ht : t ∈ ys ++ [t] := by simp
    have htx : x ≠ t := by
      rintro rfl
      exact hxs (List.mem_append_left rest ht)
    have hta := hc.allocated t (List.mem_append_left _ ht)
    have htr : t ∉ rest := fun hm =>
      (List.disjoint_of_nodup_append hnd) ht (List.mem_cons_of_mem x hm)
    have hrelinked := relink_next (p := m.next x) hta
    have hrest : (m.relink t (m.next x)).Chain head (ys ++ [t] ++ rest) := by
      refine ⟨?_, fun y hy => (sameBut_relink m t _ y).isSome (hc.allocated y ?_)⟩
      · have hlinked := hc.linked
        rw [List.append_assoc] at hlinked ⊢
        rw [hrelinked]
        exact hlinked.splice
      · simp only [List.mem_append, List.mem_cons] at hy ⊢
        tauto
    obtain ⟨m₁, hm₁, hr⟩ := freeOwnNBL_round
      ((relink_bufferOf m t (m.next x) x).trans hb) ha
    refine ⟨_, m₁, head, ?_, hm₁, hr.chain hrest hxs, ?_,
      .of_relink (List.mem_append_left rest ht) htx hr⟩
    · simp [takeOut, hhead, setNext_eq hta, hnext]
    · have hp' : IsChain (m.relink t (m.next x)).next (m.next x) rest := by
        rw [hrelinked]
        exact isChain_update htr hp _
      exact hp'.congr fun y hy => hr.next_eq (hne y hy)

/-- The loop at `p` with `rest` ahead, `kept` being what it has left of the chain so far. -/
theorem dropOwnerLoop_spec : ∀ (rest kept : List NblPtr) (fuel : ℕ) (p head : Option NblPtr)
    (m : NblMemory), m.Chain head (kept ++ rest) → IsChain m.next p rest →
    m.Owns f (kept ++ rest) → (∀ y ∈ kept, m.isOwn f y = false) → rest.length ≤ fuel →
    ∃ m' head', m.dropOwnerLoop f fuel p head kept.getLast? = some (m', head')
      ∧ Dropped m m' f (kept ++ rest) head'
  | [], kept, fuel, p, head, m, hc, hp, _, hk, _ => by
    obtain rfl : p = none := hp
    rw [List.append_nil] at hc ⊢
    exact ⟨m, head, by cases fuel <;> rfl, .nil hc hk⟩
  | x :: rest, kept, fuel + 1, p, head, m, hc, hp, ho, hk, hf => by
    obtain ⟨rfl, hp⟩ := hp
    obtain ⟨c, hcell⟩ := Option.isSome_iff_exists.1 (hc.allocated x (by simp))
    have hxs : x ∉ kept ++ rest :=
      (List.nodup_cons.1 (List.nodup_middle.1 hc.linked.nodup)).1
    have hf' : rest.length ≤ fuel := by simpa using hf
    have hown : m.isOwn f x = decide (c.sourceHandle = f.filterHandle) := by
      rw [isOwn, hcell]
      rfl
    have hnext : m.next x = c.next := by
      rw [next, hcell]
      rfl
    by_cases hx : c.sourceHandle = f.filterHandle
    · rw [decide_eq_true hx] at hown
      obtain ⟨m₂, m₁, head₁, htake, hfree, hc₁, hp₁, hr⟩ := unlink_round hc hp ho hown hcell
      have ho' : m.Owns f (x :: (kept ++ rest)) := ho.mono fun y hy => by
        simp only [List.mem_append, List.mem_cons] at hy ⊢
        tauto
      have hk₁ : ∀ y ∈ kept, m₁.isOwn f y = false := by
        intro y hy
        have hyx : y ≠ x := by
          rintro rfl
          exact hxs (List.mem_append_left rest hy)
        rw [(hr.same y hyx).isOwn, hk y hy]
      obtain ⟨m', head', hloop, hd⟩ := dropOwnerLoop_spec rest kept fuel (m.next x) head₁ m₁ hc₁
        hp₁ (hr.owns ho' hown hxs) hk₁ hf'
      refine ⟨m', head', ?_, hd.cons ho' hown hxs hk hr⟩
      rw [hnext] at hloop
      simpa [dropOwnerLoop, hcell, hx, htake, hfree] using hloop
    · rw [decide_eq_false hx] at hown
      have hk' : ∀ y ∈ kept ++ [x], m.isOwn f y = false := by
        intro y hy
        rcases List.mem_append.1 hy with hy | hy
        · exact hk y hy
        · rw [List.mem_singleton.1 hy, hown]
      have hsplit : kept ++ x :: rest = kept ++ [x] ++ rest := by simp
      rw [hsplit] at hc ho ⊢
      obtain ⟨m', head', hloop, hd⟩ := dropOwnerLoop_spec rest (kept ++ [x]) fuel (m.next x) head m
        hc hp ho hk' hf'
      refine ⟨m', head', ?_, hd⟩
      rw [List.getLast?_concat, hnext] at hloop
      simpa [dropOwnerLoop, hcell, hx] using hloop

/-- `DropOwnerNBL` comes to the end of any chain, having freed each of the filter's own NBLs in it
once, with its MDL and its buffer, and leaves the others in their order. -/
theorem dropOwnerNBL_dropped (hc : m.Chain head xs) (ho : m.Owns f xs) {fuel : ℕ}
    (hf : xs.length ≤ fuel) :
    ∃ m' head', m.dropOwnerNBL f fuel head = some (m', head') ∧ Dropped m m' f xs head' :=
  dropOwnerLoop_spec xs [] fuel head head m hc hc.linked ho (by simp) hf

/-- Two of the filter's own NBLs with one of another's between them. -/
def sample (f : LcxlFilter) : NblMemory where
  nbls := ⟨fun
    | 1 => some ⟨some 2, f.filterHandle, some 11⟩
    | 2 => some ⟨some 3, f.filterHandle + 1, none⟩
    | 3 => some ⟨none, f.filterHandle, some 13⟩
    | _ => none, []⟩
  mdls := ⟨fun d => some ⟨d, 64⟩, []⟩
  buffers := ⟨fun _ => some [], []⟩

theorem sample_chain (f : LcxlFilter) : (sample f).Chain (some 1) [1, 2, 3] :=
  ⟨⟨rfl, rfl, rfl, rfl⟩, by simp [sample]⟩

theorem sample_owns (f : LcxlFilter) : (sample f).Owns f [1, 2, 3] := by
  have hother : (sample f).isOwn f 2 = false := by simp [isOwn, sample]
  have h1 : (sample f).bufferOf 1 = some 11 := rfl
  have h3 : (sample f).bufferOf 3 = some 13 := rfl
  have h1' : (sample f).mdlOf 1 = some 11 := rfl
  have h3' : (sample f).mdlOf 3 = some 13 := rfl
  have hbuffers : ∀ b, (sample f).buffers.cell b = some [] := fun _ => rfl
  refine ⟨?_, ?_, ?_⟩ <;> simp [hother, h1, h3, h1', h3', hbuffers]

theorem dropOwnerNBL_dropped_three :
    ∃ m' head', (sample Sample.router).dropOwnerNBL Sample.router 3 (some 1) = some (m', head')
      ∧ Dropped (sample Sample.router) m' Sample.router [1, 2, 3] head' :=
  dropOwnerNBL_dropped (sample_chain Sample.router) (sample_owns Sample.router) le_rfl

/-! ## What creates them, and the links alone -/

/-- An NBL created for a buffer that no other has is one of those that have one of their own. -/
theorem createNBL_owns {sendBuffer : BufferPtr} {datalen : ℕ} {sendMdl : MdlPtr}
    (ho : m.Owns f xs) (hx : x ∉ xs) (hd : m.mdls.cell sendMdl = none)
    (hb : (m.buffers.cell sendBuffer).isSome)
    (hfresh : ∀ y ∈ xs, m.isOwn f y → m.bufferOf y ≠ some sendBuffer) :
    (m.createNBL f sendBuffer datalen sendMdl x p).Owns f (x :: xs) := by
  set m₁ := m.createNBL f sendBuffer datalen sendMdl x p with hm₁
  have hne : ∀ y ∈ xs, y ≠ x := by
    rintro y hy rfl
    exact hx hy
  have hself : m₁.nbls.cell x = some ⟨p, f.filterHandle, some sendMdl⟩ := Function.update_self ..
  have hcell : ∀ y ∈ xs, m₁.nbls.cell y = m.nbls.cell y := fun y hy =>
    Function.update_of_ne (hne y hy) ..
  have hmdlx : m₁.mdlOf x = some sendMdl := by rw [mdlOf, hself]; rfl
  have hbufx : m₁.bufferOf x = some sendBuffer := by
    rw [bufferOf, hmdlx, Option.bind_some, hm₁, createNBL]
    simp [Heap.alloc]
  have hown : ∀ y ∈ xs, m₁.isOwn f y → m.isOwn f y := fun y hy => by
    rw [isOwn, hcell y hy]
    exact id
  have hmdl : ∀ y ∈ xs, m₁.mdlOf y = m.mdlOf y := fun y hy => by rw [mdlOf, hcell y hy, mdlOf]
  have hmdl_ne : ∀ y ∈ xs, m.isOwn f y → m.mdlOf y ≠ some sendMdl := by
    intro y hy hyo heq
    obtain ⟨b, hb, -⟩ := ho.buffer y hy hyo
    rw [bufferOf, heq, Option.bind_some, hd] at hb
    simp at hb
  have hbuf : ∀ y ∈ xs, m.isOwn f y → m₁.bufferOf y = m.bufferOf y := by
    intro y hy hyo
    rw [bufferOf, hmdl y hy, bufferOf]
    rcases he : m.mdlOf y with _ | e
    · rfl
    · have hed : e ≠ sendMdl := fun h => hmdl_ne y hy hyo (by rw [he, h])
      exact congrArg (Option.map _) (Function.update_of_ne hed ..)
  refine ⟨?_, ?_, ?_⟩
  · refine List.forall_mem_cons.2 ⟨fun _ => ⟨_, hbufx, hb⟩, fun y hy hyo => ?_⟩
    obtain ⟨b, hb, ha⟩ := ho.buffer y hy (hown y hy hyo)
    exact ⟨b, (hbuf y hy (hown y hy hyo)).trans hb, ha⟩
  · intro y hy z hz hyo hzo heq
    rcases List.mem_cons.1 hy with rfl | hy' <;> rcases List.mem_cons.1 hz with rfl | hz'
    · rfl
    · rw [hmdlx, hmdl z hz'] at heq
      exact absurd heq.symm (hmdl_ne z hz' (hown z hz' hzo))
    · rw [hmdlx, hmdl y hy'] at heq
      exact absurd heq (hmdl_ne y hy' (hown y hy' hyo))
    · rw [hmdl y hy', hmdl z hz'] at heq
      exact ho.mdl_inj y hy' z hz' (hown y hy' hyo) (hown z hz' hzo) heq
  · intro y hy z hz hyo hzo heq
    rcases List.mem_cons.1 hy with rfl | hy' <;> rcases List.mem_cons.1 hz with rfl | hz'
    · rfl
    · rw [hbufx, hbuf z hz' (hown z hz' hzo)] at heq
      exact absurd heq.symm (hfresh z hz' (hown z hz' hzo))
    · rw [hbufx, hbuf y hy' (hown y hy' hyo)] at heq
      exact absurd heq (hfresh y hy' (hown y hy' hyo))
    · rw [hbuf y hy' (hown y hy' hyo), hbuf z hz' (hown z hz' hzo)] at heq
      exact ho.buffer_inj y hy' z hz' (hown y hy' hyo) (hown z hz' hzo) heq

/-- The head left and the NBLs freed are those of the run on the links alone. -/
theorem Dropped.refines {c : NblChain} (hd : Dropped m m' f c.nbls head)
    (ho : ∀ y ∈ c.nbls, m.isOwn f y = (c.heap.sourceHandle y == f.filterHandle)) :
    let s := LcxlNetLoader.dropOwnerNBL c.nbls.length f c.heap c.netBufferLists
    head = s.netBufferLists ∧ m'.nbls.freed = m.nbls.freed ++ s.freed := by
  intro s
  obtain ⟨hchain, hfreed⟩ := c.dropOwner f
  refine ⟨?_, ?_⟩
  · rw [hd.chain.linked.head, hchain.head, List.filter_congr fun y hy => congrArg (!·) (ho y hy)]
  · rw [hd.freed, hfreed, List.filter_congr ho]

end NblMemory

end LcxlNetLoader
