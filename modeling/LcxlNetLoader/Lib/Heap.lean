import Mathlib.Tactic

/-!
# Memory that is allocated and freed

A cell that is not allocated holds nothing, so that reading, writing or freeing it has no result. A
program that has one has touched nothing that it had freed and has freed nothing twice. `Freed` says
what a run has freed, each cell once, all other cells being as they were.
-/

/-- What memory holds, and what was freed of it, the latest last. -/
structure Heap (ι α : Type*) where
  cell : ι → Option α
  freed : List ι

namespace Heap

variable {ι α : Type*} {h h₁ h' : Heap ι α} {i j : ι} {a : α} {l : List ι}

def read (h : Heap ι α) (i : ι) : Option α := h.cell i

variable [DecidableEq ι]

def write (h : Heap ι α) (i : ι) (a : α) : Option (Heap ι α) :=
  (h.cell i).map fun _ => { h with cell := Function.update h.cell i (some a) }

def free (h : Heap ι α) (i : ι) : Option (Heap ι α) :=
  (h.cell i).map fun _ => ⟨Function.update h.cell i none, h.freed ++ [i]⟩

/-- A cell that was not allocated is, and holds `a`. -/
def alloc (h : Heap ι α) (i : ι) (a : α) : Heap ι α :=
  { h with cell := Function.update h.cell i (some a) }

omit [DecidableEq ι] in
@[simp] theorem read_eq (h : Heap ι α) (i : ι) : h.read i = h.cell i := rfl

theorem write_eq {b : α} (hi : h.cell i = some b) (a : α) :
    h.write i a = some { h with cell := Function.update h.cell i (some a) } := by
  rw [write, hi, Option.map_some]

theorem free_eq (hi : h.cell i = some a) :
    h.free i = some ⟨Function.update h.cell i none, h.freed ++ [i]⟩ := by
  rw [free, hi, Option.map_some]

omit [DecidableEq ι] in
/-- From one memory to the other just these cells were freed, in this order. -/
structure Freed (h h' : Heap ι α) (l : List ι) : Prop where
  log : h'.freed = h.freed ++ l
  once : l.Nodup
  allocated : ∀ i ∈ l, (h.cell i).isSome
  gone : ∀ i ∈ l, h'.cell i = none
  rest : ∀ i, i ∉ l → h'.cell i = h.cell i

omit [DecidableEq ι] in
theorem Freed.refl (h : Heap ι α) : Freed h h [] :=
  ⟨(List.append_nil _).symm, List.nodup_nil, by simp, by simp, fun _ _ => rfl⟩

/-- What is freed later was allocated until then, so it is not what was freed first. -/
theorem Freed.cons (hi : h.free i = some h₁) (hl : Freed h₁ h' l) : Freed h h' (i :: l) := by
  obtain ⟨a, ha, rfl⟩ := Option.map_eq_some_iff.1 hi
  have hself : Function.update h.cell i none i = none := Function.update_self ..
  have hother : ∀ j, j ≠ i → Function.update h.cell i none j = h.cell j := fun j hj =>
    Function.update_of_ne hj ..
  have hne : ∀ j ∈ l, j ≠ i := by
    rintro j hj rfl
    have := (congrArg Option.isSome hself).symm.trans (hl.allocated j hj)
    exact Bool.false_ne_true this
  have hnotMem : i ∉ l := fun hm => hne i hm rfl
  refine ⟨?_, List.nodup_cons.2 ⟨hnotMem, hl.once⟩, ?_, ?_, fun j hj => ?_⟩
  · rw [hl.log, List.append_assoc, List.singleton_append]
  · exact List.forall_mem_cons.2 ⟨by rw [ha]; rfl, fun j hj =>
      (congrArg Option.isSome (hother j (hne j hj))).symm.trans (hl.allocated j hj)⟩
  · exact List.forall_mem_cons.2 ⟨(hl.rest i hnotMem).trans hself, hl.gone⟩
  · rw [List.mem_cons, not_or] at hj
    exact (hl.rest j hj.2).trans (hother j hj.1)

end Heap
