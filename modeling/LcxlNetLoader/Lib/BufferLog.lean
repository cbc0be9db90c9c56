import LcxlNetLoader.Lib.ReadLog

/-!
# Computations on a buffer that log what they touch

A computation reads and writes a buffer of `β`s, and all the places that it touches are logged.
Nothing here says how long the buffer is: `Within P m buf` says that all of them satisfy `P`.
-/

def BufferLog (β α : Type) : Type := (ℕ → β) → α × (ℕ → β) × List ℕ

namespace BufferLog

variable {α β γ : Type}

instance : Monad (BufferLog β) where
  pure a := fun buf => (a, buf, [])
  bind m k := fun buf =>
    let (a, buf, is) := m buf
    let (c, buf, js) := k a buf
    (c, buf, is ++ js)

/-- A computation that only reads. -/
def get (m : ReadLog ℕ β α) : BufferLog β α := fun buf => (m.val buf, buf, m.reads buf)

def write (i : ℕ) (bs : List β) : BufferLog β Unit := fun buf =>
  ((), fun j => if i ≤ j then bs.getD (j - i) (buf j) else buf j,
    (List.range bs.length).map (i + ·))

def val (m : BufferLog β α) (buf : ℕ → β) : α := (m buf).1

/-- The buffer it leaves. -/
def after (m : BufferLog β α) (buf : ℕ → β) : ℕ → β := (m buf).2.1

def touched (m : BufferLog β α) (buf : ℕ → β) : List ℕ := (m buf).2.2

def Within (P : ℕ → Prop) (m : BufferLog β α) (buf : ℕ → β) : Prop := ∀ i ∈ m.touched buf, P i

variable {P : ℕ → Prop} {m : BufferLog β α} {k : α → BufferLog β γ} {r : ReadLog ℕ β α} {i N : ℕ}
  {bs : List β} {buf : ℕ → β} {a : α}

@[simp] theorem val_bind : (m >>= k).val buf = (k (m.val buf)).val (m.after buf) := rfl

@[simp] theorem val_get : (get r).val buf = r.val buf := rfl

@[simp] theorem after_pure : (pure a : BufferLog β α).after buf = buf := rfl

@[simp] theorem after_bind : (m >>= k).after buf = (k (m.val buf)).after (m.after buf) := rfl

@[simp] theorem after_get : (get r).after buf = buf := rfl

@[simp] theorem after_write : (write i bs).after buf
    = fun j => if i ≤ j then bs.getD (j - i) (buf j) else buf j := rfl

@[simp] theorem within_pure : (pure a : BufferLog β α).Within P buf ↔ True := by
  simp [Within, touched, pure]

@[simp] theorem within_bind : (m >>= k).Within P buf
    ↔ m.Within P buf ∧ (k (m.val buf)).Within P (m.after buf) :=
  List.forall_mem_append

@[simp] theorem within_get : (get r).Within P buf ↔ r.Within P buf := Iff.rfl

/-- What is written ends in the buffer. -/
@[simp] theorem within_write :
    (write i bs).Within (· < N) buf ↔ bs = [] ∨ i + bs.length ≤ N := by
  rw [← List.length_eq_zero_iff]
  refine ⟨fun h => ?_, fun h j hj => ?_⟩
  · by_contra hne
    rw [not_or] at hne
    have := h (i + (bs.length - 1)) (List.mem_map_of_mem (List.mem_range.2 (by omega)))
    omega
  · obtain ⟨k, hk, rfl⟩ := List.mem_map.1 hj
    have := List.mem_range.1 hk
    omega

end BufferLog
