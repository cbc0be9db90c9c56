import Mathlib.Tactic

/-!
# Computations that log what they read

A computation over a memory returns a value together with the addresses it reads, in order. What
a program reads is then a fact about its text: `Within P m mem` says that every address `m` reads
satisfies `P`, and each way of building a computation says what that takes. Two computations may
read the same things at different places: `Simulates g m m'` says that `m'` returns what `m` does
from any memory that has, at the addresses `g` takes those that `m` reads to, the same.
-/

/-- A computation over a memory of `β`s addressed by `ι`. -/
def ReadLog (ι β α : Type) : Type := (ι → β) → α × List ι

namespace ReadLog

variable {ι β α γ : Type}

instance : Monad (ReadLog ι β) where
  pure a := fun _ => (a, [])
  bind m k := fun mem =>
    let (a, is) := m mem
    let (c, js) := k a mem
    (c, is ++ js)

def read (i : ι) : ReadLog ι β β := fun mem => (mem i, [i])

/-- The `n` cells from `i` on. -/
def readRange (i : ℕ) : ℕ → ReadLog ℕ β (List β)
  | 0 => pure []
  | n + 1 => do
    let b ← read i
    let bs ← readRange (i + 1) n
    pure (b :: bs)

def val (m : ReadLog ι β α) (mem : ι → β) : α := (m mem).1

def reads (m : ReadLog ι β α) (mem : ι → β) : List ι := (m mem).2

def Within (P : ι → Prop) (m : ReadLog ι β α) (mem : ι → β) : Prop := ∀ i ∈ m.reads mem, P i

section

variable {P : ι → Prop} {m m' : ReadLog ι β α} {k : α → ReadLog ι β γ} {mem : ι → β} {a : α} {i : ι}

@[simp] theorem val_pure : (pure a : ReadLog ι β α).val mem = a := rfl

@[simp] theorem val_bind : (m >>= k).val mem = (k (m.val mem)).val mem := rfl

@[simp] theorem val_read : (read i : ReadLog ι β β).val mem = mem i := rfl

@[simp] theorem val_ite {c : Prop} {_ : Decidable c} :
    (if c then m else m').val mem = if c then m.val mem else m'.val mem := by
  split_ifs <;> rfl

@[simp] theorem within_pure : (pure a : ReadLog ι β α).Within P mem ↔ True := by
  simp [Within, reads, pure]

@[simp] theorem within_bind :
    (m >>= k).Within P mem ↔ m.Within P mem ∧ (k (m.val mem)).Within P mem :=
  List.forall_mem_append

@[simp] theorem within_read : (read i : ReadLog ι β β).Within P mem ↔ P i := by
  simp [Within, reads, read]

@[simp] theorem within_ite {c : Prop} {_ : Decidable c} : (if c then m else m').Within P mem ↔
    (c → m.Within P mem) ∧ (¬ c → m'.Within P mem) := by
  split_ifs with hc <;> simp [hc]

/-- Wherever `m` reads, `m'` reads at the place `g` takes that to. -/
def Simulates (g : ι → ι) (m m' : ReadLog ι β α) : Prop :=
  ∀ mem mem', (∀ i ∈ m.reads mem, mem' (g i) = mem i) → m'.val mem' = m.val mem

variable {g : ι → ι} {k' : α → ReadLog ι β γ}

theorem simulates_pure : Simulates g (pure a : ReadLog ι β α) (pure a) := fun _ _ _ => rfl

theorem simulates_read {j : ι} (h : g i = j) : Simulates g (read i : ReadLog ι β β) (read j) := by
  intro mem mem' hmem
  subst h
  exact hmem i (List.mem_singleton_self i)

theorem Simulates.bind (hm : Simulates g m m') (hk : ∀ a, Simulates g (k a) (k' a)) :
    Simulates g (m >>= k) (m' >>= k') := by
  intro mem mem' hmem
  have hval := hm mem mem' fun i hi => hmem i (List.mem_append_left _ hi)
  rw [val_bind, val_bind, hval]
  exact hk _ mem mem' fun i hi => hmem i (List.mem_append_right _ hi)

theorem Simulates.ite {m₁ m₁' : ReadLog ι β α} {c : Prop} {_ : Decidable c}
    (h : Simulates g m m') (h₁ : Simulates g m₁ m₁') :
    Simulates g (if c then m else m₁) (if c then m' else m₁') := by
  split_ifs
  · exact h
  · exact h₁

/-- What is read within a bound is the same in a memory that agrees up to it. -/
theorem Simulates.val_eq (hm : Simulates g m m') {mem' : ι → β} (hw : m.Within P mem)
    (h : ∀ i, P i → mem' (g i) = mem i) : m'.val mem' = m.val mem :=
  hm mem mem' fun i hi => h i (hw i hi)

end

variable {mem : ℕ → β}

theorem simulates_readRange {g : ℕ → ℕ} : ∀ {n i j : ℕ}, (∀ k, k < n → g (i + k) = j + k) →
    Simulates g (readRange i n : ReadLog ℕ β _) (readRange j n)
  | 0, _, _, _ => simulates_pure
  | n + 1, i, j, h => by
    refine (simulates_read (h 0 (by omega))).bind fun b =>
      (simulates_readRange fun k hk => ?_).bind fun bs => simulates_pure
    have := h (k + 1) (by omega)
    rwa [Nat.add_right_comm, Nat.add_right_comm j, Nat.add_assoc i, Nat.add_assoc j]

theorem val_readRange : ∀ (n i : ℕ),
    (readRange i n : ReadLog ℕ β _).val mem = (List.range n).map fun j => mem (i + j)
  | 0, _ => rfl
  | n + 1, i => by
    simp only [readRange, val_bind, val_read, val_pure, val_readRange n (i + 1),
      List.range_succ_eq_map, List.map_cons, List.map_map, Nat.add_zero]
    congr 1
    refine List.map_congr_left fun j _ => ?_
    simp only [Function.comp, Nat.add_assoc, Nat.add_comm 1 j]

/-- A range is read within a bound when it is empty or ends there at the latest. -/
@[simp] theorem within_readRange {N : ℕ} : ∀ (n i : ℕ),
    (readRange i n : ReadLog ℕ β _).Within (· < N) mem ↔ n = 0 ∨ i + n ≤ N
  | 0, _ => by simp [readRange]
  | n + 1, i => by
    simp only [readRange, within_bind, within_read, within_readRange n (i + 1), within_pure,
      and_true]
    omega

end ReadLog
