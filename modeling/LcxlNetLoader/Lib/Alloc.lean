import Mathlib.Tactic

/-!
# Programs that allocate

A program asks for what it allocates, kind by kind, and goes on with whether it was given that.
Where it dereferences what it was not given it crashes. `run` answers the requests in their order
from a stream, and `made` lists them along with the answers.

`Unchecked spare` is a program that crashes on every request refused, but for those of a kind that
is `spare`. It comes through exactly if it is refused nothing else.
-/

/-- A program that returns an `α` and allocates things of the kinds `κ`. -/
inductive AllocM (κ α : Type) : Type
  | ret (a : α)
  | crash
  | alloc (k : κ) (go : Bool → AllocM κ α)

namespace AllocM

variable {κ α β : Type}

protected def bind : AllocM κ α → (α → AllocM κ β) → AllocM κ β
  | ret a, f => f a
  | crash, _ => crash
  | alloc k go, f => alloc k fun given => (go given).bind f

instance : Monad (AllocM κ) where
  pure := ret
  bind := AllocM.bind

/-- Whether it is given is left to the program. -/
def request (k : κ) : AllocM κ Bool := alloc k ret

/-- What is allocated is dereferenced right away. -/
def deref (k : κ) : AllocM κ Unit := alloc k fun given => if given then ret () else crash

/-- The result, if the program does not crash where the `n`-th request is answered by `given n`. -/
def run : AllocM κ α → (ℕ → Bool) → Option α
  | ret a, _ => some a
  | crash, _ => none
  | alloc _ go, given => (go (given 0)).run fun n => given (n + 1)

def made : AllocM κ α → (ℕ → Bool) → List (κ × Bool)
  | ret _, _ => []
  | crash, _ => []
  | alloc k go, given => (k, given 0) :: (go (given 0)).made fun n => given (n + 1)

/-- Every request a program makes is given, or is spared. -/
def Provided (spare : κ → Bool) (given : ℕ → Bool) (m : AllocM κ α) : Prop :=
  ∀ a ∈ m.made given, a.2 ∨ spare a.1

/-- What the program does when everything is given. -/
def ideal (m : AllocM κ α) : Option α := m.run fun _ => true

def Unchecked (spare : κ → Bool) : AllocM κ α → Prop
  | ret _ => True
  | crash => False
  | alloc k go =>
    (go true).Unchecked spare ∧ if spare k then (go false).Unchecked spare else go false = crash

section

variable {m : AllocM κ α} {f : α → AllocM κ β} {a : α} {k : κ} {go : Bool → AllocM κ α}
  {spare : κ → Bool} {given : ℕ → Bool}

@[simp] theorem ret_bind : (pure a : AllocM κ α) >>= f = f a := rfl

@[simp] theorem crash_bind : (crash : AllocM κ α) >>= f = crash := rfl

@[simp] theorem ideal_pure : (pure a : AllocM κ α).ideal = some a := rfl

@[simp] theorem ideal_crash : (crash : AllocM κ α).ideal = none := rfl

@[simp] theorem ideal_request : (request k).ideal = some true := rfl

@[simp] theorem ideal_deref : (deref k).ideal = some () := rfl

@[simp] theorem ideal_bind : (m >>= f).ideal = m.ideal.bind fun a => (f a).ideal := by
  induction m with
  | ret a => rfl
  | crash => rfl
  | alloc k go ih => exact ih true

@[simp] theorem ideal_ite {m' : AllocM κ α} {c : Prop} {_ : Decidable c} :
    (if c then m else m').ideal = if c then m.ideal else m'.ideal := by
  split_ifs <;> rfl

@[simp] theorem unchecked_pure : (pure a : AllocM κ α).Unchecked spare := trivial

theorem unchecked_deref : (deref k).Unchecked spare ↔ spare k = false := by
  simp [deref, Unchecked]

theorem Unchecked.bind (hm : m.Unchecked spare) (hf : ∀ a, (f a).Unchecked spare) :
    (m >>= f).Unchecked spare := by
  induction m with
  | ret a => exact hf a
  | crash => exact hm.elim
  | alloc k go ih =>
    refine ⟨ih true hm.1, ?_⟩
    have h2 := hm.2
    split_ifs at h2 ⊢ with hk
    · exact ih false h2
    · change go false >>= f = crash
      rw [h2]
      rfl

theorem Unchecked.ite {m' : AllocM κ α} {c : Prop} {_ : Decidable c} (h : m.Unchecked spare)
    (h' : m'.Unchecked spare) : (if c then m else m').Unchecked spare := by
  split_ifs
  · exact h
  · exact h'

theorem provided_alloc : (alloc k go).Provided spare given ↔
    (given 0 ∨ spare k) ∧ (go (given 0)).Provided spare fun n => given (n + 1) := by
  simp [Provided, made]

/-- An unchecked program comes through exactly if nothing but what can be spared is refused. -/
theorem Unchecked.run_isSome_iff : ∀ {m : AllocM κ α} {given : ℕ → Bool}, m.Unchecked spare →
    ((m.run given).isSome ↔ m.Provided spare given)
  | ret a, _, _ => by simp [run, Provided, made]
  | crash, _, h => h.elim
  | alloc k go, given, h => by
    rw [provided_alloc]
    change ((go (given 0)).run _).isSome ↔ _
    cases hg : given 0 with
    | true => simpa using h.1.run_isSome_iff
    | false =>
      have h2 := h.2
      split_ifs at h2 with hk
      · simpa [hk] using h2.run_isSome_iff
      · simp [h2, run, hk]

end

end AllocM
