import Mathlib.Tactic

/-!
# Programs that take locks

A program takes and releases locks, and its result comes with these calls in order. One that
faults, or goes on for longer than it is given, has none. `replay` goes through the calls from the
locks already held: a lock taken while it is held is waited for without end, and only one that is
held can be released.
-/

inductive SpinOp (κ : Type)
  | acquire (k : κ)
  | release (k : κ)
deriving DecidableEq

/-- A program that returns an `α` and takes locks of `κ`. -/
def SpinM (κ α : Type) : Type := Option (α × List (SpinOp κ))

namespace SpinM

variable {κ α β : Type} {m : SpinM κ α} {f : α → SpinM κ β} {a : α} {k : κ}
  {ops ops' : List (SpinOp κ)}

/-- The program after these calls. -/
def after (ops : List (SpinOp κ)) (m : SpinM κ α) : SpinM κ α :=
  Option.map (fun r => (r.1, ops ++ r.2)) m

/-- A program that returns, having made these calls. -/
def returns (a : α) (ops : List (SpinOp κ)) : SpinM κ α := some (a, ops)

def fault : SpinM κ α := none

protected def bind (m : SpinM κ α) (f : α → SpinM κ β) : SpinM κ β :=
  Option.bind m fun r => after r.2 (f r.1)

instance : Monad (SpinM κ) where
  pure a := returns a []
  bind := SpinM.bind

def acquire (k : κ) : SpinM κ Unit := returns () [.acquire k]

def release (k : κ) : SpinM κ Unit := returns () [.release k]

/-- What is read from memory, if there is anything. -/
def ofOption : Option α → SpinM κ α
  | some a => returns a []
  | none => fault

theorem pure_eq : (pure a : SpinM κ α) = returns a [] := rfl

@[simp] theorem ofOption_some : (ofOption (some a) : SpinM κ α) = returns a [] := rfl

theorem returns_inj {b : α} :
    (returns a ops : SpinM κ α) = returns b ops' ↔ a = b ∧ ops = ops' :=
  (Option.some_inj (a := (a, ops)) (b := (b, ops'))).trans Prod.mk_inj

@[simp] theorem returns_bind : returns a ops >>= f = after ops (f a) := rfl

@[simp] theorem after_nil : after [] m = m := by
  rcases m with _ | ⟨a, ops⟩ <;> rfl

@[simp] theorem after_returns : after ops (returns a ops') = returns a (ops ++ ops') := rfl

@[simp] theorem acquire_bind (k : κ) (f : Unit → SpinM κ β) :
    acquire k >>= f = after [.acquire k] (f ()) := rfl

@[simp] theorem release_bind (k : κ) (f : Unit → SpinM κ β) :
    release k >>= f = after [.release k] (f ()) := rfl

end SpinM

namespace SpinOp

variable {κ : Type} [DecidableEq κ] {held : Finset κ} {k : κ} {ops : List (SpinOp κ)}

/-- The locks held after the calls, if each can be made. -/
def replay : Finset κ → List (SpinOp κ) → Option (Finset κ)
  | held, [] => some held
  | held, .acquire k :: ops => if k ∈ held then none else replay (insert k held) ops
  | held, .release k :: ops => if k ∈ held then replay (held.erase k) ops else none

/-- The locks taken, in order. -/
def acquired (ops : List (SpinOp κ)) : List κ :=
  ops.filterMap fun
    | .acquire k => some k
    | .release _ => none

/-- A lock is taken and released again. -/
def bracket (k : κ) : List (SpinOp κ) := [.acquire k, .release k]

theorem replay_bracket (hk : k ∉ held) : replay held (bracket k ++ ops) = replay held ops := by
  simp [bracket, replay, hk]

theorem replay_brackets : ∀ {ks : List κ}, (∀ k ∈ ks, k ∉ held) →
    replay held (ks.flatMap bracket ++ ops) = replay held ops
  | [], _ => rfl
  | k :: ks, h => by
    rw [List.forall_mem_cons] at h
    rw [List.flatMap_cons, List.append_assoc, replay_bracket h.1, replay_brackets h.2]

end SpinOp
