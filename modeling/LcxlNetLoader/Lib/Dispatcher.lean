import Mathlib.Data.Multiset.AddSub
import LcxlNetLoader.Lib.LastWrite
import LcxlNetLoader.Lib.Run

/-!
# Dispatching to owners

A dispatcher sends whatever comes of a key to the owner the key has then, over a wire that may lose
it, double it or change its order. So what arrives somewhere was sent there, by the one who owned
its key when it was sent (`forwarded_of_arrived`), and nothing else is on the wire (`balance`).
-/

namespace Dispatcher

variable {κ μ π : Type*}

/-- What a dispatcher, and the wire behind it, do. -/
inductive Act (κ μ π : Type*)
  /-- The key has another owner, or none any more. -/
  | change (k : κ) (owner : Option μ)
  | forward (k : κ) (p : π)
  | lose (m : μ) (p : π)
  | double (m : μ) (p : π)
  | arrive (m : μ) (p : π)

structure State (κ μ π : Type*) where
  owner : κ → Option μ
  wire : Multiset (μ × π)
  /-- The latest last. -/
  arrived : List (μ × π)

/-- No key has an owner, and the wire is empty. -/
def start : State κ μ π := ⟨fun _ => none, 0, []⟩

/-- The key whose owner changes, and the owner. -/
def Act.changed : Act κ μ π → Option (κ × Option μ)
  | .change k owner => some (k, owner)
  | _ => none

/-- One more is on the wire. -/
def Act.puts : Act κ μ π → Bool
  | .forward _ _ | .double _ _ => true
  | _ => false

/-- One fewer is on the wire. -/
def Act.takes : Act κ μ π → Bool
  | .lose _ _ | .arrive _ _ => true
  | _ => false

variable [DecidableEq κ]

inductive Step : State κ μ π → Act κ μ π → State κ μ π → Prop
  | change (s : State κ μ π) (k : κ) (o : Option μ) :
      Step s (.change k o) { s with owner := Function.update s.owner k o }
  | forward {s : State κ μ π} {k : κ} {m : μ} (p : π) : s.owner k = some m →
      Step s (.forward k p) { s with wire := (m, p) ::ₘ s.wire }
  | lose {s : State κ μ π} {m : μ} {p : π} {rest : Multiset (μ × π)} : s.wire = (m, p) ::ₘ rest →
      Step s (.lose m p) { s with wire := rest }
  | double {s : State κ μ π} {m : μ} {p : π} : (m, p) ∈ s.wire →
      Step s (.double m p) { s with wire := (m, p) ::ₘ s.wire }
  | arrive {s : State κ μ π} {m : μ} {p : π} {rest : Multiset (μ × π)} :
      s.wire = (m, p) ::ₘ rest →
      Step s (.arrive m p) { s with wire := rest, arrived := s.arrived ++ [(m, p)] }

/-- The owners that the changes leave. -/
def owners (tr : List (Act κ μ π)) : κ → Option μ := LastWrite.after id (tr.filterMap Act.changed)

/-- In what was done, it was sent there by its key's owner. -/
def Forwarded (tr : List (Act κ μ π)) (m : μ) (p : π) : Prop :=
  ∃ tr₁ k tr₂, tr = tr₁ ++ .forward k p :: tr₂ ∧ owners tr₁ k = some m

variable {tr tr' : List (Act κ μ π)} {s s' : State κ μ π} {a : Act κ μ π} {k : κ} {m : μ} {p : π}

theorem owners_snoc (tr : List (Act κ μ π)) (a : Act κ μ π) : owners (tr ++ [a]) =
    match a.changed with
    | some (k, o) => Function.update (owners tr) k o
    | none => owners tr := by
  unfold owners
  rw [List.filterMap_append, LastWrite.after_append]
  cases a <;> rfl

/-- A key keeps its owner until a change of it. -/
theorem owners_append_of_unchanged (h : ∀ a ∈ tr', ∀ o, a.changed ≠ some (k, o)) :
    owners (tr ++ tr') k = owners tr k := by
  unfold owners
  rw [List.filterMap_append, LastWrite.after_append]
  refine LastWrite.foldl_apply_of_ne fun e he => ?_
  obtain ⟨a, ha, hae⟩ := List.mem_filterMap.1 he
  rintro rfl
  exact h a ha e.2 hae

theorem Forwarded.snoc (h : Forwarded tr m p) (a : Act κ μ π) : Forwarded (tr ++ [a]) m p := by
  obtain ⟨tr₁, k, tr₂, rfl, hk⟩ := h
  exact ⟨tr₁, k, tr₂ ++ [a], by simp, hk⟩

/-- Changes come one after the other. -/
theorem run_changes : ∀ (ws : List (κ × Option μ)) (s : State κ μ π),
    Sys.Run Step s (ws.map fun w => .change w.1 w.2)
      { s with owner := ws.foldl (LastWrite.apply id) s.owner }
  | [], _ => .nil
  | w :: ws, s => by
    have hfirst : Sys.Run Step s [.change w.1 w.2]
        { s with owner := LastWrite.apply id s.owner w } := Sys.Run.nil.snoc (.change s w.1 w.2)
    exact hfirst.append (run_changes ws _)

namespace Step

theorem owner (h : Step s a s') : s'.owner =
    match a.changed with
    | some (k, o) => Function.update s.owner k o
    | none => s.owner := by
  cases h <;> rfl

/-- What is on the wire was there, or has been sent to its key's owner. -/
theorem mem_wire (h : Step s a s') {x : μ × π} (hx : x ∈ s'.wire) :
    x ∈ s.wire ∨ ∃ k, a = .forward k x.2 ∧ s.owner k = some x.1 := by
  cases h with
  | change k o => exact .inl hx
  | @forward k m p hk =>
    rcases Multiset.mem_cons.1 hx with rfl | hx
    · exact .inr ⟨k, rfl, hk⟩
    · exact .inl hx
  | lose hw => exact .inl (hw ▸ Multiset.mem_cons_of_mem hx)
  | double hm =>
    rcases Multiset.mem_cons.1 hx with rfl | hx
    · exact .inl hm
    · exact .inl hx
  | arrive hw => exact .inl (hw ▸ Multiset.mem_cons_of_mem hx)

/-- What has arrived was on the wire. -/
theorem mem_arrived (h : Step s a s') {x : μ × π} (hx : x ∈ s'.arrived) :
    x ∈ s.arrived ∨ x ∈ s.wire := by
  cases h with
  | @arrive m p rest hw =>
    rcases List.mem_append.1 hx with hx | hx
    · exact .inl hx
    · rw [List.mem_singleton.1 hx]
      exact .inr (hw ▸ Multiset.mem_cons_self _ _)
  | _ => exact .inl hx

theorem card_wire (h : Step s a s') : s'.wire.card + (if a.takes then 1 else 0)
    = s.wire.card + if a.puts then 1 else 0 := by
  cases h with
  | lose hw => simp [hw, Act.takes, Act.puts]
  | arrive hw => simp [hw, Act.takes, Act.puts]
  | _ => simp [Act.takes, Act.puts]

end Step

/-- What every act keeps: the owners are those of the changes, and what is on the wire or has
arrived was sent there. -/
structure Inv (tr : List (Act κ μ π)) (s : State κ μ π) : Prop where
  owner : s.owner = owners tr
  wire : ∀ x ∈ s.wire, Forwarded tr x.1 x.2
  arrived : ∀ x ∈ s.arrived, Forwarded tr x.1 x.2
  balance : tr.countP Act.puts = s.wire.card + tr.countP Act.takes

theorem Inv.step (h : Inv tr s) (hs : Step s a s') : Inv (tr ++ [a]) s' := by
  refine ⟨?_, fun x hx => ?_, fun x hx => ?_, ?_⟩
  · rw [owners_snoc, ← h.owner]
    exact hs.owner
  · rcases hs.mem_wire hx with hx | ⟨k, rfl, hk⟩
    · exact (h.wire x hx).snoc a
    · exact ⟨tr, k, [], rfl, h.owner ▸ hk⟩
  · rcases hs.mem_arrived hx with hx | hx
    · exact (h.arrived x hx).snoc a
    · exact (h.wire x hx).snoc a
  · have hcard := hs.card_wire
    have hbalance := h.balance
    simp only [List.countP_append, List.countP_singleton]
    omega

theorem inv_of_run (h : Sys.Run Step start tr s) : Inv tr s :=
  h.induct ⟨rfl, fun _ hx => absurd hx (Multiset.notMem_zero _), by simp [start], rfl⟩
    fun _ => Inv.step

/-- What is sent of one key, while that has no change, is sent to one owner. -/
theorem same_owner {tr₁ tr₂ tr₃ : List (Act κ μ π)} {q : π}
    (h : Sys.Run Step start (tr₁ ++ .forward k p :: tr₂ ++ .forward k q :: tr₃) s)
    (hn : ∀ a ∈ tr₂, ∀ o, a.changed ≠ some (k, o)) :
    ∃ m, owners tr₁ k = some m ∧ owners (tr₁ ++ .forward k p :: tr₂) k = some m := by
  have hsame : owners (tr₁ ++ .forward k p :: tr₂) k = owners tr₁ k := by
    refine owners_append_of_unchanged fun a ha o => ?_
    rcases List.mem_cons.1 ha with rfl | ha
    · intro hc
      cases hc
    · exact hn a ha o
  rw [List.append_cons] at h
  obtain ⟨s₂, h₂, -⟩ := h.split
  obtain ⟨s₁, h₁, hs⟩ := Sys.Run.snoc_iff.1 h₂
  cases hs with
  | @forward k m p hk =>
    have howner : owners (tr₁ ++ .forward k p :: tr₂) k = some m := (inv_of_run h₁).owner ▸ hk
    exact ⟨m, hsame ▸ howner, howner⟩

theorem forwarded_of_arrived (h : Sys.Run Step start tr s) (hx : (m, p) ∈ s.arrived) :
    Forwarded tr m p := (inv_of_run h).arrived _ hx

end Dispatcher
