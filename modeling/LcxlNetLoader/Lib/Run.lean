import Mathlib.Data.List.Infix

/-!
# Runs of a labelled step relation

A run is a state reached from `s` together with the labels of the steps taken, the latest last.
`Run.induct` is the one induction the invariants use: a property of the labels so far and the
state they lead to, which holds at the start and which every step keeps, holds of every run.
-/

namespace Sys

variable {σ ℓ : Type*} {step : σ → ℓ → σ → Prop} {s s₁ s₂ : σ}

/-- The labels `tr` take `s` to the state. -/
inductive Run (step : σ → ℓ → σ → Prop) (s : σ) : List ℓ → σ → Prop
  | nil : Run step s [] s
  | snoc {tr : List ℓ} {s₁ s₂ : σ} {a : ℓ} : Run step s tr s₁ → step s₁ a s₂ →
      Run step s (tr ++ [a]) s₂

namespace Run

theorem induct {I : List ℓ → σ → Prop} (h0 : I [] s)
    (hs : ∀ {tr s₁ a s₂}, Run step s tr s₁ → I tr s₁ → step s₁ a s₂ → I (tr ++ [a]) s₂)
    {tr : List ℓ} (h : Run step s tr s₁) : I tr s₁ := by
  induction h with
  | nil => exact h0
  | snoc hr ha ih => exact hs hr ih ha

/-- A property of states that every step keeps. -/
theorem preserves {I : σ → Prop} (hs : ∀ {s₁ a s₂}, I s₁ → step s₁ a s₂ → I s₂)
    {tr : List ℓ} (h : Run step s tr s₁) (h0 : I s) : I s₁ :=
  h.induct (I := fun _ => I) h0 fun _ => hs

theorem mono {step' : σ → ℓ → σ → Prop} (hs : ∀ {s₁ a s₂}, step s₁ a s₂ → step' s₁ a s₂)
    {tr : List ℓ} (h : Run step s tr s₁) : Run step' s tr s₁ := by
  induction h with
  | nil => exact .nil
  | snoc _ ha ih => exact ih.snoc (hs ha)

theorem append {tr tr' : List ℓ} (h : Run step s tr s₁) (h' : Run step s₁ tr' s₂) :
    Run step s (tr ++ tr') s₂ := by
  induction h' with
  | nil => simpa using h
  | snoc _ ha ih => simpa using ih.snoc ha

theorem snoc_iff {tr : List ℓ} {a : ℓ} :
    Run step s (tr ++ [a]) s₂ ↔ ∃ s₁, Run step s tr s₁ ∧ step s₁ a s₂ := by
  refine ⟨fun h => ?_, fun ⟨_, h, ha⟩ => h.snoc ha⟩
  generalize htr : tr ++ [a] = tr' at h
  cases h with
  | nil => simp at htr
  | snoc h ha =>
    obtain ⟨rfl, rfl⟩ := List.append_singleton_inj.1 htr
    exact ⟨_, h, ha⟩

/-- A run passes through a state at every prefix of its labels. -/
theorem split {tr tr' : List ℓ} (h : Run step s (tr ++ tr') s₂) :
    ∃ s₁, Run step s tr s₁ ∧ Run step s₁ tr' s₂ := by
  induction tr' using List.reverseRecOn generalizing s₂ with
  | nil => exact ⟨s₂, by simpa using h, .nil⟩
  | append_singleton tr' a ih =>
    rw [← List.append_assoc, snoc_iff] at h
    obtain ⟨s₁, h, ha⟩ := h
    obtain ⟨s', h1, h2⟩ := ih h
    exact ⟨s', h1, h2.snoc ha⟩

end Run

/-- The steps of a total function, each allowed only where `ok` says so. -/
def Guarded (ok : σ → ℓ → Prop) (f : σ → ℓ → σ) (s : σ) (a : ℓ) (s' : σ) : Prop :=
  ok s a ∧ s' = f s a

/-- A guarded run ends where folding its labels does. -/
theorem Run.eq_foldl {ok : σ → ℓ → Prop} {f : σ → ℓ → σ} {tr : List ℓ}
    (h : Run (Guarded ok f) s tr s₁) : s₁ = tr.foldl f s :=
  h.induct (I := fun tr s₁ => s₁ = tr.foldl f s) rfl fun _ ih ha => by
    rw [List.foldl_append, ← ih]
    exact ha.2

/-- Every step of `tr` is allowed where it is taken. -/
def Allowed (ok : σ → ℓ → Prop) (f : σ → ℓ → σ) : σ → List ℓ → Prop
  | _, [] => True
  | s, a :: tr => ok s a ∧ Allowed ok f (f s a) tr

instance Allowed.decidable (ok : σ → ℓ → Prop) (f : σ → ℓ → σ) [∀ s a, Decidable (ok s a)] :
    ∀ s tr, Decidable (Allowed ok f s tr)
  | _, [] => .isTrue trivial
  | s, a :: tr => @instDecidableAnd _ _ _ (Allowed.decidable ok f (f s a) tr)

theorem Allowed.and {ok ok' : σ → ℓ → Prop} {f : σ → ℓ → σ} :
    ∀ {s : σ} {tr : List ℓ}, Allowed ok f s tr → Allowed ok' f s tr →
      Allowed (fun s a => ok s a ∧ ok' s a) f s tr
  | _, [], _, _ => trivial
  | _, _ :: _, h, h' => ⟨⟨h.1, h'.1⟩, h.2.and h'.2⟩

/-- An invariant that every enabled step keeps which meets a condition holds after a run of enabled
steps that meet it. -/
theorem Allowed.keeps {en ok : σ → ℓ → Prop} {f : σ → ℓ → σ} {I : σ → Prop}
    (hI : ∀ s a, I s → en s a → ok s a → I (f s a)) :
    ∀ {s : σ} {tr : List ℓ}, I s → Allowed en f s tr → Allowed ok f s tr → I (tr.foldl f s)
  | _, [], h, _, _ => h
  | s, a :: _, h, he, hc =>
    Allowed.keeps (s := f s a) hI (hI s a h he.1 hc.1) he.2 hc.2

/-- What the invariant says of a step, it says of every step of such a run. -/
theorem Allowed.of_inv {en ok ok' : σ → ℓ → Prop} {f : σ → ℓ → σ} {I : σ → Prop}
    (hI : ∀ s a, I s → en s a → ok s a → I (f s a))
    (hok : ∀ s a, I s → en s a → ok' s a) :
    ∀ {s : σ} {tr : List ℓ}, I s → Allowed en f s tr → Allowed ok f s tr → Allowed ok' f s tr
  | _, [], _, _, _ => trivial
  | s, a :: _, h, he, hc =>
    ⟨hok s a h he.1, Allowed.of_inv hI hok (hI s a h he.1 hc.1) he.2 hc.2⟩

/-- Where an invariant makes two conditions on an enabled step come to the same, they do over a run
of enabled steps. The steps that meet the condition have to keep the invariant. -/
theorem allowed_iff_of_inv {en ok ok' : σ → ℓ → Prop} {f : σ → ℓ → σ} {I : σ → Prop}
    (hI : ∀ s a, I s → en s a → ok s a → I (f s a))
    (hiff : ∀ s a, I s → en s a → (ok s a ↔ ok' s a)) :
    ∀ {s : σ} {tr : List ℓ}, I s → Allowed en f s tr →
      (Allowed ok f s tr ↔ Allowed ok' f s tr)
  | _, [], _, _ => Iff.rfl
  | s, a :: _, h, he => by
    have hstep := hiff s a h he.1
    refine ⟨fun ha => ⟨hstep.1 ha.1, ?_⟩, fun ha => ⟨hstep.2 ha.1, ?_⟩⟩
    · exact (allowed_iff_of_inv hI hiff (hI s a h he.1 ha.1) he.2).1 ha.2
    · exact (allowed_iff_of_inv hI hiff (hI s a h he.1 (hstep.2 ha.1)) he.2).2 ha.2

theorem Allowed.run {ok : σ → ℓ → Prop} {f : σ → ℓ → σ} :
    ∀ {tr : List ℓ} {s : σ}, Allowed ok f s tr → Run (Guarded ok f) s tr (tr.foldl f s)
  | [], _, _ => .nil
  | a :: tr, s, h => by
    have h1 : Run (Guarded ok f) s [a] (f s a) := Run.nil.snoc ⟨h.1, rfl⟩
    exact h1.append (Allowed.run h.2)

end Sys
