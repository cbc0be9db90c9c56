import Mathlib.Tactic

/-!
# The last one standing

Contenders come one after another, and each replaces the one before if it beats that one.
Whatever `beats` is, one that beats all before it and is beaten by none behind it is left in the
end (`champion_eq_self_iff`).
-/

namespace Champion

variable {α β : Type*} {beats : α → α → Bool} {p x : α} {xs before behind : List α}

def challenge (beats : α → α → Bool) (best : Option α) (x : α) : Option α :=
  match best with
  | none => some x
  | some b => if beats x b then some x else some b

def champion (beats : α → α → Bool) (best : Option α) (xs : List α) : Option α :=
  xs.foldl (challenge beats) best

variable (beats) in
theorem champion_some :
    ∀ (xs : List α) (p : α), ∃ s ∈ p :: xs, champion beats (some p) xs = some s
  | [], p => ⟨p, by simp, rfl⟩
  | x :: xs, p => by
    rw [champion, List.foldl_cons, challenge]
    split_ifs
    · obtain ⟨s, hs, h⟩ := champion_some xs x
      exact ⟨s, List.mem_cons_of_mem p hs, h⟩
    · obtain ⟨s, hs, h⟩ := champion_some xs p
      refine ⟨s, ?_, h⟩
      rcases List.mem_cons.1 hs with hs | hs
      · simp [hs]
      · simp [hs]

theorem champion_eq_self_iff (hp : p ∉ xs) :
    champion beats (some p) xs = some p ↔ ∀ x ∈ xs, beats x p = false := by
  induction xs with
  | nil => simp [champion]
  | cons x xs ih =>
    rw [List.mem_cons, not_or] at hp
    rw [champion, List.foldl_cons, challenge, List.forall_mem_cons]
    rcases hx : beats x p
    · rw [if_neg Bool.false_ne_true, ← champion, ih hp.2]
      simp
    · -- It is beaten once, and never comes back.
      obtain ⟨s, hs, h⟩ := champion_some beats xs x
      rw [if_pos rfl, ← champion, h]
      refine iff_of_false ?_ (by simp)
      rintro ⟨rfl⟩
      exact (List.mem_cons.1 hs).elim hp.1 hp.2

/-- Who beats all that come before is the best of those up to there. -/
theorem champion_of_beats (h : ∀ x ∈ before, beats p x = true) :
    champion beats none (before ++ p :: behind) = champion beats (some p) behind := by
  rw [champion, List.foldl_append, List.foldl_cons, ← champion, ← champion]
  congr 1
  rcases before with _ | ⟨x, xs⟩
  · rfl
  · obtain ⟨s, hs, hx⟩ := champion_some beats xs x
    rw [champion, List.foldl_cons, challenge, ← champion, hx, challenge, if_pos (h s hs)]

/-- There is a last one of the smallest. -/
theorem exists_last_min [LinearOrder β] (f : α → Bool) (r : α → β) :
    ∀ {xs : List α}, (∃ x ∈ xs, f x) → ∃ before p behind, xs = before ++ p :: behind ∧ f p
      ∧ (∀ q ∈ before, f q → r p ≤ r q) ∧ ∀ q ∈ behind, f q → r p < r q
  | [], h => by simp at h
  | x :: xs, h => by
    by_cases hxs : ∃ y ∈ xs, f y
    · obtain ⟨before, p, behind, rfl, hp, hbefore, hbehind⟩ := exists_last_min f r hxs
      by_cases hx : f x ∧ r x < r p
      · refine ⟨[], x, _, rfl, hx.1, by simp, fun q hq hf => ?_⟩
        rcases List.mem_append.1 hq with hq | hq
        · exact hx.2.trans_le (hbefore q hq hf)
        · rcases List.mem_cons.1 hq with rfl | hq
          · exact hx.2
          · exact hx.2.trans (hbehind q hq hf)
      · refine ⟨x :: before, p, behind, rfl, hp, fun q hq hf => ?_, hbehind⟩
        rcases List.mem_cons.1 hq with rfl | hq
        · exact not_lt.1 fun hlt => hx ⟨hf, hlt⟩
        · exact hbefore q hq hf
    · have hnone : ∀ y ∈ xs, ¬ f y := fun y hy hf => hxs ⟨y, hy, hf⟩
      have hx : f x := by
        obtain ⟨y, hy, hf⟩ := h
        rcases List.mem_cons.1 hy with rfl | hy
        · exact hf
        · exact absurd hf (hnone y hy)
      exact ⟨[], x, xs, rfl, hx, by simp, fun q hq hf => absurd hf (hnone q hq)⟩

end Champion
