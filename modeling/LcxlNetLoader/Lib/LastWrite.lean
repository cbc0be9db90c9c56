import Mathlib.Tactic

/-!
# The last write to a key

A table of values by key, changed by events that each set one key's value or clear it. What a key
holds after some events is what the last event that wrote to it put there
(`after_eq_some_iff`).
-/

namespace LastWrite

variable {κ β ε : Type*} [DecidableEq κ] (write : ε → κ × Option β)

def apply (m : κ → Option β) (e : ε) : κ → Option β := Function.update m (write e).1 (write e).2

/-- The table that `es` make of an empty one. -/
def after (es : List ε) : κ → Option β := es.foldl (apply write) fun _ => none

variable {write} {m : κ → Option β} {es : List ε} {k : κ} {b : β}

theorem after_append (es es' : List ε) :
    after write (es ++ es') = es'.foldl (apply write) (after write es) := List.foldl_append

theorem after_snoc (es : List ε) (e : ε) :
    after write (es ++ [e]) = apply write (after write es) e := after_append es [e]

theorem foldl_apply_of_ne : ∀ {es : List ε} {m : κ → Option β}, (∀ e ∈ es, (write e).1 ≠ k) →
    es.foldl (apply write) m k = m k
  | [], _, _ => rfl
  | e :: es, m, h => by
    simp only [List.mem_cons, forall_eq_or_imp] at h
    rw [List.foldl_cons, foldl_apply_of_ne h.2, apply, Function.update_of_ne h.1.symm]

/-- Events that only clear leave what they do not clear. -/
theorem foldl_apply_clear : ∀ {es : List ε} {m : κ → Option β}, (∀ e ∈ es, (write e).2 = none) →
    es.foldl (apply write) m k = if k ∈ es.map fun e => (write e).1 then none else m k
  | [], _, _ => by simp
  | e :: es, m, h => by
    simp only [List.mem_cons, forall_eq_or_imp] at h
    rw [List.foldl_cons, foldl_apply_clear h.2, apply, h.1]
    by_cases hk : k = (write e).1
    · subst hk
      simp
    · simp [hk]

/-- What is there was there before, or has been written. -/
theorem foldl_apply_eq_some : ∀ {es : List ε} {m : κ → Option β},
    es.foldl (apply write) m k = some b → m k = some b ∨ ∃ e ∈ es, write e = (k, some b)
  | [], _, h => .inl h
  | e :: es, m, h => by
    rw [List.foldl_cons] at h
    rcases foldl_apply_eq_some h with h | ⟨e', he', hw⟩
    · by_cases hk : k = (write e).1
      · subst hk
        rw [apply, Function.update_self] at h
        exact .inr ⟨e, List.mem_cons_self, Prod.ext rfl h⟩
      · rw [apply, Function.update_of_ne hk] at h
        exact .inl h
    · exact .inr ⟨e', List.mem_cons_of_mem e he', hw⟩

/-- The values may be taken to others before or after they are written. -/
theorem map_foldl_apply {γ : Type*} {write' : ε → κ × Option γ} {g : β → γ} :
    ∀ {es : List ε} {m : κ → Option β},
      (∀ e ∈ es, write' e = ((write e).1, (write e).2.map g)) →
      (fun k => (es.foldl (apply write) m k).map g)
        = es.foldl (apply write') fun k => (m k).map g
  | [], _, _ => rfl
  | e :: es, m, h => by
    simp only [List.mem_cons, forall_eq_or_imp] at h
    have hfirst : (fun k => (apply write m e k).map g) = apply write' (fun k => (m k).map g) e := by
      funext k
      rw [apply, apply, h.1]
      exact Function.apply_update (fun _ o => o.map g) m _ _ k
    rw [List.foldl_cons, List.foldl_cons, map_foldl_apply h.2, hfirst]

theorem after_eq_some_iff : after write es k = some b ↔
    ∃ l₁ e l₂, es = l₁ ++ e :: l₂ ∧ write e = (k, some b) ∧ ∀ e' ∈ l₂, (write e').1 ≠ k := by
  refine ⟨?_, ?_⟩
  · induction es using List.reverseRecOn with
    | nil => simp [after]
    | append_singleton es e ih =>
      intro h
      rw [after_snoc, apply] at h
      by_cases hk : k = (write e).1
      · subst hk
        rw [Function.update_self] at h
        exact ⟨es, e, [], rfl, Prod.ext rfl h, by simp⟩
      · rw [Function.update_of_ne hk] at h
        obtain ⟨l₁, e', l₂, rfl, he', hl⟩ := ih h
        refine ⟨l₁, e', l₂ ++ [e], by simp, he', fun x hx => ?_⟩
        simp only [List.mem_append, List.mem_singleton] at hx
        rcases hx with hx | rfl
        · exact hl x hx
        · exact Ne.symm hk
  · rintro ⟨l₁, e, l₂, rfl, he, hl⟩
    rw [after_append, List.foldl_cons, foldl_apply_of_ne hl, apply, he, Function.update_self]

end LastWrite
