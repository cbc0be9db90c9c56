import Mathlib.Data.List.Rotate
import Mathlib.Tactic

/-!
# Going round a list

A round of a list begins somewhere in it and goes on at its front when it has come to its end:
`xs.rotate i`. What a round finds first depends on where it begins only if it may begin in
front of one that is looked for and behind another (`find?_append_comm_iff`). Rounds that each
begin behind what the last one found take turns (`filter_rotate_next`).
-/

namespace Cyclic

variable {α : Type*} {xs as bs rest done : List α} {x cur : α} {i : ℕ} {f : α → Bool}

theorem getElem?_next (as bs : List α) (x : α) :
    (as ++ x :: bs)[(as.length + 1) % (as ++ x :: bs).length]? =
      some (bs.headD ((as ++ x :: bs).headD x)) := by
  rcases bs with _ | ⟨b, bs⟩
  · rcases as with _ | ⟨a, as⟩ <;> simp
  · rw [Nat.mod_eq_of_lt (by simp)]
    simp

/-- What comes next in a round comes next in the list, whose front is behind its end. -/
theorem exists_next (h : xs.rotate i = done ++ cur :: rest) : ∃ as bs, xs = as ++ cur :: bs
    ∧ bs.headD (xs.headD cur) = rest.headD ((xs.rotate i).headD cur) := by
  have hlen : done.length + (rest.length + 1) = xs.length := by
    rw [← List.length_rotate xs i, h, List.length_append, List.length_cons]
  have hpos : 0 < xs.length := by omega
  have hget : xs[(done.length + i) % xs.length]? = some cur := by
    rw [← List.getElem?_rotate (by omega), h]
    simp
  have hnext : xs[((done.length + i) % xs.length + 1) % xs.length]?
      = some (rest.headD ((xs.rotate i).headD cur)) := by
    rw [Nat.mod_add_mod, add_right_comm]
    rcases rest with _ | ⟨q, rest⟩
    · -- The round is over, and back where it began.
      rw [List.length_nil] at hlen
      rw [hlen, Nat.add_mod_left, ← Nat.zero_add i, ← List.getElem?_rotate hpos, Nat.zero_add]
      rcases hr : xs.rotate i with _ | ⟨y, ys⟩
      · simp [hr] at h
      · simp
    · rw [List.length_cons] at hlen
      rw [← List.getElem?_rotate (by omega), h]
      simp
  obtain ⟨hlt, hcur⟩ := List.getElem?_eq_some_iff.1 hget
  have hsplit : xs = xs.take ((done.length + i) % xs.length)
      ++ cur :: xs.drop ((done.length + i) % xs.length + 1) := by
    rw [← hcur, ← List.drop_eq_getElem_cons hlt, List.take_append_drop]
  refine ⟨_, _, hsplit, Option.some_injective _ ?_⟩
  have := getElem?_next (xs.take ((done.length + i) % xs.length))
    (xs.drop ((done.length + i) % xs.length + 1)) cur
  rw [← hsplit, List.length_take_of_le hlt.le] at this
  rw [← this, hnext]

/-- Two rounds, of which the second begins behind a stretch that the first one begins with. -/
theorem rotate_between {j : ℕ} (hij : i ≤ j) (hj : j ≤ xs.length) :
    xs.rotate i = (xs.drop i).take (j - i) ++ (xs.drop j ++ xs.take i)
      ∧ xs.rotate j = (xs.drop j ++ xs.take i) ++ (xs.drop i).take (j - i) := by
  have hdrop : (xs.drop i).take (j - i) ++ xs.drop j = xs.drop i := by
    rw [← Nat.add_sub_of_le hij, ← List.drop_drop, Nat.add_sub_cancel_left,
      List.take_append_drop]
  have htake : xs.take i ++ (xs.drop i).take (j - i) = xs.take j := by
    rw [← List.take_add, Nat.add_sub_of_le hij]
  rw [List.rotate_eq_drop_append_take (hij.trans hj), List.rotate_eq_drop_append_take hj,
    List.append_assoc, htake, ← List.append_assoc, hdrop]
  exact ⟨rfl, rfl⟩

theorem find?_append_comm_iff (hd : ∀ a ∈ as, a ∉ bs) :
    (as ++ bs).find? f = (bs ++ as).find? f ↔
      (∀ a ∈ as, f a = false) ∨ ∀ b ∈ bs, f b = false := by
  rw [List.find?_append, List.find?_append]
  rcases ha : as.find? f with _ | a
  · have : ∀ a ∈ as, f a = false := by simpa using ha
    exact iff_of_true (by simp) (.inl this)
  · rcases hb : bs.find? f with _ | b
    · have : ∀ b ∈ bs, f b = false := by simpa using hb
      exact iff_of_true (by simp) (.inr this)
    · have hne : a ≠ b := fun hab =>
        hd a (List.mem_of_find?_eq_some ha) (hab ▸ List.mem_of_find?_eq_some hb)
      have hfa := List.find?_some ha
      have hfb := List.find?_some hb
      simp only [Option.some_or, Option.some.injEq, hne, false_iff, not_or, not_forall]
      exact ⟨⟨a, List.mem_of_find?_eq_some ha, by simp [hfa]⟩,
        ⟨b, List.mem_of_find?_eq_some hb, by simp [hfb]⟩⟩

/-- A round that begins behind what this one finds has it last. -/
theorem filter_rotate_next [DecidableEq α] (hn : xs.Nodup)
    (h : (xs.rotate i).filter f = x :: as) :
    (xs.rotate (xs.idxOf x + 1)).filter f = as ++ [x] := by
  obtain ⟨before, behind, hr, hbefore, hx, has⟩ := List.filter_eq_cons_iff.1 h
  have hlen : before.length + (behind.length + 1) = xs.length := by
    rw [← List.length_rotate xs i, hr, List.length_append, List.length_cons]
  have hidx : xs.idxOf x = (before.length + i) % xs.length := by
    have hget : xs[(before.length + i) % xs.length]? = some x := by
      rw [← List.getElem?_rotate (by omega), hr]
      simp
    obtain ⟨hlt, hget⟩ := List.getElem?_eq_some_iff.1 hget
    rw [← hget, hn.idxOf_getElem]
  have hround : xs.rotate (xs.idxOf x + 1) = behind ++ (before ++ [x]) := by
    rw [hidx, ← List.rotate_mod, Nat.mod_add_mod, List.rotate_mod, add_right_comm, add_comm,
      ← List.rotate_rotate, hr, List.append_cons, ← List.length_singleton (a := x),
      ← List.length_append, List.rotate_append_length_eq]
  rw [hround, List.filter_append, List.filter_append, List.filter_eq_nil_iff.2 hbefore, has]
  simp [hx]

end Cyclic
