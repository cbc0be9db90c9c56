import Mathlib.Tactic

/-!
# Data in pieces

Pieces of memory, each of a start and a length, hold data one after the other. A `window` is some of
the data, as the list of its addresses. A program that takes one pointer into the data and counts
on from there finds the window where the first piece holds it (`window_getD_head`), and stays in it
only where the addresses it passes are all of the window (`mem_iff_of_block`).
-/

namespace Scatter

variable {pieces : List (ℕ × ℕ)} {start count off n i p a : ℕ}

def addresses (pieces : List (ℕ × ℕ)) : List ℕ := pieces.flatMap fun q => List.range' q.1 q.2

/-- The addresses of the `n` bytes from `off` on. -/
def window (pieces : List (ℕ × ℕ)) (off n : ℕ) : List ℕ := ((addresses pieces).drop off).take n

theorem length_addresses : ∀ pieces : List (ℕ × ℕ),
    (addresses pieces).length = (pieces.map (·.2)).sum
  | [] => rfl
  | q :: pieces => by
    have ih := length_addresses pieces
    simp only [addresses, List.flatMap_cons, List.length_append, List.length_range',
      List.map_cons, List.sum_cons] at ih ⊢
    rw [ih]

theorem length_window (h : off + n ≤ (pieces.map (·.2)).sum) :
    (window pieces off n).length = n := by
  rw [window, List.length_take, List.length_drop, length_addresses]
  omega

/-- What the first piece holds of the window is where one counts to from its start. -/
theorem window_getD_head (hi : i < n) (h : off + i < count) :
    (window ((start, count) :: pieces) off n).getD i 0 = start + off + i := by
  rw [window, List.getD_eq_getElem?_getD, List.getElem?_take_of_lt hi, List.getElem?_drop,
    addresses, List.flatMap_cons, List.getElem?_append_left (by simpa using h),
    List.getElem?_range' (by simpa using h), Option.getD_some]
  omega

/-- A block that lies in as many addresses as it is long is all of them. -/
theorem mem_iff_of_block {l : List ℕ} (hl : l.length = n) (h : ∀ i < n, p + i ∈ l) :
    a ∈ l ↔ p ≤ a ∧ a < p + n := by
  have hsub : (List.range' p n).Subperm l := by
    refine List.subperm_of_subset List.nodup_range' fun b hb => ?_
    obtain ⟨hle, hlt⟩ := List.mem_range'_1.1 hb
    have := h (b - p) (by omega)
    rwa [Nat.add_sub_cancel' hle] at this
  rw [← (hsub.perm_of_length_le (by simp [hl])).mem_iff, List.mem_range'_1]

end Scatter
