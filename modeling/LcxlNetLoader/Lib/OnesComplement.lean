import Mathlib.Tactic

/-!
# One's complement sums

Numbers up to `m` are added so that what goes over `m` comes round to the bottom. Such a sum stands
for the plain one modulo `m`, zero standing for zero only (`sum_eq_wrap`), and it is `m` once a
number is added that completes it (`wrap_add_complement`).
-/

namespace OnesComplement

/-- Addition with the carry brought round. -/
def add (m a b : ℕ) : ℕ := if m < a + b then a + b - m else a + b

def sum (m : ℕ) (l : List ℕ) : ℕ := l.foldl (add m) 0

/-- The number up to `m` that stands for `n`. -/
def wrap (m n : ℕ) : ℕ := if n = 0 then 0 else (n - 1) % m + 1

variable {m n a b : ℕ} {l : List ℕ}

theorem wrap_of_le (h : n ≤ m) : wrap m n = n := by
  unfold wrap
  split_ifs with hn
  · exact hn.symm
  · rw [Nat.mod_eq_of_lt (by omega)]
    omega

theorem wrap_le (hm : 0 < m) (n : ℕ) : wrap m n ≤ m := by
  unfold wrap
  split_ifs
  · exact Nat.zero_le m
  · exact Nat.mod_lt _ hm

@[simp] theorem wrap_eq_zero : wrap m n = 0 ↔ n = 0 := by
  unfold wrap
  split_ifs with hn <;> simp [hn]

theorem wrap_modEq (m n : ℕ) : wrap m n ≡ n [MOD m] := by
  unfold wrap
  split_ifs with hn
  · rw [hn]
  · have h := (Nat.mod_modEq (n - 1) m).add_right 1
    rwa [Nat.sub_add_cancel (Nat.pos_of_ne_zero hn)] at h

theorem wrap_eq_wrap_of_modEq (h : a ≡ b [MOD m]) (h0 : a = 0 ↔ b = 0) : wrap m a = wrap m b := by
  unfold wrap
  by_cases ha : a = 0
  · rw [if_pos ha, if_pos (h0.1 ha)]
  · have hb : b ≠ 0 := h0.not.1 ha
    rw [if_neg ha, if_neg hb]
    have hmod : a - 1 ≡ b - 1 [MOD m] := by
      refine Nat.ModEq.add_right_cancel' 1 ?_
      rwa [Nat.sub_add_cancel (Nat.pos_of_ne_zero ha), Nat.sub_add_cancel (Nat.pos_of_ne_zero hb)]
    rw [hmod]

theorem wrap_wrap_add (m a b : ℕ) : wrap m (wrap m a + b) = wrap m (a + b) :=
  wrap_eq_wrap_of_modEq ((wrap_modEq m a).add_right b) (by simp)

theorem add_eq_wrap (ha : a ≤ m) (hb : b ≤ m) : add m a b = wrap m (a + b) := by
  unfold add
  split_ifs with h
  · rw [← wrap_of_le (m := m) (n := a + b - m) (by omega)]
    refine wrap_eq_wrap_of_modEq ?_ (by omega)
    exact ((Nat.modEq_iff_dvd' (Nat.sub_le _ _)).2 ⟨1, by omega⟩)
  · exact (wrap_of_le (not_lt.1 h)).symm

theorem foldl_add_eq_wrap (hm : 0 < m) : ∀ {l : List ℕ} {a : ℕ}, a ≤ m → (∀ x ∈ l, x ≤ m) →
    l.foldl (add m) a = wrap m (a + l.sum)
  | [], _, ha, _ => by simpa using (wrap_of_le ha).symm
  | x :: l, a, ha, hl => by
    rw [List.forall_mem_cons] at hl
    rw [List.foldl_cons, add_eq_wrap ha hl.1, foldl_add_eq_wrap hm (wrap_le hm _) hl.2,
      wrap_wrap_add, List.sum_cons, Nat.add_assoc]

/-- A one's complement sum stands for the plain one. -/
theorem sum_eq_wrap (hm : 0 < m) (hl : ∀ x ∈ l, x ≤ m) : sum m l = wrap m l.sum := by
  rw [sum, foldl_add_eq_wrap hm (Nat.zero_le m) hl, Nat.zero_add]

theorem wrap_of_modEq_zero (hm : 0 < m) (h : n ≡ 0 [MOD m]) (hn : n ≠ 0) : wrap m n = m := by
  have hmm : m ≡ 0 [MOD m] := Nat.modEq_zero_iff_dvd.2 dvd_rfl
  rw [wrap_eq_wrap_of_modEq (h.trans hmm.symm) (iff_of_false hn hm.ne'), wrap_of_le le_rfl]

/-- What completes a number to `m` completes whatever the number stands for. -/
theorem wrap_add_complement (hm : 0 < m) (n : ℕ) : wrap m (n + (m - wrap m n)) = m := by
  have hle := wrap_le hm n
  refine wrap_of_modEq_zero hm ?_ ?_
  · refine ((wrap_modEq m n).symm.add_right _).trans ?_
    rw [Nat.add_sub_cancel' hle]
    exact Nat.modEq_zero_iff_dvd.2 dvd_rfl
  · rcases Nat.eq_zero_or_pos n with rfl | hn
    · rw [wrap_of_le (Nat.zero_le m)]
      omega
    · omega

end OnesComplement
