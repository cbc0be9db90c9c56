import LcxlNetLoader.JsonWriter
import LcxlNetLoader.Proofs.JsonReader

/-!
# Numbers, read and written

The loop over the digits of an integer looks at its threshold before each digit, so that only the
last digit is ever compared with the one of the greatest number (`decodeDigits_eq`). A number that
is a digit longer than the threshold and greater than the greatest one thus passes where its last
digit is small, and what is read of it is what 64 bits keep.
-/

namespace LcxlNetLoader

open Json

namespace Reader

/-- The least of what `Nat.ofDigitChars` makes of more digits. -/
theorem le_ofDigitChars (digits : List Char) (n : ℕ) :
    10 ^ digits.length * n ≤ Nat.ofDigitChars 10 digits n := by
  rw [Nat.ofDigitChars_eq_ofDigitChars_zero]
  exact Nat.le_add_right _ _

theorem digit_lt {c : Char} (h : c.isDigit) : c.toNat - '0'.toNat < 10 := by
  simp only [Char.isDigit, Bool.and_eq_true, decide_eq_true_eq, ge_iff_le] at h
  have h9 : c.toNat ≤ 57 := UInt32.le_iff_toNat_le.mp h.2
  have h0 : '0'.toNat = 48 := rfl
  omega

theorem isDigit_iff {c : Char} : c.isDigit ↔ '0' ≤ c ∧ c ≤ '9' := by
  simp [Char.isDigit, Char.le_def]

variable {token : Token} {threshold lastDigitThreshold : ℕ}

theorem decodeDigits_cons {c : Char} (h : c.isDigit) (value : ℕ) (digits : List Char) :
    decodeDigits token threshold lastDigitThreshold value (c :: digits) =
      if threshold ≤ value ∧ (digits ≠ [] ∨ lastDigitThreshold < c.toNat - '0'.toNat) then .ok none
      else decodeDigits token threshold lastDigitThreshold
        ((value * 10 + (c.toNat - '0'.toNat)) % 2 ^ 64) digits := by
  obtain ⟨h0, h9⟩ := isDigit_iff.mp h
  rw [decodeDigits, if_neg (by simp [h0, h9])]

/-- What the loop makes of a number. -/
def decodedDigits (threshold lastDigitThreshold n : ℕ) : Option ℕ :=
  if n / 10 < threshold then some n
  else if threshold ≤ n / 100 ∨ lastDigitThreshold < n % 10 then none
  else some (n % 2 ^ 64)

/-- From the threshold on, one digit more is read, and not two. -/
theorem decodeDigits_of_le {value : ℕ} (h : threshold ≤ value) (c : Char) (digits : List Char)
    (hc : c.isDigit) :
    decodeDigits token threshold lastDigitThreshold value (c :: digits) =
      .ok (if digits ≠ [] ∨ lastDigitThreshold < c.toNat - '0'.toNat then none
        else some ((value * 10 + (c.toNat - '0'.toNat)) % 2 ^ 64)) := by
  rw [decodeDigits_cons hc]
  split_ifs with h1 h2 h2
  · rfl
  · exact absurd h1.2 h2
  · exact absurd ⟨h, h2⟩ h1
  · rw [not_or, not_not] at h2
    rw [h2.1, decodeDigits]

/-- A digit past the threshold is the last one, and less than that of the greatest number. -/
theorem decodedDigits_next {p d : ℕ} (hp : threshold ≤ p) (hprev : p / 10 < threshold)
    (hd : d < 10) :
    decodedDigits threshold lastDigitThreshold (10 * p + d) =
      if lastDigitThreshold < d then none else some ((10 * p + d) % 2 ^ 64) := by
  have hdiv : (10 * p + d) / 10 = p := by omega
  have hdiv' : (10 * p + d) / 100 = p / 10 := by omega
  have hmod : (10 * p + d) % 10 = d := by omega
  rw [decodedDigits, hdiv, hdiv', hmod, if_neg (not_lt.mpr hp)]
  have hiff : threshold ≤ p / 10 ∨ lastDigitThreshold < d ↔ lastDigitThreshold < d :=
    or_iff_right (not_le.mpr hprev)
  rw [if_congr hiff rfl rfl]

theorem decodedDigits_long {n : ℕ} (h : 100 * threshold ≤ n) (hpos : 0 < threshold) :
    decodedDigits threshold lastDigitThreshold n = none := by
  rw [decodedDigits, if_neg (by omega), if_pos (.inl (by omega))]

theorem decodeDigits_eq (hthreshold : threshold * 10 ≤ 2 ^ 64) :
    ∀ (digits : List Char) {value : ℕ}, digits ≠ [] → (∀ c ∈ digits, c.isDigit) →
      value < threshold →
      decodeDigits token threshold lastDigitThreshold value digits =
        .ok (decodedDigits threshold lastDigitThreshold (Nat.ofDigitChars 10 digits value))
  | [], _, h, _, _ => absurd rfl h
  | c :: digits, value, _, hdigits, hv => by
    obtain ⟨hc, hrest⟩ := List.forall_mem_cons.mp hdigits
    have hd := digit_lt hc
    rw [decodeDigits_cons hc, if_neg (fun h => absurd h.1 (not_le.mpr hv)),
      Nat.mod_eq_of_lt (by omega), Nat.ofDigitChars_cons, Nat.mul_comm value 10]
    rcases digits with _ | ⟨c', digits⟩
    · rw [decodeDigits, Nat.ofDigitChars_nil, decodedDigits, if_pos (by omega)]
    obtain ⟨hc', -⟩ := List.forall_mem_cons.mp hrest
    have hd' := digit_lt hc'
    by_cases hlt : 10 * value + (c.toNat - '0'.toNat) < threshold
    · exact decodeDigits_eq hthreshold (c' :: digits) (by simp) hrest hlt
    -- the threshold is reached: the next digit is the last, or the number is far too long
    · rw [decodeDigits_of_le (not_lt.mp hlt) c' digits hc', Nat.ofDigitChars_cons]
      rcases digits with _ | ⟨c'', digits⟩
      · rw [Nat.ofDigitChars_nil, decodedDigits_next (not_lt.mp hlt) (by omega) hd',
          Nat.mul_comm _ 10]
        have hiff : [] ≠ ([] : List Char) ∨ lastDigitThreshold < c'.toNat - '0'.toNat ↔
            lastDigitThreshold < c'.toNat - '0'.toNat := or_iff_right (not_not.mpr rfl)
        rw [if_congr hiff rfl rfl]
      · have hle := le_ofDigitChars (c'' :: digits)
          (10 * (10 * value + (c.toNat - '0'.toNat)) + (c'.toNat - '0'.toNat))
        have hpow : 10 ≤ 10 ^ (c'' :: digits).length := Nat.le_self_pow (by simp) 10
        have hten := Nat.mul_le_mul_right
          (10 * (10 * value + (c.toNat - '0'.toNat)) + (c'.toNat - '0'.toNat)) hpow
        rw [if_pos (.inl (by simp)), decodedDigits_long (by omega) (by omega)]

/-- The loop in the words of the greatest number, which is ten times the threshold and the digit. -/
theorem decodedDigits_of_le {n : ℕ} (h : n ≤ 10 * threshold + lastDigitThreshold)
    (hpos : 0 < threshold) (hd : lastDigitThreshold < 10)
    (hmax : 10 * threshold + lastDigitThreshold < 2 ^ 64) :
    decodedDigits threshold lastDigitThreshold n = some n := by
  unfold decodedDigits
  split_ifs with h1 h2
  · rfl
  · omega
  · rw [Nat.mod_eq_of_lt (by omega)]

theorem decodedDigits_of_lt {n : ℕ} (h : 10 * threshold + lastDigitThreshold < n) :
    decodedDigits threshold lastDigitThreshold n =
      if n < 100 * threshold ∧ n % 10 ≤ lastDigitThreshold then some (n % 2 ^ 64) else none := by
  rw [decodedDigits, if_neg (by omega)]
  split_ifs <;> first | rfl | omega

theorem any_double_digits {digits : List Char} (h : ∀ c ∈ digits, c.isDigit) :
    (digits.any fun c => c ∈ ['.', 'e', 'E', '+'] || c = '-') = false := by
  refine List.any_eq_false.mpr fun c hc hd => ?_
  simp only [List.mem_cons, List.not_mem_nil, or_false, Bool.or_eq_true, decide_eq_true_eq] at hd
  rcases hd with (rfl | rfl | rfl | rfl) | rfl <;> exact absurd (h _ hc) (by decide)

theorem isDouble_digits {digits : List Char} (h : ∀ c ∈ digits, c.isDigit) :
    isDouble digits = false := by
  rcases digits with _ | ⟨c, digits⟩
  · rfl
  · have hc : ([c].any fun c => c ∈ ['.', 'e', 'E', '+'] || c = '-') = false :=
      any_double_digits (by simpa using h c (by simp))
    simp only [List.any_cons, List.any_nil, Bool.or_false, Bool.or_eq_false_iff] at hc
    rw [isDouble, hc.1, any_double_digits (List.forall_mem_cons.mp h).2]
    rfl

theorem isDouble_minus {digits : List Char} (h : ∀ c ∈ digits, c.isDigit) :
    isDouble ('-' :: digits) = false := by
  rw [isDouble, any_double_digits h]
  rfl

/-- Whether the loop lets a number pass that is too great: its last digit but one is where the
threshold is reached, and its last is not greater than that of the greatest number. -/
def PassesThreshold (negative : Bool) (n : ℕ) : Prop :=
  if negative then n < 100 * (2 ^ 63 / 10) ∧ n % 10 ≤ 2 ^ 63 % 10
  else n < 100 * ((2 ^ 64 - 1) / 10) ∧ n % 10 ≤ (2 ^ 64 - 1) % 10

instance (negative : Bool) (n : ℕ) : Decidable (PassesThreshold negative n) := by
  unfold PassesThreshold
  infer_instance

/-- What 64 bits keep of a number that passes. -/
def wrapped (negative : Bool) (n : ℕ) : ℤ :=
  if negative then (-(n : ℤ)).bmod (2 ^ 64) else (n % 2 ^ 64 : ℕ)

variable {sscanf : List Char → Option ℚ}

theorem decodeNumber_natural {digits : List Char} (hne : digits ≠ [])
    (hdigits : ∀ c ∈ digits, c.isDigit) (htext : token.text = digits) :
    decodeNumber sscanf token =
      match decodedDigits ((2 ^ 64 - 1) / 10) ((2 ^ 64 - 1) % 10)
        (Nat.ofDigitChars 10 digits 0) with
      | none => decodeDouble sscanf token
      | some n => .ok (.int n) := by
  have hhead : ¬ digits.head? = some '-' := fun h =>
    absurd (hdigits '-' (List.mem_of_mem_head? h)) (by decide)
  simp only [decodeNumber, htext, hhead, if_false, isDouble_digits hdigits, Bool.false_eq_true]
  rw [decodeDigits_eq (by decide) digits hne hdigits (by decide)]
  rcases decodedDigits ((2 ^ 64 - 1) / 10) ((2 ^ 64 - 1) % 10) _ with _ | n <;> rfl

theorem decodeNumber_minus {digits : List Char} (hne : digits ≠ [])
    (hdigits : ∀ c ∈ digits, c.isDigit) (htext : token.text = '-' :: digits) :
    decodeNumber sscanf token =
      match decodedDigits (2 ^ 63 / 10) (2 ^ 63 % 10) (Nat.ofDigitChars 10 digits 0) with
      | none => decodeDouble sscanf token
      | some n => .ok (.int ((-(n : ℤ)).bmod (2 ^ 64))) := by
  simp only [decodeNumber, htext, isDouble_minus hdigits, Bool.false_eq_true, if_false,
    List.head?_cons, if_true, List.tail_cons]
  rw [decodeDigits_eq (by decide) digits hne hdigits (by decide)]
  rcases decodedDigits (2 ^ 63 / 10) (2 ^ 63 % 10) _ with _ | n
  · rfl
  · simp only [Int.bmod_neg_bmod]

/-- An integer is read as it is where 64 bits have it, with its sign or without one. Of the others
some are read as what 64 bits keep of them, and the rest as doubles. -/
theorem decodeNumber_integer {negative : Bool} {digits : List Char} (hne : digits ≠ [])
    (hdigits : ∀ c ∈ digits, c.isDigit) (htext : token.text = integerText negative digits) :
    decodeNumber sscanf token =
      if -2 ^ 63 ≤ integerValue negative digits ∧ integerValue negative digits < 2 ^ 64 then
        .ok (.int (integerValue negative digits))
      else if PassesThreshold negative (Nat.ofDigitChars 10 digits 0) then
        .ok (.int (wrapped negative (Nat.ofDigitChars 10 digits 0)))
      else decodeDouble sscanf token := by
  cases negative with
  | false =>
    rw [decodeNumber_natural hne hdigits htext]
    simp only [integerValue, PassesThreshold, wrapped, Bool.false_eq_true, if_false]
    generalize Nat.ofDigitChars 10 digits 0 = n
    by_cases hn : n ≤ 10 * ((2 ^ 64 - 1) / 10) + (2 ^ 64 - 1) % 10
    · rw [decodedDigits_of_le hn (by decide) (by decide) (by decide), if_pos (by omega)]
    · have hrange : ¬ (-2 ^ 63 ≤ (n : ℤ) ∧ (n : ℤ) < 2 ^ 64) := by omega
      rw [decodedDigits_of_lt (by omega), if_neg hrange]
      split_ifs <;> rfl
  | true =>
    rw [decodeNumber_minus hne hdigits htext]
    simp only [integerValue, PassesThreshold, wrapped, if_true]
    generalize Nat.ofDigitChars 10 digits 0 = n
    by_cases hn : n ≤ 10 * (2 ^ 63 / 10) + 2 ^ 63 % 10
    · rw [decodedDigits_of_le hn (by decide) (by decide) (by decide), if_pos (by omega)]
      simp only []
      rw [Int.bmod_eq_of_le (by omega) (by omega)]
    · have hrange : ¬ (-2 ^ 63 ≤ -(n : ℤ) ∧ -(n : ℤ) < 2 ^ 64) := by omega
      rw [decodedDigits_of_lt (by omega), if_neg hrange]
      split_ifs
      · have hcast : ((n % 2 ^ 64 : ℕ) : ℤ) = (n : ℤ) % (2 ^ 64 : ℕ) := by omega
        simp only [hcast]
        rw [← Int.bmod_neg_bmod, Int.emod_bmod, Int.bmod_neg_bmod]
      · rfl

end Reader

namespace Writer

open Reader

theorem digitChar_eq {d : ℕ} (h : d < 10) : Char.ofNat (d + '0'.toNat) = d.digitChar := by
  interval_cases d <;> rfl

/-- The loop makes the digits of the number. -/
theorem uintToString_eq (value : ℕ) (current : List Char) :
    uintToString value current = Nat.toDigits 10 value ++ current := by
  induction value using Nat.strong_induction_on generalizing current with
  | _ value ih =>
    have hchar := digitChar_eq (Nat.mod_lt value (by decide : 0 < 10))
    rw [uintToString, hchar]
    split_ifs with h
    · have hlt : value < 10 := by omega
      rw [Nat.toDigits_of_lt_base hlt, Nat.mod_eq_of_lt hlt, List.singleton_append]
    · have hdigits := Nat.toDigits_of_base_le (b := 10) (n := value) (by decide) (by omega)
      rw [ih _ (by omega), hdigits, List.append_assoc, List.singleton_append]

theorem valueToString_eq (value : ℤ) :
    valueToString value = integerText (value < 0) (Nat.toDigits 10 value.natAbs) := by
  unfold valueToString integerText
  by_cases h : value < 0
  · have habs : (-value).toNat = value.natAbs := by omega
    simp [h, uintToString_eq, habs]
  · have habs : value.toNat = value.natAbs := by omega
    simp [h, uintToString_eq, habs]

theorem isDigit_toDigits (n : ℕ) : ∀ c ∈ Nat.toDigits 10 n, c.isDigit := fun _ hc =>
  Nat.isDigit_of_mem_toDigits (by decide) (by decide) hc

theorem integerValue_toDigits (value : ℤ) :
    integerValue (value < 0) (Nat.toDigits 10 value.natAbs) = value := by
  simp only [integerValue, Nat.ofDigitChars_ten_toDigits, decide_eq_true_eq]
  split_ifs <;> omega

end Writer

end LcxlNetLoader
