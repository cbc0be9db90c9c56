import LcxlNetLoader.Proofs.JsonText

/-!
# Documents, written and read back

What is written of a value is read as the value, with its members by key. So whatever document was
read, what is written of its root is read as the root again. A document that is an integer is read
as the number where 64 bits have it, and otherwise never as the number.
-/

namespace LcxlNetLoader

open Json Reader Writer

variable {sscanf : List Char → Option ℚ} {sprintf : ℚ → List Char} {yaml : Bool}
  {features : Features}

theorem parse_of_readValue {document : List Char} {root : Value} {r : Reading}
    (h : readValue sscanf features (2 * document.length + 2) root ⟨document, []⟩ = some r)
    (hroot : features.strictRoot = true → isArrayOrObject r.value = true) :
    parse sscanf features document root = some ⟨r.successful, r.value, r.state.errors⟩ := by
  have hstrict : ¬ (features.strictRoot = true ∧ ¬ isArrayOrObject r.value = true) :=
    fun hs => hs.2 (hroot hs.1)
  simp only [parse, h, Option.bind_eq_bind, Option.bind_some, if_neg hstrict]
  rfl

/-- A value that can be held is written as a text that is read as it, with its members by key. -/
theorem parse_write {v : Value} (h : Holdable v)
    (hreals : ∀ x ∈ reals (inOrder v), Prints sscanf sprintf x) (root : Value)
    (hroot : features.strictRoot = true → isArrayOrObject (inOrder v) = true) :
    parse sscanf features (write sprintf yaml v) root = some ⟨true, inOrder v, []⟩ := by
  obtain ⟨rest, hread⟩ := readValue_written (held_inOrder h) hreals yaml root
  exact parse_of_readValue hread hroot

theorem parse_write_reply :
    parse (fun _ => none) Features.all
        (write (fun _ => []) false (.object [("status", .int 1), ("code", .int 0)])) .null =
      some ⟨true, .object [("code", .int 0), ("status", .int 1)], []⟩ := by
  have hholds : Holdable (.object [("status", .int 1), ("code", .int 0)]) :=
    ⟨⟨by decide, by norm_num, by norm_num⟩, ⟨by decide, by norm_num, by norm_num⟩, trivial⟩
  have hreals : ∀ x ∈ reals (inOrder (.object [("status", .int 1), ("code", .int 0)])),
      Prints (fun _ => none) (fun _ => []) x := fun x hx => absurd hx List.not_mem_nil
  exact parse_write hholds hreals .null fun h => absurd h Bool.false_ne_true

/-- What a reader that was successful has read of a document. -/
theorem readValue_of_parse {document : List Char} {root : Value} {p : Parsed}
    (hp : parse sscanf features document root = some p) (hok : p.successful = true) :
    (∃ r, readValue sscanf features (2 * document.length + 2) root ⟨document, []⟩ = some r ∧
      r.value = p.root)
      ∧ (features.strictRoot = true → isArrayOrObject p.root = true) := by
  simp only [parse, Option.bind_eq_bind, Option.bind_eq_some_iff] at hp
  obtain ⟨r, hr, hp⟩ := hp
  split_ifs at hp with hstrict
  · rw [← Option.some.inj hp] at hok
    exact absurd hok Bool.false_ne_true
  · obtain rfl := (Option.some.inj hp).symm
    refine ⟨⟨r, hr, rfl⟩, fun hs => ?_⟩
    by_contra hroot
    exact hstrict ⟨hs, hroot⟩

/-- What is written of the root of a document that was read is read as that root, and is what is
written of it again. -/
theorem parse_rewritten {document : List Char} {root : Value} (hroot : Held root) {p : Parsed}
    (hp : parse sscanf features document root = some p) (hok : p.successful = true)
    (hreals : ∀ x ∈ reals p.root, Prints sscanf sprintf x) (root' : Value) :
    parse sscanf features (write sprintf yaml p.root) root' = some ⟨true, p.root, []⟩ := by
  obtain ⟨⟨r, hr, hvalue⟩, hstrict⟩ := readValue_of_parse hp hok
  obtain ⟨r', hr', hsound⟩ := readValue_sound (2 * document.length + 2) root ⟨document, []⟩ hroot
    (by simp)
  have hheld : Held p.root := by
    rw [← hvalue, Option.some.inj (hr.symm.trans hr')]
    exact hsound.held
  obtain ⟨rest, hread⟩ := readValue_written hheld hreals yaml root'
  rw [write, inOrder_eq_self hheld]
  exact parse_of_readValue hread hstrict

/-- Spaces and what is behind the root are gone from what is written. -/
theorem parse_rewritten_array :
    parse (fun _ => none) Features.all
        (write (fun _ => []) false (.array [.int 1, .int 2])) .null =
      some ⟨true, .array [.int 1, .int 2], []⟩ := by
  have hread : parse (fun _ => none) Features.all " [ 1,2 ] x".toList .null =
      some ⟨true, .array [.int 1, .int 2], []⟩ := rfl
  have hreals : ∀ x ∈ reals (.array [.int 1, .int 2]), Prints (fun _ => none) (fun _ => []) x :=
    fun x hx => absurd hx List.not_mem_nil
  have hroot : Held .null := trivial
  exact parse_rewritten hroot hread rfl hreals .null

theorem readValue_integer {negative : Bool} {digits : List Char} (hne : digits ≠ [])
    (hdigits : ∀ c ∈ digits, c.isDigit) (fuel : ℕ) (root : Value) :
    readValue sscanf features (fuel + 1) root ⟨integerText negative digits, []⟩ =
      some (ofDecoded root ⟨[], []⟩
        (decodeNumber sscanf ⟨.number, integerText negative digits, []⟩)) := by
  have ht : readToken (integerText negative digits ++ []) =
      ⟨.number, integerText negative digits ++ [], []⟩ := readToken_integer hne hdigits stops_nil
  rw [List.append_nil] at ht
  simp only [readValue, skipCommentTokens_of ht (by decide)]

/-- No integer that 64 bits do not have is kept by them. -/
theorem wrapped_ne {negative : Bool} {digits : List Char}
    (h : ¬ (-2 ^ 63 ≤ integerValue negative digits ∧ integerValue negative digits < 2 ^ 64)) :
    wrapped negative (Nat.ofDigitChars 10 digits 0) ≠ integerValue negative digits := by
  unfold wrapped integerValue at *
  generalize Nat.ofDigitChars 10 digits 0 = n at *
  cases negative with
  | false =>
    simp only [Bool.false_eq_true, if_false] at *
    omega
  | true =>
    have hlt := Int.bmod_lt (x := -(n : ℤ)) (m := 2 ^ 64) (by decide)
    have hle := Int.le_bmod (x := -(n : ℤ)) (m := 2 ^ 64) (by decide)
    simp only [if_true] at *
    omega

end LcxlNetLoader
