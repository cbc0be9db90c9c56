import LcxlNetLoader.Proofs.JsonReader

/-!
# Errors, and the lines and columns that they name

The line of a location is one more than the line ends before it, where a carriage return with a line
feed is one, and its column is one more than the characters since. Between the two the loop is past
the location, which has column zero.
-/

namespace LcxlNetLoader

open Json

namespace Reader

def isLineEnd (c : Char) : Bool := c = '\r' || c = '\n'

/-- The line ends of a text. -/
def lineEnds : List Char → ℕ
  | [] => 0
  | '\r' :: '\n' :: text => lineEnds text + 1
  | c :: text => (if isLineEnd c then 1 else 0) + lineEnds text

/-- The characters since the last line end, after others. -/
def sinceLineEnd (n : ℕ) (text : List Char) : ℕ :=
  text.foldl (fun n c => if isLineEnd c then 0 else n + 1) n

/-- The location is in the middle of a line end. -/
def Straddles (before : List Char) (location : Location) : Prop :=
  before.getLast? = some '\r' ∧ location.head? = some '\n'

instance (before : List Char) (location : Location) : Decidable (Straddles before location) :=
  inferInstanceAs (Decidable (_ ∧ _))

theorem not_straddles_nil (location : Location) : ¬ Straddles [] location :=
  fun h => absurd h.1 (by simp)

theorem straddles_cons {c d : Char} {before : List Char} {location : Location} :
    Straddles (c :: d :: before) location ↔ Straddles (d :: before) location := by
  rw [Straddles, Straddles, List.getLast?_cons_cons]

/-- The loop ends at the location, and where it is past it. -/
theorem lastLine_of_le {location current : Location} (h : current.length ≤ location.length)
    (lastLineStart : Location) (line : ℕ) :
    lastLine location current lastLineStart line = (lastLineStart, line) := by
  unfold lastLine
  split
  · rfl
  · exact if_pos h
  · exact if_pos h

/-- A round that does not meet both characters of a line end. -/
theorem lastLine_cons {location current : Location} {c : Char}
    (hc : ¬ (c = '\r' ∧ current.head? = some '\n')) (h : location.length ≤ current.length)
    (lastLineStart : Location) (line : ℕ) :
    lastLine location (c :: current) lastLineStart line =
      if isLineEnd c then lastLine location current current (line + 1)
      else lastLine location current lastLineStart line := by
  have hnot : ¬ current.length + 1 ≤ location.length := by omega
  rw [lastLine]
  · rw [if_neg hnot]
    simp [isLineEnd]
  · rintro l rfl rfl
    exact hc ⟨rfl, rfl⟩

/-- The loop from a place before the location, `n` characters behind the start of the last line. -/
theorem lastLine_eq (location : Location) :
    ∀ (before : List Char) (lastLineStart : Location) (line n : ℕ),
      lastLineStart.length = n + (before ++ location).length →
      (lastLine location (before ++ location) lastLineStart line).2 = line + lineEnds before ∧
        ((lastLine location (before ++ location) lastLineStart line).1.length : ℤ) =
          location.length + if Straddles before location then -1 else (sinceLineEnd n before : ℤ)
  | [], lastLineStart, line, n, h => by
    rw [List.nil_append] at h ⊢
    rw [lastLine_of_le le_rfl, if_neg (not_straddles_nil location)]
    exact ⟨rfl, by rw [h, sinceLineEnd, List.foldl_nil]; push_cast; ring⟩
  | c :: before, lastLineStart, line, n, h => by
    by_cases hc : c = '\r' ∧ (before ++ location).head? = some '\n'
    · obtain ⟨rfl, hhead⟩ := hc
      rcases before with _ | ⟨d, before⟩
      -- the line end is on both sides of the location: the loop goes past it
      · rcases location with _ | ⟨d, rest⟩
        · exact absurd hhead (by simp)
        obtain rfl : d = '\n' := by simpa using hhead
        have hround : lastLine ('\n' :: rest) (['\r'] ++ '\n' :: rest) lastLineStart line =
            (rest, line + 1) := by
          rw [List.singleton_append, lastLine, if_neg (by simp), lastLine_of_le (by simp)]
        rw [hround, if_pos ⟨rfl, rfl⟩]
        exact ⟨rfl, by rw [List.length_cons]; push_cast; ring⟩
      · obtain rfl : d = '\n' := by simpa using hhead
        obtain ⟨hline, hstart⟩ := lastLine_eq location before (before ++ location) (line + 1) 0
          (Nat.zero_add _).symm
        have hstraddles : Straddles ('\r' :: '\n' :: before) location ↔
            Straddles before location := by
          rw [straddles_cons]
          rcases before with _ | ⟨d, before⟩
          · exact iff_of_false (fun h => absurd h.1 (by decide)) (not_straddles_nil location)
          · exact straddles_cons
        have hround : lastLine location ('\r' :: '\n' :: before ++ location) lastLineStart line =
            lastLine location (before ++ location) (before ++ location) (line + 1) := by
          rw [List.cons_append, List.cons_append, lastLine, if_neg]
          rw [List.length_append]
          omega
        rw [hround, hline, hstart, if_congr hstraddles rfl rfl, lineEnds]
        exact ⟨by omega, rfl⟩
    · have hstraddles : Straddles (c :: before) location ↔ Straddles before location := by
        rcases before with _ | ⟨d, before⟩
        · refine iff_of_false (fun h => hc ⟨?_, h.2⟩) (not_straddles_nil location)
          simpa using h.1
        · exact straddles_cons
      have hends : lineEnds (c :: before) = (if isLineEnd c then 1 else 0) + lineEnds before := by
        rw [lineEnds]
        rintro l rfl rfl
        exact hc ⟨rfl, rfl⟩
      have hsince : sinceLineEnd n (c :: before) =
          sinceLineEnd (if isLineEnd c then 0 else n + 1) before := rfl
      rw [List.cons_append, lastLine_cons hc (by simp), if_congr hstraddles rfl rfl, hends, hsince]
      by_cases hend : isLineEnd c = true
      · obtain ⟨hline, hstart⟩ := lastLine_eq location before (before ++ location) (line + 1) 0
          (Nat.zero_add _).symm
        rw [if_pos hend, if_pos hend, if_pos hend]
        exact ⟨by omega, hstart⟩
      · obtain ⟨hline, hstart⟩ := lastLine_eq location before lastLineStart line (n + 1)
          (by rw [h, List.cons_append, List.length_cons]; omega)
        rw [if_neg hend, if_neg hend, if_neg hend]
        exact ⟨by omega, hstart⟩

/-- The line and the column of a location. -/
theorem getLocationLineAndColumn_eq (before : List Char) (location : Location) :
    getLocationLineAndColumn (before ++ location) location =
      (lineEnds before + 1,
        if Straddles before location then 0 else (sinceLineEnd 0 before : ℤ) + 1) := by
  obtain ⟨hline, hstart⟩ := lastLine_eq location before (before ++ location) 0 0
    (Nat.zero_add _).symm
  unfold getLocationLineAndColumn
  refine Prod.ext ?_ ?_
  · show (lastLine location (before ++ location) (before ++ location) 0).2 + 1 = lineEnds before + 1
    rw [hline, Nat.zero_add]
  · show ((lastLine location (before ++ location) (before ++ location) 0).1.length : ℤ) -
      location.length + 1 = _
    rw [hstart]
    split_ifs <;> ring

/-- The error is about a token of the document, and names its line and its column. Only what it
points into may be in the middle of a line end. -/
structure Located (document : List Char) (e : ErrorInfo) : Prop where
  token : ∃ before, document = before ++ e.token.start ∧
    getLocationLineAndColumn document e.token.start =
      (lineEnds before + 1, (sinceLineEnd 0 before : ℤ) + 1)
  extra : ∀ extra ∈ e.extra, ∃ before, document = before ++ extra ∧
    getLocationLineAndColumn document extra =
      (lineEnds before + 1,
        if Straddles before extra then 0 else (sinceLineEnd 0 before : ℤ) + 1)

theorem Within.located {document : List Char} {e : ErrorInfo} (h : Within e document) :
    Located document e := by
  refine ⟨?_, fun extra hextra => ?_⟩
  · obtain ⟨before, rfl⟩ := h.start
    refine ⟨before, rfl, ?_⟩
    have hnot : ¬ Straddles before e.token.start := fun hs => absurd (h.head _ hs.2) (by decide)
    rw [getLocationLineAndColumn_eq, if_neg hnot]
  · obtain ⟨before, rfl⟩ := (h.extra extra hextra).trans h.start
    exact ⟨before, rfl, getLocationLineAndColumn_eq before extra⟩

theorem rootError_located (document : List Char) : Located document (rootError document) := by
  refine ⟨⟨[], rfl, ?_⟩, fun extra hextra => absurd hextra (by simp [rootError])⟩
  exact (getLocationLineAndColumn_eq [] document).trans (by rw [if_neg (not_straddles_nil _)])

variable {sscanf : List Char → Option ℚ} {features : Features}

/-- Whatever the document and the root, the reader comes to an end. It is successful just where it
has added no error, and adds one where it fails, or two where the root is not what strictness wants.
Each names the line and the column of a token of the document. What is left as the root is held. -/
theorem parse_outcome (document : List Char) {root : Value} (hroot : Held root) :
    ∃ p, parse sscanf features document root = some p ∧ Held p.root ∧
      (p.successful = true ↔ p.errors = []) ∧
      p.errors.length ≤ (if features.strictRoot then 2 else 1) ∧
      ∀ e ∈ p.errors, Located document e := by
  obtain ⟨p, hp, hheld, hiff, errors, hlength, hwithin, herrors⟩ :
      ∃ p, parse sscanf features document root = some p ∧ Held p.root ∧
        (p.successful = true ↔ p.errors = []) ∧
        ∃ errors : List ErrorInfo, errors.length ≤ 1 ∧ (∀ e ∈ errors, Within e document) ∧
          p.errors = if features.strictRoot ∧ ¬ isArrayOrObject p.root then
            errors ++ [rootError document] else errors := parse_sound document hroot
  refine ⟨p, hp, hheld, hiff, ?_, fun e he => ?_⟩
  · rw [herrors]
    split_ifs with h1 h2 h2
    · simpa using hlength
    · exact absurd h1.1 h2
    · omega
    · exact hlength
  · rw [herrors] at he
    split_ifs at he with hstrict
    · rcases List.mem_append.mp he with he | he
      · exact (hwithin e he).located
      · rw [List.mem_singleton.mp he]
        exact rootError_located document
    · exact (hwithin e he).located

theorem parse_outcome_null : ∃ p,
    parse (fun _ => none) Features.strictMode "[1,\r\n?".toList .null = some p ∧ Held p.root ∧
      (p.successful = true ↔ p.errors = []) ∧ p.errors.length ≤ 2 ∧
      ∀ e ∈ p.errors, Located "[1,\r\n?".toList e := by
  have hroot : Held .null := trivial
  exact parse_outcome _ hroot

end Reader

end LcxlNetLoader
