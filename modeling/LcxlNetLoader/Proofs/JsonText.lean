import Mathlib.Data.List.DropRight
import LcxlNetLoader.Proofs.JsonNumbers
import LcxlNetLoader.Proofs.JsonStrings

/-!
# Every JSON text is read as its value

A value within a text is read up to the spaces behind it (`readValue_body`), by induction on the
tree that the text is derived from: the loops of arrays and objects go from one part to the next.
What the writer writes is such a text (`exists_syntax`), so that it is read as what was written.
-/

namespace LcxlNetLoader

open Json

namespace Reader

theorem isSpace_of_mem (sp : Space) : ∀ c ∈ sp.text, isSpace c = true := by
  intro c hc
  rcases sp.spaces c hc with rfl | rfl | rfl | rfl <;> rfl

theorem skipSpaces_space (sp : Space) (rest : Location) :
    skipSpaces (sp.text ++ rest) = skipSpaces rest :=
  List.dropWhile_append_of_pos (isSpace_of_mem sp)

theorem readToken_space (sp : Space) (rest : Location) :
    readToken (sp.text ++ rest) = readToken rest := by
  rw [readToken, skipSpaces_space, readToken]

theorem readToken_skipSpaces (current : Location) :
    readToken (skipSpaces current) = readToken current := by
  rw [readToken, readToken, skipSpaces, skipSpaces, List.dropWhile_idempotent]

theorem nextToken_of {current start stop : Location} {type : TokenType}
    (h : readToken current = ⟨type, start, stop⟩) (hne : type ≠ .comment) :
    nextToken current = ⟨type, start, stop⟩ := by
  rw [nextToken_eq, h, if_neg hne]

theorem skipCommentTokens_of {features : Features} {current start stop : Location}
    {type : TokenType} (h : readToken current = ⟨type, start, stop⟩) (hne : type ≠ .comment) :
    skipCommentTokens features current = ⟨type, start, stop⟩ := by
  unfold skipCommentTokens
  split_ifs
  · exact nextToken_of h hne
  · exact h

/-- What may follow a number: no character that would go on with it. -/
def Stops (rest : Location) : Prop := ∀ c ∈ rest.head?, isNumberChar c = false

theorem stops_space (sp : Space) {rest : Location} (h : Stops rest) : Stops (sp.text ++ rest) := by
  intro c hc
  rcases hsp : sp.text with _ | ⟨d, l⟩ <;> rw [hsp] at hc
  · exact h c hc
  · have hd := sp.spaces d (by rw [hsp]; exact List.mem_cons_self ..)
    obtain rfl : d = c := by simpa using hc
    rcases hd with rfl | rfl | rfl | rfl <;> rfl

theorem stops_nil : Stops [] := fun _ hc => absurd hc (by simp)

theorem dropWhile_number {text : List Char} (htext : ∀ c ∈ text, isNumberChar c = true)
    {rest : Location} (hrest : Stops rest) : readNumber (text ++ rest) = rest := by
  rw [readNumber, List.dropWhile_append_of_pos htext]
  rcases rest with _ | ⟨c, rest⟩
  · rfl
  · exact List.dropWhile_cons_of_neg (by simp [hrest c rfl])

theorem isNumberChar_of {c : Char} (h : IsNumberChar c) : isNumberChar c = true := by
  unfold isNumberChar
  rcases h with h | h
  · obtain ⟨h0, h9⟩ := isDigit_iff.mp h
    simp [h0, h9]
  · simp only [List.mem_cons, List.not_mem_nil, or_false] at h
    rcases h with rfl | rfl | rfl | rfl | rfl <;> rfl

theorem digit_cases {c : Char} (h : c.isDigit) : ∃ n < 10, c = Char.ofNat (n + 48) := by
  simp only [Char.isDigit, Bool.and_eq_true, decide_eq_true_eq, ge_iff_le,
    UInt32.le_iff_toNat_le] at h
  have h0 : 48 ≤ c.toNat := h.1
  have h9 : c.toNat ≤ 57 := h.2
  refine ⟨c.toNat - 48, by omega, ?_⟩
  rw [Nat.sub_add_cancel h0, Char.ofNat_toNat]

theorem readToken_number {c : Char} (h : c.isDigit ∨ c = '-') (current : Location) :
    readToken (c :: current) = ⟨.number, c :: current, readNumber current⟩ := by
  rcases h with h | rfl
  · obtain ⟨n, hn, rfl⟩ := digit_cases h
    interval_cases n <;> rfl
  · rfl

theorem Token.text_append (type : TokenType) (text rest : List Char) :
    (Token.mk type (text ++ rest) rest).text = text := by
  simp [Token.text]

variable {sscanf : List Char → Option ℚ} {features : Features}

theorem isDouble_fraction {text : List Char} (h : IsFraction text) : isDouble text = true := by
  obtain ⟨c, l, rfl, -, d, hd, hdigit⟩ := h.head
  rw [isDouble, Bool.or_eq_true, List.any_eq_true]
  refine .inr ⟨d, hd, ?_⟩
  rcases h.chars d (List.mem_cons_of_mem _ hd) with h | h
  · exact absurd h hdigit
  · simp only [List.mem_cons, List.not_mem_nil, or_false] at h
    rcases h with rfl | rfl | rfl | rfl | rfl <;> rfl

theorem decodeNumber_fraction {token : Token} {text : List Char} {x : ℚ} (htext : IsFraction text)
    (hx : sscanf text = some x) (h : token.text = text) :
    decodeNumber sscanf token = .ok (.real x) := by
  rw [decodeNumber, h, if_pos (isDouble_fraction htext), decodeDouble, h, hx]

theorem readToken_integer {negative : Bool} {digits : List Char} (hne : digits ≠ [])
    (hdigits : ∀ c ∈ digits, c.isDigit) {rest : Location} (hrest : Stops rest) :
    readToken (integerText negative digits ++ rest) =
      ⟨.number, integerText negative digits ++ rest, rest⟩ := by
  have hchars : ∀ c ∈ digits, isNumberChar c = true := fun c hc =>
    isNumberChar_of (.inl (hdigits c hc))
  cases negative with
  | true =>
    show readToken ('-' :: (digits ++ rest)) = _
    rw [readToken_number (.inr rfl), dropWhile_number hchars hrest]
    rfl
  | false =>
    rcases digits with _ | ⟨c, digits⟩
    · exact absurd rfl hne
    · show readToken (c :: (digits ++ rest)) = _
      rw [readToken_number (.inl (hdigits c (List.mem_cons_self ..))),
        dropWhile_number (fun d hd => hchars d (List.mem_cons_of_mem _ hd)) hrest]
      rfl

theorem readToken_fraction {text : List Char} (htext : IsFraction text) {rest : Location}
    (hrest : Stops rest) : readToken (text ++ rest) = ⟨.number, text ++ rest, rest⟩ := by
  have hchars : ∀ c ∈ text, isNumberChar c = true := fun c hc => isNumberChar_of (htext.chars c hc)
  obtain ⟨c, l, rfl, hc, -⟩ := htext.head
  rw [List.cons_append, readToken_number hc,
    dropWhile_number (fun d hd => hchars d (List.mem_cons_of_mem _ hd)) hrest]

/-- Between the spaces before it and what may follow a number, a text without parts is read. -/
theorem readValue_atom (fuel : ℕ) (old : Value) (before : Space) (a : Atom sscanf)
    {rest : Location} (hrest : Stops rest) (errors : List ErrorInfo) :
    readValue sscanf features (fuel + 1) old ⟨before.text ++ (a.text ++ rest), errors⟩ =
      some ⟨true, a.value cString, ⟨rest, errors⟩⟩ := by
  have hskip : ∀ type, type ≠ .comment → readToken (a.text ++ rest) = ⟨type, a.text ++ rest, rest⟩ →
      skipCommentTokens features (before.text ++ (a.text ++ rest)) =
        ⟨type, a.text ++ rest, rest⟩ := by
    intro type hne h
    exact skipCommentTokens_of ((readToken_space before (a.text ++ rest)).trans h) hne
  cases a with
  | null => simp only [readValue, hskip .null (by decide) rfl, Atom.value]
  | bool b =>
    cases b with
    | false => simp only [readValue, hskip .false (by decide) rfl, Atom.value]
    | true => simp only [readValue, hskip .true (by decide) rfl, Atom.value]
  | integer negative digits hdigits hvalue =>
    have ht := hskip .number (by decide) (readToken_integer hdigits.1 hdigits.2 hrest)
    simp only [readValue, ht]
    rw [Atom.text, decodeNumber_integer hdigits.1 hdigits.2
      (Token.text_append .number (integerText negative digits) rest), if_pos hvalue]
    rfl
  | fraction text x htext hx =>
    have ht := hskip .number (by decide) (readToken_fraction htext hrest)
    simp only [readValue, ht]
    rw [Atom.text, decodeNumber_fraction htext hx (Token.text_append .number text rest)]
    rfl
  | string pieces =>
    have ht := hskip .string (by decide) (tokenAt_quoted pieces rest)
    simp only [readValue, ht]
    have hdecode : decodeString ⟨.string, quoted pieces ++ rest, rest⟩ = .ok (piecesBytes pieces) :=
      decodeString_pieces pieces rfl
    rw [Atom.text, hdecode]
    rfl

theorem nextToken_congr {current current' : Location}
    (h : readToken current = readToken current') : nextToken current = nextToken current' := by
  rw [nextToken_eq, nextToken_eq current', h]

theorem readValue_skipSpaces (fuel : ℕ) (old : Value) (current : Location)
    (errors : List ErrorInfo) :
    readValue sscanf features fuel old ⟨skipSpaces current, errors⟩ =
      readValue sscanf features fuel old ⟨current, errors⟩ := by
  have hskip : skipCommentTokens features (skipSpaces current) =
      skipCommentTokens features current := by
    unfold skipCommentTokens
    rw [readToken_skipSpaces, nextToken_congr (readToken_skipSpaces current)]
  cases fuel with
  | zero => rfl
  | succ fuel => simp only [readValue, hskip]

theorem atom_head (a : Atom sscanf) :
    ∃ c l, a.text = c :: l ∧ isSpace c = false ∧ c ≠ ']' := by
  have hdigit : ∀ c : Char, c.isDigit ∨ c = '-' → isSpace c = false ∧ c ≠ ']' := by
    rintro c (h | rfl)
    · obtain ⟨n, hn, rfl⟩ := digit_cases h
      interval_cases n <;> decide
    · decide
  cases a with
  | null => exact ⟨'n', _, rfl, by decide⟩
  | bool b =>
    cases b with
    | false => exact ⟨'f', _, rfl, by decide⟩
    | true => exact ⟨'t', _, rfl, by decide⟩
  | integer negative digits hdigits hvalue =>
    cases negative with
    | true => exact ⟨'-', digits, rfl, by decide⟩
    | false =>
      rcases digits with _ | ⟨c, digits⟩
      · exact absurd rfl hdigits.1
      · exact ⟨c, digits, rfl, hdigit c (.inl (hdigits.2 c (List.mem_cons_self ..)))⟩
  | fraction text x htext hx =>
    obtain ⟨c, l, hcl, hc, -⟩ := htext.head
    exact ⟨c, l, hcl, hdigit c hc⟩
  | string pieces => exact ⟨'"', _, rfl, by decide⟩

theorem peek_body (v : Syntax sscanf) (rest : Location) :
    peek (skipSpaces (v.body ++ rest)) ≠ ']' := by
  cases v with
  | atom before a after =>
    obtain ⟨c, l, hcl, hspace, hc⟩ := atom_head a
    rw [Syntax.body, List.append_assoc, skipSpaces_space, hcl, List.cons_append, skipSpaces,
      List.dropWhile_cons_of_neg (by simp [hspace])]
    exact hc
  | array before inner elements after =>
    rw [Syntax.body, List.append_assoc, skipSpaces_space]
    exact fun h => absurd h (by decide : '[' ≠ ']')
  | object before inner members after =>
    rw [Syntax.body, List.append_assoc, skipSpaces_space]
    exact fun h => absurd h (by decide : '{' ≠ ']')

theorem stops_moreElements (vs : List (Syntax sscanf)) (rest : Location) :
    Stops (moreElements vs ++ rest) := by
  intro c hc
  cases vs with
  | nil =>
    obtain rfl : ']' = c := by simpa [moreElements] using hc
    rfl
  | cons v vs =>
    obtain rfl : ',' = c := by simpa [moreElements] using hc
    rfl

theorem stops_moreMembers (ms : List (Name × Syntax sscanf)) (rest : Location) :
    Stops (moreMembers ms ++ rest) := by
  intro c hc
  cases ms with
  | nil =>
    obtain rfl : '}' = c := by simpa [moreMembers] using hc
    rfl
  | cons m ms =>
    obtain ⟨name, v⟩ := m
    obtain rfl : ',' = c := by simpa [moreMembers] using hc
    rfl

/-- What a member's name is read as. -/
theorem nextToken_name (name : Name) (rest : Location) :
    nextToken (name.text ++ rest) =
      ⟨.string, quoted name.pieces ++ (name.after.text ++ rest), name.after.text ++ rest⟩ := by
  have ht := tokenAt_quoted name.pieces (name.after.text ++ rest)
  refine nextToken_of ?_ (by decide)
  rw [Name.text, List.append_assoc, readToken_space, List.append_assoc]
  exact ht

theorem readValue_array {current start stop : Location}
    (h : readToken current = ⟨.arrayBegin, start, stop⟩) (fuel : ℕ) (old : Value)
    (errors : List ErrorInfo) :
    readValue sscanf features (fuel + 1) old ⟨current, errors⟩ =
      if peek (skipSpaces stop) = ']' then
        some ⟨true, .array [], ⟨(readToken (skipSpaces stop)).stop, errors⟩⟩
      else readArray sscanf features fuel [] ⟨skipSpaces stop, errors⟩ := by
  simp only [readValue, skipCommentTokens_of h (by decide)]

theorem readValue_object {current start stop : Location}
    (h : readToken current = ⟨.objectBegin, start, stop⟩) (fuel : ℕ) (old : Value)
    (errors : List ErrorInfo) :
    readValue sscanf features (fuel + 1) old ⟨current, errors⟩ =
      readObject sscanf features fuel [] [] ⟨stop, errors⟩ := by
  simp only [readValue, skipCommentTokens_of h (by decide)]

section

variable {fuel : ℕ} {errors : List ErrorInfo} {v : Value} {current rest start stop : Location}

theorem readArray_skipSpaces (fuel : ℕ) (values : List Value) (current : Location) :
    readArray sscanf features fuel values ⟨skipSpaces current, errors⟩ =
      readArray sscanf features fuel values ⟨current, errors⟩ := by
  cases fuel with
  | zero => rfl
  | succ fuel => simp only [readArray, readValue_skipSpaces]

/-- One round of the loop of an array, behind a value that was read. -/
theorem readArray_round (values : List Value)
    (hv : readValue sscanf features fuel .null ⟨current, errors⟩ = some ⟨true, v, ⟨rest, errors⟩⟩) :
    (readToken rest = ⟨.arrayEnd, start, stop⟩ →
      readArray sscanf features (fuel + 1) values ⟨current, errors⟩ =
        some ⟨true, .array (values ++ [v]), ⟨stop, errors⟩⟩)
      ∧ (readToken rest = ⟨.arraySeparator, start, stop⟩ →
        readArray sscanf features (fuel + 1) values ⟨current, errors⟩ =
          readArray sscanf features fuel (values ++ [v]) ⟨stop, errors⟩) := by
  refine ⟨fun h => ?_, fun h => ?_⟩ <;>
    simp only [readArray, hv, nextToken_of h (by decide), not_true_eq_false, if_false, ne_eq,
      reduceCtorEq, not_false_eq_true, true_and, and_true, if_true]

/-- One round of the loop of an object, for a name and a value that were read. -/
theorem readObject_round (name : List Char) (members : List (String × Value)) (pieces : List Piece)
    {behind behind' start' : Location}
    (hname : nextToken current = ⟨.string, quoted pieces ++ behind, behind⟩)
    (hcolon : readToken behind = ⟨.memberSeparator, start', behind'⟩)
    (hv : ∀ old, readValue sscanf features fuel old ⟨behind', errors⟩ =
      some ⟨true, v, ⟨rest, errors⟩⟩) :
    (readToken rest = ⟨.objectEnd, start, stop⟩ →
      readObject sscanf features (fuel + 1) name members ⟨current, errors⟩ =
        some ⟨true, .object (setMember (cString (piecesBytes pieces)) v members),
          ⟨stop, errors⟩⟩)
      ∧ (readToken rest = ⟨.arraySeparator, start, stop⟩ →
        readObject sscanf features (fuel + 1) name members ⟨current, errors⟩ =
          readObject sscanf features fuel (piecesBytes pieces)
            (setMember (cString (piecesBytes pieces)) v members) ⟨stop, errors⟩) := by
  have hdecode : decodeString ⟨.string, quoted pieces ++ behind, behind⟩ =
      .ok (piecesBytes pieces) := decodeString_pieces pieces rfl
  refine ⟨fun h => ?_, fun h => ?_⟩ <;>
    simp only [readObject, hname, hdecode, hcolon, hv, h, nextToken_of h (by decide), ne_eq,
      reduceCtorEq, not_true_eq_false, not_false_eq_true, false_and, and_false, true_and, if_false,
      if_true]

end

mutual

theorem readValue_body : ∀ (v : Syntax sscanf) (fuel : ℕ) (old : Value) (rest : Location)
    (errors : List ErrorInfo), 2 * v.body.length + 1 ≤ fuel → Stops rest →
      readValue sscanf features fuel old ⟨v.body ++ rest, errors⟩ =
        some ⟨true, v.value cString, ⟨rest, errors⟩⟩
  | .atom before a after, fuel + 1, old, rest, errors, _, hrest => by
    rw [Syntax.body, List.append_assoc, Syntax.value]
    exact readValue_atom fuel old before a hrest errors
  | .array before inner elements after, fuel + 1, old, rest, errors, hfuel, hrest => by
    rw [Syntax.body, List.length_append, List.length_cons] at hfuel
    have ht : readToken (before.text ++ '[' :: (elementsBody inner elements ++ rest)) =
        ⟨.arrayBegin, '[' :: (elementsBody inner elements ++ rest),
          elementsBody inner elements ++ rest⟩ := readToken_space before _
    rw [Syntax.body, List.append_assoc, List.cons_append, Syntax.value, readValue_array ht]
    rcases elements with _ | ⟨v, vs⟩
    · have hskip : skipSpaces (elementsBody inner ([] : List (Syntax sscanf)) ++ rest) =
          ']' :: rest := by
        rw [elementsBody, List.append_assoc, skipSpaces_space]
        rfl
      rw [hskip]
      rfl
    · rw [elementsBody] at hfuel ⊢
      rw [List.append_assoc, List.append_assoc, if_neg (peek_body v _), readArray_skipSpaces]
      exact readArray_elements v vs fuel [] rest errors (by omega)
  | .object before inner members after, fuel + 1, old, rest, errors, hfuel, hrest => by
    rw [Syntax.body, List.length_append, List.length_cons] at hfuel
    have ht : readToken (before.text ++ '{' :: (membersBody inner members ++ rest)) =
        ⟨.objectBegin, '{' :: (membersBody inner members ++ rest),
          membersBody inner members ++ rest⟩ := readToken_space before _
    rw [Syntax.body, List.append_assoc, List.cons_append, Syntax.value, readValue_object ht]
    rcases members with _ | ⟨⟨name, v⟩, ms⟩
    · have hend : readToken (membersBody inner ([] : List (Name × Syntax sscanf)) ++ rest) =
          ⟨.objectEnd, '}' :: rest, rest⟩ := by
        rw [membersBody, List.append_assoc, readToken_space]
        rfl
      have hlen : (membersBody inner ([] : List (Name × Syntax sscanf))).length ≠ 0 := by
        simp [membersBody]
      obtain ⟨fuel, rfl⟩ : ∃ n, fuel = n + 1 := ⟨fuel - 1, by omega⟩
      simp only [readObject, nextToken_of hend (by decide), and_self, if_true, memberValues]
    · rw [membersBody] at hfuel ⊢
      rw [List.append_assoc, List.cons_append, List.append_assoc, List.append_assoc]
      exact readObject_members name v ms fuel [] [] rest errors (by omega)

theorem readArray_elements : ∀ (v : Syntax sscanf) (vs : List (Syntax sscanf)) (fuel : ℕ)
    (values : List Value) (rest : Location) (errors : List ErrorInfo),
      2 * (v.body ++ (v.after.text ++ moreElements vs)).length + 2 ≤ fuel →
      readArray sscanf features fuel values
          ⟨v.body ++ (v.after.text ++ (moreElements vs ++ rest)), errors⟩ =
        some ⟨true, .array (values ++ elementValues cString (v :: vs)), ⟨rest, errors⟩⟩
  | v, [], fuel + 1, values, rest, errors, hfuel => by
    rw [List.length_append] at hfuel
    have hv := readValue_body v fuel .null
      (v.after.text ++ (moreElements ([] : List (Syntax sscanf)) ++ rest)) errors (by omega)
      (stops_space _ (stops_moreElements _ rest))
    rw [elementValues, elementValues]
    exact (readArray_round values hv).1 (readToken_space v.after _)
  | v, v' :: vs, fuel + 1, values, rest, errors, hfuel => by
    rw [List.length_append, List.length_append, moreElements, List.length_cons] at hfuel
    have hv := readValue_body v fuel .null
      (v.after.text ++ (moreElements (v' :: vs) ++ rest)) errors (by omega)
      (stops_space _ (stops_moreElements _ rest))
    have hmore := readArray_elements v' vs fuel (values ++ [v.value cString]) rest errors (by omega)
    rw [List.append_assoc, List.singleton_append, ← List.append_assoc v'.after.text,
      ← List.append_assoc v'.body] at hmore
    exact ((readArray_round values hv).2 (readToken_space v.after _)).trans hmore

theorem readObject_members : ∀ (name : Name) (v : Syntax sscanf) (ms : List (Name × Syntax sscanf))
    (fuel : ℕ) (last : List Char) (members : List (String × Value)) (rest : Location)
    (errors : List ErrorInfo),
      2 * (name.text ++ ':' :: (v.body ++ (v.after.text ++ moreMembers ms))).length + 2 ≤ fuel →
      readObject sscanf features fuel last members
          ⟨name.text ++ ':' :: (v.body ++ (v.after.text ++ (moreMembers ms ++ rest))), errors⟩ =
        some ⟨true, .object (memberValues cString members ((name, v) :: ms)), ⟨rest, errors⟩⟩
  | name, v, [], fuel + 1, last, members, rest, errors, hfuel => by
    rw [List.length_append, List.length_cons, List.length_append] at hfuel
    have hv := fun old => readValue_body v fuel old
      (v.after.text ++ (moreMembers ([] : List (Name × Syntax sscanf)) ++ rest)) errors (by omega)
      (stops_space _ (stops_moreMembers _ rest))
    rw [memberValues, memberValues]
    exact (readObject_round last members name.pieces (nextToken_name name _)
      (readToken_space name.after _) hv).1 (readToken_space v.after _)
  | name, v, (name', v') :: ms, fuel + 1, last, members, rest, errors, hfuel => by
    rw [List.length_append, List.length_cons, List.length_append, List.length_append, moreMembers,
      List.length_cons] at hfuel
    have hv := fun old => readValue_body v fuel old
      (v.after.text ++ (moreMembers ((name', v') :: ms) ++ rest)) errors (by omega)
      (stops_space _ (stops_moreMembers _ rest))
    have hmore := readObject_members name' v' ms fuel (piecesBytes name.pieces)
      (setMember (cString (piecesBytes name.pieces)) (v.value cString) members) rest errors
      (by omega)
    rw [← List.append_assoc v'.after.text, ← List.append_assoc v'.body, ← List.cons_append,
      ← List.append_assoc name'.text] at hmore
    exact ((readObject_round last members name.pieces (nextToken_name name _)
      (readToken_space name.after _) hv).2 (readToken_space v.after _)).trans hmore

end

/-- The root is read up to the spaces behind it. -/
theorem readValue_text (v : Syntax sscanf) (root : Value) :
    readValue sscanf features (2 * v.text.length + 2) root ⟨v.text, []⟩ =
      some ⟨true, v.value cString, ⟨v.after.text, []⟩⟩ := by
  have hlen : v.text.length = v.body.length + v.after.text.length := List.length_append
  have hstops : Stops v.after.text := by
    have h := stops_space v.after stops_nil
    rwa [List.append_nil] at h
  exact readValue_body v _ root _ [] (by omega) hstops

end Reader

namespace Writer

open Reader

variable {sscanf : List Char → Option ℚ} {sprintf : ℚ → List Char} {yaml : Bool}

/-- A double whose text is read as it. -/
structure Prints (sscanf : List Char → Option ℚ) (sprintf : ℚ → List Char) (x : ℚ) : Prop where
  isFraction : IsFraction (truncateZeroes (sprintf x))
  sscanf_eq : sscanf (truncateZeroes (sprintf x)) = some x

theorem takeWhile_ne_zero {l : List Char} (h : '\x00' ∉ l) : l.takeWhile (· ≠ '\x00') = l := by
  rw [List.takeWhile_eq_self_iff]
  intro c hc
  simpa using fun heq : c = '\x00' => h (heq ▸ hc)

theorem cChars_eq {s : String} (h : '\x00' ∉ s.toList) : cChars s = s.toList :=
  takeWhile_ne_zero h

theorem cString_cChars {s : String} (h : '\x00' ∉ s.toList) : cString (cChars s) = s := by
  rw [cChars_eq h, cString, takeWhile_ne_zero h, String.ofList_toList]

mutual

/-- What is written of a value is a text that stands for it. -/
theorem exists_syntax : ∀ (v : Value) (before after : Space), Held v →
    (∀ x ∈ reals v, Prints sscanf sprintf x) →
      ∃ t : Syntax sscanf, t.body = before.text ++ writeValue sprintf yaml v ∧
        t.after = after ∧ t.value cString = v
  | .null, before, after, _, _ => ⟨.atom before .null after, rfl, rfl, rfl⟩
  | .bool b, before, after, _, _ => ⟨.atom before (.bool b) after, rfl, rfl, rfl⟩
  | .int n, before, after, h, _ => by
    have hvalue := integerValue_toDigits n
    refine ⟨.atom before (.integer (n < 0) (Nat.toDigits 10 n.natAbs)
      ⟨Nat.toDigits_ne_nil, isDigit_toDigits _⟩ (by rw [hvalue]; exact h)) after, ?_, rfl, ?_⟩
    · rw [Syntax.body, Atom.text, writeValue, valueToString_eq]
    · rw [Syntax.value, Atom.value, hvalue]
  | .real x, before, after, _, hreals => by
    have hx := hreals x (List.mem_singleton.mpr rfl)
    exact ⟨.atom before (.fraction _ x hx.isFraction hx.sscanf_eq) after, rfl, rfl, rfl⟩
  | .string s, before, after, h, _ => by
    obtain ⟨pieces, htext, hbytes⟩ := exists_pieces (cChars_eq h ▸ h : '\x00' ∉ cChars s)
    refine ⟨.atom before (.string pieces) after, ?_, rfl, ?_⟩
    · rw [Syntax.body, Atom.text, writeValue, htext]
    · rw [Syntax.value, Atom.value, hbytes, cString_cChars h]
  | .array values, before, after, h, hreals => by
    obtain ⟨ts, hts, -, hvalues⟩ := exists_elements values h hreals
    refine ⟨.array before Space.none ts after, ?_, rfl, ?_⟩
    · rw [Syntax.body, hts, writeValue]
    · rw [Syntax.value, hvalues]
  | .object members, before, after, h, hreals => by
    obtain ⟨ts, hts, -, hvalues⟩ := exists_members members h.2 hreals
    refine ⟨.object before Space.none ts after, ?_, rfl, ?_⟩
    · rw [Syntax.body, hts, writeValue]
    · rw [Syntax.value, hvalues [] h.1, List.nil_append]

theorem exists_elements : ∀ values : List Value, HeldAll values →
    (∀ x ∈ realsAll values, Prints sscanf sprintf x) →
      ∃ ts : List (Syntax sscanf),
        elementsBody Space.none ts = writeElements sprintf yaml values ∧
        moreElements ts = writeMoreElements sprintf yaml values ∧
        elementValues cString ts = values
  | [], _, _ => ⟨[], rfl, rfl, rfl⟩
  | v :: values, h, hreals => by
    obtain ⟨t, ht, hafter, hvalue⟩ := exists_syntax v Space.none Space.none h.1
      fun x hx => hreals x (List.mem_append_left _ hx)
    obtain ⟨ts, -, hmore, hvalues⟩ := exists_elements values h.2
      fun x hx => hreals x (List.mem_append_right _ hx)
    have hbody : t.body ++ (t.after.text ++ moreElements ts) =
        writeValue sprintf yaml v ++ writeMoreElements sprintf yaml values := by
      rw [ht, hafter, hmore]
      rfl
    refine ⟨t :: ts, ?_, ?_, ?_⟩
    · rw [elementsBody, hbody, writeElements]
    · rw [moreElements, hbody, writeMoreElements]
    · rw [elementValues, hvalue, hvalues]

theorem exists_members : ∀ members : List (String × Value), HeldMembers members →
    (∀ x ∈ realsMembers members, Prints sscanf sprintf x) →
      ∃ ts : List (Name × Syntax sscanf),
        membersBody Space.none ts = writeMembers sprintf yaml members ∧
        moreMembers ts = writeMoreMembers sprintf yaml members ∧
        ∀ before, InOrder (before ++ members) → memberValues cString before ts = before ++ members
  | [], _, _ => ⟨[], rfl, rfl, fun before _ => (List.append_nil before).symm⟩
  | (name, v) :: members, h, hreals => by
    let colon : Space := if yaml then ⟨[' '], by simp⟩ else Space.none
    obtain ⟨t, ht, hafter, hvalue⟩ := exists_syntax v colon Space.none h.1.2
      fun x hx => hreals x (List.mem_append_left _ hx)
    obtain ⟨ts, -, hmore, hvalues⟩ := exists_members members h.2
      fun x hx => hreals x (List.mem_append_right _ hx)
    obtain ⟨pieces, htext, hbytes⟩ := exists_pieces (cChars_eq h.1.1 ▸ h.1.1 : '\x00' ∉ cChars name)
    let name' : Name := ⟨Space.none, pieces, Space.none⟩
    have hbody : name'.text ++ ':' :: (t.body ++ (t.after.text ++ moreMembers ts)) =
        valueToQuotedString (cChars name) ++ (if yaml then [':', ' '] else [':']) ++
          (writeValue sprintf yaml v ++ writeMoreMembers sprintf yaml members) := by
      rw [ht, hafter, hmore, htext]
      cases yaml <;> simp [name', colon, Name.text, Space.none]
    refine ⟨(name', t) :: ts, ?_, ?_, fun before hbefore => ?_⟩
    · rw [membersBody, hbody, writeMembers]
    · rw [moreMembers, hbody, writeMoreMembers]
    · have hlt : ∀ m ∈ before, m.1 < name := fun m hm =>
        (List.pairwise_append.mp hbefore).2.2 m hm (name, v) (List.mem_cons_self ..)
      rw [memberValues, hvalue, hbytes, cString_cChars h.1.1, setMember_eq_append hlt,
        hvalues _ (by rwa [List.append_assoc, List.singleton_append]), List.append_assoc,
        List.singleton_append]

end

theorem inOrder_of_members : ∀ members : List (String × Value), InOrder (inOrderMembers members)
  | [] => List.Pairwise.nil
  | (_, _) :: members => (inOrder_of_members members).setMember _ _

mutual

/-- A value that can be held is held when its members are by key. -/
theorem held_inOrder : ∀ {v : Value}, Holdable v → Held (inOrder v)
  | .null, _ | .real _, _ | .bool _, _ => trivial
  | .int _, h => h
  | .string _, h => h
  | .array _, h => heldAll_inOrder h
  | .object members, h => ⟨inOrder_of_members members, heldMembers_inOrder h⟩

theorem heldAll_inOrder : ∀ {values : List Value}, HoldableAll values → HeldAll (inOrderAll values)
  | [], _ => trivial
  | _ :: _, h => ⟨held_inOrder h.1, heldAll_inOrder h.2⟩

theorem heldMembers_inOrder : ∀ {members : List (String × Value)}, HoldableMembers members →
    HeldMembers (inOrderMembers members)
  | [], _ => trivial
  | (key, v) :: members, h => by
    refine heldMembers_iff.mpr fun m hm => ?_
    rcases mem_setMember hm with rfl | hm
    · exact ⟨h.1.1, held_inOrder h.1.2⟩
    · exact heldMembers_iff.mp (heldMembers_inOrder h.2) m hm

end

theorem setMember_cons {key : String} {v : Value} :
    ∀ {ms : List (String × Value)}, InOrder ((key, v) :: ms) → setMember key v ms = (key, v) :: ms
  | [], _ => rfl
  | (k, w) :: ms, h => by
    have hlt : key < k := (List.pairwise_cons.mp h).1 (k, w) (List.mem_cons_self ..)
    rw [setMember, if_neg hlt.asymm, if_neg hlt.ne']

mutual

theorem inOrder_eq_self : ∀ {v : Value}, Held v → inOrder v = v
  | .null, _ | .real _, _ | .bool _, _ | .int _, _ | .string _, _ => rfl
  | .array _, h => congrArg _ (inOrderAll_eq_self h)
  | .object _, h => congrArg _ (inOrderMembers_eq_self h.1 h.2)

theorem inOrderAll_eq_self : ∀ {values : List Value}, HeldAll values → inOrderAll values = values
  | [], _ => rfl
  | _ :: _, h => by rw [inOrderAll, inOrder_eq_self h.1, inOrderAll_eq_self h.2]

theorem inOrderMembers_eq_self : ∀ {members : List (String × Value)}, InOrder members →
    HeldMembers members → inOrderMembers members = members
  | [], _, _ => rfl
  | (_, _) :: _, horder, h => by
    rw [inOrderMembers, inOrder_eq_self h.1.2,
      inOrderMembers_eq_self (List.pairwise_cons.mp horder).2 h.2, setMember_cons horder]

end

/-- Nothing is read otherwise for the members being by key. -/
theorem lookup_inOrderMembers (k : String) : ∀ members : List (String × Value),
    (inOrderMembers members).lookup k = (members.lookup k).map inOrder
  | [] => rfl
  | (key, v) :: members => by
    rw [inOrderMembers, lookup_setMember, lookup_cons_eq, lookup_inOrderMembers k members]
    split_ifs <;> rfl

variable {features : Features}

/-- What is written of a value that is held is read as the value, and no error is added. -/
theorem readValue_written {v : Value} (h : Held v)
    (hreals : ∀ x ∈ reals v, Prints sscanf sprintf x) (yaml : Bool) (root : Value) :
    ∃ rest, readValue sscanf features (2 * (writeValue sprintf yaml v ++ ['\n']).length + 2) root
      ⟨writeValue sprintf yaml v ++ ['\n'], []⟩ = some ⟨true, v, ⟨rest, []⟩⟩ := by
  obtain ⟨t, hbody, hafter, hvalue⟩ : ∃ t : Syntax sscanf,
      t.body = Space.none.text ++ writeValue sprintf yaml v ∧
        t.after = ⟨['\n'], by simp⟩ ∧ t.value cString = v :=
    exists_syntax v Space.none _ h hreals
  have htext : t.text = writeValue sprintf yaml v ++ ['\n'] := by
    rw [Syntax.text, hbody, hafter]
    rfl
  have hread : readValue sscanf features (2 * t.text.length + 2) root ⟨t.text, []⟩ =
      some ⟨true, t.value cString, ⟨t.after.text, []⟩⟩ := readValue_text t root
  rw [htext, hvalue] at hread
  exact ⟨_, hread⟩

end Writer

end LcxlNetLoader
