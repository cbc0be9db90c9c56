import Mathlib.Data.Bool.AllAny
import LcxlNetLoader.JsonWriter
import LcxlNetLoader.Proofs.JsonReader

/-!
# Strings, read and written

A string's text is read piece by piece, and each piece is decoded to the bytes it stands for
(`decodeStringFrom_pieces`): an escape's number to the UTF-8 of its character, from two halves or
from one. What the writer writes of a string is pieces that stand for it (`exists_pieces`).
-/

namespace LcxlNetLoader

open Json

namespace Reader

theorem isHexDigit_of_isHex {c : Char} (h : IsHex c) : isHexDigit c = true := by
  unfold isHexDigit
  rcases h with ⟨h1, h2⟩ | ⟨h1, h2⟩ | ⟨h1, h2⟩ <;> simp [h1, h2]

theorem hexDigit_eq {c : Char} (h : IsHex c) : hexDigit c = hexValue c := by
  unfold hexDigit hexValue
  simp only [Char.le_def, UInt32.le_iff_toNat_le, IsHex] at h ⊢
  have h0 : '0'.val.toNat = 48 := rfl
  have h9 : '9'.val.toNat = 57 := rfl
  have hA : 'A'.val.toNat = 65 := rfl
  have hF : 'F'.val.toNat = 70 := rfl
  have ha : 'a'.val.toNat = 97 := rfl
  have hf : 'f'.val.toNat = 102 := rfl
  split_ifs <;> first | rfl | omega

theorem decodeHexDigits_eq (token : Token) (rest : List Char) :
    ∀ (digits : List Char) (unicode : ℕ), (∀ c ∈ digits, IsHex c) →
      decodeHexDigits token digits.length unicode (digits ++ rest) =
        .ok (digits.foldl (fun n c => n * 16 + hexValue c) unicode, rest)
  | [], unicode, _ => by
    rcases rest with _ | ⟨c, rest⟩ <;> rfl
  | c :: digits, unicode, h => by
    obtain ⟨hc, hdigits⟩ := List.forall_mem_cons.mp h
    rw [List.length_cons, List.cons_append, decodeHexDigits, if_pos (isHexDigit_of_isHex hc),
      hexDigit_eq hc, decodeHexDigits_eq token rest digits _ hdigits, List.foldl_cons]

theorem decodeUnicodeEscapeSequence_eq (token : Token) (q : HexQuad) (rest : List Char) :
    decodeUnicodeEscapeSequence token (q.text ++ rest) = .ok (q.value, rest) := by
  have hlen : ¬ (q.text ++ rest).length < 4 := by
    rw [List.length_append, q.length_text]
    omega
  have h := decodeHexDigits_eq token rest q.text 0 q.isHex
  rw [q.length_text] at h
  rw [decodeUnicodeEscapeSequence, if_neg hlen, h]
  rfl

theorem decodeUnicodeCodePoint_unit (token : Token) (q : HexQuad) (h : q.value.isValidChar)
    (rest : List Char) : decodeUnicodeCodePoint token (q.text ++ rest) = .ok (q.value, rest) := by
  have hnot : ¬ (0xD800 ≤ q.value ∧ q.value ≤ 0xDBFF) := by
    rcases h with h | h <;> omega
  rw [decodeUnicodeCodePoint, decodeUnicodeEscapeSequence_eq]
  simp only [bind, Except.bind, if_neg hnot, pure, Except.pure]

theorem decodeUnicodeCodePoint_pair (token : Token) {high low : HexQuad}
    (hhigh : 0xD800 ≤ high.value ∧ high.value ≤ 0xDBFF)
    (hlow : 0xDC00 ≤ low.value ∧ low.value ≤ 0xDFFF) (rest : List Char) :
    decodeUnicodeCodePoint token (high.text ++ '\\' :: 'u' :: (low.text ++ rest)) =
      .ok (0x10000 + (high.value - 0xD800) * 0x400 + (low.value - 0xDC00), rest) := by
  have hlen : ¬ ('\\' :: 'u' :: (low.text ++ rest)).length < 6 := by
    rw [List.length_cons, List.length_cons, List.length_append, low.length_text]
    omega
  have hand : ∀ n, n &&& 0x3FF = n % 1024 := fun n => Nat.and_two_pow_sub_one_eq_mod n 10
  have hval : 0x10000 + ((high.value &&& 0x3FF) <<< 10) + (low.value &&& 0x3FF) =
      0x10000 + (high.value - 0xD800) * 0x400 + (low.value - 0xDC00) := by
    rw [hand, hand, Nat.shiftLeft_eq]
    omega
  rw [decodeUnicodeCodePoint, decodeUnicodeEscapeSequence_eq]
  simp only [bind, Except.bind, if_pos hhigh, if_neg hlen, decodeUnicodeEscapeSequence_eq, pure,
    Except.pure]
  rw [hval]

theorem or_and_eq (i a n : ℕ) : (2 ^ i * a) ||| ((2 ^ i - 1) &&& n) = n % 2 ^ i + 2 ^ i * a := by
  rw [Nat.and_comm, Nat.and_two_pow_sub_one_eq_mod, Nat.add_comm,
    Nat.two_pow_add_eq_or_of_lt (Nat.mod_lt n (by positivity))]

theorem ofNat_toNat_byte {n : ℕ} (h : n < 256) :
    Char.ofNat (UInt8.ofNat n).toNat = Char.ofNat n := by
  rw [UInt8.toNat_ofNat', Nat.mod_eq_of_lt h]

/-- The bits of the source's bytes, as UTF-8 has them. -/
theorem codePointToUTF8_eq {n : ℕ} (h : n.isValidChar) :
    codePointToUTF8 n = utf8 (Char.ofNat n) := by
  have hval : (Char.ofNat n).val.toNat = n := by
    rw [Char.ofNat, dif_pos h]
    rfl
  have hlt : n < 0x110000 := by
    rcases h with h | h <;> omega
  have htail : ∀ m, 0x80 ||| (0x3f &&& m) = m % 64 + 128 := or_and_eq 6 2
  have h2 : ∀ m, 0xC0 ||| (0x1f &&& m) = m % 32 + 192 := or_and_eq 5 6
  have h3 : ∀ m, 0xE0 ||| (0xf &&& m) = m % 16 + 224 := or_and_eq 4 14
  have h4 : ∀ m, 0xF0 ||| (0x7 &&& m) = m % 8 + 240 := or_and_eq 3 30
  simp only [codePointToUTF8, utf8, String.utf8EncodeChar, hval, htail, h2, h3, h4,
    Nat.shiftRight_eq_div_pow]
  split_ifs
  · simp (disch := omega) only [List.map_cons, List.map_nil, ofNat_toNat_byte]
  · simp (disch := omega) only [List.map_cons, List.map_nil, ofNat_toNat_byte]
  · simp (disch := omega) only [List.map_cons, List.map_nil, ofNat_toNat_byte]
  · simp (disch := omega) only [List.map_cons, List.map_nil, ofNat_toNat_byte]
  · omega

theorem isValidChar_pair {high low : HexQuad}
    (hhigh : 0xD800 ≤ high.value ∧ high.value ≤ 0xDBFF)
    (hlow : 0xDC00 ≤ low.value ∧ low.value ≤ 0xDFFF) :
    (0x10000 + (high.value - 0xD800) * 0x400 + (low.value - 0xDC00)).isValidChar := by
  right
  omega

theorem length_text_pos (p : Piece) : 0 < p.text.length := by
  cases p <;> simp [Piece.text]

/-- One round decodes one piece. -/
theorem decodeStringFrom_piece (token : Token) (fuel : ℕ) (decoded : List Char) (p : Piece)
    (rest : List Char) :
    decodeStringFrom token (fuel + 1) decoded (p.text ++ rest) =
      decodeStringFrom token fuel (decoded ++ p.bytes) rest := by
  cases p with
  | plain c h =>
    rw [Piece.text, Piece.bytes, List.singleton_append, decodeStringFrom, if_neg h.1]
    exact h.2
  | short letter c h =>
    have hu : letter ≠ 'u' := by
      rintro rfl
      exact absurd h (by simp [shortEscape])
    simp only [Piece.text, Piece.bytes, List.cons_append, List.nil_append, decodeStringFrom, h]
  | unit q h =>
    simp only [Piece.text, Piece.bytes, List.cons_append, decodeStringFrom,
      decodeUnicodeCodePoint_unit token q h, bind, Except.bind, codePointToUTF8_eq h]
  | pair high low hhigh hlow =>
    simp only [Piece.text, Piece.bytes, List.cons_append, List.append_assoc, decodeStringFrom,
      decodeUnicodeCodePoint_pair token hhigh hlow, bind, Except.bind,
      codePointToUTF8_eq (isValidChar_pair hhigh hlow)]

theorem decodeStringFrom_pieces (token : Token) :
    ∀ (pieces : List Piece) (fuel : ℕ) (decoded : List Char), pieces.length ≤ fuel →
      decodeStringFrom token fuel decoded (piecesText pieces) =
        .ok (decoded ++ piecesBytes pieces)
  | [], fuel, decoded, _ => by
    cases fuel <;> simp [piecesText, piecesBytes, decodeStringFrom]
  | p :: pieces, fuel + 1, decoded, h => by
    rw [piecesText, List.flatMap_cons, decodeStringFrom_piece]
    rw [List.length_cons] at h
    have ih := decodeStringFrom_pieces token pieces fuel (decoded ++ p.bytes) (by omega)
    rw [piecesText] at ih
    rw [ih, piecesBytes, piecesBytes, List.flatMap_cons, List.append_assoc]

theorem length_pieces_le : ∀ pieces : List Piece, pieces.length ≤ (piecesText pieces).length
  | [] => Nat.zero_le _
  | p :: pieces => by
    have hp := length_text_pos p
    have ih := length_pieces_le pieces
    rw [piecesText] at *
    rw [List.flatMap_cons, List.length_append, List.length_cons]
    omega

/-- A string's token is decoded to what its pieces stand for. -/
theorem decodeString_pieces {token : Token} (pieces : List Piece)
    (h : token.start = quoted pieces ++ token.stop) :
    decodeString token = .ok (piecesBytes pieces) := by
  have htext : token.text = '"' :: (piecesText pieces ++ ['"']) :=
    Token.text_string (by rw [h, quoted]; simp)
  rw [decodeString, htext, List.tail_cons, List.dropLast_concat]
  exact decodeStringFrom_pieces token pieces _ [] (length_pieces_le pieces)

theorem readString_of_plain (rest : List Char) :
    ∀ text : List Char, (∀ c ∈ text, c ≠ '"' ∧ c ≠ '\\') →
      readString (text ++ rest) = readString rest
  | [], _ => rfl
  | c :: text, h => by
    obtain ⟨⟨hquote, hslash⟩, htext⟩ := List.forall_mem_cons.mp h
    rw [List.cons_append, readString, if_neg hquote, readString_of_plain rest text htext]
    · exact fun heq _ => hslash heq
    · exact fun c' current heq _ => hslash heq

theorem isHex_plain {c : Char} (h : IsHex c) : c ≠ '"' ∧ c ≠ '\\' := by
  refine ⟨?_, ?_⟩ <;> rintro rfl <;>
    simp only [IsHex, Char.le_def, UInt32.le_iff_toNat_le] at h <;> revert h <;> decide

theorem readString_piece (p : Piece) (rest : List Char) :
    readString (p.text ++ rest) = readString rest := by
  cases p with
  | plain c h => exact readString_of_plain rest [c] (by simpa using h)
  | short letter c h => rfl
  | unit q h => exact readString_of_plain rest q.text fun c hc => isHex_plain (q.isHex c hc)
  | pair high low hhigh hlow =>
    have hq := readString_of_plain ('\\' :: 'u' :: (low.text ++ rest)) high.text
      fun c hc => isHex_plain (high.isHex c hc)
    rw [Piece.text, List.cons_append, List.cons_append, List.append_assoc]
    exact hq.trans (readString_of_plain rest low.text fun c hc => isHex_plain (low.isHex c hc))

theorem readString_pieces (rest : List Char) :
    ∀ pieces : List Piece, readString (piecesText pieces ++ '"' :: rest) = (true, rest)
  | [] => rfl
  | p :: pieces => by
    rw [piecesText, List.flatMap_cons, List.append_assoc, readString_piece]
    exact readString_pieces rest pieces

theorem tokenAt_quoted (pieces : List Piece) (rest : List Char) :
    tokenAt (quoted pieces ++ rest) = ⟨.string, quoted pieces ++ rest, rest⟩ := by
  have htext : quoted pieces ++ rest = '"' :: (piecesText pieces ++ '"' :: rest) := by
    simp [quoted]
  rw [htext]
  show scanned .string _ (readString (piecesText pieces ++ '"' :: rest)) = _
  rw [readString_pieces]
  rfl

/-- A round takes a character at least, so that no rounds more are needed than there are. -/
theorem decodeStringFrom_fuel (token : Token) :
    ∀ (fuel fuel' : ℕ) (decoded current : List Char), current.length ≤ fuel →
      current.length ≤ fuel' →
      decodeStringFrom token fuel decoded current = decodeStringFrom token fuel' decoded current
  | 0, 0, _, _, _, _ => rfl
  | 0, fuel' + 1, decoded, current, h, _ | fuel' + 1, 0, decoded, current, _, h => by
    rw [List.length_eq_zero_iff.mp (Nat.le_zero.mp h)]
    rfl
  | fuel + 1, fuel' + 1, decoded, current, h, h' => by
    rcases current with _ | ⟨c, current⟩
    · rfl
    rw [List.length_cons] at h h'
    by_cases hslash : c = '\\'
    · subst hslash
      rcases current with _ | ⟨letter, current⟩
      · rfl
      rw [List.length_cons] at h h'
      by_cases hu : letter = 'u'
      · subst hu
        simp only [decodeStringFrom]
        rcases hd : decodeUnicodeCodePoint token current with e | ⟨u, rest⟩
        · rfl
        · have hle := ((decodeUnicodeCodePoint_steps token current).rest u rest hd).length_le
          exact decodeStringFrom_fuel token fuel fuel' _ rest (by omega) (by omega)
      · simp only [decodeStringFrom]
        rcases shortEscape letter with _ | c
        · rfl
        · exact decodeStringFrom_fuel token fuel fuel' _ current (by omega) (by omega)
    · rw [decodeStringFrom, decodeStringFrom]
      · split_ifs
        · rfl
        · exact decodeStringFrom_fuel token fuel fuel' _ current (by omega) (by omega)
      · exact hslash
      · exact hslash

end Reader

namespace Writer

theorem hexQuad_spec : ∀ n < 32, (hexQuad n).length = 4 ∧ (∀ c ∈ hexQuad n, IsHex c) ∧
    (hexQuad n).foldl (fun n c => n * 16 + hexValue c) 0 = n := by
  simp only [IsHex, ← List.all_iff_forall_prop]
  decide

theorem utf8_ascii {n : ℕ} (h : n < 128) : utf8 (Char.ofNat n) = [Char.ofNat n] := by
  rw [← Reader.codePointToUTF8_eq (.inl (by omega)), Reader.codePointToUTF8, if_pos (by omega)]

/-- Every character but zero is written as a piece that stands for it. -/
theorem exists_piece {c : Char} (hc : c ≠ '\x00') :
    ∃ p : Piece, p.text = escape c ∧ p.bytes = [c] := by
  unfold escape
  split
  case h_1 => exact ⟨.short '"' '"' rfl, rfl, rfl⟩
  case h_2 => exact ⟨.short '\\' '\\' rfl, rfl, rfl⟩
  case h_3 => exact ⟨.short 'b' '\x08' rfl, rfl, rfl⟩
  case h_4 => exact ⟨.short 'f' '\x0c' rfl, rfl, rfl⟩
  case h_5 => exact ⟨.short 'n' '\n' rfl, rfl, rfl⟩
  case h_6 => exact ⟨.short 'r' '\r' rfl, rfl, rfl⟩
  case h_7 => exact ⟨.short 't' '\t' rfl, rfl, rfl⟩
  case h_8 hquote hslash _ _ _ _ _ =>
    split_ifs with hcontrol
    · have hlt : c.toNat < 32 := by
        simp only [isControlCharacter, Bool.and_eq_true, decide_eq_true_eq, Char.le_def,
          UInt32.le_iff_toNat_le] at hcontrol
        exact Nat.lt_succ_of_le hcontrol.2
      obtain ⟨hlen, hhex, hval⟩ := hexQuad_spec c.toNat hlt
      have hvalid : (HexQuad.mk (hexQuad c.toNat) hlen hhex).value.isValidChar := by
        rw [HexQuad.value, hval]
        exact .inl (by omega)
      refine ⟨.unit ⟨hexQuad c.toNat, hlen, hhex⟩ hvalid, rfl, ?_⟩
      rw [Piece.bytes, HexQuad.value, hval, utf8_ascii (by omega), Char.ofNat_toNat]
    · exact ⟨.plain c ⟨hquote, hslash⟩, rfl, rfl⟩

theorem escape_eq_self {c : Char} (h : isEscaped c = false) : escape c = [c] := by
  simp only [isEscaped, Bool.or_eq_false_iff, decide_eq_false_iff_not, List.mem_cons,
    List.not_mem_nil, or_false, not_or] at h
  obtain ⟨⟨h1, h2, h3, h4, h5, h6, h7⟩, hcontrol⟩ := h
  unfold escape
  split <;> first | contradiction | exact if_neg (by simp [hcontrol])

theorem valueToQuotedString_eq (value : List Char) :
    valueToQuotedString value = '"' :: (value.flatMap escape ++ ['"']) := by
  unfold valueToQuotedString
  split_ifs with h
  · rfl
  · have hself : ∀ l : List Char, (∀ c ∈ l, isEscaped c = false) → l.flatMap escape = l := by
      intro l
      induction l with
      | nil => exact fun _ => rfl
      | cons c l ih =>
        intro hl
        obtain ⟨hc, hrest⟩ := List.forall_mem_cons.mp hl
        rw [List.flatMap_cons, escape_eq_self hc, ih hrest, List.singleton_append]
    rw [hself value fun c hc => by simpa using List.any_eq_false.mp (by simpa using h) c hc]

/-- A string is written as pieces, within quotes, that stand for it. -/
theorem exists_pieces {value : List Char} (h : '\x00' ∉ value) :
    ∃ pieces, valueToQuotedString value = quoted pieces ∧ piecesBytes pieces = value := by
  rw [valueToQuotedString_eq]
  induction value with
  | nil => exact ⟨[], rfl, rfl⟩
  | cons c value ih =>
    rw [List.mem_cons, not_or] at h
    obtain ⟨pieces, htext, hbytes⟩ := ih h.2
    obtain ⟨p, hp, hpbytes⟩ := exists_piece (Ne.symm h.1)
    refine ⟨p :: pieces, ?_, ?_⟩
    · have htext' : value.flatMap escape ++ ['"'] = piecesText pieces ++ ['"'] :=
        List.tail_eq_of_cons_eq htext
      rw [quoted, piecesText, List.flatMap_cons, List.flatMap_cons, hp, List.append_assoc,
        List.append_assoc, htext', piecesText]
    · rw [piecesBytes, List.flatMap_cons, hpbytes, ← piecesBytes, hbytes, List.singleton_append]

end Writer

end LcxlNetLoader
