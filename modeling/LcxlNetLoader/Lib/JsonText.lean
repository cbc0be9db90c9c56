import Mathlib.Data.String.Basic
import LcxlNetLoader.Lib.Json

/-!
# JSON texts

A text as the grammar derives it, a tree that keeps its spaces and its escapes, with the text it
is and the value it stands for. Text is bytes: a character here is below 256, and what an escape
stands for is the bytes of its UTF-8.
-/

namespace Json

/-- Spaces between tokens. -/
structure Space where
  text : List Char
  spaces : ∀ c ∈ text, c = ' ' ∨ c = '\t' ∨ c = '\r' ∨ c = '\n'

def Space.none : Space := ⟨[], by simp⟩

/-- A hexadecimal digit's value. -/
def hexValue (c : Char) : ℕ :=
  if c ≤ '9' then c.toNat - '0'.toNat
  else if c ≤ 'F' then c.toNat - 'A'.toNat + 10
  else c.toNat - 'a'.toNat + 10

def IsHex (c : Char) : Prop :=
  '0' ≤ c ∧ c ≤ '9' ∨ 'A' ≤ c ∧ c ≤ 'F' ∨ 'a' ≤ c ∧ c ≤ 'f'

/-- Four hexadecimal digits. -/
structure HexQuad where
  text : List Char
  length_text : text.length = 4
  isHex : ∀ c ∈ text, IsHex c

def HexQuad.value (q : HexQuad) : ℕ := q.text.foldl (fun n c => n * 16 + hexValue c) 0

/-- The bytes of a character. -/
def utf8 (c : Char) : List Char := (String.utf8EncodeChar c).map fun b => Char.ofNat b.toNat

/-- What the letter after a backslash stands for. -/
def shortEscape : Char → Option Char
  | '"' => some '"'
  | '/' => some '/'
  | '\\' => some '\\'
  | 'b' => some '\x08'
  | 'f' => some '\x0c'
  | 'n' => some '\n'
  | 'r' => some '\r'
  | 't' => some '\t'
  | _ => none

/-- A piece of a string: a byte that stands for itself, a letter's escape, or the escape of a
character by its number, in two halves where it is past 0xFFFF. -/
inductive Piece where
  | plain (c : Char) (h : c ≠ '"' ∧ c ≠ '\\')
  | short (letter c : Char) (h : shortEscape letter = some c)
  | unit (q : HexQuad) (h : q.value.isValidChar)
  | pair (high low : HexQuad) (hhigh : 0xD800 ≤ high.value ∧ high.value ≤ 0xDBFF)
      (hlow : 0xDC00 ≤ low.value ∧ low.value ≤ 0xDFFF)

def Piece.text : Piece → List Char
  | plain c _ => [c]
  | short letter _ _ => ['\\', letter]
  | unit q _ => '\\' :: 'u' :: q.text
  | pair high low _ _ => '\\' :: 'u' :: (high.text ++ '\\' :: 'u' :: low.text)

def Piece.bytes : Piece → List Char
  | plain c _ => [c]
  | short _ c _ => [c]
  | unit q _ => utf8 (Char.ofNat q.value)
  | pair high low _ _ =>
    utf8 (Char.ofNat (0x10000 + (high.value - 0xD800) * 0x400 + (low.value - 0xDC00)))

def piecesText (pieces : List Piece) : List Char := pieces.flatMap Piece.text

def piecesBytes (pieces : List Piece) : List Char := pieces.flatMap Piece.bytes

def quoted (pieces : List Piece) : List Char := '"' :: (piecesText pieces ++ ['"'])

/-- The characters that the text of a number is of. -/
def IsNumberChar (c : Char) : Prop := c.isDigit ∨ c ∈ ['.', 'e', 'E', '+', '-']

/-- What an integer's text stands for. -/
def integerValue (negative : Bool) (digits : List Char) : ℤ :=
  if negative then -(Nat.ofDigitChars 10 digits 0 : ℤ) else Nat.ofDigitChars 10 digits 0

def integerText (negative : Bool) (digits : List Char) : List Char :=
  if negative then '-' :: digits else digits

/-- A number with a fraction or an exponent. -/
structure IsFraction (text : List Char) : Prop where
  head : ∃ c l, text = c :: l ∧ (c.isDigit ∨ c = '-') ∧ ∃ d ∈ l, ¬ d.isDigit
  chars : ∀ c ∈ text, IsNumberChar c

section

variable (scan : List Char → Option ℚ)

/-- A text without parts. What the text of a fraction stands for, `scan` says. -/
inductive Atom where
  | null
  | bool (b : Bool)
  | integer (negative : Bool) (digits : List Char)
      (hdigits : digits ≠ [] ∧ ∀ c ∈ digits, c.isDigit)
      (hvalue : -2 ^ 63 ≤ integerValue negative digits ∧ integerValue negative digits < 2 ^ 64)
  | fraction (text : List Char) (x : ℚ) (htext : IsFraction text) (hx : scan text = some x)
  | string (pieces : List Piece)

/-- A member's name, with the spaces around it. -/
structure Name where
  before : Space
  pieces : List Piece
  after : Space

/-- A text with the spaces before and after it. The inner ones are those of an array or an object
without parts. -/
inductive Syntax where
  | atom (before : Space) (a : Atom scan) (after : Space)
  | array (before inner : Space) (elements : List Syntax) (after : Space)
  | object (before inner : Space) (members : List (Name × Syntax)) (after : Space)

variable {scan}

def Atom.text : Atom scan → List Char
  | null => "null".toList
  | bool b => if b then "true".toList else "false".toList
  | integer negative digits _ _ => integerText negative digits
  | fraction text _ _ _ => text
  | string pieces => quoted pieces

def Name.text (name : Name) : List Char :=
  name.before.text ++ (quoted name.pieces ++ name.after.text)

def Syntax.after : Syntax scan → Space
  | .atom _ _ after | .array _ _ _ after | .object _ _ _ after => after

mutual

/-- The text without the spaces after it. -/
def Syntax.body : Syntax scan → List Char
  | .atom before a _ => before.text ++ a.text
  | .array before inner elements _ => before.text ++ '[' :: elementsBody inner elements
  | .object before inner members _ => before.text ++ '{' :: membersBody inner members

def elementsBody (inner : Space) : List (Syntax scan) → List Char
  | [] => inner.text ++ [']']
  | v :: vs => v.body ++ (v.after.text ++ moreElements vs)

def moreElements : List (Syntax scan) → List Char
  | [] => [']']
  | v :: vs => ',' :: (v.body ++ (v.after.text ++ moreElements vs))

def membersBody (inner : Space) : List (Name × Syntax scan) → List Char
  | [] => inner.text ++ ['}']
  | (name, v) :: ms => name.text ++ ':' :: (v.body ++ (v.after.text ++ moreMembers ms))

def moreMembers : List (Name × Syntax scan) → List Char
  | [] => ['}']
  | (name, v) :: ms =>
    ',' :: (name.text ++ ':' :: (v.body ++ (v.after.text ++ moreMembers ms)))

end

def Syntax.text (v : Syntax scan) : List Char := v.body ++ v.after.text

end

/-- The members with the key's replaced, or with one put where the key's place is among them. -/
def setMember (key : String) (v : Value) : List (String × Value) → List (String × Value)
  | [] => [(key, v)]
  | (k, w) :: ms =>
    if k < key then (k, w) :: setMember key v ms
    else if k = key then (key, v) :: ms
    else (key, v) :: (k, w) :: ms

theorem mem_setMember {key : String} {v : Value} {m : String × Value} :
    ∀ {ms : List (String × Value)}, m ∈ setMember key v ms → m = (key, v) ∨ m ∈ ms
  | [], h => by simpa [setMember] using h
  | (k, w) :: ms, h => by
    simp only [setMember] at h
    split_ifs at h
    · rcases List.mem_cons.mp h with rfl | h
      · exact .inr (List.mem_cons_self ..)
      · exact (mem_setMember h).imp_right (List.mem_cons_of_mem _)
    · exact (List.mem_cons.mp h).imp_right (List.mem_cons_of_mem _)
    · exact List.mem_cons.mp h

/-- Members by key. -/
def InOrder (ms : List (String × Value)) : Prop := ms.Pairwise fun m m' => m.1 < m'.1

theorem InOrder.setMember (key : String) (v : Value) :
    ∀ {ms : List (String × Value)}, InOrder ms → InOrder (setMember key v ms)
  | [], _ => List.pairwise_singleton _ _
  | (k, w) :: ms, h => by
    obtain ⟨hk, hms⟩ := List.pairwise_cons.mp h
    simp only [Json.setMember]
    split_ifs with hlt heq
    · refine List.pairwise_cons.mpr ⟨fun m hm => ?_, InOrder.setMember key v hms⟩
      rcases mem_setMember hm with rfl | hm
      · exact hlt
      · exact hk m hm
    · subst heq
      exact List.pairwise_cons.mpr ⟨hk, hms⟩
    · have hgt : key < k := lt_of_le_of_ne (not_lt.mp hlt) (Ne.symm heq)
      refine List.pairwise_cons.mpr ⟨fun m hm => ?_, h⟩
      rcases List.mem_cons.mp hm with rfl | hm
      · exact hgt
      · exact hgt.trans (hk m hm)

/-- A key that is greater than all is put last. -/
theorem setMember_eq_append {key : String} {v : Value} :
    ∀ {ms : List (String × Value)}, (∀ m ∈ ms, m.1 < key) → setMember key v ms = ms ++ [(key, v)]
  | [], _ => rfl
  | (k, w) :: ms, h => by
    obtain ⟨hk, hms⟩ := List.forall_mem_cons.mp h
    rw [setMember, if_pos hk, setMember_eq_append hms, List.cons_append]

theorem lookup_cons_eq (k key : String) (v : Value) (ms : List (String × Value)) :
    ((key, v) :: ms).lookup k = if k = key then some v else ms.lookup k := by
  rw [List.lookup_cons]
  rcases h : k == key with _ | _
  · rw [if_neg (beq_eq_false_iff_ne.mp h)]
  · rw [if_pos (beq_iff_eq.mp h)]

theorem lookup_setMember (k key : String) (v : Value) :
    ∀ ms : List (String × Value),
      (setMember key v ms).lookup k = if k = key then some v else ms.lookup k
  | [] => lookup_cons_eq k key v []
  | (k', w) :: ms => by
    rcases lt_trichotomy k' key with hlt | rfl | hgt
    · rw [setMember, if_pos hlt, lookup_cons_eq, lookup_cons_eq k k', lookup_setMember k key v ms]
      by_cases hk : k = k'
      · rw [if_pos hk, if_pos hk, if_neg (hk ▸ hlt.ne)]
      · rw [if_neg hk, if_neg hk]
    · rw [setMember, if_neg (lt_irrefl _), if_pos rfl, lookup_cons_eq, lookup_cons_eq k k' w]
      split_ifs <;> rfl
    · rw [setMember, if_neg hgt.asymm, if_neg hgt.ne', lookup_cons_eq]

section

variable {scan : List Char → Option ℚ} (keep : List Char → String)

/-- The value, where `keep` is what is kept of the bytes of a string. -/
def Atom.value : Atom scan → Value
  | null => .null
  | bool b => .bool b
  | integer negative digits _ _ => .int (integerValue negative digits)
  | fraction _ x _ _ => .real x
  | string pieces => .string (keep (piecesBytes pieces))

mutual

/-- The value. Of members of one name the last one counts. -/
def Syntax.value : Syntax scan → Value
  | .atom _ a _ => a.value keep
  | .array _ _ elements _ => .array (elementValues elements)
  | .object _ _ members _ => .object (memberValues [] members)

def elementValues : List (Syntax scan) → List Value
  | [] => []
  | v :: vs => v.value :: elementValues vs

def memberValues (acc : List (String × Value)) :
    List (Name × Syntax scan) → List (String × Value)
  | [] => acc
  | (name, v) :: ms => memberValues (setMember (keep (piecesBytes name.pieces)) v.value acc) ms

end

end

end Json
