import LcxlNetLoader.JsonReader

/-!
# jsoncpp's writer

`FastWriter` of `json_writer.cpp`. A `Value` keeps the members of an object by key, in a map.
-/

namespace LcxlNetLoader

open Json

namespace Writer

def isControlCharacter (ch : Char) : Bool := '\x00' < ch && ch ≤ '\x1f'

/-- The digits of the value, before what is there. -/
def uintToString (value : ℕ) (current : List Char) : List Char :=
  let current := Char.ofNat (value % 10 + '0'.toNat) :: current
  if value / 10 = 0 then current else uintToString (value / 10) current

/-- The least `LargestInt` is its own negative, and without its sign the number that it is with
it. -/
def valueToString (value : ℤ) : List Char :=
  if value < 0 then '-' :: uintToString (-value).toNat [] else uintToString value.toNat []

/-- What is left of a double's text without all its last zeroes but one, if these are behind a
point. -/
def truncateZeroes (buffer : List Char) : List Char :=
  if buffer.getLast? ≠ some '0' then buffer
  else
    let kept := buffer.reverse.dropWhile (· = '0')
    if (kept.dropWhile Char.isDigit).head? = some '.' then kept.reverse ++ ['0'] else buffer

def isEscaped (c : Char) : Bool :=
  c ∈ ['"', '\\', '\x08', '\x0c', '\n', '\r', '\t'] || isControlCharacter c

/-- Four hexadecimal digits in upper case. -/
def hexQuad (n : ℕ) : List Char := ((Nat.toDigits 16 n).map Char.toUpper).leftpad 4 '0'

def escape : Char → List Char
  | '"' => ['\\', '"']
  | '\\' => ['\\', '\\']
  | '\x08' => ['\\', 'b']
  | '\x0c' => ['\\', 'f']
  | '\n' => ['\\', 'n']
  | '\r' => ['\\', 'r']
  | '\t' => ['\\', 't']
  | c => if isControlCharacter c then '\\' :: 'u' :: hexQuad c.toNat else [c]

def valueToQuotedString (value : List Char) : List Char :=
  if value.any isEscaped then '"' :: (value.flatMap escape ++ ['"'])
  else '"' :: (value ++ ['"'])

/-- The characters of a string up to its first zero. -/
def cChars (s : String) : List Char := s.toList.takeWhile (· ≠ '\x00')

mutual

/-- The value with the members of each object by key, as a `Value` has them. -/
def inOrder : Value → Value
  | .array values => .array (inOrderAll values)
  | .object members => .object (inOrderMembers members)
  | .null => .null
  | .int n => .int n
  | .real x => .real x
  | .bool b => .bool b
  | .string s => .string s

def inOrderAll : List Value → List Value
  | [] => []
  | v :: values => inOrder v :: inOrderAll values

def inOrderMembers : List (String × Value) → List (String × Value)
  | [] => []
  | (key, v) :: members => setMember key (inOrder v) (inOrderMembers members)

end

mutual

/-- What a `Value` can hold, in whatever order its members are. -/
def Holdable : Value → Prop
  | .int n => -2 ^ 63 ≤ n ∧ n < 2 ^ 64
  | .string s => '\x00' ∉ s.toList
  | .array values => HoldableAll values
  | .object members => HoldableMembers members
  | .null | .real _ | .bool _ => True

def HoldableAll : List Value → Prop
  | [] => True
  | v :: values => Holdable v ∧ HoldableAll values

def HoldableMembers : List (String × Value) → Prop
  | [] => True
  | (key, v) :: members => ('\x00' ∉ key.toList ∧ Holdable v) ∧ HoldableMembers members

end

mutual

/-- The doubles within a value. -/
def reals : Value → List ℚ
  | .real x => [x]
  | .array values => realsAll values
  | .object members => realsMembers members
  | .null | .int _ | .bool _ | .string _ => []

def realsAll : List Value → List ℚ
  | [] => []
  | v :: values => reals v ++ realsAll values

def realsMembers : List (String × Value) → List ℚ
  | [] => []
  | (_, v) :: members => reals v ++ realsMembers members

end

section

/- `sprintf` of a double with the format of `valueToString`. -/
variable (sprintf : ℚ → List Char) (yamlCompatiblityEnabled : Bool)

mutual

def writeValue : Value → List Char
  | .null => "null".toList
  | .int n => valueToString n
  | .real x => truncateZeroes (sprintf x)
  | .string s => valueToQuotedString (cChars s)
  | .bool b => if b then "true".toList else "false".toList
  | .array values => '[' :: writeElements values
  | .object members => '{' :: writeMembers members

/-- The values with commas between them, and the bracket. -/
def writeElements : List Value → List Char
  | [] => [']']
  | v :: values => writeValue v ++ writeMoreElements values

def writeMoreElements : List Value → List Char
  | [] => [']']
  | v :: values => ',' :: (writeValue v ++ writeMoreElements values)

def writeMembers : List (String × Value) → List Char
  | [] => ['}']
  | (name, v) :: members =>
    valueToQuotedString (cChars name) ++ (if yamlCompatiblityEnabled then [':', ' '] else [':']) ++
      (writeValue v ++ writeMoreMembers members)

def writeMoreMembers : List (String × Value) → List Char
  | [] => ['}']
  | (name, v) :: members =>
    ',' :: (valueToQuotedString (cChars name) ++
      (if yamlCompatiblityEnabled then [':', ' '] else [':']) ++
        (writeValue v ++ writeMoreMembers members))

end

def write (root : Value) : List Char :=
  writeValue sprintf yamlCompatiblityEnabled (inOrder root) ++ ['\n']

end

end Writer

end LcxlNetLoader
