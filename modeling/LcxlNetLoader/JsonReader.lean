import LcxlNetLoader.Lib.JsonText

/-!
# jsoncpp's reader

`Reader` of `json_reader.cpp`. A `Location` is the text from a place of the document to its end, and
what is read at the end itself is the terminating zero of the document's `c_str`. A reader calls
`readValue` for each value that is within another: `fuel` bounds how deep it goes and how many
members it reads. Comments are passed over, and not kept.
-/

namespace LcxlNetLoader

open Json

structure Features where
  allowComments : Bool
  strictRoot : Bool

def Features.all : Features := ⟨true, false⟩

def Features.strictMode : Features := ⟨false, true⟩

abbrev Location := List Char

inductive TokenType where
  | endOfStream | objectBegin | objectEnd | arrayBegin | arrayEnd | string | number | true | false
  | null | arraySeparator | memberSeparator | comment | error
  deriving DecidableEq

structure Token where
  type : TokenType
  start : Location
  stop : Location

/-- The text of a token, from its start to its end. -/
def Token.text (token : Token) : List Char :=
  token.start.take (token.start.length - token.stop.length)

structure ErrorInfo where
  token : Token
  message : List Char
  extra : Option Location

namespace Reader

def isSpace (c : Char) : Bool := c = ' ' || c = '\t' || c = '\r' || c = '\n'

def skipSpaces (current : Location) : Location := current.dropWhile isSpace

/-- `*current_`. -/
def peek (current : Location) : Char := current.headD '\x00'

def getNextChar : Location → Char × Location
  | [] => ('\x00', [])
  | c :: current => (c, current)

/-- `match`. -/
def matchPattern (pattern : List Char) (current : Location) : Bool × Location :=
  if pattern.isPrefixOf current then (true, current.drop pattern.length) else (false, current)

/-- The comment ends behind the first slash that is behind a star. -/
def readCStyleComment : Location → Bool × Location
  | [] => (false, [])
  | c :: current =>
    if c = '*' ∧ peek current = '/' then (true, (getNextChar current).2)
    else readCStyleComment current

def readCppStyleComment : Location → Bool × Location
  | [] => (true, [])
  | c :: current => if c = '\r' ∨ c = '\n' then (true, current) else readCppStyleComment current

def readComment (current : Location) : Bool × Location :=
  match getNextChar current with
  | ('*', current) => readCStyleComment current
  | ('/', current) => readCppStyleComment current
  | (_, current) => (false, current)

def isNumberChar (c : Char) : Bool :=
  ('0' ≤ c && c ≤ '9') || c = '.' || c = 'e' || c = 'E' || c = '+' || c = '-'

def readNumber (current : Location) : Location := current.dropWhile isNumberChar

/-- The last character read is a quote only where the loop has met it: at the end it is none. -/
def readString : Location → Bool × Location
  | [] => (false, [])
  | '\\' :: [] => (false, [])
  | '\\' :: _ :: current => readString current
  | c :: current => if c = '"' then (true, current) else readString current

/-- The token from the start on that ends where `scan` has stopped, an error where it failed. -/
def scanned (type : TokenType) (start : Location) (scan : Bool × Location) : Token :=
  ⟨if scan.1 then type else .error, start, scan.2⟩

/-- The token at a place that is no space. -/
def tokenAt (start : Location) : Token :=
  match getNextChar start with
  | ('{', current) => ⟨.objectBegin, start, current⟩
  | ('}', current) => ⟨.objectEnd, start, current⟩
  | ('[', current) => ⟨.arrayBegin, start, current⟩
  | (']', current) => ⟨.arrayEnd, start, current⟩
  | ('"', current) => scanned .string start (readString current)
  | ('/', current) => scanned .comment start (readComment current)
  | ('t', current) => scanned .true start (matchPattern "rue".toList current)
  | ('f', current) => scanned .false start (matchPattern "alse".toList current)
  | ('n', current) => scanned .null start (matchPattern "ull".toList current)
  | (',', current) => ⟨.arraySeparator, start, current⟩
  | (':', current) => ⟨.memberSeparator, start, current⟩
  | ('\x00', current) => ⟨.endOfStream, start, current⟩
  | (c, current) =>
    if ('0' ≤ c ∧ c ≤ '9') ∨ c = '-' then ⟨.number, start, readNumber current⟩
    else ⟨.error, start, current⟩

def readToken (current : Location) : Token := tokenAt (skipSpaces current)

/-- The loops that read tokens while these are comments. -/
def readPastComments : ℕ → Location → Token
  | 0, current => readToken current
  | n + 1, current =>
    let token := readToken current
    if token.type = .comment then readPastComments n token.stop else token

/-- The next token that is no comment. There are no more comments than characters. -/
def nextToken (current : Location) : Token := readPastComments current.length current

def skipCommentTokens (features : Features) (current : Location) : Token :=
  if features.allowComments then nextToken current else readToken current

/-- A string or a number that is read, or the error that is added. -/
abbrev Decoded (α : Type) := Except ErrorInfo α

def notANumber (token : Token) : ErrorInfo :=
  ⟨token, "'".toList ++ token.text ++ "' is not a number.".toList, none⟩

/-- The loop over the digits: no number where they are to be read as a double. -/
def decodeDigits (token : Token) (threshold lastDigitThreshold : ℕ) :
    ℕ → List Char → Decoded (Option ℕ)
  | value, [] => .ok (some value)
  | value, c :: current =>
    if c < '0' ∨ '9' < c then .error (notANumber token)
    else
      let digit := c.toNat - '0'.toNat
      if threshold ≤ value ∧ (current ≠ [] ∨ lastDigitThreshold < digit) then .ok none
      else decodeDigits token threshold lastDigitThreshold ((value * 10 + digit) % 2 ^ 64) current

/-- A number is a double where a point, an exponent or a sign is in it, but for a minus that it
starts with. -/
def isDouble : List Char → Bool
  | [] => false
  | c :: text =>
    c ∈ ['.', 'e', 'E', '+'] || text.any fun c => c ∈ ['.', 'e', 'E', '+'] || c = '-'

section

variable (sscanf : List Char → Option ℚ)

/-- `sscanf` gives what it reads as a double, where there is one. -/
def decodeDouble (token : Token) : Decoded Value :=
  match sscanf token.text with
  | some value => .ok (.real value)
  | none => .error (notANumber token)

def decodeNumber (token : Token) : Decoded Value :=
  if isDouble token.text then decodeDouble sscanf token
  else
    let isNegative := token.text.head? = some '-'
    let maxIntegerValue : ℕ := if isNegative then 2 ^ 63 else 2 ^ 64 - 1
    let digits := if isNegative then token.text.tail else token.text
    match decodeDigits token (maxIntegerValue / 10) (maxIntegerValue % 10) 0 digits with
    | .error e => .error e
    | .ok none => decodeDouble sscanf token
    | .ok (some value) =>
      .ok (.int (if isNegative then (-(value : ℤ).bmod (2 ^ 64)).bmod (2 ^ 64) else value))

end

/-- The place in a string's token that is left of its text, with the quote that ends it. -/
def within (token : Token) (current : List Char) : Location := current ++ '"' :: token.stop

def isHexDigit (c : Char) : Bool :=
  ('0' ≤ c && c ≤ '9') || ('a' ≤ c && c ≤ 'f') || ('A' ≤ c && c ≤ 'F')

def hexDigit (c : Char) : ℕ :=
  if '0' ≤ c ∧ c ≤ '9' then c.toNat - '0'.toNat
  else if 'a' ≤ c ∧ c ≤ 'f' then c.toNat - 'a'.toNat + 10
  else c.toNat - 'A'.toNat + 10

def decodeHexDigits (token : Token) : ℕ → ℕ → List Char → Decoded (ℕ × List Char)
  | n + 1, unicode, c :: current =>
    if isHexDigit c then decodeHexDigits token n (unicode * 16 + hexDigit c) current
    else .error ⟨token, "Bad unicode escape sequence in string: hexadecimal digit expected.".toList,
      some (within token current)⟩
  | _, unicode, current => .ok (unicode, current)

def decodeUnicodeEscapeSequence (token : Token) (current : List Char) :
    Decoded (ℕ × List Char) :=
  if current.length < 4 then
    .error ⟨token, "Bad unicode escape sequence in string: four digits expected.".toList,
      some (within token current)⟩
  else decodeHexDigits token 4 0 current

def expectingSecondHalf (token : Token) (current : List Char) : ErrorInfo :=
  ⟨token, ("expecting another \\u token to begin the second half of " ++
    "a unicode surrogate pair").toList, some (within token current)⟩

def decodeUnicodeCodePoint (token : Token) (current : List Char) : Decoded (ℕ × List Char) := do
  let (unicode, current) ← decodeUnicodeEscapeSequence token current
  if 0xD800 ≤ unicode ∧ unicode ≤ 0xDBFF then
    if current.length < 6 then
      .error ⟨token,
        "additional six characters expected to parse unicode surrogate pair.".toList,
        some (within token current)⟩
    else match current with
      | '\\' :: 'u' :: current => do
        let (surrogatePair, current) ← decodeUnicodeEscapeSequence token current
        pure (0x10000 + ((unicode &&& 0x3FF) <<< 10) + (surrogatePair &&& 0x3FF), current)
      | '\\' :: _ :: current => .error (expectingSecondHalf token current)
      | current => .error (expectingSecondHalf token current.tail)
  else pure (unicode, current)

def codePointToUTF8 (cp : ℕ) : List Char :=
  if cp ≤ 0x7f then [Char.ofNat cp]
  else if cp ≤ 0x7FF then
    [Char.ofNat (0xC0 ||| (0x1f &&& (cp >>> 6))), Char.ofNat (0x80 ||| (0x3f &&& cp))]
  else if cp ≤ 0xFFFF then
    [Char.ofNat (0xE0 ||| (0xf &&& (cp >>> 12))), Char.ofNat (0x80 ||| (0x3f &&& (cp >>> 6))),
      Char.ofNat (0x80 ||| (0x3f &&& cp))]
  else if cp ≤ 0x10FFFF then
    [Char.ofNat (0xF0 ||| (0x7 &&& (cp >>> 18))), Char.ofNat (0x80 ||| (0x3f &&& (cp >>> 12))),
      Char.ofNat (0x80 ||| (0x3f &&& (cp >>> 6))), Char.ofNat (0x80 ||| (0x3f &&& cp))]
  else []

/-- The loop over a string's text, with what is decoded before. An escape takes one character or
more of what follows its letter: `fuel` bounds the rounds. -/
def decodeStringFrom (token : Token) : ℕ → List Char → List Char → Decoded (List Char)
  | fuel + 1, decoded, '\\' :: current =>
    match current with
    | [] => .error ⟨token, "Empty escape sequence in string".toList, some (within token [])⟩
    | 'u' :: current => do
      let (unicode, current) ← decodeUnicodeCodePoint token current
      decodeStringFrom token fuel (decoded ++ codePointToUTF8 unicode) current
    | escape :: current =>
      match shortEscape escape with
      | some c => decodeStringFrom token fuel (decoded ++ [c]) current
      | none => .error ⟨token, "Bad escape sequence in string".toList,
          some (within token current)⟩
  | fuel + 1, decoded, c :: current =>
    if c = '"' then .ok decoded else decodeStringFrom token fuel (decoded ++ [c]) current
  | _, decoded, _ => .ok decoded

/-- The string of a token, between its quotes. -/
def decodeString (token : Token) : Decoded (List Char) :=
  let text := token.text.tail.dropLast
  decodeStringFrom token text.length [] text

end Reader

/-- What is kept where a `Value` or a `CZString` is made of a string's `c_str`. -/
def cString (s : List Char) : String := String.ofList (s.takeWhile (· ≠ '\x00'))

mutual

/-- What a `Value` holds: numbers of 64 bits, strings without a zero, and members by key. -/
def Held : Value → Prop
  | .int n => -2 ^ 63 ≤ n ∧ n < 2 ^ 64
  | .string s => '\x00' ∉ s.toList
  | .array values => HeldAll values
  | .object members => InOrder members ∧ HeldMembers members
  | .null | .real _ | .bool _ => True

def HeldAll : List Value → Prop
  | [] => True
  | v :: values => Held v ∧ HeldAll values

def HeldMembers : List (String × Value) → Prop
  | [] => True
  | (key, v) :: members => ('\x00' ∉ key.toList ∧ Held v) ∧ HeldMembers members

end

structure ReaderState where
  current : Location
  errors : List ErrorInfo

/-- What a read leaves: whether it was successful, `currentValue()`, and the state. -/
structure Reading where
  successful : Bool
  value : Value
  state : ReaderState

namespace Reader

def addError (s : ReaderState) (e : ErrorInfo) : ReaderState := { s with errors := s.errors ++ [e] }

/-- The loop of `recoverFromError`. Reading a token adds no error, so that there is none to
discard. -/
def skipUntil (skipUntilToken : TokenType) : ℕ → Location → Location
  | 0, current => current
  | n + 1, current =>
    let skip := readToken current
    if skip.type = skipUntilToken ∨ skip.type = .endOfStream then skip.stop
    else skipUntil skipUntilToken n skip.stop

def recoverFromError (s : ReaderState) (skipUntilToken : TokenType) : ReaderState :=
  { s with current := skipUntil skipUntilToken (s.current.length + 1) s.current }

def addErrorAndRecover (s : ReaderState) (e : ErrorInfo) (skipUntilToken : TokenType) :
    ReaderState :=
  recoverFromError (addError s e) skipUntilToken

/-- A value that is decoded takes the place of the old one. -/
def ofDecoded (old : Value) (s : ReaderState) : Decoded Value → Reading
  | .ok value => ⟨true, value, s⟩
  | .error e => ⟨false, old, addError s e⟩

section

variable (sscanf : List Char → Option ℚ) (features : Features)

mutual

/-- `readValue`, where the current value is an old one at first. -/
def readValue : ℕ → Value → ReaderState → Option Reading
  | 0, _, _ => none
  | fuel + 1, old, s =>
    let token := skipCommentTokens features s.current
    let s := { s with current := token.stop }
    match token.type with
    | .objectBegin => readObject fuel [] [] s
    | .arrayBegin =>
      if peek (skipSpaces s.current) = ']' then
        some ⟨true, .array [], { s with current := (readToken (skipSpaces s.current)).stop }⟩
      else readArray fuel [] { s with current := skipSpaces s.current }
    | .number => some (ofDecoded old s (decodeNumber sscanf token))
    | .string =>
      some (ofDecoded old s ((decodeString token).map fun decoded => .string (cString decoded)))
    | .true => some ⟨true, .bool true, s⟩
    | .false => some ⟨true, .bool false, s⟩
    | .null => some ⟨true, .null, s⟩
    | _ => some ⟨false, old,
        addError s ⟨token, "Syntax error: value, object or array expected.".toList, none⟩⟩

/-- The loop of `readObject`, with the name of the member before and the members so far. A comma
is looked for only where no comment is in its place. -/
def readObject : ℕ → List Char → List (String × Value) → ReaderState → Option Reading
  | 0, _, _, _ => none
  | fuel + 1, name, members, s =>
    let tokenName := nextToken s.current
    let s := { s with current := tokenName.stop }
    if tokenName.type = .objectEnd ∧ name = [] then some ⟨true, .object members, s⟩
    else if tokenName.type ≠ .string then
      some ⟨false, .object members, addErrorAndRecover s
        ⟨tokenName, "Missing '\x7d' or object member name".toList, none⟩ .objectEnd⟩
    else match decodeString tokenName with
      | .error e =>
        some ⟨false, .object members, recoverFromError (addError s e) .objectEnd⟩
      | .ok name =>
        let colon := readToken s.current
        let s := { s with current := colon.stop }
        if colon.type ≠ .memberSeparator then
          some ⟨false, .object members, addErrorAndRecover s
            ⟨colon, "Missing ':' after object member name".toList, none⟩ .objectEnd⟩
        else
          let value := (members.lookup (cString name)).getD .null
          match readValue fuel value s with
          | none => none
          | some r =>
            let members := setMember (cString name) r.value members
            if ¬ r.successful then
              some ⟨false, .object members, recoverFromError r.state .objectEnd⟩
            else
              let s := r.state
              let comma := readToken s.current
              if comma.type ≠ .objectEnd ∧ comma.type ≠ .arraySeparator ∧
                  comma.type ≠ .comment then
                some ⟨false, .object members,
                  addErrorAndRecover { s with current := comma.stop }
                    ⟨comma, "Missing ',' or '\x7d' in object declaration".toList, none⟩ .objectEnd⟩
              else
                let comma := nextToken s.current
                let s := { s with current := comma.stop }
                if comma.type = .objectEnd then some ⟨true, .object members, s⟩
                else readObject fuel name members s

/-- The loop of `readArray`, with the values so far. -/
def readArray : ℕ → List Value → ReaderState → Option Reading
  | 0, _, _ => none
  | fuel + 1, values, s =>
    match readValue fuel .null s with
    | none => none
    | some r =>
      let values := values ++ [r.value]
      if ¬ r.successful then
        some ⟨false, .array values, recoverFromError r.state .arrayEnd⟩
      else
        let token := nextToken r.state.current
        let s := { r.state with current := token.stop }
        if token.type ≠ .arraySeparator ∧ token.type ≠ .arrayEnd then
          some ⟨false, .array values, addErrorAndRecover s
            ⟨token, "Missing ',' or ']' in array declaration".toList, none⟩ .arrayEnd⟩
        else if token.type = .arrayEnd then some ⟨true, .array values, s⟩
        else readArray fuel values s

end

/-- Whether the document was read, and what the root and the errors are then. -/
structure Parsed where
  successful : Bool
  root : Value
  errors : List ErrorInfo

def isArrayOrObject (root : Value) : Bool := root.isArray || root.isObject

/-- The error of a root that is neither an array nor an object, at the start of the document. -/
def rootError (document : List Char) : ErrorInfo :=
  ⟨⟨.error, document, []⟩,
    "A valid JSON document must be either an array or an object value.".toList, none⟩

/-- What is behind the root is not looked at, but for comments. -/
def parse (document : List Char) (root : Value) : Option Parsed := do
  let r ← readValue sscanf features (2 * document.length + 2) root ⟨document, []⟩
  if features.strictRoot ∧ ¬ isArrayOrObject r.value then
    pure ⟨false, r.value, r.state.errors ++ [rootError document]⟩
  else pure ⟨r.successful, r.value, r.state.errors⟩

end

/-- The loop of `getLocationLineAndColumn`, with where the last line starts and how many are
before it. -/
def lastLine (location : Location) : Location → Location → ℕ → Location × ℕ
  | [], lastLineStart, line => (lastLineStart, line)
  | '\r' :: '\n' :: current, lastLineStart, line =>
    if current.length + 2 ≤ location.length then (lastLineStart, line)
    else lastLine location current current (line + 1)
  | c :: current, lastLineStart, line =>
    if current.length + 1 ≤ location.length then (lastLineStart, line)
    else if c = '\r' ∨ c = '\n' then lastLine location current current (line + 1)
    else lastLine location current lastLineStart line

/-- The line and the column, of which the first are 1. -/
def getLocationLineAndColumn (document : List Char) (location : Location) : ℕ × ℤ :=
  let (lastLineStart, line) := lastLine location document document 0
  (line + 1, (lastLineStart.length : ℤ) - location.length + 1)

end Reader

end LcxlNetLoader
