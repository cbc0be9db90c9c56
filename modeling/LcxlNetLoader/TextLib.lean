import LcxlNetLoader.Config
import LcxlNetLoader.Net

/-!
# Texts of addresses and numbers

The service takes addresses and numbers out of texts, and puts them into texts, in its configuration
file and in what it answers its clients. The conversions it has from elsewhere are a `TextLib`.
-/

namespace LcxlNetLoader

/-- The conversions the service calls and does not have: `inet_ntop` and `inet_pton`, which gives
nothing where its text is no address; `string_to_mac`, the bytes it has parsed;
`wstring_to_utf8string` and `utf8string_to_wstring`; `SetAttribute` of an `int` and
`UnsignedAttribute`. -/
structure TextLib where
  inetNtop4 : Bytes 4 → String
  inetPton4 : String → Option (Bytes 4)
  inetNtop6 : Bytes 16 → String
  inetPton6 : String → Option (Bytes 16)
  stringToMac : String → List UInt8
  wstringToUtf8string : WideText → String
  utf8stringToWstring : String → WideText
  intText : Int32 → String
  unsignedOf : String → UInt32

/-- A digit of `%x`. -/
def hexDigit (n : ℕ) : Char := "0123456789abcdef".toList.getD n '0'

/-- The `%02x` of every byte, with `-` between. -/
def hexChars : List UInt8 → List Char
  | [] => []
  | [b] => [hexDigit (b.toNat / 16), hexDigit (b.toNat % 16)]
  | b :: bs => hexDigit (b.toNat / 16) :: hexDigit (b.toNat % 16) :: '-' :: hexChars bs

/-- `string_format` of the first six bytes of an address, whatever its length. -/
def macText (macAddr : IfPhysicalAddress) : String :=
  String.ofList (hexChars (macAddr.address.toList.take 6))

/-- What the conversions are documented to do: each text gives back what it was made of. -/
structure TextLib.Faithful (P : TextLib) : Prop where
  ipv4 : ∀ a, P.inetPton4 (P.inetNtop4 a) = some a
  ipv6 : ∀ a, P.inetPton6 (P.inetNtop6 a) = some a
  mac : ∀ bs : List UInt8, bs.length = 6 → P.stringToMac (String.ofList (hexChars bs)) = bs
  wide : ∀ w, P.utf8stringToWstring (P.wstringToUtf8string w) = w
  int : ∀ v, P.unsignedOf (P.intText v) = v.toUInt32

/-- An address as `string_to_mac` leaves a zeroed one. -/
def TextLib.macAddr (P : TextLib) (text : String) : IfPhysicalAddress :=
  ⟨(P.stringToMac text).length, (Bytes.zero 32).move (P.stringToMac text)⟩

/-- The number a text begins with, after blanks and a sign, or the greatest or the least there is of
64 bits. -/
def atoi64 (s : String) : ℤ :=
  let cs := s.toList.dropWhile Char.isWhitespace
  let digits := fun cs : List Char => (Nat.ofDigitChars 10 (cs.takeWhile Char.isDigit) 0 : ℤ)
  let value := match cs with
    | '-' :: cs => -digits cs
    | '+' :: cs => digits cs
    | cs => digits cs
  max (-2 ^ 63) (min (2 ^ 63 - 1) value)

end LcxlNetLoader
