import LcxlNetLoader.JsonWriter
import LcxlNetLoader.Replies

/-!
# The service's messages

What a client sends is a text of two bytes a character, and so is the answer. The service's `Reader`
and `FastWriter` stand between these and the commands.
-/

namespace LcxlNetLoader

open Json

/-- The conversions of texts, of which a message's is between `WCHAR`s and bytes, and of doubles. -/
structure MessageLib where
  wstringToString : List UInt16 → String
  stringToWstring : String → List UInt16
  sscanf : List Char → Option ℚ
  sprintf : ℚ → List Char

namespace MessageLib

variable (M : MessageLib)

/-- What a `Reader` makes of a text whose reading is successful. -/
def parsed (text : String) : Option Value := do
  let p ← Reader.parse M.sscanf Features.all text.toList .null
  if p.successful then some p.root else none

/-- What an event calls, of which the reader and the writer are jsoncpp's. -/
def socketLib : SocketLib where
  wstringToString := M.wstringToString
  parse := M.parsed
  write v := String.ofList (Writer.write M.sprintf false v)
  stringToWstring := M.stringToWstring

/-- The bytes are of whole `WCHAR`s, and these are the text. -/
structure Carries (data : List UInt8) (text : List Char) : Prop where
  even : data.length % 2 = 0
  text_eq : (M.wstringToString (wchars data)).toList = text

/-- What is sent is a JSON text that stands for the value, with its members by key. -/
def Tells (sent : List UInt16) (v : Value) : Prop :=
  ∃ t : Syntax M.sscanf,
    sent = M.stringToWstring (String.ofList t.text) ∧
      t.value cString = Writer.inOrder v

end MessageLib

namespace ServiceLib

/-- No text that the service makes for an answer has a zero in it. -/
structure Plain (E : ServiceLib) : Prop where
  ipv4 : ∀ a, '\x00' ∉ (E.texts.inetNtop4 a).toList
  ipv6 : ∀ a, '\x00' ∉ (E.texts.inetNtop6 a).toList
  wide : ∀ w, '\x00' ∉ (E.wstringToString w).toList

/-- What the service sends of the messages, each with what there is when it comes. The modules are
those that the message before has left. -/
def serve (S : SocketLib) :
    List ConfigModule → List (ServiceLib × List UInt8) →
      Option (List ConfigModule × List (List UInt16))
  | moduleList, [] => some (moduleList, [])
  | moduleList, (E, data) :: messages => do
    let r ← E.recvEvent S moduleList data
    let (moduleList, sent) ← serve S r.moduleList messages
    pure (moduleList, r.sent ++ sent)

/-- What is answered where there is no request. -/
def failed : Value := .object [("code", .int jcNone), ("status", .int jsFail)]

/-- What a request does, or none. -/
def obeyed (E : ServiceLib) (moduleList : List ConfigModule) :
    Option Value → Option (List ConfigModule × Value)
  | some request => (E.processJsonData moduleList request).map fun r => (r.1, r.2.1)
  | none => some (moduleList, failed)

/-- What the requests do and are answered, each to the modules that the one before has left. -/
def obey : List ConfigModule → List (ServiceLib × Option Value) →
    Option (List ConfigModule × List Value)
  | moduleList, [] => some (moduleList, [])
  | moduleList, (E, request) :: requests => do
    let (moduleList, ret) ← E.obeyed moduleList request
    let (moduleList, rets) ← obey moduleList requests
    pure (moduleList, ret :: rets)

end ServiceLib

/-- The message's text stands for the request. Where there is none, no text is read of it. -/
def MessageLib.Asks (M : MessageLib) (data : List UInt8) : Option Value → Prop
  | some request => ∃ t : Syntax M.sscanf, M.Carries data t.text ∧
      t.value cString = Writer.inOrder request
  | none => M.socketLib.root data = none

end LcxlNetLoader
