import LcxlNetLoader.Commands

/-!
# The service's replies

`RecvEvent`: what the service makes of the bytes of one message, up to the text it sends back.
Nothing comes of a message where the command throws, for nothing above `ProcessJsonData` catches.
-/

namespace LcxlNetLoader

open Json

/-- What an event calls besides the command: the conversions of texts, and jsoncpp's `Reader` and
`FastWriter`. -/
structure SocketLib where
  wstringToString : List UInt16 → String
  parse : String → Option Value
  write : Value → String
  stringToWstring : String → List UInt16

/-- The `WCHAR`s that bytes are. -/
def wchars : List UInt8 → List UInt16
  | lo :: hi :: data => u16OfBytes lo hi :: wchars data
  | _ => []

/-- What an event leaves: the modules, whether they were saved, and what `SendData` was called with,
one text a call. -/
structure Received where
  moduleList : List ConfigModule
  saved : Bool
  sent : List (List UInt16)

def jcNone : ℤ := 0x00

/-- What a text is parsed to, where the bytes can be one. -/
def SocketLib.root (S : SocketLib) (data : List UInt8) : Option Value :=
  if data.length % 2 = 0 then S.parse (S.wstringToString (wchars data)) else none

namespace ServiceLib

variable (S : SocketLib) (E : ServiceLib)

def recvEvent (moduleList : List ConfigModule) (data : List UInt8) : Option Received := do
  let (moduleList, ret, saved) ← match S.root data with
    | some root => E.processJsonData moduleList root
    | none => pure (moduleList, .null, false)
  let ret :=
    if ret.isNull then .object [("code", .int jcNone), ("status", .int jsFail)] else ret
  pure ⟨moduleList, saved, [S.stringToWstring (S.write ret)]⟩

/-- The event returns, and has sent one text. -/
def RepliesOnce (moduleList : List ConfigModule) (data : List UInt8) : Prop :=
  ∃ r, E.recvEvent S moduleList data = some r ∧ r.sent.length = 1

/-- A request to set a virtual address has the types that are read. Nothing is read past an address
that does not parse. -/
def SetsVirtualAddr (root : Value) : Prop :=
  let virtualAddr := root.member "virtual_addr"
  virtualAddr.HasMembers ∧ (root.member "miniport_net_luid").IsInt64 ∧
    (virtualAddr.member "status").IsInt ∧
    ∃ ipv4, virtualAddr.member "ipv4" = .string ipv4 ∧ ((E.texts.inetPton4 ipv4).isSome →
      ∃ ipv6, virtualAddr.member "ipv6" = .string ipv6 ∧ ((E.texts.inetPton6 ipv6).isSome →
        (root.member "ipv4_onlink_prefix_length").IsInt ∧
          (root.member "ipv6_onlink_prefix_length").IsInt))

/-- What the command of the code reads of a request is of the types it is read as. -/
def Readable (root : Value) : ℤ → Prop
  | 0x03 => (root.member "miniport_net_luid").IsInt64
  | 0x04 => E.SetsVirtualAddr root
  | 0x05 => (root.member "miniport_net_luid").IsInt64 ∧ (root.member "server").HasMembers ∧
      ((root.member "server").member "ip_status").IsInt ∧
      ((root.member "server").member "mac_addr").IsText ∧
      ((root.member "server").member "status").IsInt
  | 0x07 => (root.member "miniport_net_luid").IsInt64 ∧ (root.member "mac_addr").IsText
  | _ => True

/-- The bytes are no JSON text, or one whose code and whose command's fields can be read. -/
def Answerable (data : List UInt8) : Prop :=
  ∀ root, S.root data = some root →
    root.HasMembers ∧ ∃ code, (root.member "code").asInt = some code ∧ E.Readable root code

end ServiceLib

end LcxlNetLoader
