import LcxlNetLoader.Proofs.Commands
import LcxlNetLoader.Replies

/-!
# Which messages are answered

A command throws just when one of its accessors does (`command_isSome_iff`), and the accessors are
called in an order in which an address that does not parse ends the reading. Everything else that an
event does returns, so the message is answered just when its command does not throw.
-/

namespace LcxlNetLoader

open Json

variable {S : SocketLib} {E : ServiceLib} {moduleList : List ConfigModule} {root : Value}
  {data : List UInt8}

/-- The rest of a command that never fails after a read succeeds as the read does. -/
theorem isSome_bind_of_forall {α β : Type} {o : Option α} {k : α → Option β}
    (h : ∀ a, (k a).isSome) : (o >>= k).isSome ↔ o.isSome := by
  cases o <;> simp [h]

namespace ServiceLib

theorem jcServerList_isSome_iff (h : root.HasMembers) :
    (E.jcServerList moduleList root).isSome ↔ (root.member "miniport_net_luid").IsInt64 := by
  rw [← Value.asInt64_isSome_iff]
  simp only [jcServerList, Value.get_eq_some h, Option.bind_eq_bind, Option.bind_some]
  refine isSome_bind_of_forall fun luid => ?_
  split_ifs
  · rfl
  · split <;> rfl

theorem jcDelServer_isSome_iff (h : root.HasMembers) :
    (E.jcDelServer moduleList root).isSome ↔
      (root.member "miniport_net_luid").IsInt64 ∧ (root.member "mac_addr").IsText := by
  rw [← Value.asInt64_isSome_iff, ← Value.asString_isSome_iff]
  simp only [jcDelServer, Value.get_eq_some h, Option.bind_eq_bind, Option.bind_some]
  rcases (root.member "miniport_net_luid").asInt64 with _ | luid
  · simp
  · rcases (root.member "mac_addr").asString with _ | text
    · simp
    · simp only [Option.bind_some, Option.isSome_some, and_self, iff_true]
      split_ifs <;> rfl

theorem jcAddServer_isSome_iff (h : root.HasMembers) :
    (E.jcAddServer moduleList root).isSome ↔ E.Readable root 0x05 := by
  simp only [Readable, ← Value.asInt64_isSome_iff, ← Value.asInt_isSome_iff,
    ← Value.asString_isSome_iff]
  simp only [jcAddServer, Value.get_eq_some h, Option.bind_eq_bind, Option.bind_some]
  rcases (root.member "miniport_net_luid").asInt64 with _ | luid
  · simp
  by_cases hs : (root.member "server").HasMembers
  · simp only [Value.get_eq_some hs, Option.bind_some]
    rcases ((root.member "server").member "ip_status").asInt with _ | ipStatus
    · simp
    rcases ((root.member "server").member "mac_addr").asString with _ | text
    · simp
    rcases ((root.member "server").member "status").asInt with _ | status
    · simp
    simp only [Option.bind_some, Option.isSome_some, hs, and_self, iff_true]
    split_ifs <;> rfl
  · have hget : (root.member "server").get "ip_status" = none :=
      Option.not_isSome_iff_eq_none.1 (Value.get_isSome_iff.not.2 hs)
    simp [hget, hs]

/-- Past the addresses only the two lengths are read. -/
theorem prefixes_isSome_iff (k : ℤ → ℤ → Option ServiceLib.Outcome)
    (hk : ∀ a b, (k a b).isSome) :
    ((root.member "ipv4_onlink_prefix_length").asInt.bind fun a =>
        (root.member "ipv6_onlink_prefix_length").asInt.bind fun b => k a b).isSome
      ↔ (root.member "ipv4_onlink_prefix_length").IsInt ∧
        (root.member "ipv6_onlink_prefix_length").IsInt := by
  rw [← Value.asInt_isSome_iff, ← Value.asInt_isSome_iff]
  rcases (root.member "ipv4_onlink_prefix_length").asInt with _ | a
  · simp
  rcases (root.member "ipv6_onlink_prefix_length").asInt with _ | b
  · simp
  simp [hk]

theorem jcSetVirtualAddr_isSome_iff (h : root.HasMembers) :
    (E.jcSetVirtualAddr moduleList root).isSome ↔ E.SetsVirtualAddr root := by
  simp only [jcSetVirtualAddr, SetsVirtualAddr, Value.get_eq_some h, Option.bind_eq_bind,
    Option.bind_some]
  rw [← Value.asInt64_isSome_iff, ← Value.asInt_isSome_iff]
  rcases (root.member "miniport_net_luid").asInt64 with _ | luid
  · simp
  by_cases hv : (root.member "virtual_addr").HasMembers
  · simp only [Value.get_eq_some hv, Option.bind_some]
    rcases ((root.member "virtual_addr").member "status").asInt with _ | status
    · simp
    simp only [← Value.asCString_eq_some_iff]
    rcases ((root.member "virtual_addr").member "ipv4").asCString with _ | text4
    · simp
    simp only [Option.bind_some, Option.some.injEq, exists_eq_left']
    rcases E.texts.inetPton4 text4 with _ | ipv4
    · simp [hv]
    simp only [Option.isSome_some, forall_const, hv, true_and]
    rcases ((root.member "virtual_addr").member "ipv6").asCString with _ | text6
    · simp
    simp only [Option.bind_some, Option.some.injEq, exists_eq_left']
    rcases E.texts.inetPton6 text6 with _ | ipv6
    · simp
    simp only [Option.isSome_some, forall_const]
    exact prefixes_isSome_iff _ fun a b => by split_ifs <;> rfl
  · have hget : (root.member "virtual_addr").get "status" = none :=
      Option.not_isSome_iff_eq_none.1 (Value.get_isSome_iff.not.2 hv)
    simp [hget, hv]

variable (moduleList) in
theorem command_isSome_iff (h : root.HasMembers) (code : ℤ) :
    (E.command moduleList root code).isSome ↔ E.Readable root code := by
  unfold command
  split
  · exact iff_of_true rfl trivial
  · exact jcSetVirtualAddr_isSome_iff h
  · exact jcServerList_isSome_iff h
  · exact jcAddServer_isSome_iff h
  · exact jcDelServer_isSome_iff h
  · exact iff_of_true rfl trivial
  · refine iff_of_true rfl ?_
    unfold Readable
    split <;> trivial

/-- A command answers whatever it finds, with an object. -/
theorem processJsonData_isSome_iff :
    (E.processJsonData moduleList root).isSome ↔
      root.HasMembers ∧ ∃ code, (root.member "code").asInt = some code ∧ E.Readable root code := by
  by_cases h : root.HasMembers
  · simp only [processJsonData, Value.get_eq_some h, Option.bind_eq_bind, Option.bind_some, h,
      true_and]
    rcases (root.member "code").asInt with _ | code
    · simp
    simp only [Option.bind_some, Option.some.injEq, exists_eq_left', 
      ← command_isSome_iff moduleList h]
    exact isSome_bind_of_forall fun outcome => rfl
  · have hget : root.get "code" = none :=
      Option.not_isSome_iff_eq_none.1 (Value.get_isSome_iff.not.2 h)
    simp [processJsonData, hget, h]

/-- One text is sent where the command has returned, and nothing where it has not. -/
theorem repliesOnce_iff_isSome :
    E.RepliesOnce S moduleList data ↔
      ∀ root, S.root data = some root → (E.processJsonData moduleList root).isSome := by
  unfold RepliesOnce recvEvent
  rcases S.root data with _ | root
  · simp
  · simp only [Option.some.injEq, forall_eq']
    rcases E.processJsonData moduleList root with _ | ⟨moduleList', ret, saved⟩ <;> simp

/-- A message gets one reply just when what is read of it is of the types it is read as. -/
theorem repliesOnce_iff (S : SocketLib) (E : ServiceLib) (moduleList : List ConfigModule)
    (data : List UInt8) : E.RepliesOnce S moduleList data ↔ E.Answerable S data := by
  rw [repliesOnce_iff_isSome, Answerable]
  exact forall₂_congr fun root _ => processJsonData_isSome_iff

section Runs

/-- A request of which the code is an array. -/
def arrayCode : String := "\x7b\"code\":[]\x7d"

/-- Texts of characters that one byte holds, of which only that request is parsed. -/
def plainSocket : SocketLib where
  wstringToString ws := String.ofList (ws.map fun w => Char.ofNat w.toNat)
  parse text := if text = arrayCode then some (.object [("code", .array [])]) else none
  write _ := ""
  stringToWstring text := text.toList.map fun c => UInt16.ofNat c.toNat

/-- The text as a client sends it. -/
def wideBytes (text : String) : List UInt8 := text.toList.flatMap fun c => [UInt8.ofNat c.toNat, 0]

theorem not_repliesOnce_of_arrayCode :
    (obeying .empty).recvEvent plainSocket [] (wideBytes arrayCode) = none ∧
      ¬ (obeying .empty).RepliesOnce plainSocket [] (wideBytes arrayCode) := by
  have h : (obeying .empty).recvEvent plainSocket [] (wideBytes arrayCode) = none := by
    have hroot : plainSocket.root (wideBytes arrayCode) = some (.object [("code", .array [])]) := by
      have hlen : (wideBytes arrayCode).length % 2 = 0 := by decide +kernel
      have htext : plainSocket.wstringToString (wchars (wideBytes arrayCode)) = arrayCode := by
        decide +kernel
      rw [SocketLib.root, if_pos hlen, htext]
      simp [plainSocket]
    rw [recvEvent, hroot]
    rfl
  exact ⟨h, fun ⟨r, hr, _⟩ => by rw [h] at hr; cases hr⟩

end Runs

end ServiceLib

end LcxlNetLoader
