import LcxlNetLoader.Proofs.JsonDocuments
import LcxlNetLoader.Proofs.Replies
import LcxlNetLoader.Messages

/-!
# Commands over the wire

A command does not see in what order a request has its members, and its answer is a value that can
be written. So a message whose text stands for a request, however it is written, is answered with a
text that stands for the command's answer.
-/

namespace LcxlNetLoader

open Json Writer

/-! ## Requests -/

section Requests

theorem get_inOrder (key : String) (v : Value) :
    (inOrder v).get key = (v.get key).map inOrder := by
  cases v with
  | object members =>
    rw [inOrder, Value.get_object, Value.get_object, lookup_inOrderMembers]
    rcases members.lookup key with _ | w <;> rfl
  | _ => rfl

theorem asInt_inOrder (v : Value) : (inOrder v).asInt = v.asInt := by cases v <;> rfl

theorem asInt64_inOrder (v : Value) : (inOrder v).asInt64 = v.asInt64 := by cases v <;> rfl

theorem asString_inOrder (v : Value) : (inOrder v).asString = v.asString := by cases v <;> rfl

theorem asCString_inOrder (v : Value) : (inOrder v).asCString = v.asCString := by cases v <;> rfl

/-- What is read of a member is read of the member of the value in order. -/
theorem get_inOrder_bind {α : Type} (key : String) (v : Value) (k : Value → Option α) :
    ((inOrder v).get key).bind k = (v.get key).bind fun w => k (inOrder w) := by
  rw [get_inOrder, Option.bind_map]
  rfl

namespace ServiceLib

variable (E : ServiceLib) (moduleList : List ConfigModule) (root : Value)

theorem jcSetVirtualAddr_inOrder :
    E.jcSetVirtualAddr moduleList (inOrder root) = E.jcSetVirtualAddr moduleList root := by
  simp only [jcSetVirtualAddr, Option.bind_eq_bind, get_inOrder_bind, asInt_inOrder,
    asInt64_inOrder, asCString_inOrder]

theorem jcServerList_inOrder :
    E.jcServerList moduleList (inOrder root) = E.jcServerList moduleList root := by
  simp only [jcServerList, Option.bind_eq_bind, get_inOrder_bind, asInt64_inOrder]

theorem jcAddServer_inOrder :
    E.jcAddServer moduleList (inOrder root) = E.jcAddServer moduleList root := by
  simp only [jcAddServer, Option.bind_eq_bind, get_inOrder_bind, asInt_inOrder, asInt64_inOrder,
    asString_inOrder]

theorem jcDelServer_inOrder :
    E.jcDelServer moduleList (inOrder root) = E.jcDelServer moduleList root := by
  simp only [jcDelServer, Option.bind_eq_bind, get_inOrder_bind, asInt64_inOrder, asString_inOrder]

theorem command_inOrder (code : ℤ) :
    E.command moduleList (inOrder root) code = E.command moduleList root code := by
  simp only [command, jcSetVirtualAddr_inOrder, jcServerList_inOrder, jcAddServer_inOrder,
    jcDelServer_inOrder]

theorem processJsonData_inOrder :
    E.processJsonData moduleList (inOrder root) = E.processJsonData moduleList root := by
  simp only [processJsonData, Option.bind_eq_bind, get_inOrder_bind, asInt_inOrder, command_inOrder]

end ServiceLib

end Requests

/-! ## Answers -/

section Answers

/-- A value that can be written and has no double in it. -/
structure Whole (v : Value) : Prop where
  holdable : Holdable v
  reals_eq : reals v = []

/-- Members that can be. -/
structure WholeMembers (members : List (String × Value)) : Prop where
  holdable : HoldableMembers members
  reals_eq : realsMembers members = []

theorem whole_int {n : ℤ} (h : -2 ^ 63 ≤ n ∧ n < 2 ^ 64) : Whole (.int n) := ⟨h, rfl⟩

theorem whole_string {s : String} (h : '\x00' ∉ s.toList) : Whole (.string s) := ⟨h, rfl⟩

theorem whole_bool (b : Bool) : Whole (.bool b) := ⟨trivial, rfl⟩

theorem whole_object {members : List (String × Value)} (h : WholeMembers members) :
    Whole (.object members) := ⟨h.holdable, h.reals_eq⟩

theorem wholeMembers_nil : WholeMembers [] := ⟨trivial, rfl⟩

theorem WholeMembers.cons {key : String} {v : Value} {members : List (String × Value)}
    (hkey : '\x00' ∉ key.toList) (hv : Whole v) (h : WholeMembers members) :
    WholeMembers ((key, v) :: members) where
  holdable := ⟨⟨hkey, hv.holdable⟩, h.holdable⟩
  reals_eq := by rw [realsMembers, hv.reals_eq, h.reals_eq, List.append_nil]

theorem WholeMembers.append {members members' : List (String × Value)} (h : WholeMembers members)
    (h' : WholeMembers members') : WholeMembers (members ++ members') := by
  induction members with
  | nil => exact h'
  | cons m members ih =>
    obtain ⟨hreals, hreals'⟩ := List.append_eq_nil_iff.mp h.reals_eq
    exact (ih ⟨h.holdable.2, hreals'⟩).cons h.holdable.1.1 ⟨h.holdable.1.2, hreals⟩

theorem wholeAll {values : List Value} (h : ∀ v ∈ values, Whole v) :
    HoldableAll values ∧ realsAll values = [] := by
  induction values with
  | nil => exact ⟨trivial, rfl⟩
  | cons v values ih =>
    obtain ⟨hv, hvalues⟩ := List.forall_mem_cons.mp h
    obtain ⟨hholds, hreals⟩ := ih hvalues
    exact ⟨⟨hv.holdable, hholds⟩, by rw [realsAll, hv.reals_eq, hreals, List.append_nil]⟩

theorem whole_ofList {values : List Value} (h : ∀ v ∈ values, Whole v) :
    Whole (Value.ofList values) := by
  cases values with
  | nil => exact ⟨trivial, rfl⟩
  | cons v values => exact ⟨(wholeAll h).1, (wholeAll h).2⟩

/-- A control character, which zero is one of, is not among others. -/
theorem zero_notMem_of_ge {cs : List Char} (h : ∀ c ∈ cs, 32 ≤ c.toNat) : '\x00' ∉ cs := fun hm =>
  absurd (h _ hm) (by decide)

theorem bounds_toNat {n : ℕ} (h : n < 2 ^ 64) : -2 ^ 63 ≤ (n : ℤ) ∧ (n : ℤ) < 2 ^ 64 := by omega

theorem bounds_int32 (n : Int32) : -2 ^ 63 ≤ n.toInt ∧ n.toInt < 2 ^ 64 := by
  have hle := n.le_toInt
  have hlt := n.toInt_lt
  omega

theorem truncate_bounds {lo hi : ℤ} {x : ℚ} (hlo : lo ≤ 0) (hhi : 0 ≤ hi) (h : lo ≤ x ∧ x ≤ hi) :
    lo ≤ Value.truncate x ∧ Value.truncate x ≤ hi := by
  rcases le_or_gt 0 x with hx | hx
  · have hfloor : Value.truncate x = ⌊x⌋ := by
      rw [Value.truncate, Int.tdiv_eq_ediv_of_nonneg (Rat.num_nonneg.mpr hx),
        Rat.floor_def']
    rw [hfloor]
    exact ⟨hlo.trans (Int.floor_nonneg.mpr hx), Int.cast_le.mp ((Int.floor_le x).trans h.2)⟩
  · have hceil : Value.truncate x = ⌈x⌉ := by
      have hneg : 0 ≤ (-x).num := Rat.num_nonneg.mpr (neg_nonneg.mpr hx.le)
      rw [← neg_neg x, Int.ceil_neg, Rat.floor_def', ← Int.tdiv_eq_ediv_of_nonneg hneg,
        Value.truncate, Rat.neg_num, Rat.neg_den, Int.neg_tdiv]
    have hzero : ⌈x⌉ ≤ 0 := Int.ceil_le.mpr (by simpa using hx.le)
    rw [hceil]
    exact ⟨Int.cast_le.mp (h.1.trans (Int.le_ceil x)), hzero.trans hhi⟩

/-- What is converted to a number is within the bounds. -/
theorem asIntIn_bounds {lo hi n : ℤ} {v : Value} (hlo : lo ≤ 0) (hhi : 1 ≤ hi)
    (h : v.asIntIn lo hi = some n) : lo ≤ n ∧ n ≤ hi := by
  cases v with
  | null =>
    obtain rfl := Option.some.inj h
    exact ⟨hlo, by omega⟩
  | int k =>
    rw [Value.asIntIn, Option.ite_none_right_eq_some] at h
    obtain ⟨hk, heq⟩ := h
    exact Option.some.inj heq ▸ hk
  | real x =>
    rw [Value.asIntIn, Option.ite_none_right_eq_some] at h
    obtain ⟨hx, heq⟩ := h
    exact Option.some.inj heq ▸ truncate_bounds hlo (by omega) hx
  | bool b =>
    obtain rfl := Option.some.inj h
    cases b
    · exact ⟨hlo, by simpa using by omega⟩
    · exact ⟨by simpa using by omega, hhi⟩
  | string s => cases h
  | array values => cases h
  | object members => cases h

namespace ServiceLib

variable {E : ServiceLib}

theorem whole_virtualAddrJson (hE : E.Plain) (addr : LcxlAddrInfo) :
    Whole (E.virtualAddrJson addr) := by
  have hbyte : ∀ b : UInt8, Whole (.int b.toNat) := fun b =>
    whole_int (bounds_toNat (b.toNat_lt.trans (by norm_num)))
  refine whole_object ?_
  refine .cons (by decide) (hbyte _) ?_
  refine .cons (by decide) (whole_string (hE.ipv4 _)) ?_
  refine .cons (by decide) (hbyte _) ?_
  refine .cons (by decide) (whole_string (hE.ipv6 _)) ?_
  exact .cons (by decide) (hbyte _) wholeMembers_nil

theorem whole_serverCheckJson (serverCheck : ConfigServerCheck) :
    Whole (serverCheckJson serverCheck) :=
  have hint := fun n : Int32 => whole_int (bounds_int32 n)
  whole_object (.cons (by decide) (hint _) (.cons (by decide) (hint _)
    (.cons (by decide) (hint _) wholeMembers_nil)))

theorem whole_moduleJson (hE : E.Plain) {m : ConfigModule} (hm : m.serverList.length < 2 ^ 64) :
    Whole (E.moduleJson m) := by
  have hint : ∀ n : Int32, Whole (.int n.toInt) := fun n => whole_int (bounds_int32 n)
  have hwide : ∀ w, Whole (.string (E.wstringToString w)) := fun w => whole_string (hE.wide w)
  have hifindex := m.module.miniportIfindex.toNat_lt
  refine whole_object ?_
  refine .cons (by decide) (hint _) ?_
  refine .cons (by decide) (whole_bool _) (.cons (by decide) (whole_bool _)
    (.cons (by decide) (whole_bool _) ?_))
  refine .cons (by decide) (hwide _) ?_
  refine .cons (by decide) (whole_string (zero_notMem_of_ge (macText_ge _))) ?_
  refine .cons (by decide) (hwide _) ?_
  refine .cons (by decide) (whole_int (bounds_toNat (hifindex.trans (by norm_num)))) ?_
  refine .cons (by decide) (hwide _) ?_
  refine .cons (by decide) (whole_int (bounds_toNat m.module.miniportNetLuid.toNat_lt)) ?_
  refine .cons (by decide) (whole_int (bounds_toNat hm)) ?_
  refine .cons (by decide) (hint _) ?_
  refine .cons (by decide) (whole_serverCheckJson _) ?_
  refine .cons (by decide) (hint _) ?_
  exact .cons (by decide) (whole_virtualAddrJson hE _) wholeMembers_nil

theorem whole_serverJson (hE : E.Plain) (s : ConfigServer) : Whole (E.serverJson s) := by
  have hbyte : ∀ b : UInt8, Whole (.int b.toNat) := fun b =>
    whole_int (bounds_toNat (b.toNat_lt.trans (by norm_num)))
  refine whole_object ?_
  refine .cons (by decide) (hbyte _) (.cons (by decide) (hbyte _) ?_)
  refine .cons (by decide) (whole_string (zero_notMem_of_ge (macText_ge _))) ?_
  exact .cons (by decide) (whole_string (hE.wide _)) wholeMembers_nil

/-- What a command leaves is whole, and no list of servers is longer than one had been by more than
one. -/
structure Outcome.Whole (moduleList : List ConfigModule) (outcome : Outcome) : Prop where
  data : WholeMembers outcome.2.1
  status : 0 ≤ outcome.2.2 ∧ outcome.2.2 ≤ 4
  grown : ∀ m ∈ outcome.1, ∃ m' ∈ moduleList, m.serverList.length ≤ m'.serverList.length + 1

theorem grown_self (moduleList : List ConfigModule) :
    ∀ m ∈ moduleList, ∃ m' ∈ moduleList, m.serverList.length ≤ m'.serverList.length + 1 :=
  fun m hm => ⟨m, hm, Nat.le_succ _⟩

/-- A command that changes nothing. -/
theorem whole_unchanged (moduleList : List ConfigModule) {data : List (String × Value)} {status : ℤ}
    (hdata : WholeMembers data) (hstatus : 0 ≤ status ∧ status ≤ 4) :
    Outcome.Whole moduleList (moduleList, data, status) :=
  ⟨hdata, hstatus, grown_self moduleList⟩

/-- A command that succeeds and answers nothing of its own. -/
theorem whole_changed {moduleList moduleList' : List ConfigModule}
    (hgrown : ∀ m ∈ moduleList', ∃ m' ∈ moduleList,
      m.serverList.length ≤ m'.serverList.length + 1) :
    Outcome.Whole moduleList (moduleList', [], jsSuccess) :=
  ⟨wholeMembers_nil, ⟨le_refl 0, by norm_num [jsSuccess]⟩, hgrown⟩

theorem grown_updateModule {moduleList : List ConfigModule} {luid : UInt64}
    {f : ConfigModule → ConfigModule}
    (hf : ∀ m, (f m).serverList.length ≤ m.serverList.length + 1) :
    ∀ m ∈ LcxlConfig.updateModule moduleList luid f,
      ∃ m' ∈ moduleList, m.serverList.length ≤ m'.serverList.length + 1 := by
  intro m hm
  rw [LcxlConfig.updateModule] at hm
  split at hm
  · obtain ⟨i, hi, rfl⟩ := List.mem_iff_getElem.mp hm
    rw [List.length_modify] at hi
    rw [List.getElem_modify]
    refine ⟨moduleList[i], List.getElem_mem hi, ?_⟩
    split_ifs
    · exact hf _
    · exact Nat.le_succ _
  · exact grown_self moduleList m hm

theorem length_updateServer_le (serverList : List ConfigServer) (server : ConfigServer) :
    (LcxlConfig.updateServer serverList server).length ≤ serverList.length + 1 := by
  rw [LcxlConfig.updateServer]
  split <;> simp

theorem length_removeServer_le (serverList : List ConfigServer) (macAddr : IfPhysicalAddress) :
    (LcxlConfig.removeServer serverList macAddr).1.length ≤ serverList.length + 1 := by
  rw [LcxlConfig.removeServer]
  split
  · rw [List.length_eraseIdx]
    split <;> omega
  · exact Nat.le_succ _

variable {moduleList : List ConfigModule} {root : Value} {outcome : Outcome}

theorem whole_jcModuleList (hE : E.Plain)
    (hcount : ∀ m ∈ moduleList, m.serverList.length < 2 ^ 64) :
    Outcome.Whole moduleList (E.jcModuleList moduleList) := by
  have hlist : Whole (Value.ofList (moduleList.map E.moduleJson)) :=
    whole_ofList (List.forall_mem_map.mpr fun m hm => whole_moduleJson hE (hcount m hm))
  exact whole_unchanged moduleList (.cons (by decide) hlist wholeMembers_nil) (by decide)

theorem whole_jcSetVirtualAddr (h : E.jcSetVirtualAddr moduleList root = some outcome) :
    Outcome.Whole moduleList outcome := by
  have hinvalid : Outcome.Whole moduleList (moduleList, [], jsJsonCodeIpFormatInvalid) :=
    whole_unchanged moduleList wholeMembers_nil (by decide)
  simp only [jcSetVirtualAddr, Option.bind_eq_bind, Option.bind_eq_some_iff] at h
  obtain ⟨virtualAddr, -, -, -, luid, -, -, -, status, -, v4, -, text4, -, h⟩ := h
  split at h
  · exact Option.some.inj h ▸ hinvalid
  simp only [Option.bind_eq_some_iff] at h
  obtain ⟨v6, -, text6, -, h⟩ := h
  split at h
  · exact Option.some.inj h ▸ hinvalid
  simp only [Option.bind_eq_some_iff] at h
  obtain ⟨-, -, prefix4, -, -, -, prefix6, -, h⟩ := h
  split_ifs at h
  · rw [← Option.some.inj h]
    exact whole_changed (grown_updateModule fun m => Nat.le_succ _)
  · rw [← Option.some.inj h]
    exact whole_unchanged moduleList wholeMembers_nil (by decide)

theorem whole_jcServerList (hE : E.Plain) (h : E.jcServerList moduleList root = some outcome) :
    Outcome.Whole moduleList outcome := by
  have hnone : Outcome.Whole moduleList (moduleList, [], jsJsonDataNotFound) :=
    whole_unchanged moduleList wholeMembers_nil (by decide)
  simp only [jcServerList, Option.bind_eq_bind, Option.bind_eq_some_iff] at h
  obtain ⟨-, -, luid, -, h⟩ := h
  split_ifs at h
  · exact Option.some.inj h ▸ hnone
  split at h
  · exact Option.some.inj h ▸ hnone
  · next m hm =>
    have hlist : Whole (Value.ofList (m.serverList.map E.serverJson)) :=
      whole_ofList (List.forall_mem_map.mpr fun s _ => whole_serverJson hE s)
    rw [← Option.some.inj h]
    exact whole_unchanged moduleList (.cons (by decide) hlist wholeMembers_nil) (by decide)

theorem whole_jcAddServer (h : E.jcAddServer moduleList root = some outcome) :
    Outcome.Whole moduleList outcome := by
  simp only [jcAddServer, Option.bind_eq_bind, Option.bind_eq_some_iff] at h
  obtain ⟨-, -, luid, -, serverJson, -, -, -, ipStatus, -, -, -, text, -, -, -, status, -, h⟩ := h
  split_ifs at h
  · rw [← Option.some.inj h]
    exact whole_changed (grown_updateModule fun m => length_updateServer_le m.serverList _)
  · rw [← Option.some.inj h]
    exact whole_unchanged moduleList wholeMembers_nil (by decide)

theorem whole_jcDelServer (h : E.jcDelServer moduleList root = some outcome) :
    Outcome.Whole moduleList outcome := by
  simp only [jcDelServer, Option.bind_eq_bind, Option.bind_eq_some_iff] at h
  obtain ⟨-, -, luid, -, -, -, text, -, h⟩ := h
  split_ifs at h
  · rw [← Option.some.inj h]
    exact whole_changed (grown_updateModule fun m => length_removeServer_le m.serverList _)
  · rw [← Option.some.inj h]
    exact whole_unchanged moduleList wholeMembers_nil (by decide)

theorem whole_command (hE : E.Plain) (hcount : ∀ m ∈ moduleList, m.serverList.length < 2 ^ 64)
    {code : ℤ} (h : E.command moduleList root code = some outcome) :
    Outcome.Whole moduleList outcome := by
  unfold command at h
  split at h
  · exact Option.some.inj h ▸ whole_jcModuleList hE hcount
  · exact whole_jcSetVirtualAddr h
  · exact whole_jcServerList hE h
  · exact whole_jcAddServer h
  · exact whole_jcDelServer h
  · exact Option.some.inj h ▸ whole_unchanged moduleList wholeMembers_nil (by decide)
  · exact Option.some.inj h ▸ whole_unchanged moduleList wholeMembers_nil (by decide)

/-- What a command answers can be written, and is not null. -/
theorem processJsonData_whole (hE : E.Plain)
    (hcount : ∀ m ∈ moduleList, m.serverList.length < 2 ^ 64)
    {r : List ConfigModule × Value × Bool} (h : E.processJsonData moduleList root = some r) :
    Whole r.2.1 ∧ r.2.1.isNull = false ∧
      ∀ m ∈ r.1, ∃ m' ∈ moduleList, m.serverList.length ≤ m'.serverList.length + 1 := by
  simp only [processJsonData, Option.bind_eq_bind, Option.bind_eq_some_iff] at h
  obtain ⟨v, -, code, hcode, ⟨moduleList', data, status⟩, houtcome, h⟩ := h
  obtain ⟨hdata, hstatus, hgrown⟩ := whole_command hE hcount houtcome
  have hbounds := asIntIn_bounds (by norm_num) (by norm_num) hcode
  have hcode' : Whole (.int code) := whole_int (by omega)
  have hstatus' : Whole (.int status) := whole_int (by simp only at hstatus; omega)
  have hmembers := hdata.append
    (.cons (by decide : '\x00' ∉ "code".toList) hcode'
      (.cons (by decide : '\x00' ∉ "status".toList) hstatus' wholeMembers_nil))
  rw [← Option.some.inj h]
  exact ⟨whole_object hmembers, rfl, hgrown⟩

theorem whole_failed : Whole failed := by
  have hone : Whole (.int jsFail) := whole_int (by decide)
  exact whole_object (.cons (by decide) (whole_int (by decide))
    (.cons (by decide) hone wholeMembers_nil))

end ServiceLib

end Answers

/-! ## Messages -/

section Messages

variable {M : MessageLib} {E : ServiceLib} {moduleList : List ConfigModule} {data : List UInt8}

theorem realsMembers_eq (members : List (String × Value)) :
    realsMembers members = members.flatMap fun m => reals m.2 := by
  induction members with
  | nil => rfl
  | cons m members ih => rw [realsMembers, ih, List.flatMap_cons]

mutual

theorem mem_reals_inOrder {x : ℚ} : ∀ {v : Value}, x ∈ reals (inOrder v) → x ∈ reals v
  | .array _, h => mem_realsAll_inOrder h
  | .object _, h => mem_realsMembers_inOrder h
  | .null, h | .int _, h | .bool _, h | .string _, h | .real _, h => h

theorem mem_realsAll_inOrder {x : ℚ} : ∀ {values : List Value},
    x ∈ realsAll (inOrderAll values) → x ∈ realsAll values
  | [], h => h
  | _ :: _, h => List.mem_append.mpr
    ((List.mem_append.mp h).imp mem_reals_inOrder mem_realsAll_inOrder)

theorem mem_realsMembers_inOrder {x : ℚ} : ∀ {members : List (String × Value)},
    x ∈ realsMembers (inOrderMembers members) → x ∈ realsMembers members
  | [], h => h
  | (key, v) :: members, h => by
    rw [inOrderMembers, realsMembers_eq] at h
    obtain ⟨m, hm, hx⟩ := List.mem_flatMap.mp h
    rcases mem_setMember hm with rfl | hm
    · exact List.mem_append_left _ (mem_reals_inOrder hx)
    · refine List.mem_append_right _ (mem_realsMembers_inOrder ?_)
      rw [realsMembers_eq]
      exact List.mem_flatMap.mpr ⟨m, hm, hx⟩

end

namespace MessageLib

/-- What is written of a value is a text that stands for it. -/
theorem tells_write {v : Value} (h : Whole v) :
    M.Tells (M.socketLib.stringToWstring (M.socketLib.write v)) v := by
  have hreals : ∀ x ∈ reals (inOrder v), Prints M.sscanf M.sprintf x := fun x hx =>
    absurd (h.reals_eq ▸ mem_reals_inOrder hx) List.not_mem_nil
  obtain ⟨t, hbody, hafter, hvalue⟩ : ∃ t : Syntax M.sscanf,
      t.body = Space.none.text ++ writeValue M.sprintf false (inOrder v) ∧
        t.after = ⟨['\n'], by simp⟩ ∧ t.value cString = inOrder v :=
    exists_syntax (inOrder v) Space.none _ (held_inOrder h.holdable) hreals
  refine ⟨t, ?_, hvalue⟩
  rw [Syntax.text, hbody, hafter]
  rfl

/-- A text that stands for a request is read as it. -/
theorem root_of_asks {request : Value} (h : M.Asks data (some request)) :
    M.socketLib.root data = some (inOrder request) := by
  obtain ⟨t, ⟨heven, htext⟩, hvalue⟩ := h
  have hparse : Reader.parse M.sscanf Features.all t.text .null =
      some ⟨true, t.value cString, []⟩ :=
    parse_of_readValue (Reader.readValue_text t .null) fun hs => absurd hs Bool.false_ne_true
  rw [SocketLib.root, if_pos heven]
  show M.parsed (M.wstringToString (wchars data)) = _
  rw [parsed, htext, hparse, hvalue]
  rfl

end MessageLib

namespace ServiceLib

/-- A message that asks for something is answered as the request is. -/
theorem recvEvent_of_asks (hE : E.Plain) (hcount : ∀ m ∈ moduleList, m.serverList.length < 2 ^ 64)
    {request : Value} (h : M.Asks data (some request)) :
    match E.processJsonData moduleList request with
    | none => E.recvEvent M.socketLib moduleList data = none
    | some (moduleList', ret, saved) => ∃ sent,
        E.recvEvent M.socketLib moduleList data = some ⟨moduleList', saved, [sent]⟩ ∧
          M.Tells sent ret := by
  have hroot := MessageLib.root_of_asks h
  rcases hr : E.processJsonData moduleList request with _ | ⟨moduleList', ret, saved⟩
  · simp only [recvEvent, hroot, processJsonData_inOrder, hr, Option.bind_eq_bind, Option.bind_none]
  · obtain ⟨hwhole, hnull, -⟩ := processJsonData_whole hE hcount hr
    refine ⟨_, ?_, MessageLib.tells_write hwhole⟩
    simp only [recvEvent, hroot, processJsonData_inOrder, hr, Option.bind_eq_bind,
      Option.bind_some, hnull, Bool.false_eq_true, if_false]
    rfl

/-- A message of which no text is read is answered with a failure, and changes nothing. -/
theorem recvEvent_of_none (h : M.Asks data none) :
    ∃ sent, E.recvEvent M.socketLib moduleList data = some ⟨moduleList, false, [sent]⟩ ∧
      M.Tells sent failed := by
  have hroot : M.socketLib.root data = none := h
  refine ⟨_, ?_, MessageLib.tells_write whole_failed⟩
  simp only [recvEvent, hroot]
  rfl

/-- What one message comes to is what its request does: the modules are the same, and the text that
is sent stands for the answer. -/
theorem recvEvent_asked (hE : E.Plain) (hcount : ∀ m ∈ moduleList, m.serverList.length < 2 ^ 64)
    {request : Option Value} (h : M.Asks data request) :
    match E.obeyed moduleList request with
    | none => E.recvEvent M.socketLib moduleList data = none
    | some (moduleList', ret) => ∃ saved sent,
        E.recvEvent M.socketLib moduleList data = some ⟨moduleList', saved, [sent]⟩ ∧
          M.Tells sent ret ∧
          ∀ m ∈ moduleList', ∃ m' ∈ moduleList,
            m.serverList.length ≤ m'.serverList.length + 1 := by
  cases request with
  | none =>
    obtain ⟨sent, hsent, htells⟩ := recvEvent_of_none h
    exact ⟨false, sent, hsent, htells, grown_self moduleList⟩
  | some request =>
    have hevent := recvEvent_of_asks hE hcount h
    rcases hr : E.processJsonData moduleList request with _ | ⟨moduleList', ret, saved⟩
    · rw [hr] at hevent
      simpa only [obeyed, hr, Option.map_none] using hevent
    · rw [hr] at hevent
      obtain ⟨sent, hsent, htells⟩ := hevent
      simp only [obeyed, hr, Option.map_some]
      exact ⟨saved, sent, hsent, htells, (processJsonData_whole hE hcount hr).2.2⟩

section Runs

/-- Conversions of characters that one byte holds, and none of doubles. -/
def plainMessages : MessageLib where
  wstringToString := plainSocket.wstringToString
  stringToWstring := plainSocket.stringToWstring
  sscanf _ := none
  sprintf _ := []

theorem plain_obeying (comment : WideText) : (obeying comment).Plain where
  ipv4 a := zero_notMem_of_ge (addressText_ge a (by decide))
  ipv6 a := zero_notMem_of_ge (addressText_ge a (by decide))
  wide w := by
    show '\x00' ∉ (String.ofList (w.chars.map charOfWide)).toList
    rw [String.toList_ofList, List.mem_map]
    rintro ⟨c, hc, hzero⟩
    refine charOfWide_ne ?_ hzero
    rintro rfl
    exact w.noNul hc

def logon : Value := .object [("code", .int 16)]

/-- The text of a logon, with a space in it. -/
def logonText : String := "\x7b\"code\": 16\x7d"

theorem asks_logon : plainMessages.Asks (wideBytes logonText) (some logon) := by
  let name : Name := ⟨Space.none, [.plain 'c' (by decide), .plain 'o' (by decide),
    .plain 'd' (by decide), .plain 'e' (by decide)], Space.none⟩
  let code : Syntax plainMessages.sscanf :=
    .atom ⟨[' '], by simp⟩ (.integer false ['1', '6'] (by simp) (by decide)) Space.none
  have htext : (plainMessages.wstringToString (wchars (wideBytes logonText))).toList =
      (Syntax.object Space.none Space.none [(name, code)] Space.none).text := by decide +kernel
  refine ⟨.object Space.none Space.none [(name, code)] Space.none,
    ⟨by decide +kernel, htext⟩, ?_⟩
  rfl

end Runs

end ServiceLib

end Messages

end LcxlNetLoader
