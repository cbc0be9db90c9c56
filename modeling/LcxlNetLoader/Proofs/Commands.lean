import LcxlNetLoader.Commands
import LcxlNetLoader.Proofs.ConfigFile

/-!
# What a client reads back of what it has set

A command that answers success has stored what it decoded of the request (`request_virtualAddr`,
`request_server`), and the next list reports what is stored. So a setting is read back just when
decoding it loses nothing.
-/

namespace LcxlNetLoader

open Json

variable {E : ServiceLib} {moduleList : List ConfigModule} {luid : UInt64}

theorem ofInt_toNat (b : UInt8) : UInt8.ofInt (b.toNat : ℤ) = b := by
  have hb := b.toNat_lt
  rw [UInt8.ofInt, Int.emod_eq_of_lt (Int.natCast_nonneg _) (by omega), Int.toNat_natCast,
    UInt8.ofNat_toNat]

theorem ofInt_toInt64 (v : Int64) : UInt64.ofInt v.toInt = v.toUInt64 := by
  have hv : v.toInt % 2 ^ 64 = v.toUInt64.toNat := by
    rw [Int64.toInt, BitVec.toInt_eq_toNat_bmod]
    exact (Int.bmod_emod ..).trans (Int.emod_eq_of_lt (by omega) (by omega))
  rw [UInt64.ofInt, hv, Int.toNat_natCast, UInt64.ofNat_toNat]

@[simp] theorem asInt_byte (b : UInt8) : (Value.int (b.toNat : ℤ)).asInt = some (b.toNat : ℤ) := by
  have hb := b.toNat_lt
  exact Value.asIntIn_int (by omega)

@[simp] theorem asInt64_luid (v : Int64) : (Value.int v.toInt).asInt64 = some v.toInt := by
  have hlo := v.le_toInt
  have hhi := v.toInt_lt
  exact Value.asIntIn_int (by omega)

/-- The module of the LUID. -/
def foundModule (moduleList : List ConfigModule) (luid : UInt64) : Option ConfigModule :=
  (LcxlConfig.findModuleByLuid moduleList luid).bind (moduleList[·]?)

namespace LcxlConfig

/-- A module that keeps its LUID is found where it was. -/
theorem findModuleByLuid_modify {f : ConfigModule → ConfigModule} (i : ℕ)
    (hf : ∀ m, (f m).module.miniportNetLuid = m.module.miniportNetLuid) :
    findModuleByLuid (moduleList.modify i f) luid = findModuleByLuid moduleList luid := by
  have hmap : (moduleList.modify i f).map (·.module.miniportNetLuid)
      = moduleList.map (·.module.miniportNetLuid) := by
    refine List.ext_getElem? fun j => ?_
    rw [List.getElem?_map, List.getElem?_map, List.getElem?_modify]
    rcases moduleList[j]? with _ | m
    · rfl
    · refine congrArg some ?_
      split_ifs with h
      · exact hf m
      · rfl
  have hfind : ∀ l : List ConfigModule, findModuleByLuid l luid
      = (l.map (·.module.miniportNetLuid)).findIdx? fun v => v = luid := by
    intro l
    rw [List.findIdx?_map]
    rfl
  rw [hfind, hfind, hmap]

theorem foundModule_updateModule {f : ConfigModule → ConfigModule}
    (hf : ∀ m, (f m).module.miniportNetLuid = m.module.miniportNetLuid)
    (h : (findModuleByLuid moduleList luid).isSome) :
    ∃ m, foundModule (updateModule moduleList luid f) luid = some (f m) := by
  obtain ⟨i, hi⟩ := Option.isSome_iff_exists.1 h
  obtain ⟨hlt, -, -⟩ := List.findIdx?_eq_some_iff_getElem.1 hi
  refine ⟨moduleList[i], ?_⟩
  rw [updateModule, hi, foundModule, findModuleByLuid_modify i hf, hi, Option.bind_some,
    List.getElem?_modify_eq, List.getElem?_eq_getElem hlt]
  rfl

theorem foundModule_storeVirtualAddr (addr : LcxlAddrInfo)
    (h : (findModuleByLuid moduleList luid).isSome) :
    ∃ m, foundModule (storeVirtualAddr moduleList luid addr) luid = some m ∧
      m.module.virtualAddr = addr := by
  obtain ⟨m, hm⟩ := foundModule_updateModule (f := fun m =>
    { m with module := { m.module with virtualAddr := addr } }) (fun _ => rfl) h
  exact ⟨_, hm, rfl⟩

theorem foundModule_storeServer (server : ConfigServer)
    (h : (findModuleByLuid moduleList luid).isSome) :
    ∃ m serverList, foundModule (storeServer moduleList luid server) luid = some m ∧
      m.serverList = updateServer serverList server := by
  obtain ⟨m, hm⟩ := foundModule_updateModule (f := fun m =>
    { m with serverList := updateServer m.serverList server }) (fun _ => rfl) h
  exact ⟨_, _, hm, rfl⟩

theorem same_self (a : IfPhysicalAddress) : a.same a = true := by
  simp [IfPhysicalAddress.same]

/-- A server is stored where its address is found. -/
theorem findServer_updateServer (serverList : List ConfigServer) (s : ConfigServer) :
    ∃ k, findServer (updateServer serverList s) s.server.macAddr = some k ∧
      (updateServer serverList s)[k]? = some s := by
  unfold updateServer
  rcases hfind : findServer serverList s.server.macAddr with _ | i
  · refine ⟨serverList.length, ?_, List.getElem?_concat_length⟩
    unfold findServer at hfind ⊢
    simp [List.findIdx?_append, hfind, same_self]
  · obtain ⟨hi, -, hbefore⟩ := List.findIdx?_eq_some_iff_getElem.1 hfind
    refine ⟨i, ?_, List.getElem?_set_self hi⟩
    refine List.findIdx?_eq_some_iff_getElem.2 ⟨by simpa using hi, ?_, fun j hj => ?_⟩
    · simp [same_self]
    · rw [List.getElem_set_ne (by omega)]
      exact hbefore j hj

theorem findServer_congr {serverList : List ConfigServer} {a b : IfPhysicalAddress}
    (hl : a.length = b.length) (hv : a.value = b.value) :
    findServer serverList a = findServer serverList b := by
  have hsame : ∀ c : IfPhysicalAddress, c.same a = c.same b := by
    intro c
    have hv' : a.address.toList.take b.length = b.address.toList.take b.length := by
      rw [IfPhysicalAddress.value, hl] at hv
      exact hv
    rw [IfPhysicalAddress.same, IfPhysicalAddress.same, hl, hv']
  simp only [findServer, hsame]

end LcxlConfig

open ServiceLib Web

namespace Web

/-- What the service makes of the addresses. -/
def LcxlAddrInfo.decoded (addr : LcxlAddrInfo) (ipv4 : Bytes 4) (ipv6 : Bytes 16) :
    LcxlNetLoader.LcxlAddrInfo :=
  ⟨addr.status, ipv4, 0, ipv6, 0⟩

/-- What the service makes of the server. -/
def Server.decoded (E : ServiceLib) (s : Server) : ConfigServer :=
  ⟨⟨s.status, s.ipStatus, E.texts.macAddrOver E.server.server.macAddr.address s.macAddr⟩,
    E.server.comment⟩

end Web

theorem jcSetVirtualAddr_request (luid : Int64) (addr : Web.LcxlAddrInfo) {ipv4 : Bytes 4}
    {ipv6 : Bytes 16} (h4 : E.texts.inetPton4 addr.ipv4 = some ipv4)
    (h6 : E.texts.inetPton6 addr.ipv6 = some ipv6) :
    E.jcSetVirtualAddr moduleList (Web.setVirtualAddr luid addr) =
      if E.lnlSetVirtualAddr luid.toUInt64 (addr.decoded ipv4 ipv6) then
        some (LcxlConfig.storeVirtualAddr moduleList luid.toUInt64 (addr.decoded ipv4 ipv6), [],
          jsSuccess)
      else some (moduleList, [], jsFail) := by
  have h0 : UInt8.ofInt 0 = 0 := rfl
  simp [jcSetVirtualAddr, Web.setVirtualAddr, Web.LcxlAddrInfo.json, List.lookup_cons, h4, h6,
    ofInt_toNat, ofInt_toInt64, Web.LcxlAddrInfo.decoded, h0]
  rfl

theorem jcAddServer_request (luid : Int64) (s : Web.Server) :
    E.jcAddServer moduleList (Web.addServer luid s) =
      if E.lnlAddServer luid.toUInt64 (s.decoded E).server then
        some (LcxlConfig.storeServer moduleList luid.toUInt64 (s.decoded E), [], jsSuccess)
      else some (moduleList, [], jsFail) := by
  simp [jcAddServer, Web.addServer, Web.Server.json, List.lookup_cons, ofInt_toNat, ofInt_toInt64,
    Web.Server.decoded]
  rfl

theorem processJsonData_of_code {root : Value} {code : ℤ} (h : root.get "code" = some (.int code))
    (hc : -2 ^ 31 ≤ code ∧ code ≤ 2 ^ 31 - 1) :
    E.processJsonData moduleList root = (E.command moduleList root code).map (answer code) := by
  have hcode : (Value.int code).asInt = some code := Value.asIntIn_int hc
  simp [processJsonData, h, hcode, Option.map_eq_bind]

/-- A command that answers success has stored. -/
theorem stored_of_success {code : ℤ} {done : Bool} {stored moduleList' : List ConfigModule}
    {ret : Value} {saved : Bool}
    (h : (if done then some (stored, [], jsSuccess) else some (moduleList, [], jsFail)).map
      (answer code) = some (moduleList', ret, saved))
    (hs : ret.get "status" = some (.int jsSuccess)) : moduleList' = stored := by
  cases done with
  | true =>
    obtain ⟨rfl, -⟩ := Prod.mk.inj (Option.some.inj h)
    rfl
  | false =>
    obtain ⟨-, h⟩ := Prod.mk.inj (Option.some.inj h)
    obtain ⟨rfl, -⟩ := Prod.mk.inj h
    exact absurd hs (by simp [List.lookup_cons, jsFail, jsSuccess])

theorem processJsonData_getModuleList :
    E.processJsonData moduleList Web.getModuleList
      = some (answer 0x01 (E.jcModuleList moduleList)) := by
  rw [processJsonData_of_code (show Web.getModuleList.get "code" = some (.int 0x01) from rfl)
    (by norm_num)]
  rfl

theorem hasInt_moduleJson (m : ConfigModule) :
    (E.moduleJson m).hasInt "miniport_net_luid" luid.toNat
      = decide (m.module.miniportNetLuid = luid) := by
  simp [Value.hasInt, moduleJson, List.lookup_cons, UInt64.toNat_inj]

theorem moduleRow_getModuleList :
    moduleRow luid (answer 0x01 (E.jcModuleList moduleList)).2.1
      = (foundModule moduleList luid).map E.moduleJson := by
  have hrow : ((fun row => Value.hasInt "miniport_net_luid" luid.toNat row) ∘ E.moduleJson)
      = fun m : ConfigModule => decide (m.module.miniportNetLuid = luid) :=
    funext fun m => hasInt_moduleJson (E := E) m
  simp [moduleRow, answer, jcModuleList, foundModule, LcxlConfig.findModuleByLuid,
    hrow, List.find?_eq_bind_findIdx?_getElem?]

theorem isIn_virtualAddrJson (hE : E.texts.Faithful) (addr : Web.LcxlAddrInfo) {ipv4 : Bytes 4}
    {ipv6 : Bytes 16} (h4 : E.texts.inetPton4 addr.ipv4 = some ipv4)
    (h6 : E.texts.inetPton6 addr.ipv6 = some ipv6) :
    addr.IsIn E (E.virtualAddrJson (addr.decoded ipv4 ipv6)) ↔
      addr.ipv4OnlinkPrefixLength = 0 ∧ addr.ipv6OnlinkPrefixLength = 0 := by
  constructor
  · intro h
    have hp4 := h.ipv4OnlinkPrefixLength
    have hp6 := h.ipv6OnlinkPrefixLength
    simp [virtualAddrJson, List.lookup_cons, Web.LcxlAddrInfo.decoded] at hp4 hp6
    exact ⟨UInt8.toNat_inj.1 (by simp; omega), UInt8.toNat_inj.1 (by simp; omega)⟩
  · rintro ⟨hp4, hp6⟩
    exact {
      status := rfl
      ipv4 := ⟨_, rfl, by rw [h4]; exact hE.ipv4 ipv4⟩
      ipv4OnlinkPrefixLength := by rw [hp4]; rfl
      ipv6 := ⟨_, rfl, by rw [h6]; exact hE.ipv6 ipv6⟩
      ipv6OnlinkPrefixLength := by rw [hp6]; rfl }

theorem processJsonData_getServerList (luid : Int64) :
    E.processJsonData moduleList (Web.getServerList luid)
      = (E.jcServerList moduleList (Web.getServerList luid)).map (answer 0x03) :=
  processJsonData_of_code (show (Web.getServerList luid).get "code" = some (.int 0x03) from rfl)
    (by norm_num)

theorem jcServerList_request {m : ConfigModule} {luid : Int64}
    (h : foundModule moduleList luid.toUInt64 = some m) :
    E.jcServerList moduleList (Web.getServerList luid) =
      if luid.toUInt64 = 0 then some (moduleList, [], jsJsonDataNotFound)
      else some (moduleList, [("server_list", Value.ofList (m.serverList.map E.serverJson))],
        jsSuccess) := by
  rw [foundModule] at h
  simp [jcServerList, Web.getServerList, List.lookup_cons, ofInt_toInt64, h]

theorem value_macAddrOver {address : Bytes 32} {text : String}
    (h : (E.texts.stringToMac text).length = 6) :
    (E.texts.macAddrOver address text).value = E.texts.stringToMac text := by
  simp [IfPhysicalAddress.value, TextLib.macAddrOver, Bytes.move, List.take_append, h]

theorem stringToMac_macText (hE : E.texts.Faithful) {address : Bytes 32} {text : String}
    (h : (E.texts.stringToMac text).length = 6) :
    E.texts.stringToMac (macText (E.texts.macAddrOver address text))
      = E.texts.stringToMac text := by
  have htake : (E.texts.macAddrOver address text).value = E.texts.stringToMac text :=
    value_macAddrOver h
  rw [IfPhysicalAddress.value, TextLib.macAddrOver, h] at htake
  rw [macText, TextLib.macAddrOver, htake, hE.mac _ h]

theorem isIn_serverJson (hE : E.texts.Faithful) (s : Web.Server) (hv : s.Valid E) :
    s.IsIn E (E.serverJson (s.decoded E)) ↔
      s.comment = some (E.wstringToString E.server.comment) := by
  constructor
  · intro h
    have hc := h.comment
    simp [serverJson, List.lookup_cons, Web.Server.decoded, Web.Server.commentJson] at hc
    rcases hs : s.comment with _ | text
    · rw [hs] at hc
      exact absurd hc (by simp)
    · rw [hs] at hc
      exact congrArg some (Value.string.inj hc).symm
  · intro hc
    exact {
      status := rfl
      ipStatus := rfl
      macAddr := ⟨_, rfl, stringToMac_macText hE hv⟩
      comment := by rw [Web.Server.commentJson, hc]; rfl }

/-- The address of a module that is found is reported. -/
theorem readBack_virtualAddr {m : ConfigModule} {luid : Int64} {addr : Web.LcxlAddrInfo}
    (h : foundModule moduleList luid.toUInt64 = some m) :
    (Setting.virtualAddr luid addr).ReadBack E moduleList ↔
      addr.IsIn E (E.virtualAddrJson m.module.virtualAddr) := by
  have hrow : moduleRow luid.toUInt64 (answer 0x01 (E.jcModuleList moduleList)).2.1
      = some (E.moduleJson m) := by
    rw [moduleRow_getModuleList, h]
    rfl
  constructor
  · rintro ⟨ret, row, v, hret, hfound, hv, hin⟩
    rw [processJsonData_getModuleList] at hret
    obtain ⟨rfl, -⟩ := Prod.mk.inj (Prod.mk.inj (Option.some.inj hret)).2
    obtain rfl := Option.some.inj (hfound.symm.trans hrow)
    obtain rfl := Option.some.inj hv
    exact hin
  · intro hin
    exact ⟨_, _, _, processJsonData_getModuleList, hrow, rfl, hin⟩

theorem serverRow_of_found {m : ConfigModule} {macAddr : IfPhysicalAddress} {ret v : Value} {k : ℕ}
    (h : foundModule moduleList luid = some m)
    (hk : LcxlConfig.findServer m.serverList macAddr = some k)
    (hv : ret.get "server_list" = some v) :
    serverRow moduleList luid macAddr ret = v.elements[k]? := by
  have hrow : serverRow moduleList luid macAddr ret
      = (foundModule moduleList luid).bind fun m =>
        (LcxlConfig.findServer m.serverList macAddr).bind fun k =>
          (ret.get "server_list").bind fun v => v.elements[k]? := by
    rw [foundModule, Option.bind_assoc]
    rfl
  rw [hrow, h, Option.bind_some, hk, Option.bind_some, hv, Option.bind_some]

theorem toUInt64_eq_zero (v : Int64) : v.toUInt64 = 0 ↔ v = 0 :=
  ⟨fun h => by rw [← v.toInt64_toUInt64, h]; rfl, fun h => by rw [h]; rfl⟩

/-- Of a module that is found, the server at the place of an address is reported. -/
theorem readBack_server {m : ConfigModule} {luid : Int64} {s : Web.Server} {c : ConfigServer}
    {k : ℕ} (h : foundModule moduleList luid.toUInt64 = some m)
    (hk : LcxlConfig.findServer m.serverList (E.texts.macAddrOver (.zero 32) s.macAddr) = some k)
    (hc : m.serverList[k]? = some c) :
    (Setting.server luid s).ReadBack E moduleList ↔ luid ≠ 0 ∧ s.IsIn E (E.serverJson c) := by
  have hlist : E.processJsonData moduleList (Web.getServerList luid)
      = (if luid.toUInt64 = 0 then some (moduleList, [], jsJsonDataNotFound)
        else some (moduleList, [("server_list", Value.ofList (m.serverList.map E.serverJson))],
          jsSuccess)).map (answer 0x03) := by
    rw [processJsonData_getServerList, jcServerList_request h]
  have hrow : ∀ ret v, ret.get "server_list" = some v →
      v.elements = m.serverList.map E.serverJson →
      serverRow moduleList luid.toUInt64 (E.texts.macAddrOver (.zero 32) s.macAddr) ret
        = some (E.serverJson c) := by
    intro ret v hv he
    rw [serverRow_of_found h hk hv, he, List.getElem?_map, hc]
    rfl
  constructor
  · rintro ⟨ret, row, hret, hfound, hin⟩
    rw [hlist] at hret
    split_ifs at hret with h0
    · have hsaved := (Prod.mk.inj (Prod.mk.inj (Option.some.inj hret)).2).2
      exact absurd hsaved (by decide)
    · obtain ⟨rfl, -⟩ := Prod.mk.inj (Prod.mk.inj (Option.some.inj hret)).2
      obtain rfl := Option.some.inj (hfound.symm.trans (hrow _ _ rfl (Value.elements_ofList _)))
      exact ⟨fun hz => h0 ((toUInt64_eq_zero luid).2 hz), hin⟩
  · rintro ⟨h0, hin⟩
    rw [if_neg fun hz => h0 ((toUInt64_eq_zero luid).1 hz)] at hlist
    exact ⟨_, _, hlist, hrow _ _ rfl (Value.elements_ofList _), hin⟩

/-- What was set with success is read back just when none of it is lost. -/
theorem readBack_iff_kept (E : ServiceLib) (hE : E.texts.Faithful) (moduleList : List ConfigModule)
    (s : Setting) (hv : s.Valid E)
    (hm : (LcxlConfig.findModuleByLuid moduleList s.luid.toUInt64).isSome)
    (moduleList' : List ConfigModule) (ret : Value) (saved : Bool)
    (h : E.processJsonData moduleList s.request = some (moduleList', ret, saved))
    (hs : ret.get "status" = some (.int jsSuccess)) :
    s.ReadBack E moduleList' ↔ s.Kept E := by
  cases s with
  | virtualAddr luid addr =>
    rw [Setting.luid] at hm
    obtain ⟨ipv4, h4⟩ := Option.isSome_iff_exists.1 hv.ipv4
    obtain ⟨ipv6, h6⟩ := Option.isSome_iff_exists.1 hv.ipv6
    have hcommand : E.processJsonData moduleList (Web.setVirtualAddr luid addr)
        = (E.jcSetVirtualAddr moduleList (Web.setVirtualAddr luid addr)).map (answer 0x04) :=
      processJsonData_of_code rfl (by norm_num)
    rw [Setting.request, hcommand, jcSetVirtualAddr_request luid addr h4 h6] at h
    obtain rfl := stored_of_success h hs
    obtain ⟨m, hfound, haddr⟩ :=
      LcxlConfig.foundModule_storeVirtualAddr (addr.decoded ipv4 ipv6) hm
    rw [readBack_virtualAddr hfound, haddr, isIn_virtualAddrJson hE addr h4 h6]
    rfl
  | server luid s =>
    rw [Setting.luid] at hm
    have hcommand : E.processJsonData moduleList (Web.addServer luid s)
        = (E.jcAddServer moduleList (Web.addServer luid s)).map (answer 0x05) :=
      processJsonData_of_code rfl (by norm_num)
    rw [Setting.request, hcommand, jcAddServer_request luid s] at h
    obtain rfl := stored_of_success h hs
    obtain ⟨m, serverList, hfound, hservers⟩ :=
      LcxlConfig.foundModule_storeServer (s.decoded E) hm
    obtain ⟨k, hk, hc⟩ := LcxlConfig.findServer_updateServer serverList (s.decoded E)
    rw [← hservers] at hk hc
    have hmac : LcxlConfig.findServer m.serverList
        (E.texts.macAddrOver (.zero 32) s.macAddr) = some k := by
      rw [← hk]
      exact LcxlConfig.findServer_congr rfl
        ((value_macAddrOver hv).trans (value_macAddrOver hv).symm)
    rw [readBack_server hfound hmac hc, isIn_serverJson hE s hv]
    rfl

section Runs

/-- A driver that does what it is asked, and a stack that holds the text where a comment is. -/
def obeying (comment : WideText) : ServiceLib where
  texts := plainText
  wstringToString := plainText.wstringToUtf8string
  lnlSetVirtualAddr _ _ := true
  lnlAddServer _ _ := true
  lnlDelServer _ _ := true
  server := ⟨⟨0, 0, ⟨0, .zero 32⟩⟩, comment⟩
  address := .zero 32

def sentServer : Web.Server := ⟨0x02, 0x01, "00-1b-44-11-3a-b7", some ""⟩

def sentAddr : Web.LcxlAddrInfo := ⟨0x01, "0.0.0.0", 24, "::", 64⟩

theorem readBack_iff_kept_added :
    (Setting.server 0x6008001000000 sentServer).ReadBack (obeying .empty)
      (LcxlConfig.storeServer [routerWith []] 0x6008001000000
        (sentServer.decoded (obeying .empty))) := by
  have hadd : (obeying .empty).processJsonData [routerWith []]
      (Web.addServer 0x6008001000000 sentServer)
      = some (answer 0x05 (LcxlConfig.storeServer [routerWith []] 0x6008001000000
        (sentServer.decoded (obeying .empty)), [], jsSuccess)) := by
    rw [processJsonData_of_code (show (Web.addServer 0x6008001000000 sentServer).get "code"
      = some (.int 0x05) from rfl) (by norm_num)]
    exact congrArg (Option.map _) (jcAddServer_request 0x6008001000000 sentServer)
  refine (readBack_iff_kept (obeying .empty) plainText_faithful [routerWith []]
    (.server 0x6008001000000 sentServer) ?_ (by decide) _ _ _ hadd rfl).2 ⟨by decide, rfl⟩
  show (plainText.stringToMac "00-1b-44-11-3a-b7").length = 6
  decide

/-- Both lengths are lost: they are looked for beside the address. -/
theorem not_readBack_of_prefixes :
    ∃ moduleList' ret saved,
      (obeying .empty).processJsonData [routerWith []] (Web.setVirtualAddr 0x6008001000000 sentAddr)
        = some (moduleList', ret, saved) ∧
      ret.get "status" = some (.int jsSuccess) ∧
      ¬ (Setting.virtualAddr 0x6008001000000 sentAddr).ReadBack (obeying .empty) moduleList' := by
  have h4 : (obeying .empty).texts.inetPton4 sentAddr.ipv4 = some (.zero 4) := rfl
  have h6 : (obeying .empty).texts.inetPton6 sentAddr.ipv6 = some (.zero 16) := rfl
  have hm : (LcxlConfig.findModuleByLuid [routerWith []]
      (0x6008001000000 : Int64).toUInt64).isSome := by decide
  obtain ⟨m, hfound, haddr⟩ :=
    LcxlConfig.foundModule_storeVirtualAddr (sentAddr.decoded (.zero 4) (.zero 16)) hm
  have hset : (obeying .empty).processJsonData [routerWith []]
      (Web.setVirtualAddr 0x6008001000000 sentAddr)
      = some (answer 0x04 (LcxlConfig.storeVirtualAddr [routerWith []]
        (0x6008001000000 : Int64).toUInt64 (sentAddr.decoded (.zero 4) (.zero 16)), [],
          jsSuccess)) := by
    rw [processJsonData_of_code (show (Web.setVirtualAddr 0x6008001000000 sentAddr).get "code"
      = some (.int 0x04) from rfl) (by norm_num)]
    exact congrArg (Option.map _) (jcSetVirtualAddr_request 0x6008001000000 sentAddr h4 h6)
  refine ⟨_, _, _, hset, rfl, ?_⟩
  show ¬ (Setting.virtualAddr _ _).ReadBack _ (LcxlConfig.storeVirtualAddr _ _ _)
  rw [readBack_virtualAddr hfound, haddr,
    isIn_virtualAddrJson plainText_faithful sentAddr h4 h6]
  exact fun h => absurd h.1 (by decide)

end Runs

end LcxlNetLoader
