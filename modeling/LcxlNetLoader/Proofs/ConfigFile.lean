import LcxlNetLoader.ConfigFile
import LcxlNetLoader.Proofs.TextLib

/-!
# What the configuration file keeps

Reading what was written gives every field back that the file has a place for (`readServer_write`,
`readModule_write`). So a configuration loads back just when its modules and servers survive: the
file has only names for three roles, numbers its reader takes for signed, and six bytes of an
address.
-/

namespace LcxlNetLoader

open Xml

section Elements

variable {α : Type} {e c : Element} {name name' text : String} {d : α} {read : Element → Option α}

@[simp] theorem name_setChind : (setChind e name text).name = e.name := by
  simp [setChind]

theorem firstChildElement_setChind_of_ne (h : name ≠ name') :
    (setChind e name text).firstChildElement name' = e.firstChildElement name' :=
  Element.firstChildElement_updateChild_of_ne (fun _ => rfl) h

theorem readChild_setChind :
    readChild (setChind e name text) name d read
      = read (((e.firstChildElement name).getD (newElement name)).setAttribute "value" text) := by
  rw [readChild, setChind, Element.firstChildElement_updateChild
    (g := fun c => c.setAttribute "value" text) fun _ => rfl]

theorem readChild_setChind_of_ne (h : name ≠ name') :
    readChild (setChind e name text) name' d read = readChild e name' d read := by
  rw [readChild, firstChildElement_setChind_of_ne h, readChild]

theorem readChild_insertEndChild (hc : c.name = name) (h : e.firstChildElement name = none) :
    readChild (e.insertEndChild c) name d read = read c := by
  subst hc
  rw [readChild, Element.firstChildElement_insertEndChild h]

theorem readChild_insertEndChild_of_ne (h : c.name ≠ name) :
    readChild (e.insertEndChild c) name d read = readChild e name d read := by
  rw [readChild, Element.firstChildElement_insertEndChild_of_ne h, readChild]

end Elements

theorem mapM_eq_some_iff {α β : Type} {f : α → Option β} : ∀ {xs : List α} {ys : List β},
    xs.mapM f = some ys ↔ List.Forall₂ (fun x y => f x = some y) xs ys
  | [], ys => by
    rw [List.forall₂_nil_left_iff]
    exact ⟨fun h => (Option.some.inj h).symm, fun h => h ▸ rfl⟩
  | x :: xs, ys => by
    rw [List.mapM_cons]
    constructor
    · intro h
      obtain ⟨y, hy, h⟩ := Option.bind_eq_some_iff.1 h
      obtain ⟨ys', hys, h⟩ := Option.bind_eq_some_iff.1 h
      obtain rfl := Option.some.inj h
      exact .cons hy (mapM_eq_some_iff.1 hys)
    · rintro (_ | ⟨hy, hys⟩)
      rw [hy, mapM_eq_some_iff.2 hys]
      rfl

/-- Reading a list gives a related one just when reading each element gives a related one. -/
theorem exists_mapM_forall₂ {α β : Type} {f : α → Option β} {R : α → β → Prop} :
    ∀ xs : List α, (∃ ys, xs.mapM f = some ys ∧ List.Forall₂ R xs ys) ↔
      ∀ x ∈ xs, ∃ y, f x = some y ∧ R x y
  | [] => ⟨fun _ x hx => absurd hx List.not_mem_nil, fun _ => ⟨[], rfl, .nil⟩⟩
  | x :: xs => by
    rw [List.forall_mem_cons, ← exists_mapM_forall₂ xs]
    constructor
    · rintro ⟨ys, h, hR⟩
      rcases mapM_eq_some_iff.1 h with _ | ⟨hy, hys⟩
      obtain ⟨hx, hxs⟩ := List.forall₂_cons.1 hR
      exact ⟨⟨_, hy, hx⟩, _, mapM_eq_some_iff.2 hys, hxs⟩
    · rintro ⟨⟨y, hy, hx⟩, ys, hys, hxs⟩
      exact ⟨y :: ys, mapM_eq_some_iff.2 (.cons hy (mapM_eq_some_iff.1 hys)), .cons hx hxs⟩

variable {P : TextLib} {active : Bool × Bool}

namespace TextLib.Faithful

theorem byte (hP : P.Faithful) (b : UInt8) (e : Element) :
    (P.unsignedAttribute (e.setAttribute "value" (P.intText b.toUInt32.toInt32))).toUInt8 = b := by
  simp [unsignedAttribute, hP.int]

theorem number (hP : P.Faithful) (v : Int32) (e : Element) :
    (P.unsignedAttribute (e.setAttribute "value" (P.intText v))).toInt32 = v := by
  simp [unsignedAttribute, hP.int]

end TextLib.Faithful

namespace LcxlConfig

theorem readAddrInfo_write (hP : P.Faithful) (addr addr' : LcxlAddrInfo) (name : String) :
    readAddrInfo P (writeAddrInfo P (newElement name) addr) addr' = some addr := by
  simp [readAddrInfo, writeAddrInfo, readChild_setChind, readChild_setChind_of_ne,
    hP.byte, hP.ipv4, hP.ipv6]

theorem readServerCheck_write (hP : P.Faithful) (check check' : ConfigServerCheck) (name : String) :
    readServerCheck P (writeServerCheck P (newElement name) check) check' = some check := by
  simp [readServerCheck, writeServerCheck, readChild_setChind, readChild_setChind_of_ne, hP.number]

/-- An address as it is read back: six bytes, whatever its length was. -/
def storedMac (macAddr : IfPhysicalAddress) : IfPhysicalAddress :=
  ⟨6, (Bytes.zero 32).move (macAddr.address.toList.take 6)⟩

theorem macAddr_macText (hP : P.Faithful) (macAddr : IfPhysicalAddress) :
    P.macAddr (macText macAddr) = storedMac macAddr := by
  have h6 : (macAddr.address.toList.take 6).length = 6 := by simp
  rw [TextLib.macAddr, macText, hP.mac _ h6, h6, storedMac]

/-- A server as it is read back, with the comment read of it. -/
def storedServer (s : ConfigServer) (comment : WideText) : ConfigServer :=
  ⟨⟨s.server.status, s.server.ipStatus, storedMac s.server.macAddr⟩, comment⟩

theorem readServer_write (hP : P.Faithful) (s : ConfigServer) (name : String) :
    readServer P (writeServer P (newElement name) s)
      = (wcscpy s.comment).map (storedServer s) := by
  simp [readServer, writeServer, readChild_setChind, readChild_setChind_of_ne, hP.byte, hP.wide,
    macAddr_macText hP, Option.map_eq_bind, Function.comp_def, storedServer]

@[simp] theorem name_writeAddrInfo (e : Element) (addr : LcxlAddrInfo) :
    (writeAddrInfo P e addr).name = e.name := by
  simp [writeAddrInfo]

@[simp] theorem name_writeServerCheck (e : Element) (check : ConfigServerCheck) :
    (writeServerCheck P e check).name = e.name := by
  simp [writeServerCheck]

@[simp] theorem name_writeServer (e : Element) (s : ConfigServer) :
    (writeServer P e s).name = e.name := by
  simp [writeServer]

@[simp] theorem name_writeModule (e : Element) (m : ConfigModule) :
    (writeModule P e m).name = e.name := by
  simp [writeModule]

@[simp] theorem name_writeServerList : ∀ (servers : List ConfigServer) (e : Element),
    (writeServerList P e servers).name = e.name
  | [], _ => rfl
  | _ :: servers, e => name_writeServerList servers (e.insertEndChild _)

theorem childElements_writeServerList : ∀ (servers : List ConfigServer) (e : Element),
    (writeServerList P e servers).childElements "server"
      = e.childElements "server" ++ servers.map (writeServer P (newElement "server"))
  | [], e => (List.append_nil _).symm
  | s :: servers, e => by
    rw [writeServerList, childElements_writeServerList servers,
      Element.childElements_insertEndChild (show _ = "server" from rfl),
      List.append_assoc]
    rfl

theorem childElements_writeModuleList : ∀ (modules : List ConfigModule) (e : Element),
    (writeModuleList P e modules).childElements "module"
      = e.childElements "module" ++ modules.map (writeModule P (newElement "module"))
  | [], e => (List.append_nil _).symm
  | m :: modules, e => by
    rw [writeModuleList, childElements_writeModuleList modules,
      Element.childElements_insertEndChild (show _ = "module" from rfl),
      List.append_assoc]
    rfl

theorem readServerList_write (servers : List ConfigServer) (name : String) :
    readServerList P (writeServerList P (newElement name) servers) []
      = servers.mapM fun s => readServer P (writeServer P (newElement "server") s) := by
  simp [readServerList, childElements_writeServerList, Function.comp_def]

/-- A module as it is read back, with the servers and the friendly name read of it. -/
def storedModule (active : Bool × Bool) (m : ConfigModule) (serverList : List ConfigServer)
    (miniportFriendlyName : WideText) : ConfigModule :=
  { isexist := false
    module :=
      { m.module with
        miniportIfindex := 0
        miniportNetLuid := UInt64.ofInt (atoi64 (toString m.module.miniportNetLuid.toNat))
        macAddr := storedMac m.module.macAddr
        filterModuleName := WideText.empty
        miniportFriendlyName := miniportFriendlyName
        miniportName := WideText.empty
        lcxlRole := strToRole (roleToStr m.module.lcxlRole)
        serverCount := 0 }
    serverList := serverList
    ipv4RouterActive := active.1
    ipv6RouterActive := active.2 }

theorem readModule_write (hP : P.Faithful) (m : ConfigModule) (name : String) :
    readModule P active (writeModule P (newElement name) m)
      = (readServerList P (writeServerList P (newElement "server_list") m.serverList) []).bind
        fun serverList =>
          (wcscpy m.module.miniportFriendlyName).map (storedModule active m serverList) := by
  simp [readModule, writeModule, readChild_setChind, readChild_setChind_of_ne,
    readChild_insertEndChild, readChild_insertEndChild_of_ne, firstChildElement_setChind_of_ne,
    Element.firstChildElement_insertEndChild_of_ne, hP.number, hP.wide, macAddr_macText hP,
    readAddrInfo_write hP, readServerCheck_write hP, storedModule, Option.map_eq_bind]

theorem readModuleList_write (modules : List ConfigModule) (name : String) :
    readModuleList P active (writeModuleList P (newElement name) modules) []
      = modules.mapM fun m => readModule P active (writeModule P (newElement "module") m) := by
  simp [readModuleList, childElements_writeModuleList, Function.comp_def]

end LcxlConfig

theorem wcscpy_eq_some (text text' : WideText) :
    wcscpy text = some text' ↔ text.Fits ∧ text' = text := by
  unfold wcscpy WideText.Fits
  split_ifs with h <;> simp [h, eq_comm]

theorem strToRole_roleToStr (role : Int32) :
    strToRole (roleToStr role) = role ↔ role = 0 ∨ role = 1 ∨ role = 2 := by
  unfold roleToStr
  split_ifs with h1 h2
  · simp [h1, strToRole]
  · simp [h2, strToRole]
  · simp [h1, h2, strToRole, eq_comm]

theorem storedMac_same (macAddr : IfPhysicalAddress) :
    (LcxlConfig.storedMac macAddr).length = macAddr.length ∧
      (LcxlConfig.storedMac macAddr).value = macAddr.value ↔ macAddr.length = 6 := by
  refine ⟨fun h => h.1.symm, fun h => ⟨h.symm, ?_⟩⟩
  simp [LcxlConfig.storedMac, IfPhysicalAddress.value, Bytes.move, h, List.take_take]

theorem ofInt_atoi64 (luid : UInt64) :
    UInt64.ofInt (atoi64 (toString luid.toNat)) = luid ↔ luid.toNat < 2 ^ 63 := by
  rw [atoi64_toString]
  rcases Nat.lt_or_ge luid.toNat (2 ^ 63) with h | h
  · rw [min_eq_right (by omega)]
    refine iff_of_true ?_ h
    rw [UInt64.ofInt, Int.emod_eq_of_lt (Int.natCast_nonneg _) (by omega), Int.toNat_natCast,
      UInt64.ofNat_toNat]
  · rw [min_eq_left (by omega)]
    refine iff_of_false (fun he => ?_) (by omega)
    have hmax : (UInt64.ofInt (2 ^ 63 - 1)).toNat = 2 ^ 63 - 1 := by decide
    rw [he] at hmax
    omega

theorem readServer_iff (hP : P.Faithful) (s : ConfigServer) (name : String) :
    (∃ s', LcxlConfig.readServer P (LcxlConfig.writeServer P (newElement name) s) = some s' ∧
      s.Same s') ↔ s.Survives := by
  simp only [LcxlConfig.readServer_write hP, Option.map_eq_some_iff, wcscpy_eq_some]
  constructor
  · rintro ⟨_, ⟨_, ⟨hc, rfl⟩, rfl⟩, h⟩
    exact ⟨(storedMac_same _).1 ⟨h.length, h.value⟩, hc⟩
  · rintro ⟨hm, hc⟩
    obtain ⟨hlength, hvalue⟩ := (storedMac_same _).2 hm
    exact ⟨_, ⟨_, ⟨hc, rfl⟩, rfl⟩, rfl, rfl, rfl, hlength, hvalue⟩

theorem readModule_iff (hP : P.Faithful) (m : ConfigModule) (name : String) :
    (∃ m', LcxlConfig.readModule P active (LcxlConfig.writeModule P (newElement name) m) = some m' ∧
      m.Same m') ↔ m.Survives := by
  have hservers := exists_mapM_forall₂ (R := ConfigServer.Same) (f := fun s =>
    LcxlConfig.readServer P (LcxlConfig.writeServer P (newElement "server") s)) m.serverList
  simp only [readServer_iff hP] at hservers
  simp only [LcxlConfig.readModule_write hP, LcxlConfig.readServerList_write,
    Option.bind_eq_some_iff, Option.map_eq_some_iff, wcscpy_eq_some]
  constructor
  · rintro ⟨_, ⟨servers, hread, _, ⟨hname, rfl⟩, rfl⟩, h⟩
    exact {
      lcxlRole := (strToRole_roleToStr _).1 h.lcxlRole
      miniportNetLuid := (ofInt_atoi64 _).1 h.miniportNetLuid
      macAddr := (storedMac_same _).1 ⟨h.length, h.value⟩
      miniportFriendlyName := hname
      serverList := hservers.1 ⟨servers, hread, h.serverList⟩ }
  · intro h
    obtain ⟨servers, hread, hsame⟩ := hservers.2 h.serverList
    obtain ⟨hlength, hvalue⟩ := (storedMac_same _).2 h.macAddr
    refine ⟨_, ⟨servers, hread, _, ⟨h.miniportFriendlyName, rfl⟩, rfl⟩, ?_⟩
    exact {
      lcxlRole := (strToRole_roleToStr _).2 h.lcxlRole
      miniportNetLuid := (ofInt_atoi64 _).2 h.miniportNetLuid
      length := hlength
      value := hvalue
      virtualAddr := rfl
      serverList := hsame
      routeTimeout := rfl
      serverCheck := rfl
      routingAlgorithm := rfl
      miniportFriendlyName := rfl }

/-- A configuration loads back just when every module of it survives. -/
theorem loadsBack_iff (P : TextLib) (hP : P.Faithful) (active : Bool × Bool)
    (modules : List ConfigModule) :
    LcxlConfig.LoadsBack P active modules ↔ ∀ m ∈ modules, m.Survives := by
  rw [LcxlConfig.LoadsBack, LcxlConfig.readModuleList_write, exists_mapM_forall₂]
  exact forall₂_congr fun m _ => readModule_iff hP m "module"

section Runs

/-- A server with an address of the given length. -/
def storedWith (length : ℕ) : ConfigServer :=
  ⟨⟨0x02, 0x01, ⟨length, .move (.zero 32) [0x00, 0x1b, 0x44, 0x11, 0x3a, 0xb7]⟩⟩,
    ⟨[0x77, 0x65, 0x62], by decide⟩⟩

def routerWith (servers : List ConfigServer) : ConfigModule where
  isexist := true
  module :=
    { miniportIfindex := 3
      miniportNetLuid := 0x6008001000000
      virtualAddr := ⟨0x01, .zero 4, 24, .zero 16, 64⟩
      macAddr := ⟨6, .move (.zero 32) [0x00, 0x0c, 0x29, 0x5e, 0x10, 0x02]⟩
      filterModuleName := .empty
      miniportFriendlyName := ⟨[0x65, 0x74, 0x68, 0x30], by decide⟩
      miniportName := .empty
      lcxlRole := 1
      serverCount := 1
      routeTimeout := 1800
      serverCheck := ⟨10, 10, 2⟩
      routingAlgorithm := 0x10 }
  serverList := servers
  ipv4RouterActive := true
  ipv6RouterActive := false

theorem routerWith_survives (servers : List ConfigServer) (h : ∀ s ∈ servers, s.Survives) :
    (routerWith servers).Survives where
  lcxlRole := .inr (.inl rfl)
  miniportNetLuid := by
    show (0x6008001000000 : UInt64).toNat < 2 ^ 63
    decide
  macAddr := rfl
  miniportFriendlyName := by
    show 4 < 256
    norm_num
  serverList := h

theorem loadsBack_iff_routers :
    LcxlConfig.LoadsBack plainText (false, false) [routerWith [storedWith 6], routerWith []] := by
  have hserver : ∀ s ∈ [storedWith 6], s.Survives := by
    intro s hs
    rw [List.mem_singleton.1 hs]
    exact ⟨rfl, show 3 < 256 by norm_num⟩
  refine (loadsBack_iff plainText plainText_faithful (false, false) _).2 ?_
  refine List.forall_mem_cons.2 ⟨routerWith_survives _ hserver, ?_⟩
  exact List.forall_mem_singleton.2 (routerWith_survives [] fun _ h => absurd h List.not_mem_nil)

/-- A server whose address no byte was parsed of is written with six, and read back with six. -/
theorem not_loadsBack_of_length :
    ¬ LcxlConfig.LoadsBack plainText (false, false) [routerWith [storedWith 0]] := by
  rw [LcxlConfig.LoadsBack, LcxlConfig.readModuleList_write, exists_mapM_forall₂]
  intro h
  have hread := h _ (List.mem_singleton_self _)
  have hserver := ((readModule_iff plainText_faithful _ "module").1 hread).serverList
  exact absurd (hserver _ (List.mem_singleton_self _)).1 (by decide)

end Runs

end LcxlNetLoader
