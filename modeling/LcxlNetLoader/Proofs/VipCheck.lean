import LcxlNetLoader.VipCheck
import LcxlNetLoader.Proofs.Merging

/-!
# Where the address families meet in the service

Each family's check sets the other family's flag, and a server's IPv4 address gets the length of
the IPv6 prefix. So what is said of one family is kept apart from the other exactly where the other
one happens to say the same.
-/

namespace LcxlNetLoader

theorem has_without (s : UInt8) : (has (s &&& ~~~saEnableIpv6) saEnableIpv4 = has s saEnableIpv4)
    ∧ has (s &&& ~~~saEnableIpv4) saEnableIpv6 = has s saEnableIpv6 :=
  ⟨has_and_of_keep (by decide) s, has_and_of_keep (by decide) s⟩

namespace ServiceModule

variable {m m₁ m₂ : ServiceModule} {v : IpMode}

@[simp] theorem enabled_without : (m.without v.other).enabled v = m.enabled v := by
  cases v
  · exact (has_without _).1
  · exact (has_without _).2

@[simp] theorem routerActive_without {v' : IpMode} :
    (m.without v').routerActive v = m.routerActive v := by
  cases v <;> rfl

theorem enabled_congr (h : m₁.without v.other = m₂.without v.other) :
    m₁.enabled v = m₂.enabled v := by
  rw [← enabled_without, h, enabled_without]

theorem routerActive_congr {v' : IpMode} (h : m₁.without v' = m₂.without v') :
    m₁.routerActive v = m₂.routerActive v := by
  rw [← routerActive_without, h, routerActive_without]

theorem isexist_congr (h : m₁.without v = m₂.without v) : m₁.isexist = m₂.isexist :=
  congrArg (·.isexist) h

theorem lcxlRole_congr (h : m₁.without v = m₂.without v) :
    m₁.module.lcxlRole = m₂.module.lcxlRole :=
  congrArg (·.module.lcxlRole) h

theorem sockaddr_congr (h : m₁.without v.other = m₂.without v.other) :
    m₁.module.virtualAddr.sockaddr v = m₂.module.virtualAddr.sockaddr v := by
  cases v
  · exact congrArg (SockaddrInet.ipv4 ·.module.virtualAddr.ipv4) h
  · exact congrArg (SockaddrInet.ipv6 ·.module.virtualAddr.ipv6) h

theorem miniportNetLuid_congr (h : m₁.without v = m₂.without v) :
    m₁.module.miniportNetLuid = m₂.module.miniportNetLuid :=
  congrArg (·.module.miniportNetLuid) h

end ServiceModule

namespace LcxlConfig

variable {answers answers₁ answers₂ : IpMode → VipAnswers} {miniportNetLuid : UInt64}
  {modules modules₁ modules₂ : List ServiceModule} {m m₁ m₂ : ServiceModule} {v : IpMode}

theorem checkAndSetVip_fst (a : VipAnswers) (address : SockaddrInet) (n : UInt8) :
    (checkAndSetVip a miniportNetLuid address n).1 = a.preferred := by
  rcases a with ⟨_ | dadState, _ | ipTable, echo⟩
  · rfl
  · simp only [checkAndSetVip]
    split
    · rfl
    · split_ifs <;> rfl
  all_goals cases dadState <;> rfl

/-- A pass sets each family's flag by the check of the other one. -/
theorem checkModule_fst : (checkModule answers miniportNetLuid m).1 = { m with
    ipv4RouterActive := if m.enabled .ipv6 then (answers .ipv6).preferred else m.ipv4RouterActive
    ipv6RouterActive := if m.enabled .ipv4 then (answers .ipv4).preferred else m.ipv6RouterActive }
    := by
  by_cases h₆ : has m.module.virtualAddr.status saEnableIpv6 <;>
    by_cases h₄ : has m.module.virtualAddr.status saEnableIpv4 <;>
    simp [checkModule, ServiceModule.enabled, LcxlAddrInfo.enabled, checkAndSetVip_fst, h₆, h₄]

theorem routerActive_checkModule : (checkModule answers miniportNetLuid m).1.routerActive v
    = if m.enabled v.other then (answers v.other).preferred else m.routerActive v := by
  rw [checkModule_fst]
  cases v <;> rfl

theorem find?_set_findIdx {α : Type*} {p : α → Bool} {a b : α} : ∀ {l : List α},
    l.find? p = some a → p b → (l.set (l.findIdx p) b).find? p = some b
  | [], h, _ => by simp at h
  | c :: l, h, hb => by
    by_cases hc : p c
    · simp [List.findIdx_cons, hc, hb]
    · rw [List.find?_cons_of_neg hc] at h
      simp [List.findIdx_cons, hc, find?_set_findIdx h hb]

/-- The module after a pass. -/
theorem find_routerVipCheckThread (h : moduleByLuid modules miniportNetLuid = some m) :
    moduleByLuid (routerVipCheckThread answers miniportNetLuid modules).1 miniportNetLuid
      = some (if m.isexist then (checkModule answers miniportNetLuid m).1 else m) := by
  have hfind := (moduleByLuid_eq_find modules miniportNetLuid).symm.trans h
  have hluid : m.module.miniportNetLuid = miniportNetLuid := by simpa using List.find?_some hfind
  unfold routerVipCheckThread
  rw [h]
  by_cases hm : m.isexist
  · simp only [hm, not_true_eq_false, if_false, if_true]
    rw [moduleByLuid_eq_find]
    exact find?_set_findIdx hfind (by simp [checkModule_fst, hluid])
  · simp only [hm, Bool.false_eq_true, not_false_eq_true, if_true, if_false, h]

theorem map_routerActive (h : moduleByLuid modules miniportNetLuid = some m) :
    (moduleByLuid (routerVipCheckThread answers miniportNetLuid modules).1
      miniportNetLuid).map (·.routerActive v)
      = some (if m.isexist ∧ m.enabled v.other then (answers v.other).preferred
        else m.routerActive v) := by
  rw [find_routerVipCheckThread h, Option.map_some]
  by_cases hm : m.isexist
  · simp only [hm, if_true, true_and, routerActive_checkModule]
  · simp only [hm, if_false, false_and, Bool.false_eq_true]

theorem routerActive_alike_iff (h₁ : moduleByLuid modules₁ miniportNetLuid = some m₁)
    (h₂ : moduleByLuid modules₂ miniportNetLuid = some m₂)
    (hother : m₁.without v.other = m₂.without v.other) :
    (moduleByLuid (routerVipCheckThread answers₁ miniportNetLuid modules₁).1
      miniportNetLuid).map (·.routerActive v)
    = (moduleByLuid (routerVipCheckThread answers₂ miniportNetLuid modules₂).1
      miniportNetLuid).map (·.routerActive v)
      ↔ (m₁.isexist → OthersAgree v answers₁ answers₂ m₁ m₂) := by
  rw [map_routerActive h₁, map_routerActive h₂, Option.some_inj,
    ← ServiceModule.isexist_congr hother]
  have hactive : m₁.routerActive v = m₂.routerActive v := ServiceModule.routerActive_congr hother
  by_cases hm : m₁.isexist
  · simp only [hm, true_and, true_imp_iff]
    constructor
    · intro h
      exact ⟨fun he₁ he₂ => by rwa [if_pos he₁, if_pos he₂] at h,
        fun he₁ he₂ => by rwa [if_pos he₁, if_neg he₂] at h,
        fun he₁ he₂ => by rw [if_neg he₁, if_pos he₂] at h; exact h.symm⟩
    · rintro ⟨hboth, hfirst, hsecond⟩
      split_ifs with he₁ he₂ he₂
      · exact hboth he₁ he₂
      · exact hfirst he₁ he₂
      · exact (hsecond he₁ he₂).symm
      · exact hactive
  · simp only [hm, false_and, if_false, false_imp_iff, hactive, Bool.false_eq_true]

/-- What a server puts on the machine for a family, with the length of the IPv6 prefix for both. -/
theorem installed_setModuleInfo {exitEvent threadHandle : Option ℕ}
    (h : m.module.lcxlRole = roleServer) :
    installed v (setModuleInfo exitEvent threadHandle m).2
      = if m.enabled v then [{
          interfaceLuid := m.module.miniportNetLuid
          address := m.module.virtualAddr.sockaddr v
          onLinkPrefixLength := m.module.virtualAddr.ipv6OnlinkPrefixLength }]
        else [] := by
  have hrouter : ¬ m.module.lcxlRole = roleRouter := by
    rw [h]
    decide
  rw [setModuleInfo, if_neg hrouter, if_pos h]
  by_cases h₆ : has m.module.virtualAddr.status saEnableIpv6 <;>
    by_cases h₄ : has m.module.virtualAddr.status saEnableIpv4 <;>
    cases v <;>
    simp [ServiceModule.enabled, LcxlAddrInfo.enabled, LcxlAddrInfo.sockaddr, installed,
      setIpAddress, SockaddrInet.siFamily, h₆, h₄]

theorem installed_alike_iff (henabled : m₁.enabled v)
    (hother : m₁.without v.other = m₂.without v.other) :
    (m₁.module.lcxlRole = roleServer → ∀ exitEvent threadHandle,
      installed v (setModuleInfo exitEvent threadHandle m₁).2
        = installed v (setModuleInfo exitEvent threadHandle m₂).2)
      ↔ (v = .ipv4 → m₁.module.lcxlRole = roleServer →
        m₁.module.virtualAddr.ipv6OnlinkPrefixLength
          = m₂.module.virtualAddr.ipv6OnlinkPrefixLength) := by
  have henabled₂ : m₂.enabled v := ServiceModule.enabled_congr hother ▸ henabled
  -- an IPv6 address has its own length
  have hlength : v = .ipv6 → m₁.module.virtualAddr.ipv6OnlinkPrefixLength
      = m₂.module.virtualAddr.ipv6OnlinkPrefixLength := by
    rintro rfl
    exact congrArg (·.module.virtualAddr.ipv6OnlinkPrefixLength) hother
  have hinstalled (hrole : m₁.module.lcxlRole = roleServer) (exitEvent threadHandle : Option ℕ) :
      installed v (setModuleInfo exitEvent threadHandle m₁).2
        = installed v (setModuleInfo exitEvent threadHandle m₂).2
        ↔ m₁.module.virtualAddr.ipv6OnlinkPrefixLength
          = m₂.module.virtualAddr.ipv6OnlinkPrefixLength := by
    rw [installed_setModuleInfo hrole,
      installed_setModuleInfo (ServiceModule.lcxlRole_congr hother ▸ hrole), if_pos henabled,
      if_pos henabled₂, ServiceModule.sockaddr_congr hother,
      ServiceModule.miniportNetLuid_congr hother]
    simp
  constructor
  · intro h _ hrole
    exact (hinstalled hrole none none).1 (h hrole none none)
  · intro h hrole exitEvent threadHandle
    refine (hinstalled hrole exitEvent threadHandle).2 ?_
    cases v
    · exact h rfl hrole
    · exact hlength rfl

/-- A family is served alike under two configurations that differ in the other one exactly where
the checks of the other family agree, and where the lengths of the IPv6 prefix agree if this is a
server's IPv4. What the family's own checks say makes no difference. -/
theorem familyAlike_iff (h₁ : moduleByLuid modules₁ miniportNetLuid = some m₁)
    (h₂ : moduleByLuid modules₂ miniportNetLuid = some m₂)
    (henabled : m₁.enabled v) (hother : m₁.without v.other = m₂.without v.other) :
    FamilyAlike v miniportNetLuid answers₁ answers₂ modules₁ modules₂ m₁ m₂
      ↔ (m₁.isexist → OthersAgree v answers₁ answers₂ m₁ m₂)
        ∧ (v = .ipv4 → m₁.module.lcxlRole = roleServer →
          m₁.module.virtualAddr.ipv6OnlinkPrefixLength
            = m₂.module.virtualAddr.ipv6OnlinkPrefixLength) := by
  rw [← routerActive_alike_iff h₁ h₂ hother, ← installed_alike_iff henabled hother]
  exact ⟨fun h => ⟨h.routerActive, h.installed⟩, fun h => ⟨h.1, h.2⟩⟩

/-- A module of the role with 10.0.0.9/8, and `status` and the length for IPv6. -/
def vipModule (lcxlRole : Int32) (status ipv6OnlinkPrefixLength : UInt8) : ServiceModule where
  isexist := true
  module := {
    miniportIfindex := 3
    miniportNetLuid := 7
    virtualAddr := {
      status
      ipv4 := ⟨[10, 0, 0, 9], rfl⟩
      ipv4OnlinkPrefixLength := 8
      ipv6 := ⟨[0xfd, 0, 0, 0, 0, 0, 0, 0, 0, 0, 0, 0, 0, 0, 0, 9], rfl⟩
      ipv6OnlinkPrefixLength }
    macAddr := { length := 6, address := Bytes.zero 32 }
    filterModuleName := WideText.empty
    miniportFriendlyName := WideText.empty
    miniportName := WideText.empty
    lcxlRole
    serverCount := 0
    routeTimeout := 30
    serverCheck := { interval := 5, timeout := 5, retryNumber := 3 }
    routingAlgorithm := 0 }
  serverList := []
  ipv4RouterActive := false
  ipv6RouterActive := false
  threadHandle := none
  exitEvent := none

/-- The machine has the address, or lacks it and has no other one of the family either. -/
def vipAnswers (preferred : Bool) : VipAnswers where
  entry := if preferred then some .preferred else none
  ipTable := some []
  echo := none

/-- With IPv6 addresses, of which one is up and the other is not, a router's IPv4 flags differ. -/
theorem families_leak : ¬ ∀ v miniportNetLuid answers₁ answers₂ modules₁ modules₂ m₁ m₂,
    moduleByLuid modules₁ miniportNetLuid = some m₁ →
    moduleByLuid modules₂ miniportNetLuid = some m₂ →
    m₁.enabled v → m₂.enabled v → m₁.without v.other = m₂.without v.other →
    answers₁ v = answers₂ v →
    FamilyAlike v miniportNetLuid answers₁ answers₂ modules₁ modules₂ m₁ m₂ := by
  intro h
  let m := vipModule roleRouter 3 64
  have hactive := (h .ipv4 7 (fun v => vipAnswers (v = .ipv6)) (fun _ => vipAnswers false) [m] [m]
    m m (by decide) (by decide) (by decide) (by decide) rfl (by decide)).routerActive
  revert hactive
  decide

/-- A server that lacks both addresses, and one that lacks the IPv4 address and has IPv6
disabled. -/
theorem familyAlike_iff_server :
    FamilyAlike .ipv4 7 (fun _ => vipAnswers false) (fun v => vipAnswers (v = .ipv6))
      [vipModule roleServer 3 64] [vipModule roleServer 1 64]
      (vipModule roleServer 3 64) (vipModule roleServer 1 64) :=
  (familyAlike_iff (by decide) (by decide) (by decide) (by decide)).2
    ⟨fun _ => ⟨by decide, by decide, by decide⟩, by decide⟩

end LcxlConfig

end LcxlNetLoader
