import LcxlNetLoader.Merging
import LcxlNetLoader.Proofs.ConfigFile

/-!
# Bringing the configuration up to the driver

What is done to a module that is configured, once and again, and what is added behind them. A module
that was added is one that the next call finds as the driver reports it.
-/

namespace LcxlNetLoader

namespace LcxlConfig

variable {moduleList : List AppModule} {modules modules' : List ServiceModule}
  {m m' : ServiceModule} {ait : AppModule}

theorem wcscpy_eq_some {text text' : WideText} (h : wcscpy text = some text') :
    text' = text ∧ text.Fits := by
  unfold wcscpy at h
  split_ifs at h with hf
  exact ⟨(Option.some.inj h).symm, hf⟩

theorem wcscpy_of_fits {text : WideText} (h : text.Fits) : wcscpy text = some text := if_pos h

/-! ## A module configured before -/

/-- What has been made of a module that the driver has not, or of one that it has. -/
theorem refreshModule_cases (h : refreshModule moduleList m = some m') :
    (moduleList.find? (fun ait => ait.miniportNetLuid = m.module.miniportNetLuid) = none
      ∧ m' = { m with isexist := false })
    ∨ ∃ ait, moduleList.find? (fun ait => ait.miniportNetLuid = m.module.miniportNetLuid) = some ait
      ∧ ait.NamesFit ∧ m' = { m with
        isexist := true
        module := { m.module with
          miniportIfindex := ait.miniportIfindex
          lcxlRole := if ait.lcxlRole ≠ roleUnknown then ait.lcxlRole else m.module.lcxlRole
          macAddr := ait.macAddr
          miniportFriendlyName := ait.miniportFriendlyName
          miniportName := ait.miniportName
          filterModuleName := ait.filterModuleName } } := by
  unfold refreshModule at h
  rcases hfind : moduleList.find? fun ait => ait.miniportNetLuid = m.module.miniportNetLuid
    with _ | ait <;> rw [hfind] at h
  · exact .inl ⟨hfind, (Option.some.inj h).symm⟩
  · obtain ⟨friendly, hfriendly, h⟩ := Option.bind_eq_some_iff.1 h
    obtain ⟨name, hname, h⟩ := Option.bind_eq_some_iff.1 h
    obtain ⟨filterName, hfilter, h⟩ := Option.bind_eq_some_iff.1 h
    obtain ⟨rfl, hfit⟩ := wcscpy_eq_some hfriendly
    obtain ⟨rfl, hfit'⟩ := wcscpy_eq_some hname
    obtain ⟨rfl, hfit''⟩ := wcscpy_eq_some hfilter
    exact .inr ⟨ait, hfind, ⟨hfit'', hfit, hfit'⟩, (Option.some.inj h).symm⟩

theorem refreshModule_luid (h : refreshModule moduleList m = some m') :
    m'.module.miniportNetLuid = m.module.miniportNetLuid := by
  rcases refreshModule_cases h with ⟨-, rfl⟩ | ⟨ait, -, -, rfl⟩ <;> rfl

theorem refreshModule_kept (h : refreshModule moduleList m = some m') : Kept moduleList m m' := by
  rcases refreshModule_cases h with ⟨-, rfl⟩ | ⟨ait, hfind, -, rfl⟩
  · exact ⟨rfl, rfl, rfl, rfl, rfl, rfl, rfl, rfl, ⟨rfl, rfl⟩, .inl rfl⟩
  · refine ⟨rfl, rfl, rfl, rfl, rfl, rfl, rfl, rfl, ⟨rfl, rfl⟩, ?_⟩
    by_cases hrole : ait.lcxlRole ≠ roleUnknown
    · exact .inr ⟨ait, List.mem_of_find?_eq_some hfind, by simpa using List.find?_some hfind, hrole,
        if_pos hrole⟩
    · exact .inl (if_neg hrole)

theorem refreshModule_isexist (h : refreshModule moduleList m = some m') : m'.isexist ↔
    ∃ ait ∈ moduleList, ait.miniportNetLuid = m'.module.miniportNetLuid := by
  rw [refreshModule_luid h]
  rcases refreshModule_cases h with ⟨hfind, rfl⟩ | ⟨ait, hfind, -, rfl⟩
  · rw [List.find?_eq_none] at hfind
    simpa using hfind
  · exact iff_of_true rfl
      ⟨ait, List.mem_of_find?_eq_some hfind, by simpa using List.find?_some hfind⟩

/-- What was made of a module is made of it again. -/
theorem refreshModule_again (h : refreshModule moduleList m = some m') :
    refreshModule moduleList m' = some m' := by
  have hluid := refreshModule_luid h
  rcases refreshModule_cases h with ⟨hfind, hm⟩ | ⟨ait, hfind, hfit, hm⟩
  · rw [refreshModule, hluid, hfind, hm]
  · rw [refreshModule, hluid, hfind]
    simp only [wcscpy_of_fits hfit.miniportFriendlyName, wcscpy_of_fits hfit.miniportName,
      wcscpy_of_fits hfit.filterModuleName, Option.bind_eq_bind, Option.bind_some, hm]
    by_cases hrole : ait.lcxlRole ≠ roleUnknown
    · simp only [if_pos hrole]
      rfl
    · simp only [if_neg hrole]
      rfl

/-- A module added is found as the driver reports it. -/
theorem refreshModule_new
    (hfind : moduleList.find? (fun c => c.miniportNetLuid = ait.miniportNetLuid) = some ait)
    (h : refreshModule moduleList (newModule ait) = some m') : m' = newModule ait := by
  rcases refreshModule_cases h with ⟨hnone, -⟩ | ⟨ait', hfind', -, hm⟩
  · exact absurd (hfind.symm.trans hnone) (by simp)
  · obtain rfl : ait = ait' := Option.some.inj (hfind.symm.trans hfind')
    rw [hm]
    have hrole : (if ait.lcxlRole ≠ roleUnknown then ait.lcxlRole
        else (newModule ait).module.lcxlRole) = ait.lcxlRole := ite_self _
    rw [hrole]
    rfl

/-! ## The whole configuration -/

theorem forall₂_exists_left {α β : Type} {R : α → β → Prop} {b : β} : ∀ {l : List α} {l' : List β},
    List.Forall₂ R l l' → b ∈ l' → ∃ a ∈ l, R a b
  | _, _, .cons hr h, hb => by
    rcases List.mem_cons.1 hb with rfl | hb
    · exact ⟨_, List.mem_cons_self, hr⟩
    · obtain ⟨a, ha, hab⟩ := forall₂_exists_left h hb
      exact ⟨a, List.mem_cons_of_mem _ ha, hab⟩

theorem forall₂_eq {α : Type} {R : α → α → Prop} : ∀ {l l' : List α}, List.Forall₂ R l l' →
    (∀ a ∈ l, ∀ b, R a b → b = a) → l' = l
  | _, _, .nil, _ => rfl
  | _, _, .cons hr h, hR => by
    rw [List.forall_mem_cons] at hR
    rw [hR.1 _ hr, forall₂_eq h hR.2]

theorem updateModuleList_eq_some (h : updateModuleList modules moduleList = some modules') :
    ∃ old, List.Forall₂ (fun m m' => refreshModule moduleList m = some m') modules old
      ∧ modules' = Merge.addMissing (·.module.miniportNetLuid) (·.miniportNetLuid) newModule
        moduleList old := by
  obtain ⟨old, hold, h⟩ := Option.bind_eq_some_iff.1 h
  exact ⟨old, mapM_eq_some_iff.1 hold, (Option.some.inj h).symm⟩

theorem luid_newModule (ait : AppModule) :
    (newModule ait).module.miniportNetLuid = ait.miniportNetLuid := rfl

/-- The modules of the new configuration: those of the old one brought up to date, and others made
of the first of the driver's modules with their LUIDs. -/
theorem updateModuleList_split (h : updateModuleList modules moduleList = some modules') :
    ∃ old new, modules' = old ++ new
      ∧ List.Forall₂ (fun m m' => refreshModule moduleList m = some m') modules old
      ∧ ∀ m ∈ new, ∃ ait, m = newModule ait
        ∧ moduleList.find? (fun c => c.miniportNetLuid = ait.miniportNetLuid) = some ait := by
  obtain ⟨old, hold, rfl⟩ := updateModuleList_eq_some h
  obtain ⟨new, hnew, hfirst⟩ :=
    Merge.addMissing_eq_append (·.module.miniportNetLuid) (·.miniportNetLuid) moduleList [] old
      (by simp) luid_newModule
  exact ⟨old, new, hnew, hold, hfirst⟩

theorem luids_refreshed : ∀ {modules old : List ServiceModule},
    List.Forall₂ (fun m m' => refreshModule moduleList m = some m') modules old →
      old.map (·.module.miniportNetLuid) = modules.map (·.module.miniportNetLuid)
  | _, _, .nil => rfl
  | _, _, .cons hm h => by
    rw [List.map_cons, List.map_cons, luids_refreshed h, refreshModule_luid hm]

theorem updateModuleList_merged (h : updateModuleList modules moduleList = some modules') :
    Merged modules moduleList modules' := by
  obtain ⟨old, hold, hmerged⟩ := updateModuleList_eq_some h
  obtain ⟨old', new, hsplit, hold', hnew⟩ := updateModuleList_split h
  have hluids := luids_refreshed hold
  refine ⟨fun hnd => ?_, ?_, fun m hm => ?_, old', new, hsplit, hold'.imp fun _ _ h => ?_⟩
  · rw [hmerged]
    exact Merge.nodup_addMissing moduleList luid_newModule (hluids ▸ hnd)
  · rw [hmerged]
    exact (Merge.addMissing_covers moduleList old luid_newModule).2
  · rw [hsplit] at hm
    rcases List.mem_append.1 hm with hm | hm
    · obtain ⟨m₀, -, hm₀⟩ := forall₂_exists_left hold' hm
      exact refreshModule_isexist hm₀
    · obtain ⟨ait, rfl, hfind⟩ := hnew m hm
      exact iff_of_true rfl ⟨ait, List.mem_of_find?_eq_some hfind, rfl⟩
  · exact refreshModule_kept h

/-- The second time nothing changes. -/
theorem updateModuleList_again {modules'' : List ServiceModule}
    (h : updateModuleList modules moduleList = some modules')
    (h' : updateModuleList modules' moduleList = some modules'') : modules'' = modules' := by
  obtain ⟨old, new, hsplit, hold, hnew⟩ := updateModuleList_split h
  obtain ⟨again, hagain, hmerged⟩ := updateModuleList_eq_some h'
  have hsame : again = modules' := by
    have hrefl : ∀ m ∈ modules', ∀ m', refreshModule moduleList m = some m' → m' = m := by
      intro m hm m' hm'
      rw [hsplit] at hm
      rcases List.mem_append.1 hm with hm | hm
      · obtain ⟨m₀, -, hm₀⟩ := forall₂_exists_left hold hm
        exact Option.some.inj (hm'.symm.trans (refreshModule_again hm₀))
      · obtain ⟨ait, rfl, hfind⟩ := hnew m hm
        exact refreshModule_new hfind hm'
    exact forall₂_eq hagain hrefl
  rw [hmerged, hsame]
  exact Merge.addMissing_eq_self (updateModuleList_merged h).covered

/-- The service goes on where the names end in their fields. -/
theorem exists_updateModuleList (hfit : ∀ ait ∈ moduleList, ait.NamesFit)
    (modules : List ServiceModule) :
    ∃ modules', updateModuleList modules moduleList = some modules' := by
  have hrefresh : ∀ m ∈ modules, ∃ m', refreshModule moduleList m = some m' ∧ True := by
    intro m _
    rcases hfind : moduleList.find? fun ait => ait.miniportNetLuid = m.module.miniportNetLuid
      with _ | ait
    · exact ⟨_, by rw [refreshModule, hfind], trivial⟩
    · have h := hfit ait (List.mem_of_find?_eq_some hfind)
      simp only [refreshModule, hfind, wcscpy_of_fits h.miniportFriendlyName,
        wcscpy_of_fits h.miniportName, wcscpy_of_fits h.filterModuleName, Option.bind_eq_bind,
        Option.bind_some, Option.pure_def, Option.some.injEq, and_true, exists_eq']
  obtain ⟨old, hold, -⟩ := (exists_mapM_forall₂ (R := fun _ _ => True) modules).2 hrefresh
  exact ⟨_, by rw [updateModuleList, hold]; rfl⟩

/-- What a call leaves of the configuration, and a second one leaves as it is. -/
theorem updateModuleList_merges (modules : List ServiceModule) (moduleList : List AppModule) :
    (∀ modules', updateModuleList modules moduleList = some modules' →
      Merged modules moduleList modules'
      ∧ ∀ modules'', updateModuleList modules' moduleList = some modules'' → modules'' = modules')
    ∧ ((∀ ait ∈ moduleList, ait.NamesFit) → ∃ modules',
      updateModuleList modules moduleList = some modules'
      ∧ updateModuleList modules' moduleList = some modules') := by
  refine ⟨fun modules' h => ⟨updateModuleList_merged h, fun _ h' => updateModuleList_again h h'⟩,
    fun hfit => ?_⟩
  obtain ⟨modules', h⟩ := exists_updateModuleList hfit modules
  obtain ⟨modules'', h'⟩ := exists_updateModuleList hfit modules'
  obtain rfl := updateModuleList_again h h'
  exact ⟨modules'', h, h'⟩

/-- An adapter whose three names are one character. -/
def adapter (miniportNetLuid : UInt64) (c : UInt16) (hc : 0 ∉ [c]) : AppModule where
  miniportIfindex := 3
  miniportNetLuid
  virtualAddr := ⟨0, .zero 4, 24, .zero 16, 64⟩
  macAddr := ⟨6, .zero 32⟩
  filterModuleName := ⟨[c], hc⟩
  miniportFriendlyName := ⟨[c], hc⟩
  miniportName := ⟨[c], hc⟩
  lcxlRole := 1
  serverCount := 0
  routeTimeout := 1800
  serverCheck := ⟨10, 10, 2⟩
  routingAlgorithm := 0x10

/-- The driver has the module that is configured, and another one. -/
theorem updateModuleList_merges_adapters :
    ∃ modules', updateModuleList [newModule (adapter 7 65 (by decide))]
        [adapter 8 66 (by decide), adapter 7 67 (by decide)] = some modules'
      ∧ updateModuleList modules' [adapter 8 66 (by decide), adapter 7 67 (by decide)]
        = some modules'
      ∧ (modules'.map (·.module.miniportNetLuid)).Nodup := by
  have hfit : ∀ luid c hc, (adapter luid c hc).NamesFit := fun luid c hc =>
    ⟨Nat.lt_of_sub_eq_succ rfl, Nat.lt_of_sub_eq_succ rfl, Nat.lt_of_sub_eq_succ rfl⟩
  obtain ⟨hmerges, hends⟩ := updateModuleList_merges [newModule (adapter 7 65 (by decide))]
    [adapter 8 66 (by decide), adapter 7 67 (by decide)]
  obtain ⟨modules', h, h'⟩ := hends fun ait hait => by
    rcases List.mem_pair.1 hait with rfl | rfl <;> exact hfit ..
  exact ⟨modules', h, h', (hmerges modules' h).1.distinct (by decide)⟩

theorem moduleByLuid_eq_find (modules : List ServiceModule) (miniportNetLuid : UInt64) :
    moduleByLuid modules miniportNetLuid
      = modules.find? fun it => it.module.miniportNetLuid = miniportNetLuid := by
  rw [moduleByLuid, findModuleByLuid, List.findIdx?_map, List.find?_eq_bind_findIdx?_getElem?]
  rfl

end LcxlConfig

end LcxlNetLoader
