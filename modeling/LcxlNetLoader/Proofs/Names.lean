import LcxlNetLoader.Names
import LcxlNetLoader.Proofs.Buffers
import LcxlNetLoader.Proofs.Frames

/-!
# Which names are copied right

A name that is copied as far as it goes, or else as far as its array does, is in the array when the
request is done: what is written later goes elsewhere. The two that are compared with another bound
are copied right for the other lengths only (`names_copied_iff`).
-/

namespace LcxlNetLoader

open ReadLog

variable {d : Driver} {irp : Irp} {p : FilterPtr} {w : Write} {ws ws' : List Write}
  {buf : ℕ → UInt8} {s : NdisString} {i buflen name curBuf : ℕ}

/-! ## Writes -/

theorem Write.apply_outside (h : i < w.offset ∨ w.offset + w.bytes.length ≤ i) :
    w.apply buf i = buf i := by
  unfold Write.apply
  split_ifs with hi
  · rw [List.getD_eq_getElem?_getD, List.getElem?_eq_none (by omega), Option.getD_none]
  · rfl

theorem Write.apply_inside (h : w.offset ≤ i) (h' : i - w.offset < w.bytes.length) :
    w.apply buf i = w.bytes.getD (i - w.offset) 0 := by
  unfold Write.apply
  rw [if_pos h, List.getD_eq_getElem?_getD, List.getD_eq_getElem?_getD,
    List.getElem?_eq_getElem h', Option.getD_some, Option.getD_some]

theorem applyWrites_append : applyWrites buf (ws ++ ws') = applyWrites (applyWrites buf ws) ws' :=
  List.foldl_append

theorem applyWrites_outside : ∀ {ws : List Write} {buf : ℕ → UInt8},
    (∀ w ∈ ws, i < w.offset ∨ w.offset + w.bytes.length ≤ i) → applyWrites buf ws i = buf i
  | [], _, _ => rfl
  | w :: ws, buf, h => by
    rw [List.forall_mem_cons] at h
    exact (applyWrites_outside h.2).trans (Write.apply_outside h.1)

/-! ## A name -/

theorem NdisString.byte_even (s : NdisString) (k : ℕ) :
    s.byte (2 * k) = UInt8.ofNat (s.buffer k).toNat := by
  rw [NdisString.byte, Nat.mul_mod_right, Nat.mul_div_cancel_left k (by omega)]
  rfl

theorem NdisString.byte_odd (s : NdisString) (k : ℕ) :
    s.byte (2 * k + 1) = UInt8.ofNat ((s.buffer k).toNat / 256) := by
  rw [NdisString.byte, show (2 * k + 1) % 2 = 1 by omega, show (2 * k + 1) / 2 = k by omega]
  rfl

/-- Two bytes are a character. -/
theorem charAt_byte (s : NdisString) (k : ℕ) : charAt s.byte (2 * k) = s.buffer k := by
  have h := (s.buffer k).toNat_lt
  rw [charAt, s.byte_even, s.byte_odd, ← UInt16.toNat_inj, toNat_u16OfBytes, UInt8.toNat_ofNat',
    UInt8.toNat_ofNat']
  omega

theorem flatMap_chars (s : NdisString) : ∀ m : ℕ,
    ((List.range m).flatMap fun i => leBytes 2 (s.buffer i).toNat) = (List.range (2 * m)).map s.byte
  | 0 => rfl
  | m + 1 => by
    rw [List.range_succ, List.flatMap_append, flatMap_chars s m, Nat.mul_succ, List.range_succ,
      List.range_succ, List.map_append, List.map_append, List.flatMap_singleton, List.map_singleton,
      List.map_singleton, s.byte_even, s.byte_odd, List.append_assoc]
    rfl

/-- The bytes read are those of the characters. -/
theorem range_eq_bytes (s : NdisString) (n : ℕ) : (readRange 0 n).val s.byte = s.bytes n := by
  rw [val_readRange, NdisString.bytes, flatMap_chars, ← List.map_take, List.take_range,
    show min n (2 * n) = n by omega]
  simp only [Nat.zero_add]

theorem NdisString.getD_bytes (s : NdisString) (h : i < buflen) :
    (s.bytes buflen).getD i 0 = s.byte i := by
  rw [← range_eq_bytes, val_readRange, List.getD_eq_getElem?_getD, List.getElem?_map,
    List.getElem?_range h]
  simp

theorem copyNameAt_eq (s : NdisString) (buflen name : ℕ) :
    (copyNameAt buflen name).val s.byte = nameWrites s buflen name := by
  rw [copyNameAt, val_bind, val_pure, range_eq_bytes, nameWrites]

theorem copyNameAt_within : (copyNameAt buflen name).Within (· < s.length) s.byte
    ↔ buflen ≤ s.length := by
  rw [copyNameAt, within_bind, within_pure, and_true, within_readRange]
  omega

/-- The array once the name has been copied to it, as long as nothing else is written there. -/
theorem charAt_after {after : ℕ → UInt8} (hb : buflen < 512)
    (h : ∀ i, name ≤ i → i < name + 512 → after i = applyWrites buf (nameWrites s buflen name) i) :
    (∀ k < buflen / 2, charAt after (name + 2 * k) = s.buffer k)
      ∧ charAt after (name + 2 * (buflen / 2)) = 0 := by
  refine ⟨fun k hk => ?_, ?_⟩
  · have hbyte : ∀ j, j < 2 * (buflen / 2) → after (name + j) = s.byte j := by
      intro j hj
      rw [h _ (by omega) (by omega), nameWrites]
      have hzero : (Write.mk (name + 2 * (buflen / 2)) [0, 0]).apply
          ((Write.mk name (s.bytes buflen)).apply buf) (name + j)
          = (Write.mk name (s.bytes buflen)).apply buf (name + j) :=
        Write.apply_outside (.inl (by dsimp only; omega))
      have hname : (Write.mk name (s.bytes buflen)).apply buf (name + j)
          = (s.bytes buflen).getD (name + j - name) 0 :=
        Write.apply_inside (by simp) (by rw [s.length_bytes]; dsimp only; omega)
      rw [Nat.add_sub_cancel_left, s.getD_bytes (by omega)] at hname
      exact hzero.trans hname
    rw [← charAt_byte, charAt, charAt, hbyte _ (by omega), Nat.add_assoc, hbyte _ (by omega)]
  · have hbyte : ∀ j, j < 2 → after (name + 2 * (buflen / 2) + j) = 0 := by
      intro j hj
      rw [h _ (by omega) (by omega), nameWrites]
      have hzero : (Write.mk (name + 2 * (buflen / 2)) [0, 0]).apply
          ((Write.mk name (s.bytes buflen)).apply buf) (name + 2 * (buflen / 2) + j)
          = [0, 0].getD (name + 2 * (buflen / 2) + j - (name + 2 * (buflen / 2))) 0 :=
        Write.apply_inside (by simp) (by simpa using hj)
      rw [Nat.add_sub_cancel_left] at hzero
      refine hzero.trans ?_
      rcases (show j = 0 ∨ j = 1 by omega) with rfl | rfl <;> rfl
    have h0 := hbyte 0 (by omega)
    rw [Nat.add_zero] at h0
    rw [charAt, h0, hbyte 1 (by omega)]
    rfl

/-- So many bytes are as many characters as the name has, or else as there is room for. -/
structure Fitting (s : NdisString) (buflen : ℕ) : Prop where
  le : buflen ≤ s.length
  lt : buflen < 512
  chars : buflen / 2 = min (s.length / 2) 255

theorem Fitting.nameCopied {after : ℕ → UInt8} (hb : Fitting s buflen)
    (h : ∀ i, name ≤ i → i < name + 512 → after i = applyWrites buf (nameWrites s buflen name) i) :
    NameCopied s buflen name after := by
  obtain ⟨hheld, hended⟩ := charAt_after hb.lt h
  have hlt := hb.lt
  rw [hb.chars] at hheld hended
  refine ⟨copyNameAt_within.2 hb.le, fun w hw => ?_, hheld, hended⟩
  rw [copyNameAt_eq] at hw
  simp only [nameWrites, List.mem_cons, List.not_mem_nil, or_false] at hw
  rcases hw with rfl | rfl
  · rw [s.length_bytes]
    dsimp only
    omega
  · simp only [List.length_cons, List.length_nil]
    omega

theorem NameCopied.buflen_le {after : ℕ → UInt8} (h : NameCopied s buflen name after) :
    buflen ≤ s.length ∧ buflen < 512 := by
  refine ⟨copyNameAt_within.1 h.reads, ?_⟩
  have hinside := h.inside
  rw [copyNameAt_eq] at hinside
  have := (hinside ⟨name + 2 * (buflen / 2), [0, 0]⟩ (by simp [nameWrites])).2
  simp only [List.length_cons, List.length_nil] at this
  omega

/-! ## The lengths -/

theorem filterModuleNameLength_fitting : Fitting s (filterModuleNameLength s) := by
  unfold filterModuleNameLength
  split_ifs <;> constructor <;> omega

theorem miniportFriendlyNameLength_fitting (h : s.length ≤ 8 ∨ 510 ≤ s.length) :
    Fitting s (miniportFriendlyNameLength s) := by
  unfold miniportFriendlyNameLength
  split_ifs <;> constructor <;> omega

theorem of_miniportFriendlyNameLength (h : miniportFriendlyNameLength s ≤ s.length) :
    s.length ≤ 8 ∨ 510 ≤ s.length := by
  unfold miniportFriendlyNameLength at h
  split_ifs at h with h8
  · exact .inr h
  · exact .inl (not_lt.1 h8)

theorem miniportNameLength_fitting (h : 2 ≤ s.length ∧ s.length < 512 ∨ 514 < s.length) :
    Fitting s (miniportNameLength s) := by
  unfold miniportNameLength
  split_ifs <;> constructor <;> omega

theorem of_miniportNameLength (h : miniportNameLength s ≤ s.length ∧ miniportNameLength s < 512) :
    2 ≤ s.length ∧ s.length < 512 ∨ 514 < s.length := by
  obtain ⟨hle, hlt⟩ := h
  unfold miniportNameLength at hle hlt
  split_ifs at hle hlt with h2 <;> omega

/-! ## The record and the list -/

/-- The write is not to the array at `name`. -/
def Write.Away (w : Write) (name : ℕ) : Prop :=
  w.offset + w.bytes.length ≤ name ∨ name + 512 ≤ w.offset

/-- The name is written, and after it nothing more to its array. -/
def WrittenLast (s : NdisString) (buflen name : ℕ) (ws : List Write) : Prop :=
  ∃ before behind, ws = before ++ (nameWrites s buflen name ++ behind)
    ∧ ∀ w ∈ behind, w.Away name

theorem Fitting.nameCopied_of_writes (hb : Fitting s buflen)
    (h : WrittenLast s buflen name ws) : NameCopied s buflen name (applyWrites buf ws) := by
  obtain ⟨before, behind, rfl, haway⟩ := h
  have hlast : ∀ i, name ≤ i → i < name + 512 →
      applyWrites buf (before ++ (nameWrites s buflen name ++ behind)) i
        = applyWrites (applyWrites buf before) (nameWrites s buflen name) i := by
    intro i hi hi'
    rw [applyWrites_append, applyWrites_append]
    refine applyWrites_outside fun w hw => ?_
    rcases haway w hw with h | h
    · exact .inr (by omega)
    · exact .inl (by omega)
  exact hb.nameCopied hlast

theorem nameWrites_ge {b : ℕ} (h : w ∈ nameWrites s b name) : name ≤ w.offset := by
  simp only [nameWrites, List.mem_cons, List.not_mem_nil, or_false] at h
  rcases h with rfl | rfl <;> dsimp only <;> omega

theorem appModuleWrites_ge {module : LcxlModuleSettingInfo}
    (h : w ∈ appModuleWrites module curBuf) : curBuf ≤ w.offset := by
  simp only [appModuleWrites, List.mem_append] at h
  rcases h with (((h | h) | h) | h) | h
  · simp only [List.mem_cons, List.not_mem_nil, or_false] at h
    rcases h with rfl | rfl | rfl <;> dsimp only <;> omega
  · exact (Nat.le_add_right _ _).trans (nameWrites_ge h)
  · exact (Nat.le_add_right _ _).trans (nameWrites_ge h)
  · exact (Nat.le_add_right _ _).trans (nameWrites_ge h)
  · simp only [List.mem_cons, List.not_mem_nil, or_false] at h
    rcases h with rfl | rfl | rfl | rfl | rfl | rfl <;> dsimp only <;> omega

theorem moduleListWrites_ge : ∀ {ps : List FilterPtr} {curBuf : ℕ},
    w ∈ moduleListWrites d ps curBuf → curBuf ≤ w.offset
  | p :: ps, curBuf, h => by
    rcases List.mem_append.1 h with h | h
    · exact appModuleWrites_ge h
    · exact (Nat.le_add_right _ _).trans (moduleListWrites_ge h)

theorem moduleListWrites_append : ∀ (ps ps' : List FilterPtr) (curBuf : ℕ),
    moduleListWrites d (ps ++ ps') curBuf = moduleListWrites d ps curBuf
      ++ moduleListWrites d ps' (curBuf + ps.length * sizeofAppModule)
  | [], _, curBuf => by simp [moduleListWrites]
  | p :: ps, ps', curBuf => by
    rw [List.cons_append, moduleListWrites, moduleListWrites_append ps, moduleListWrites,
      List.append_assoc, List.length_cons, Nat.succ_mul, Nat.add_assoc curBuf, Nat.add_comm
      sizeofAppModule]

/-- What the record of a module is written among. -/
theorem getModuleListWrites_split {i : ℕ}
    (hroom : irp.hasRoom (getLcxlListCount d.gFilterList) sizeofAppModule)
    (hp : (getLcxlListHead d.gFilterList)[i]? = some p) :
    ∃ ws ws', getModuleListWrites d irp
        = ws ++ (appModuleWrites (d.filter p).module (i * sizeofAppModule) ++ ws')
      ∧ ∀ w ∈ ws', i * sizeofAppModule + sizeofAppModule ≤ w.offset := by
  obtain ⟨hi, hget⟩ := List.getElem?_eq_some_iff.1 hp
  refine ⟨moduleListWrites d ((getLcxlListHead d.gFilterList).take i) 0,
    moduleListWrites d ((getLcxlListHead d.gFilterList).drop (i + 1))
      (i * sizeofAppModule + sizeofAppModule), ?_, fun w => moduleListWrites_ge⟩
  have hsplit := List.take_append_drop i (getLcxlListHead d.gFilterList)
  rw [List.drop_eq_getElem_cons hi, hget] at hsplit
  rw [getModuleListWrites, if_pos hroom]
  conv_lhs => rw [← hsplit]
  rw [moduleListWrites_append, moduleListWrites, List.length_take, Nat.min_eq_left hi.le,
    Nat.zero_add]

/-- What is written of a record after its names. -/
theorem appModuleWrites_eq (module : LcxlModuleSettingInfo) (curBuf : ℕ) : ∃ ws ws',
    appModuleWrites module curBuf = ws
      ++ (nameWrites module.filterModuleName (filterModuleNameLength module.filterModuleName)
        (curBuf + 74)
      ++ (nameWrites module.miniportFriendlyName
        (miniportFriendlyNameLength module.miniportFriendlyName) (curBuf + 586)
      ++ (nameWrites module.miniportName (miniportNameLength module.miniportName) (curBuf + 1098)
      ++ ws')))
    ∧ ∀ w ∈ ws', w.offset + w.bytes.length ≤ curBuf + 40 ∨ curBuf + 1610 ≤ w.offset := by
  refine ⟨_, _, by rw [appModuleWrites]; simp only [List.append_assoc]; rfl, fun w hw => ?_⟩
  simp only [List.mem_cons, List.not_mem_nil, or_false] at hw
  rcases hw with rfl | rfl | rfl | rfl | rfl | rfl
  · exact .inr le_rfl
  · exact .inr (by dsimp only; omega)
  · exact .inr (by dsimp only; omega)
  · exact .inl (by rw [LcxlAddrInfo.length_bytes])
  · exact .inr (by dsimp only; omega)
  · exact .inr (by dsimp only; omega)

/-- What is written after a name is elsewhere: another name, the rest of the record or a later
record. -/
theorem names_writtenLast {i : ℕ}
    (hroom : irp.hasRoom (getLcxlListCount d.gFilterList) sizeofAppModule)
    (hp : (getLcxlListHead d.gFilterList)[i]? = some p) :
    let module := (d.filter p).module
    let curBuf := i * sizeofAppModule
    WrittenLast module.filterModuleName (filterModuleNameLength module.filterModuleName)
      (curBuf + 74) (getModuleListWrites d irp)
    ∧ WrittenLast module.miniportFriendlyName
      (miniportFriendlyNameLength module.miniportFriendlyName) (curBuf + 586)
      (getModuleListWrites d irp)
    ∧ WrittenLast module.miniportName (miniportNameLength module.miniportName) (curBuf + 1098)
      (getModuleListWrites d irp) := by
  intro module curBuf
  obtain ⟨ws, ws', hws, hlater⟩ := getModuleListWrites_split hroom hp
  obtain ⟨vs, vs', hvs, hrest⟩ := appModuleWrites_eq module curBuf
  have hsize : sizeofAppModule = 1638 := rfl
  have haway : ∀ name, curBuf + 40 ≤ name → name + 512 ≤ curBuf + 1610 →
      ∀ w ∈ vs' ++ ws', w.Away name := by
    intro name hname hname' w hw
    rcases List.mem_append.1 hw with hw | hw
    · rcases hrest w hw with h | h
      · exact .inl (by omega)
      · exact .inr (by omega)
    · exact .inr (by have : curBuf + sizeofAppModule ≤ w.offset := hlater w hw; omega)
  rw [hws, hvs]
  refine ⟨⟨ws ++ vs, _, by simp only [List.append_assoc]; rfl, fun w hw => ?_⟩,
    ⟨ws ++ (vs ++ _), _, by simp only [List.append_assoc]; rfl, fun w hw => ?_⟩,
    ⟨ws ++ (vs ++ (_ ++ _)), _, by simp only [List.append_assoc]; rfl, fun w hw => ?_⟩⟩
  · rcases List.mem_append.1 hw with hw | hw
    · exact .inr (nameWrites_ge hw)
    · rcases List.mem_append.1 hw with hw | hw
      · exact .inr ((by omega : curBuf + 74 + 512 ≤ curBuf + 1098).trans (nameWrites_ge hw))
      · exact haway _ (by omega) (by omega) w hw
  · rcases List.mem_append.1 hw with hw | hw
    · exact .inr (nameWrites_ge hw)
    · exact haway _ (by omega) (by omega) w hw
  · exact haway _ (by omega) (by omega) w hw

/-- A module's `filter_module_name` is copied right. Its friendly name is where it has no more bytes
than a pointer or as many as the array can hold, and the miniport's where it has none too few to
take two from and is not just as long as the array or by one character longer. -/
theorem names_copied_iff (d : Driver) (irp : Irp) (i : ℕ) (p : FilterPtr) (buf : ℕ → UInt8)
    (hroom : irp.hasRoom (getLcxlListCount d.gFilterList) sizeofAppModule)
    (hp : (getLcxlListHead d.gFilterList)[i]? = some p) :
    let module := (d.filter p).module
    let curBuf := i * sizeofAppModule
    let after := applyWrites buf (getModuleListWrites d irp)
    NameCopied module.filterModuleName (filterModuleNameLength module.filterModuleName)
      (curBuf + 74) after
    ∧ (NameCopied module.miniportFriendlyName
        (miniportFriendlyNameLength module.miniportFriendlyName) (curBuf + 586) after
      ↔ module.miniportFriendlyName.length ≤ 8 ∨ 510 ≤ module.miniportFriendlyName.length)
    ∧ (NameCopied module.miniportName (miniportNameLength module.miniportName) (curBuf + 1098) after
      ↔ 2 ≤ module.miniportName.length ∧ module.miniportName.length < 512
        ∨ 514 < module.miniportName.length) := by
  intro module curBuf after
  obtain ⟨hfilter, hfriendly, hminiport⟩ := names_writtenLast hroom hp
  exact ⟨filterModuleNameLength_fitting.nameCopied_of_writes hfilter,
    ⟨fun h => of_miniportFriendlyNameLength h.buflen_le.1,
      fun h => (miniportFriendlyNameLength_fitting h).nameCopied_of_writes hfriendly⟩,
    ⟨fun h => of_miniportNameLength h.buflen_le,
      fun h => (miniportNameLength_fitting h).nameCopied_of_writes hminiport⟩⟩

/-- One module, whose names are so many bytes long and full of the letter A. -/
def sampleNames (friendly miniport : ℕ) : Driver where
  gFilterList := ⟨[0], 1, [], [], 0, []⟩
  filter _ := { Sample.router with
    module := { Sample.router.module with
      miniportFriendlyName := ⟨friendly, fun _ => 65⟩
      miniportName := ⟨miniport, fun _ => 65⟩ } }

def sampleNamesQuery : Irp := ⟨true, ioctlGetModuleList, fun _ => 0, 0, 1638⟩

theorem names_copied_iff_short :
    let after := applyWrites (fun _ => 0)
      (getModuleListWrites (sampleNames 8 510) sampleNamesQuery)
    NameCopied ⟨8, fun _ => 65⟩ 8 586 after ∧ NameCopied ⟨510, fun _ => 65⟩ 510 1098 after := by
  obtain ⟨-, h2, h3⟩ := names_copied_iff (sampleNames 8 510) sampleNamesQuery 0 0 (fun _ => 0)
    (by decide) rfl
  exact ⟨h2.2 (.inl le_rfl), h3.2 (.inl ⟨by decide, by decide⟩)⟩

/-- Of a friendly name of five characters 510 bytes are copied, and a miniport's name of as many
bytes as its array leaves no room for the zero. -/
theorem names_not_copied :
    let after := applyWrites (fun _ => 0)
      (getModuleListWrites (sampleNames 10 512) sampleNamesQuery)
    ¬ NameCopied ⟨10, fun _ => 65⟩ (miniportFriendlyNameLength ⟨10, fun _ => 65⟩) 586 after
      ∧ ¬ NameCopied ⟨512, fun _ => 65⟩ (miniportNameLength ⟨512, fun _ => 65⟩) 1098 after :=
  ⟨fun h => absurd h.buflen_le.1 (by decide), fun h => absurd h.buflen_le.2 (by decide)⟩

end LcxlNetLoader
