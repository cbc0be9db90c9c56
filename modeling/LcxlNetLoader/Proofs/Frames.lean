import LcxlNetLoader.Module

/-!
# Bytes of frames

Ranges of a frame's bytes, what a write leaves of them, and the numbers that bytes are.
-/

namespace LcxlNetLoader

/-! ## Ranges -/

namespace Frame

@[simp] theorem length_slice (fr : Frame) (off n : ℕ) : (fr.slice off n).length = n := by
  simp [Frame.slice]

theorem slice_succ (fr : Frame) (off n : ℕ) :
    fr.slice off (n + 1) = fr.byte off :: fr.slice (off + 1) n := by
  simp only [slice, List.range_succ_eq_map, List.map_cons, List.map_map, Nat.add_zero]
  congr 1
  refine List.map_congr_left fun i _ => ?_
  simp only [Function.comp, Nat.add_assoc, Nat.add_comm 1 i]

theorem slice_add (fr : Frame) (off m n : ℕ) :
    fr.slice off (m + n) = fr.slice off m ++ fr.slice (off + m) n := by
  simp only [slice, List.range_add, List.map_append, List.map_map]
  refine congrArg _ (List.map_congr_left fun i _ => ?_)
  simp only [Function.comp, Nat.add_assoc]

theorem write_byte (fr : Frame) (off : ℕ) (bs : List UInt8) (i : ℕ) : (fr.write off bs).byte i =
    if off ≤ i then bs.getD (i - off) (fr.byte i) else fr.byte i := rfl

theorem write_byte_of_lt {fr : Frame} {off i : ℕ} {bs : List UInt8} (h : i < off) :
    (fr.write off bs).byte i = fr.byte i := by
  rw [write_byte, if_neg (by omega)]

theorem write_byte_of_ge {fr : Frame} {off i : ℕ} {bs : List UInt8} (h : off + bs.length ≤ i) :
    (fr.write off bs).byte i = fr.byte i := by
  rw [write_byte, if_pos (by omega), List.getD_eq_getElem?_getD,
    List.getElem?_eq_none (by omega), Option.getD_none]

theorem copy_byte {fr : Frame} {n i : ℕ} {heap : ℕ → UInt8} (h : i < n) :
    (fr.copy n heap).byte i = fr.byte i := if_pos h

theorem slice_write {fr : Frame} {off : ℕ} {bs : List UInt8} :
    (fr.write off bs).slice off bs.length = bs := by
  refine List.ext_getElem (by simp [slice]) fun i h1 h2 => ?_
  simp only [slice, List.getElem_map, List.getElem_range, write_byte]
  rw [if_pos (by omega), Nat.add_sub_cancel_left, List.getD_eq_getElem?_getD,
    List.getElem?_eq_getElem h2]
  rfl

/-- What a write leaves of the bytes before it. -/
theorem slice_write_of_le {fr : Frame} {off i n : ℕ} {bs : List UInt8} (h : i + n ≤ off) :
    (fr.write off bs).slice i n = fr.slice i n := by
  refine List.map_congr_left fun j hj => ?_
  exact write_byte_of_lt (by have := List.mem_range.1 hj; omega)

/-- What a write leaves of the bytes after it. -/
theorem slice_write_of_ge {fr : Frame} {off i n : ℕ} {bs : List UInt8} (h : off + bs.length ≤ i) :
    (fr.write off bs).slice i n = fr.slice i n := by
  exact List.map_congr_left fun j _ => write_byte_of_ge (by omega)

/-- A write over one of the same length leaves nothing of it. -/
theorem write_write {fr : Frame} {off : ℕ} {bs bs' : List UInt8} (h : bs.length = bs'.length) :
    (fr.write off bs).write off bs' = fr.write off bs' := by
  refine congrArg (fun byte => (⟨byte, fr.dataLength⟩ : Frame)) (funext fun i => ?_)
  simp only [write_byte]
  split_ifs with hi
  · rcases Nat.lt_or_ge (i - off) bs'.length with hlt | hge
    · simp [List.getD_eq_getElem?_getD, hlt]
    · simp [List.getD_eq_getElem?_getD, h, hge]
  · rfl

end Frame

/-- Two ranges of equal bytes. -/
theorem slice_eq_iff {fr fr' : Frame} {off off' n : ℕ} :
    fr.slice off n = fr'.slice off' n ↔ ∀ i, i < n → fr.byte (off + i) = fr'.byte (off' + i) := by
  simp only [Frame.slice, List.map_inj_left, List.mem_range]

theorem range_eq_slice (fr : Frame) (off n : ℕ) :
    (ReadLog.readRange off n).val fr.byte = fr.slice off n := ReadLog.val_readRange n off

theorem length_mac (a : IfPhysicalAddress) : a.mac.length = 6 := by
  simp [IfPhysicalAddress.mac]

/-! ## Numbers -/

theorem toNat_u16OfBytes (lo hi : UInt8) :
    (u16OfBytes lo hi).toNat = lo.toNat + 256 * hi.toNat := by
  have hlo := lo.toNat_lt
  have hhi := hi.toNat_lt
  have h8 : hi.toNat <<< 8 % 2 ^ 16 = hi.toNat <<< 8 := by
    rw [Nat.shiftLeft_eq]
    omega
  rw [u16OfBytes, UInt16.toNat_or, UInt16.toNat_shiftLeft, UInt8.toNat_toUInt16,
    UInt8.toNat_toUInt16, show UInt16.toNat 8 % 16 = 8 from rfl, h8, Nat.or_comm,
    ← Nat.shiftLeft_add_eq_or_of_lt (by omega), Nat.shiftLeft_eq]
  omega

theorem toNat_ntohs (a : UInt16) : (ntohs a).toNat = a.toNat % 256 * 256 + a.toNat / 256 := by
  have ha := a.toNat_lt
  have hlow : a.toNat &&& 255 = a.toNat % 256 := Nat.and_two_pow_sub_one_eq_mod a.toNat 8
  have hhigh : (a.toNat &&& 65280) >>> 8 = a.toNat / 256 := by
    rw [Nat.shiftRight_and_distrib, show 65280 >>> 8 = 2 ^ 8 - 1 from rfl,
      Nat.and_two_pow_sub_one_eq_mod, Nat.shiftRight_eq_div_pow]
    omega
  have h8 : (a.toNat % 256) <<< 8 % 2 ^ 16 = (a.toNat % 256) <<< 8 := by
    rw [Nat.shiftLeft_eq]
    omega
  rw [ntohs, UInt16.toNat_or, UInt16.toNat_shiftLeft, UInt16.toNat_shiftRight, UInt16.toNat_and,
    UInt16.toNat_and, show UInt16.toNat 8 % 16 = 8 from rfl,
    show UInt16.toNat 0xff = 255 from rfl, show UInt16.toNat 0xff00 = 65280 from rfl, hlow, hhigh,
    h8, ← Nat.shiftLeft_add_eq_or_of_lt (by omega), Nat.shiftLeft_eq]

theorem ntohs_ntohs (a : UInt16) : ntohs (ntohs a) = a := by
  have ha := a.toNat_lt
  rw [← UInt16.toNat_inj, toNat_ntohs, toNat_ntohs]
  omega

theorem u16OfBytes_u16Bytes (a : UInt16) : u16OfBytes a.toUInt8 (a >>> 8).toUInt8 = a := by
  have ha := a.toNat_lt
  have h8 : a.toNat >>> 8 = a.toNat / 256 := Nat.shiftRight_eq_div_pow _ _
  rw [← UInt16.toNat_inj, toNat_u16OfBytes, UInt16.toNat_toUInt8, UInt16.toNat_toUInt8,
    UInt16.toNat_shiftRight, show UInt16.toNat 8 % 16 = 8 from rfl, h8]
  omega

/-- The high byte of a number goes first where it is stored in network order. -/
theorem u16Bytes_ntohs (a : UInt16) :
    u16Bytes (ntohs a) = [UInt8.ofNat (a.toNat / 256), UInt8.ofNat a.toNat] := by
  have ha := a.toNat_lt
  simp only [u16Bytes, List.cons.injEq, and_true, ← UInt8.toNat_inj, UInt16.toNat_toUInt8,
    UInt16.toNat_shiftRight, UInt8.toNat_ofNat', show UInt16.toNat 8 % 16 = 8 from rfl,
    toNat_ntohs, Nat.shiftRight_eq_div_pow]
  have hlow : a.toNat % 256 < 256 := Nat.mod_lt _ (by omega)
  have hhigh : a.toNat / 256 < 256 := by omega
  change _ ∧ _ = a.toNat % 256
  generalize a.toNat % 256 = low at hlow ⊢
  generalize a.toNat / 256 = high at hhigh ⊢
  omega

/-- A number in network order is its high byte and then its low one. -/
theorem ntohs_eq_iff {a b : UInt8} {n : UInt16} :
    ntohs (u16OfBytes a b) = n ↔ a.toNat * 256 + b.toNat = n.toNat := by
  have ha := a.toNat_lt
  have hb := b.toNat_lt
  rw [← UInt16.toNat_inj, toNat_ntohs, toNat_u16OfBytes]
  omega

end LcxlNetLoader
