import LcxlNetLoader.TextLib
import Mathlib.Data.List.TakeWhile

/-!
# Texts that are read as what they were made of

Numbers come back up to the greatest `_atoi64` has (`atoi64_toString`). There are conversions that
are faithful (`plainText_faithful`): bytes in hexadecimal, and each `WCHAR` a character of its own.
-/

namespace LcxlNetLoader

theorem atoi64_of_digits (c : Char) (cs : List Char) (h : ∀ d ∈ c :: cs, d.isDigit) :
    atoi64 (String.ofList (c :: cs))
      = max (-2 ^ 63) (min (2 ^ 63 - 1) (Nat.ofDigitChars 10 (c :: cs) 0 : ℤ)) := by
  have hc : c.isDigit := h c (List.mem_cons_self ..)
  have hspace : ¬ c.isWhitespace := by
    intro hw
    simp only [Char.isWhitespace, Bool.or_eq_true, decide_eq_true_eq] at hw
    rcases hw with ((rfl | rfl) | rfl) | rfl <;> exact absurd hc (by decide)
  have htake : (c :: cs).takeWhile Char.isDigit = c :: cs := List.takeWhile_eq_self_iff.2 h
  unfold atoi64
  rw [String.toList_ofList, List.dropWhile_cons_of_neg hspace]
  dsimp only
  split
  · rename_i _ heq
    rw [(List.cons.inj heq).1] at hc
    exact absurd hc (by decide)
  · rename_i _ heq
    rw [(List.cons.inj heq).1] at hc
    exact absurd hc (by decide)
  · rw [htake]

theorem digits_of_toDigits (n : ℕ) : ∀ c ∈ Nat.toDigits 10 n, c.isDigit := fun _ hc =>
  Nat.isDigit_of_mem_toDigits (by norm_num) (by norm_num) hc

/-- A number below 2^63 is read as it was written, and a greater one as the greatest there is. -/
theorem atoi64_toString (n : ℕ) : atoi64 (toString n) = min (2 ^ 63 - 1) (n : ℤ) := by
  have hall := digits_of_toDigits n
  have hvalue : Nat.ofDigitChars 10 (Nat.toDigits 10 n) 0 = n := Nat.ofDigitChars_ten_toDigits
  rw [Nat.toString_eq_ofList_toDigits]
  cases hd : Nat.toDigits 10 n with
  | nil => exact absurd hd Nat.toDigits_ne_nil
  | cons c cs =>
    rw [hd] at hall hvalue
    rw [atoi64_of_digits c cs hall, hvalue]
    omega

theorem atoi64_neg_toString (n : ℕ) : atoi64 ("-" ++ toString n) = max (-2 ^ 63) (-(n : ℤ)) := by
  have htake : (Nat.toDigits 10 n).takeWhile Char.isDigit = Nat.toDigits 10 n :=
    List.takeWhile_eq_self_iff.2 (digits_of_toDigits n)
  have hl : ("-" ++ toString n).toList = '-' :: Nat.toDigits 10 n := by
    rw [String.toList_append, Nat.toString_eq_ofList_toDigits, String.toList_ofList]
    simp
  unfold atoi64
  rw [hl, List.dropWhile_cons_of_neg (by decide)]
  simp only [htake, Nat.ofDigitChars_ten_toDigits]
  omega

theorem atoi64_intToString (v : Int32) : atoi64 (toString v.toInt) = v.toInt := by
  have hlo := v.le_toInt
  have hhi := v.toInt_lt
  rw [Int.toString_eq_repr, Int.repr_eq_if]
  split_ifs with h
  · rw [← Nat.toString_eq_repr, atoi64_toString]
    omega
  · rw [← Nat.toString_eq_repr, atoi64_neg_toString]
    omega

theorem ofInt_toInt (v : Int32) : UInt32.ofInt v.toInt = v.toUInt32 := by
  have hv : v.toInt % 2 ^ 32 = v.toUInt32.toNat := by
    rw [Int32.toInt, BitVec.toInt_eq_toNat_bmod]
    exact (Int.bmod_emod ..).trans (Int.emod_eq_of_lt (by omega) (by omega))
  rw [UInt32.ofInt, hv, Int.toNat_natCast, UInt32.ofNat_toNat]

/-- The bytes of a text that `hexChars` makes. -/
def readHex : List Char → List UInt8
  | h :: l :: '-' :: cs => UInt8.ofNat (16 * hexValue h + hexValue l) :: readHex cs
  | [h, l] => [UInt8.ofNat (16 * hexValue h + hexValue l)]
  | _ => []
where
  hexValue (c : Char) : ℕ := "0123456789abcdef".toList.idxOf c

theorem hexValue_hexDigit : ∀ n < 16, readHex.hexValue (hexDigit n) = n := by decide

theorem readHex_byte (b : UInt8) :
    UInt8.ofNat (16 * readHex.hexValue (hexDigit (b.toNat / 16))
      + readHex.hexValue (hexDigit (b.toNat % 16))) = b := by
  have hb := b.toNat_lt
  rw [hexValue_hexDigit _ (by omega), hexValue_hexDigit _ (by omega), Nat.div_add_mod,
    UInt8.ofNat_toNat]

theorem readHex_hexChars : ∀ bs : List UInt8, readHex (hexChars bs) = bs
  | [] => rfl
  | [b] => by rw [hexChars, readHex, readHex_byte]
  | b :: b' :: bs => by 
    rw [hexChars, readHex, readHex_byte, readHex_hexChars (b' :: bs)]
    exact List.cons_ne_nil _ _

/-- An address has the text of the unspecified one, or its bytes. -/
def addressText {n : ℕ} (unspecified : String) (a : Bytes n) : String :=
  if a = .zero n then unspecified else String.ofList (hexChars a.toList)

def readAddress (n : ℕ) (unspecified text : String) : Option (Bytes n) :=
  if text = unspecified then some (.zero n)
  else if h : (readHex text.toList).length = n then some ⟨readHex text.toList, h⟩ else none

theorem readAddress_addressText {n : ℕ} {unspecified : String} (a : Bytes n)
    (h : (readHex unspecified.toList).length ≠ n) :
    readAddress n unspecified (addressText unspecified a) = some a := by
  unfold addressText
  split_ifs with hz
  · rw [hz, readAddress, if_pos rfl]
  · have hread : readHex (String.ofList (hexChars a.toList)).toList = a.toList := by
      rw [String.toList_ofList, readHex_hexChars]
    have hne : String.ofList (hexChars a.toList) ≠ unspecified := by
      intro he
      rw [he] at hread
      exact h (hread ▸ a.toList_length)
    rw [readAddress, if_neg hne, dif_pos (by rw [hread, a.toList_length])]
    exact congrArg some (Subtype.ext hread)

theorem WideText.eq_of_chars : ∀ {a b : WideText}, a.chars = b.chars → a = b
  | ⟨_, _⟩, ⟨_, _⟩, rfl => rfl

/-- An ASCII character is itself, and any other `WCHAR` a character past the first plane. -/
def charOfWide (c : UInt16) : Char :=
  Char.ofNat (if c.toNat < 128 then c.toNat else 0x10000 + c.toNat)

def wideOfChar (c : Char) : UInt16 := UInt16.ofNat c.toNat

theorem wideOfChar_charOfWide (c : UInt16) : wideOfChar (charOfWide c) = c := by
  have hc := c.toNat_lt
  have hvalid : (if c.toNat < 128 then c.toNat else 0x10000 + c.toNat).isValidChar := by
    unfold Nat.isValidChar
    split_ifs <;> omega
  unfold wideOfChar charOfWide
  have hof : ∀ n : ℕ, n.isValidChar → (Char.ofNat n).toNat = n := by
    intro n hn
    rw [Char.ofNat, dif_pos hn]
    rfl
  rw [hof _ hvalid, ← UInt16.toNat_inj]
  split_ifs <;> simp

theorem charOfWide_ne {c : UInt16} {d : Char} (h : c ≠ wideOfChar d) : charOfWide c ≠ d := by
  rintro rfl
  exact h (wideOfChar_charOfWide c).symm

/-! Addresses and numbers are written without control characters. -/

theorem hexDigit_ge (n : ℕ) : 32 ≤ (hexDigit n).toNat := by
  rcases lt_or_ge n 16 with hn | hn
  · interval_cases n <;> decide
  · have hnone : "0123456789abcdef".toList[n]? = none := List.getElem?_eq_none hn
    rw [hexDigit, List.getD_eq_getElem?_getD, hnone]
    decide

theorem hexChars_ge : ∀ (bs : List UInt8), ∀ c ∈ hexChars bs, 32 ≤ c.toNat
  | [], _, hc => absurd hc List.not_mem_nil
  | [b], c, hc => by
    simp only [hexChars, List.mem_cons, List.not_mem_nil, or_false] at hc
    rcases hc with rfl | rfl <;> exact hexDigit_ge _
  | b :: b' :: bs, c, hc => by
    simp only [hexChars, List.mem_cons] at hc
    rcases hc with rfl | rfl | rfl | hc
    · exact hexDigit_ge _
    · exact hexDigit_ge _
    · decide
    · exact hexChars_ge (b' :: bs) c hc

theorem macText_ge (macAddr : IfPhysicalAddress) :
    ∀ c ∈ (macText macAddr).toList, 32 ≤ c.toNat := by
  rw [macText, String.toList_ofList]
  exact hexChars_ge _

theorem addressText_ge {n : ℕ} {unspecified : String} (a : Bytes n)
    (h : unspecified.toList.all (32 ≤ ·.toNat)) :
    ∀ c ∈ (addressText unspecified a).toList, 32 ≤ c.toNat := by
  unfold addressText
  split_ifs
  · simpa using h
  · rw [String.toList_ofList]
    exact hexChars_ge _

theorem natText_ge (n : ℕ) : ∀ c ∈ (toString n).toList, 32 ≤ c.toNat := by
  intro c hc
  have hdigit : c.isDigit := digits_of_toDigits n c (by
    rwa [Nat.toString_eq_repr, Nat.repr, String.toList_ofList] at hc)
  by_contra hlt
  have : '0'.toNat ≤ c.toNat := by
    simp only [Char.isDigit, Bool.and_eq_true, decide_eq_true_eq] at hdigit
    exact hdigit.1
  exact hlt (le_trans (by decide) this)

theorem intText_ge (v : Int32) : ∀ c ∈ (toString v.toInt).toList, 32 ≤ c.toNat := by
  intro c hc
  rw [Int.toString_eq_repr, Int.repr_eq_if] at hc
  split_ifs at hc
  · rw [← Nat.toString_eq_repr] at hc
    exact natText_ge _ c hc
  · rw [String.toList_append, ← Nat.toString_eq_repr] at hc
    rcases List.mem_append.1 hc with hc | hc
    · obtain rfl : c = '-' := by simpa using hc
      decide
    · exact natText_ge _ c hc

/-- Conversions there can be. -/
def plainText : TextLib where
  inetNtop4 := addressText "0.0.0.0"
  inetPton4 := readAddress 4 "0.0.0.0"
  inetNtop6 := addressText "::"
  inetPton6 := readAddress 16 "::"
  stringToMac text := readHex text.toList
  wstringToUtf8string text := String.ofList (text.chars.map charOfWide)
  utf8stringToWstring text :=
    ⟨(text.toList.map wideOfChar).takeWhile (· ≠ 0), fun h => by
      simpa using List.mem_takeWhile_imp h⟩
  intText v := toString v.toInt
  unsignedOf text := UInt32.ofInt (atoi64 text)

theorem plainText_faithful : plainText.Faithful where
  ipv4 a := readAddress_addressText a (by decide)
  ipv6 a := readAddress_addressText a (by decide)
  mac bs _ := by
    show readHex (String.ofList (hexChars bs)).toList = bs
    rw [String.toList_ofList, readHex_hexChars]
  wide w := by
    have hmap : ((String.ofList (w.chars.map charOfWide)).toList).map wideOfChar = w.chars := by
      rw [String.toList_ofList, List.map_map]
      exact (List.map_congr_left fun c _ => wideOfChar_charOfWide c).trans (List.map_id _)
    have hnul : ∀ c ∈ w.chars, decide (c ≠ 0) = true := fun c hc =>
      decide_eq_true fun h => w.noNul (h ▸ hc)
    refine WideText.eq_of_chars ?_
    exact (congrArg _ hmap).trans (List.takeWhile_eq_self_iff.2 hnul)
  int v := by
    show UInt32.ofInt (atoi64 (toString v.toInt)) = v.toUInt32
    rw [atoi64_intToString, ofInt_toInt]

end LcxlNetLoader
