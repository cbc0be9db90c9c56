import LcxlNetLoader.Checksum
import LcxlNetLoader.Proofs.Frames

/-!
# What a checksum adds up

`calc_sum` is a one's complement sum, however many bytes it is given (`toNat_calcSum`). The
checksum of an upper layer adds two numbers before that without bringing the carry round, so that
it is one too small where they are too great together.
-/

namespace LcxlNetLoader

open ReadLog OnesComplement

variable {fr : Frame} {sum : UInt16} {data : List UInt8}

/-! ## The sum -/

theorem words_append : ∀ {a b : List UInt8}, a.length % 2 = 0 → words (a ++ b) = words a ++ words b
  | [], _, _ => rfl
  | [_], _, h => by simp at h
  | x :: y :: a, b, h => by
    rw [List.cons_append, List.cons_append, words, words, List.cons_append,
      words_append (by simp only [List.length_cons] at h; omega)]

theorem words_le : ∀ (data : List UInt8), ∀ x ∈ words data, x ≤ 65535
  | [], x, h => by simp [words] at h
  | [a], x, h => by
    have := a.toNat_lt
    rw [List.mem_singleton.1 h]
    omega
  | a :: b :: data, x, h => by
    have := a.toNat_lt
    have := b.toNat_lt
    rcases List.mem_cons.1 h with rfl | h
    · omega
    · exact words_le data x h

theorem toNat_eq_zero {a : UInt8} : a.toNat = 0 ↔ a = 0 := by
  rw [← UInt8.toNat_inj, UInt8.toNat_zero]

theorem sum_words_eq_zero : ∀ {data : List UInt8}, (words data).sum = 0 ↔ ∀ b ∈ data, b = 0
  | [] => by simp [words]
  | [a] => by simp [words, toNat_eq_zero]
  | a :: b :: data => by
    rw [words, List.sum_cons, Nat.add_eq_zero_iff, sum_words_eq_zero]
    simp [toNat_eq_zero, and_assoc]

theorem toNat_add (s t : UInt16) :
    (calcSum.add s t).toNat = OnesComplement.add 65535 s.toNat t.toNat := by
  have hs := s.toNat_lt
  have ht := t.toNat_lt
  have hst : (s + t).toNat = (s.toNat + t.toNat) % 65536 := UInt16.toNat_add s t
  unfold calcSum.add OnesComplement.add
  by_cases h : 65535 < s.toNat + t.toNat
  · have hlt : s + t < t := by
      rw [UInt16.lt_iff_toNat_lt, hst]
      omega
    rw [if_pos hlt, if_pos h, UInt16.toNat_add, hst, show UInt16.toNat 1 = 1 from rfl]
    omega
  · have hlt : ¬ s + t < t := by
      rw [UInt16.lt_iff_toNat_lt, hst]
      omega
    rw [if_neg hlt, if_neg h, hst]
    omega

theorem toNat_word (a b : UInt8) :
    (a.toUInt16 <<< 8 + b.toUInt16).toNat = 256 * a.toNat + b.toNat := by
  have ha := a.toNat_lt
  have hb := b.toNat_lt
  rw [UInt16.toNat_add, UInt16.toNat_shiftLeft, UInt8.toNat_toUInt16, UInt8.toNat_toUInt16,
    show UInt16.toNat 8 % 16 = 8 from rfl, Nat.shiftLeft_eq]
  omega

theorem toNat_lastWord (a : UInt8) : (a.toUInt16 <<< 8).toNat = 256 * a.toNat := by
  have h := toNat_word a 0
  simpa using h

/-- `calc_sum` is the one's complement sum of what it starts with and of the words. -/
theorem toNat_calcSum : ∀ (sum : UInt16) (data : List UInt8),
    (calcSum sum data).toNat = wrap 65535 (sum.toNat + (words data).sum)
  | sum, [] => by
    have := sum.toNat_lt
    rw [calcSum, words, List.sum_nil, Nat.add_zero, wrap_of_le (by omega)]
  | sum, [a] => by
    have := sum.toNat_lt
    have := a.toNat_lt
    rw [calcSum, toNat_add, toNat_lastWord, add_eq_wrap (by omega) (by omega), words,
      List.sum_singleton]
  | sum, a :: b :: data => by
    have := sum.toNat_lt
    have := a.toNat_lt
    have := b.toNat_lt
    rw [calcSum, toNat_calcSum, toNat_add, toNat_word, add_eq_wrap (by omega) (by omega),
      wrap_wrap_add, words, List.sum_cons, Nat.add_assoc sum.toNat]

theorem calcSum_append (sum : UInt16) {a b : List UInt8} (h : a.length % 2 = 0) :
    calcSum (calcSum sum a) b = calcSum sum (a ++ b) := by
  rw [← UInt16.toNat_inj]
  simp only [toNat_calcSum, words_append h, List.sum_append, wrap_wrap_add, Nat.add_assoc]

theorem calcSum_eq_zero : calcSum sum data = 0 ↔ sum = 0 ∧ ∀ b ∈ data, b = 0 := by
  rw [← UInt16.toNat_inj, toNat_calcSum, UInt16.toNat_zero, wrap_eq_zero, Nat.add_eq_zero_iff,
    sum_words_eq_zero, ← UInt16.toNat_zero, UInt16.toNat_inj]

/-! ## The walk -/

theorem map_range_succ (data n : ℕ) :
    (List.range (n + 1)).map (data + ·) = data :: (List.range n).map (data + 1 + ·) := by
  rw [List.range_succ_eq_map, List.map_cons, List.map_map]
  refine congrArg _ (List.map_congr_left fun i _ => ?_)
  simp only [Function.comp]
  omega

/-- The walk over `n` bytes reads each of them once, and adds up their words. -/
theorem calcSumLoop_eq : ∀ (n data : ℕ) (sum : UInt16),
    calcSumLoop (data + n - 1) data sum fr.byte
      = (calcSum sum (fr.slice data n), (List.range n).map (data + ·))
  | 0, data, sum => by
    rw [calcSumLoop, if_neg (by omega), if_neg (by omega)]
    rfl
  | 1, data, sum => by
    rw [calcSumLoop, if_neg (by omega), if_pos (by omega)]
    simp only [Frame.slice, List.range_one, List.map_cons, List.map_nil, calcSum, Nat.add_zero]
    show (calcSum.add sum ((fr.byte data).toUInt16 <<< 8 + 0), [data]) = _
    rw [UInt16.add_zero]
  | n + 2, data, sum => by
    have hlast : ((data : ℤ) + (n + 2 : ℕ) - 1) = ((data + 2 : ℕ) : ℤ) + (n : ℕ) - 1 := by
      push_cast
      ring
    have ih := calcSumLoop_eq n (data + 2)
      (calcSum.add sum ((fr.byte data).toUInt16 <<< 8 + (fr.byte (data + 1)).toUInt16))
    rw [calcSumLoop, if_pos (by omega), hlast, Frame.slice_succ, Frame.slice_succ, calcSum,
      map_range_succ, map_range_succ]
    exact congrArg (fun r : UInt16 × List ℕ => (r.1, data :: (data + 1) :: r.2)) ih

theorem val_calcSumAt (fr : Frame) (sum : UInt16) (data : ℕ) (len : UInt16) :
    (calcSumAt sum data len).val fr.byte = calcSum sum (fr.slice data len.toNat) :=
  congrArg Prod.fst (calcSumLoop_eq len.toNat data sum)

theorem reads_calcSumAt (fr : Frame) (sum : UInt16) (data : ℕ) (len : UInt16) :
    (calcSumAt sum data len).reads fr.byte = (List.range len.toNat).map (data + ·) :=
  congrArg Prod.snd (calcSumLoop_eq len.toNat data sum)

/-- `calc_sum` of some bytes is congruent to the sum of their words and zero only if all is zero, it
reads them and nothing else, and after an even number of bytes it may go on with others. -/
theorem calcSumAt_sums (fr : Frame) (sum : UInt16) (data : ℕ) (len : UInt16) :
    let bytes := fr.slice data len.toNat
    let r := (calcSumAt sum data len).val fr.byte
    r.toNat ≡ sum.toNat + (words bytes).sum [MOD 65535]
    ∧ (r = 0 → sum = 0 ∧ ∀ b ∈ bytes, b = 0)
    ∧ (calcSumAt sum data len).reads fr.byte = (List.range len.toNat).map (data + ·)
    ∧ (len.toNat % 2 = 0 → ∀ (fr' fr'' : Frame) (data' data'' : ℕ) (len' : UInt16),
      len.toNat + len'.toNat ≤ 65535 →
      fr''.slice data'' (len.toNat + len'.toNat) = bytes ++ fr'.slice data' len'.toNat →
      (calcSumAt r data' len').val fr'.byte
        = (calcSumAt sum data'' (len + len')).val fr''.byte) := by
  intro bytes r
  have hr : r = calcSum sum bytes := val_calcSumAt fr sum data len
  refine ⟨?_, fun h => ?_, reads_calcSumAt fr sum data len, fun heven fr' fr'' data' data'' len'
    hle hbytes => ?_⟩
  · rw [hr, toNat_calcSum]
    exact wrap_modEq _ _
  · rw [hr] at h
    exact calcSum_eq_zero.1 h
  · have hlen : (len + len').toNat = len.toNat + len'.toNat := by
      rw [UInt16.toNat_add]
      omega
    rw [val_calcSumAt, val_calcSumAt, hlen, hbytes, hr]
    refine calcSum_append sum ?_
    rwa [Frame.length_slice]

/-- Two bytes whose sum with what was there has a carry, and one more. -/
def carrying : Frame := Frame.ofBytes [0xFF, 0xFE, 0x05]

theorem calcSumAt_sums_three :
    (calcSumAt 3 0 2).val carrying.byte = 2
      ∧ (calcSumAt ((calcSumAt 3 0 2).val carrying.byte) 2 1).val carrying.byte
        = (calcSumAt 3 0 (2 + 1)).val carrying.byte :=
  ⟨(val_calcSumAt ..).trans (by decide), (calcSumAt_sums carrying 3 0 2).2.2.2 (by decide)
    carrying carrying 2 0 1 (by decide) (by decide)⟩

/-! ## The checksum of an upper layer -/

theorem val_calcUpperLayerChksumAt (fr : Frame) (hdr : ℕ) (proto : UInt8) :
    (calcUpperLayerChksumAt hdr proto).val fr.byte = calcUpperLayerChksum fr hdr proto := by
  have hread : (readU16 (hdr + 4)).val fr.byte
      = u16OfBytes (fr.byte (hdr + 4)) (fr.byte (hdr + 5)) := rfl
  rw [calcUpperLayerChksumAt, val_bind, val_bind, val_bind, val_pure, val_calcSumAt,
    val_calcSumAt, calcUpperLayerChksum, hread, show UInt16.toNat 32 = 32 from rfl]

theorem sum_words_pseudoheader {addresses : List UInt8} {length : ℕ} (proto : UInt8)
    (ha : addresses.length % 2 = 0) (hl : length < 65536) :
    (words (pseudoheader addresses length proto)).sum
      = (words addresses).sum + length + proto.toNat := by
  rw [pseudoheader, List.append_assoc, words_append ha, List.sum_append]
  simp only [List.map_cons, List.map_nil, List.cons_append, List.nil_append, words, List.sum_cons,
    List.sum_nil, UInt8.toNat_ofNat', UInt8.toNat_zero]
  omega

theorem length_pseudoheader (addresses : List UInt8) (length : ℕ) (proto : UInt8) :
    (pseudoheader addresses length proto).length = addresses.length + 8 := by
  simp [pseudoheader]

variable {hdr : ℕ} {proto : UInt8}

theorem payloadLength_lt (fr : Frame) (hdr : ℕ) : fr.payloadLength hdr < 65536 :=
  UInt16.toNat_lt _

/-- What the checksum is taken of, but for the length and the protocol. -/
def restSum (fr : Frame) (hdr : ℕ) : ℕ :=
  (words (fr.slice (hdr + 8) 32)).sum + (words (fr.ipv6Payload hdr)).sum

theorem upperLayerSum_eq : fr.upperLayerSum hdr proto
    = wrap 65535 (fr.payloadLength hdr + proto.toNat + restSum fr hdr) := by
  have ha : (fr.slice (hdr + 8) 32).length % 2 = 0 := by rw [Frame.length_slice]
  rw [Frame.upperLayerSum, sum_eq_wrap (by omega) (words_le _), words_append, List.sum_append,
    sum_words_pseudoheader proto ha (payloadLength_lt fr hdr), restSum]
  · congr 1
    omega
  · rw [length_pseudoheader, Frame.length_slice]

/-- The first sum of the code loses what is over 16 bits. -/
theorem toNat_calcUpperLayerChksum : (calcUpperLayerChksum fr hdr proto).toNat
    = 65535 - wrap 65535 ((fr.payloadLength hdr + proto.toNat) % 65536 + restSum fr hdr) := by
  have hle := wrap_le (show 0 < 65535 by omega)
    ((fr.payloadLength hdr + proto.toNat) % 65536 + restSum fr hdr)
  set len := ntohs (u16OfBytes (fr.byte (hdr + 4)) (fr.byte (hdr + 5))) with hlen
  have hsum : (calcSum (calcSum (len + proto.toUInt16) (fr.slice (hdr + 8) 32))
      (fr.slice (hdr + sizeofIpv6Header) len.toNat)).toNat
      = wrap 65535 ((fr.payloadLength hdr + proto.toNat) % 65536 + restSum fr hdr) := by
    rw [toNat_calcSum, toNat_calcSum, wrap_wrap_add, UInt16.toNat_add, UInt8.toNat_toUInt16,
      Nat.add_assoc]
    rfl
  rw [calcUpperLayerChksum, UInt16.toNat_sub_of_le, hsum]
  · rfl
  · rw [UInt16.le_iff_toNat_le]
    exact hsum.trans_le hle

/-- Sums of which one has lost its carry stand for different numbers. -/
theorem wrap_mod_add_iff {n t : ℕ} (h : n < 131070) :
    wrap 65535 (n % 65536 + t) = wrap 65535 (n + t) ↔ n < 65536 := by
  refine ⟨fun heq => ?_, fun hlt => by rw [Nat.mod_eq_of_lt hlt]⟩
  have hmod := (wrap_modEq 65535 (n % 65536 + t)).symm.trans
    ((congrArg (· % 65535) heq).trans (wrap_modEq 65535 (n + t)))
  unfold Nat.ModEq at hmod
  omega

theorem calcUpperLayerChksum_eq_iff : (calcUpperLayerChksum fr hdr proto).toNat
    = fr.upperLayerChksum hdr proto ↔ fr.payloadLength hdr + proto.toNat < 65536 := by
  have hlen := payloadLength_lt fr hdr
  have hproto := proto.toNat_lt
  have hle := wrap_le (show 0 < 65535 by omega)
    ((fr.payloadLength hdr + proto.toNat) % 65536 + restSum fr hdr)
  have hle' := wrap_le (show 0 < 65535 by omega)
    (fr.payloadLength hdr + proto.toNat + restSum fr hdr)
  rw [toNat_calcUpperLayerChksum, Frame.upperLayerChksum, upperLayerSum_eq,
    ← wrap_mod_add_iff (t := restSum fr hdr) (by omega)]
  omega

/-! ## The stored checksum -/

section Stored

variable {x y : UInt8}

theorem payloadLength_write (fr : Frame) (hdr : ℕ) (bs : List UInt8) :
    (fr.write (hdr + sizeofIpv6Header + 2) bs).payloadLength hdr = fr.payloadLength hdr := by
  have hlt : ∀ i, i < 6 → (fr.write (hdr + sizeofIpv6Header + 2) bs).byte (hdr + i)
      = fr.byte (hdr + i) := fun i hi => Frame.write_byte_of_lt (by simp; omega)
  rw [Frame.payloadLength, hlt 4 (by omega), hlt 5 (by omega)]
  rfl

/-- The checksum is the second word of the payload. -/
theorem ipv6Payload_write (h : 4 ≤ fr.payloadLength hdr) :
    (fr.write (hdr + sizeofIpv6Header + 2) [x, y]).ipv6Payload hdr
      = fr.slice (hdr + sizeofIpv6Header) 2 ++ [x, y]
        ++ fr.slice (hdr + sizeofIpv6Header + 4) (fr.payloadLength hdr - 4) := by
  have hlen : fr.payloadLength hdr = 2 + (2 + (fr.payloadLength hdr - 4)) := by omega
  have hword : (fr.write (hdr + sizeofIpv6Header + 2) [x, y]).slice (hdr + sizeofIpv6Header + 2) 2
      = [x, y] := Frame.slice_write
  rw [Frame.ipv6Payload, payloadLength_write, hlen, Frame.slice_add, Frame.slice_add, hword,
    Frame.slice_write_of_le le_rfl, Frame.slice_write_of_ge (by simp), List.append_assoc]
  congr 3
  omega

theorem restSum_write (h : 4 ≤ fr.payloadLength hdr) (x y : UInt8) :
    restSum (fr.write (hdr + sizeofIpv6Header + 2) [x, y]) hdr
      = restSum (fr.write (hdr + sizeofIpv6Header + 2) [0, 0]) hdr + (256 * x.toNat + y.toNat) := by
  have haddr : ∀ bs, (fr.write (hdr + sizeofIpv6Header + 2) bs).slice (hdr + 8) 32
      = fr.slice (hdr + 8) 32 := fun bs => Frame.slice_write_of_le (by simp)
  have heven : (fr.slice (hdr + sizeofIpv6Header) 2).length % 2 = 0 := by rw [Frame.length_slice]
  have hwords : ∀ x y : UInt8, words ([x, y] ++
      fr.slice (hdr + sizeofIpv6Header + 4) (fr.payloadLength hdr - 4))
      = (256 * x.toNat + y.toNat)
        :: words (fr.slice (hdr + sizeofIpv6Header + 4) (fr.payloadLength hdr - 4)) :=
    fun _ _ => rfl
  simp only [restSum, haddr, ipv6Payload_write h, List.append_assoc, words_append heven, hwords,
    List.sum_append, List.sum_cons, UInt8.toNat_zero]
  omega

/-- What is stored is read back as the checksum. -/
theorem storeIcmpChksum_eq : fr.storeIcmpChksum hdr
    = fr.write (hdr + sizeofIpv6Header + 2)
      [UInt8.ofNat ((calcIcmpChksum fr hdr).2.toNat / 256),
        UInt8.ofNat (calcIcmpChksum fr hdr).2.toNat] := by
  rw [Frame.storeIcmpChksum, calcIcmpChksum]
  dsimp only
  rw [u16Bytes_ntohs]
  exact Frame.write_write (by simp)

/-- The receiver of an ICMPv6 packet finds the stored checksum right if there was no carry. -/
theorem storeIcmpChksum_verifies_iff (h : 4 ≤ fr.payloadLength hdr) :
    (fr.storeIcmpChksum hdr).upperLayerSum hdr ipProtoIcmp6 = 65535
      ↔ fr.payloadLength hdr + ipProtoIcmp6.toNat < 65536 := by
  have hlen := payloadLength_lt fr hdr
  have hproto : ipProtoIcmp6.toNat = 58 := rfl
  set n := fr.payloadLength hdr + ipProtoIcmp6.toNat with hn
  set t := restSum (fr.write (hdr + sizeofIpv6Header + 2) [0, 0]) hdr with ht
  have hc : (calcIcmpChksum fr hdr).2.toNat = 65535 - wrap 65535 (n % 65536 + t) := by
    rw [calcIcmpChksum, toNat_calcUpperLayerChksum, payloadLength_write]
  have hle := wrap_le (show 0 < 65535 by omega) (n % 65536 + t)
  rw [upperLayerSum_eq, storeIcmpChksum_eq, payloadLength_write, restSum_write h, hc,
    UInt8.toNat_ofNat', UInt8.toNat_ofNat', ← hn, ← ht]
  have hword : 256 * ((65535 - wrap 65535 (n % 65536 + t)) / 256 % 2 ^ 8)
      + (65535 - wrap 65535 (n % 65536 + t)) % 2 ^ 8 = 65535 - wrap 65535 (n % 65536 + t) := by
    omega
  rw [hword, ← Nat.add_assoc]
  refine ⟨fun heq => ?_, fun hlt => ?_⟩
  · have hmod := wrap_modEq 65535 (n % 65536 + t)
    have hmod' := wrap_modEq 65535 (n + t + (65535 - wrap 65535 (n % 65536 + t)))
    rw [heq] at hmod'
    unfold Nat.ModEq at hmod hmod'
    omega
  · rw [Nat.mod_eq_of_lt hlt]
    exact wrap_add_complement (by omega) (n + t)

end Stored

/-- The checksum of an upper layer is right, and so is the one stored in an ICMPv6 packet, exactly
where length and protocol together need no more than 16 bits. -/
theorem calcUpperLayerChksum_iff (fr : Frame) (hdr : ℕ) :
    (∀ proto, (calcUpperLayerChksum fr hdr proto).toNat = fr.upperLayerChksum hdr proto
      ↔ fr.payloadLength hdr + proto.toNat < 65536)
    ∧ (4 ≤ fr.payloadLength hdr →
      ((fr.storeIcmpChksum hdr).upperLayerSum hdr ipProtoIcmp6 = 65535
        ↔ fr.payloadLength hdr + ipProtoIcmp6.toNat < 65536)) :=
  ⟨fun _ => calcUpperLayerChksum_eq_iff, storeIcmpChksum_verifies_iff⟩

/-- An IPv6 packet of zeros with this payload length. -/
def samplePayload (hi lo : UInt8) : Frame := (Frame.zero 40).write 4 [hi, lo]

/-- Eight bytes of payload. -/
theorem calcUpperLayerChksum_iff_eight :
    ((samplePayload 0 8).storeIcmpChksum 0).upperLayerSum 0 ipProtoIcmp6 = 65535 :=
  ((calcUpperLayerChksum_iff (samplePayload 0 8) 0).2 (by decide)).2 (by decide)

/-- The longest payload is too long for the sum of its length and of the protocol. -/
theorem calcUpperLayerChksum_ne :
    (calcUpperLayerChksum (samplePayload 0xFF 0xFF) 0 ipProtoIcmp6).toNat
        ≠ (samplePayload 0xFF 0xFF).upperLayerChksum 0 ipProtoIcmp6
      ∧ ((samplePayload 0xFF 0xFF).storeIcmpChksum 0).upperLayerSum 0 ipProtoIcmp6 ≠ 65535 :=
  ⟨calcUpperLayerChksum_eq_iff.not.2 (by decide),
    (storeIcmpChksum_verifies_iff (by decide)).not.2 (by decide)⟩

end LcxlNetLoader
