import DocumentClient.Proofs.Wire.Grammar
import DocumentClient.Text.Utf8

/-!
# The parts that values are made of

Numbers and texts are computed from byte strings, and the grammar gives them as lists of bytes. Each
lemma here says that the computation finds exactly the number or the text that the grammar gives.

Results:
1. `toInt32_eq_iff`, `toUInt64_eq_iff`, `toInt64_eq_iff`, `toVector_eq_iff`: words and vectors.
2. `isLength_iff`: a length is four bytes whose signed word is not negative.
3. `decodeUtf8_eq_ok_iff`: decoding accepts exactly the bytes of a text.
4. `zero_mem_utf8_iff`: a zero byte in a text is a zero character.
-/

namespace DocumentClient.Bytes

/-! ## Numbers -/

theorem toByteArray_toList (bs : ByteArray) : bs.data.toList.toByteArray = bs := by
  apply ByteArray.ext
  rw [List.data_toByteArray]

theorem number_toByteArray (bs : List UInt8) : number bs.toByteArray = value bs := by
  unfold number
  rw [List.toList_data_toByteArray]

theorem eq_digits_iff {bs : List UInt8} {w n : Nat} (len : bs.length = w) (small : n < 256 ^ w) :
    bs = digits w n ↔ value bs = n := by
  constructor
  · rintro rfl
    rw [value_digits, Nat.mod_eq_of_lt small]
  · rintro rfl
    rw [← len, digits_value]

theorem digits_mod (w n : Nat) : digits w (n % 256 ^ w) = digits w n := by
  symm
  rw [eq_digits_iff (length_digits w n) (Nat.mod_lt n (by positivity)), value_digits]

/-- The digits of a sum of places are the lower ones, then the higher ones. -/
theorem digits_add (v w n : Nat) : digits (v + w) n = digits v n ++ digits w (n / 256 ^ v) := by
  induction v generalizing n with
  | zero => simp [digits]
  | succ v ih =>
    rw [Nat.succ_add, digits, ih, digits, Nat.div_div_eq_div_mul, ← Nat.pow_succ', List.cons_append]

theorem toUInt64_eq_iff {bs : List UInt8} {v : UInt64} (len : bs.length = 8) :
    toUInt64 bs.toByteArray = v ↔ bs = digits 8 v.toNat := by
  have bound : value bs < 2 ^ 64 := by simpa [len] using value_lt bs
  rw [eq_digits_iff len v.toNat_lt, toUInt64, number_toByteArray, ← UInt64.toNat_inj,
    UInt64.toNat_ofNat', Nat.mod_eq_of_lt bound]

theorem toInt64_eq_iff {bs : List UInt8} {v : Int64} (len : bs.length = 8) :
    toInt64 bs.toByteArray = v ↔ bs = digits 8 v.toUInt64.toNat := by
  rw [← toUInt64_eq_iff len, toInt64]
  constructor
  · rintro rfl
    rw [UInt64.toUInt64_toInt64]
  · intro h
    rw [h, Int64.toInt64_toUInt64]

theorem toInt32_eq_iff {bs : List UInt8} {v : Int32} (len : bs.length = 4) :
    toInt32 bs.toByteArray = v ↔ bs = digits 4 v.toUInt32.toNat := by
  have bound : value bs < 2 ^ 32 := by simpa [len] using value_lt bs
  rw [eq_digits_iff len v.toUInt32.toNat_lt, toInt32, number_toByteArray]
  have word : (UInt32.ofNat (value bs)).toNat = value bs := by
    rw [UInt32.toNat_ofNat', Nat.mod_eq_of_lt bound]
  constructor
  · rintro rfl
    rw [UInt32.toUInt32_toInt32, word]
  · intro h
    rw [h, UInt32.ofNat_toNat, Int32.toInt32_toUInt32]

theorem toInt_toInt32 {bs : List UInt8} (len : bs.length = 4) :
    (toInt32 bs.toByteArray).toInt =
      if value bs < 2 ^ 31 then (value bs : Int) else value bs - 2 ^ 32 := by
  have bound := value_lt bs
  rw [len] at bound
  have word : (toInt32 bs.toByteArray).toInt = (value bs : Int).bmod (2 ^ 32) := by
    have small : (value bs : Int) % 4294967296 = value bs := by omega
    rw [toInt32, number_toByteArray, ← Int32.toInt_toBitVec]
    simp [BitVec.toInt_eq_toNat_bmod, small]
  rw [word, Int.bmod_def]
  split <;> split <;> omega

theorem toVector_eq_iff {n : Nat} {bs : List UInt8} {v : Vector UInt8 n} (len : bs.length = n) :
    toVector n bs.toByteArray = v ↔ bs = v.toList := by
  have same : toVector n bs.toByteArray = ⟨bs.toArray, by simpa using len⟩ := by
    apply Vector.ext
    intro i h
    have inside : i < bs.length := by omega
    simp [toVector, ByteArray.get!, inside]
  rw [same]
  constructor
  · rintro rfl
    rfl
  · rintro rfl
    apply Vector.toArray_inj.mp
    exact Array.toArray_toList

/-- The halves of a timestamp are the halves of its long word, lower half first. -/
theorem digits_timestamp (t : Timestamp) :
    digits 8 t.toUInt64.toNat = digits 4 t.increment.toNat ++ digits 4 t.time.toNat := by
  have time_lt : t.time.toNat < 2 ^ 32 := t.time.toNat_lt
  have increment_lt : t.increment.toNat < 2 ^ 32 := t.increment.toNat_lt
  have raw : t.toUInt64.toNat = t.time.toNat * 2 ^ 32 + t.increment.toNat := by
    rw [Timestamp.toUInt64, UInt64.toNat_ofNat', Nat.mod_eq_of_lt (by omega)]
  have lower : t.toUInt64.toNat % 256 ^ 4 = t.increment.toNat := by omega
  have upper : t.toUInt64.toNat / 256 ^ 4 = t.time.toNat := by omega
  rw [digits_add 4 4, ← digits_mod 4 t.toUInt64.toNat, lower, upper]

theorem toTimestamp_eq_iff {bs : List UInt8} {t : Timestamp} (len : bs.length = 8) :
    Timestamp.ofUInt64 (toUInt64 bs.toByteArray) = t ↔
      bs = digits 4 t.increment.toNat ++ digits 4 t.time.toNat := by
  constructor
  · rintro rfl
    have here := (toUInt64_eq_iff len).mp rfl
    generalize toUInt64 bs.toByteArray = raw at here ⊢
    have places : (2 : Nat) ^ 32 = 256 ^ 4 := by norm_num
    rw [here, digits_add 4 4, Timestamp.ofUInt64, UInt32.toNat_ofNat', UInt32.toNat_ofNat', places,
      digits_mod 4, digits_mod 4]
  · intro h
    rw [← digits_timestamp, ← toUInt64_eq_iff len] at h
    rw [h, Timestamp.ofUInt64_toUInt64]

theorem get!_toByteArray {bs : List UInt8} {i : Nat} (h : i < bs.length) :
    bs.toByteArray.get! i = bs[i] := by
  simp [ByteArray.get!, h]

/-- A byte of a slice is one of the whole. -/
theorem get!_extract {data : ByteArray} {start stop i : Nat} (short : start + i < stop)
    (inside : start + i < data.size) : (data.extract start stop).get! i = data.get! (start + i) := by
  have cut : i < (data.data.extract start stop).size := by
    rw [Array.size_extract, ByteArray.size_data]
    omega
  simp only [ByteArray.get!, ByteArray.data_extract]
  rw [getElem!_pos (data.data.extract start stop) i cut, getElem!_pos data.data (start + i) inside,
    Array.getElem_extract]

/-- Bytes whose last one is zero are those before it and a zero. -/
theorem eq_append_zero_iff {bs front : List UInt8} (nonempty : 0 < bs.length) :
    bs = front ++ [0] ↔ bs.toByteArray.get! (bs.length - 1) = 0 ∧
      bs.toByteArray.extract 0 (bs.length - 1) = front.toByteArray := by
  rcases List.eq_nil_or_concat bs with rfl | ⟨init, last, rfl⟩
  · exact absurd nonempty (Nat.lt_irrefl 0)
  · have before : (init ++ [last]).toByteArray.extract 0 init.length = init.toByteArray := by
      rw [List.toByteArray_append]
      exact ByteArray.extract_append_eq_left List.size_toByteArray.symm
    have final : (init ++ [last]).toByteArray.get! init.length = last := by
      rw [get!_toByteArray (by simp), List.getElem_concat_length rfl]
    rw [List.concat_eq_append, List.length_append, List.length_singleton, Nat.add_sub_cancel, before,
      final, List.toByteArray_inj, List.append_singleton_inj, and_comm]

end DocumentClient.Bytes

namespace DocumentClient.Grammar

open Bytes

/-- A length is four bytes whose signed word is not negative. -/
theorem isLength_iff {bs : List UInt8} {n : Nat} :
    IsLength bs n ↔ bs.length = 4 ∧ (toInt32 bs.toByteArray).toInt = n := by
  constructor
  · intro h
    rcases h with ⟨rfl, small⟩
    refine ⟨length_digits 4 n, ?_⟩
    have here : value (digits 4 n) = n := by
      rw [value_digits, Nat.mod_eq_of_lt (by omega)]
    rw [toInt_toInt32 (length_digits 4 n), here, if_pos small]
  · intro h
    rcases h with ⟨len, word⟩
    have bound := value_lt bs
    rw [len] at bound
    rw [toInt_toInt32 len] at word
    have here : value bs = n ∧ n < 2 ^ 31 := by
      split at word <;> omega
    exact ⟨(eq_digits_iff len (by omega)).mpr here.1, here.2⟩

theorem IsLength.length_eq {bs : List UInt8} {n : Nat} (h : IsLength bs n) : bs.length = 4 :=
  (isLength_iff.mp h).1

/-- Four bytes are at most one length. -/
theorem IsLength.unique {bs : List UInt8} {m n : Nat} (hm : IsLength bs m) (hn : IsLength bs n) :
    m = n := by
  have words := (isLength_iff.mp hm).2.symm.trans (isLength_iff.mp hn).2
  exact_mod_cast words

/-! ## Texts -/

theorem toByteArray_utf8 (text : String) : (utf8 text).toByteArray = text.toByteArray :=
  toByteArray_toList text.toByteArray

theorem length_utf8 (text : String) : (utf8 text).length = text.utf8ByteSize := by
  rw [← List.size_toByteArray, toByteArray_utf8, String.size_toByteArray]

/-- Decoding accepts exactly the bytes of a text. -/
theorem decodeUtf8_eq_ok_iff {bytes : ByteArray} {text : String} :
    Text.decodeUtf8 bytes = .ok text ↔ bytes = (utf8 text).toByteArray := by
  unfold Text.decodeUtf8 String.fromUTF8?
  rw [toByteArray_utf8]
  constructor
  · intro h
    split at h
    · next found hf =>
      split at hf
      · injection hf with hf
        injection h with h
        subst h
        subst hf
        rfl
      · exact absurd hf (by simp)
    · exact absurd h (by simp)
  · rintro rfl
    rw [dif_pos text.isValidUTF8]
    rfl

theorem zero_mem_utf8EncodeChar_iff (c : Char) : 0 ∈ String.utf8EncodeChar c ↔ c = '\x00' := by
  have char : c = '\x00' ↔ c.val.toNat = 0 := by
    rw [← Char.toNat_inj]
    exact Iff.rfl
  have byte {n : Nat} (h : n < 256) : (0 : UInt8) = UInt8.ofNat n ↔ n = 0 := by
    rw [← UInt8.toNat_inj, UInt8.toNat_ofNat', Nat.mod_eq_of_lt h]
    exact eq_comm
  rw [char]
  unfold String.utf8EncodeChar
  dsimp only
  -- every byte of a longer form has its highest bit set
  split
  · rw [List.mem_singleton, byte (by omega)]
  · split
    · simp only [List.mem_cons, List.not_mem_nil, or_false]
      rw [byte (by omega), byte (by omega)]
      omega
    · split
      · simp only [List.mem_cons, List.not_mem_nil, or_false]
        rw [byte (by omega), byte (by omega), byte (by omega)]
        omega
      · simp only [List.mem_cons, List.not_mem_nil, or_false]
        rw [byte (by omega), byte (by omega), byte (by omega), byte (by omega)]
        omega

theorem utf8_eq_flatMap (text : String) : utf8 text = text.toList.flatMap String.utf8EncodeChar := by
  unfold utf8
  rw [String.toUTF8_eq_toByteArray, ← String.utf8Encode_toList, List.utf8Encode,
    List.toList_data_toByteArray]

/-- A zero byte in a text is a zero character. -/
theorem zero_mem_utf8_iff (text : String) : 0 ∈ utf8 text ↔ text.contains '\x00' = true := by
  rw [utf8_eq_flatMap, String.contains_char_eq, decide_eq_true_iff, List.mem_flatMap]
  simp only [zero_mem_utf8EncodeChar_iff]
  simp

end DocumentClient.Grammar
