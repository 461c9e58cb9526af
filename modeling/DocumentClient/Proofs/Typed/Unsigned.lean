import DocumentClient.Proofs.Wire.Fields
import DocumentClient.Typed.Unsigned

/-!
# The forms of an unsigned number

An unsigned byte or word is written as a number or a text of another kind. Each of these forms tells the
number, so a reader that knows only the kind of what it finds gets the number back.

* A double holds every word exactly: its fraction field is the word without its highest bit, moved to
  the left end, so that nothing stands behind the point.
* A signed word holds half of the words as they are. The other half is written only if overflow is
  allowed, which wraps, and then wraps back.
* Digits hold no blank and no sign, so there is nothing to trim.

Results:
1. `Number.Conversion.uint32OfDouble_ofUInt32`, `uint32OfInt32_of_int32OfUInt32`,
   `uint32OfInt64_int64OfUInt32`: the numbers that words become are converted back, under every policy.
2. `wordOfText_toString`, `byteOfText_hexPair`: so are decimal digits, and the two hexadecimal digits of a
   byte.
3. `Read.yields_uint8`: a byte comes back from each of its forms.
4. `Write.exists_value_of_uint32`: so does a word from each form that the policy lets it be written in.
-/

namespace DocumentClient

open Grammar Outcome

/-! ## Words as numbers -/

namespace Number

variable {n : UInt32}

/-- A word with its highest place moved to the left end of the mantissa. -/
theorem mantissa_ofUInt32 (nonzero : n.toNat ≠ 0) :
    2 ^ 52 + (n.toNat - 2 ^ n.toNat.log2) * 2 ^ (52 - n.toNat.log2) =
      n.toNat * 2 ^ (52 - n.toNat.log2) := by
  have small : n.toNat.log2 < 32 := (Nat.log2_lt nonzero).mpr n.toNat_lt
  have whole : 2 ^ n.toNat.log2 * 2 ^ (52 - n.toNat.log2) = 2 ^ 52 := by
    rw [← Nat.pow_add]
    congr 1
    omega
  rw [← whole, ← Nat.add_mul, Nat.add_sub_cancel' (Nat.log2_self_le nonzero)]

/-- What stands below the highest place fits into the fraction field. -/
theorem fraction_ofUInt32_lt (nonzero : n.toNat ≠ 0) :
    (n.toNat - 2 ^ n.toNat.log2) * 2 ^ (52 - n.toNat.log2) < 2 ^ 52 := by
  have most : n.toNat < 2 ^ n.toNat.log2 * 2 := Nat.lt_log2_self
  have room : n.toNat * 2 ^ (52 - n.toNat.log2) < 2 ^ n.toNat.log2 * 2 * 2 ^ (52 - n.toNat.log2) :=
    Nat.mul_lt_mul_of_pos_right most (Nat.two_pow_pos _)
  have small : n.toNat.log2 < 32 := (Nat.log2_lt nonzero).mpr n.toNat_lt
  have whole : 2 ^ n.toNat.log2 * 2 * 2 ^ (52 - n.toNat.log2) = 2 ^ 53 := by
    rw [← Nat.pow_succ, ← Nat.pow_add]
    congr 1
    omega
  have mantissa := mantissa_ofUInt32 nonzero
  omega

/-- The double of a word is the word, written with places behind the point that are all zero. -/
theorem reading_ofUInt32 (nonzero : n.toNat ≠ 0) :
    reading (ofUInt32 n) =
      .finite false (n.toNat * 2 ^ (52 - n.toNat.log2)) (n.toNat.log2 - 52 : Int) := by
  have small : n.toNat.log2 < 32 := (Nat.log2_lt nonzero).mpr n.toNat_lt
  have narrow := fraction_ofUInt32_lt nonzero
  have bits : (ofUInt32 n).toNat = (1023 + n.toNat.log2) * 2 ^ 52 +
      (n.toNat - 2 ^ n.toNat.log2) * 2 ^ (52 - n.toNat.log2) := by
    unfold ofUInt32
    dsimp only
    rw [if_neg nonzero, UInt64.toNat_ofNat', Nat.mod_eq_of_lt (by omega)]
  rw [← mantissa_ofUInt32 nonzero]
  generalize (n.toNat - 2 ^ n.toNat.log2) * 2 ^ (52 - n.toNat.log2) = fraction at *
  have positive : ¬ 2 ^ 63 ≤ (ofUInt32 n).toNat := by omega
  have field : (ofUInt32 n).toNat / 2 ^ 52 % 2048 = 1023 + n.toNat.log2 := by omega
  have rest : (ofUInt32 n).toNat % 2 ^ 52 = fraction := by omega
  unfold reading
  dsimp only
  rw [field, rest, if_neg (by omega), if_neg (by omega), decide_eq_false positive,
    Reading.finite.injEq]
  exact ⟨rfl, rfl, by omega⟩

/-- The double of a word has the word in front of the point and nothing behind it. -/
theorem exists_reading_ofUInt32 (n : UInt32) : ∃ mantissa exponent,
    reading (ofUInt32 n) = .finite false mantissa exponent ∧
      wholePart mantissa exponent = n.toNat ∧ hasFraction mantissa exponent = false := by
  by_cases nonzero : n.toNat = 0
  · obtain rfl : n = 0 := UInt32.toNat_inj.mp nonzero
    refine ⟨0, -1074, rfl, ?_, ?_⟩
    · rw [wholePart, Nat.zero_mul, Nat.zero_div]
      rfl
    · rw [hasFraction, Nat.zero_mod]
      rfl
  · have small : n.toNat.log2 < 32 := (Nat.log2_lt nonzero).mpr n.toNat_lt
    have places : (-(n.toNat.log2 - 52 : Int)).toNat = 52 - n.toNat.log2 := by omega
    have point : (n.toNat.log2 - 52 : Int).toNat = 0 := by omega
    refine ⟨_, _, reading_ofUInt32 nonzero, ?_, ?_⟩
    · rw [wholePart, places, point, Nat.pow_zero, Nat.mul_one,
        Nat.mul_div_cancel _ (Nat.two_pow_pos _)]
    · rw [hasFraction, places, Nat.mul_mod_left]
      rfl

namespace Conversion

/-- The double of a word is converted back, under every policy. -/
theorem uint32OfDouble_ofUInt32 (policy : Conversion) (n : UInt32) :
    policy.uint32OfDouble (ofUInt32 n) = .ok n := by
  obtain ⟨mantissa, exponent, read, whole, exact⟩ := exists_reading_ofUInt32 n
  have most : n.toNat ≤ 2 ^ 32 - 1 := Nat.le_sub_one_of_lt n.toNat_lt
  have inRange : n.toNat < 2 ^ 32 - 1 ∨ n.toNat = 2 ^ 32 - 1 ∧ false = false :=
    (Nat.lt_or_eq_of_le most).imp_right fun eq => ⟨eq, rfl⟩
  unfold uint32OfDouble
  dsimp only
  rw [read]
  dsimp only
  rw [whole, exact, if_neg (not_not.mpr ⟨.inr rfl, inRange⟩), if_neg (by simp), UInt32.ofNat_toNat]

/-- The word of a number that was wrapped is the word of the number. -/
theorem ofInt_bmod (n : UInt32) : UInt32.ofInt ((n.toNat : Int).bmod (2 ^ 32)) = n := by
  have bound : n.toNat < 2 ^ 32 := n.toNat_lt
  have rest : ((n.toNat : Int).bmod (2 ^ 32) % 2 ^ 32).toNat = n.toNat := by
    have unwrapped : (n.toNat : Int).bmod (2 ^ 32) % 2 ^ 32 = (n.toNat : Int) % 2 ^ 32 := Int.bmod_emod
    omega
  rw [UInt32.ofInt, rest, UInt32.ofNat_toNat]

/-- A word that was wrapped, as the policy allows, is wrapped back. -/
theorem uint32OfInt32_of_int32OfUInt32 {policy : Conversion} {n : UInt32} {m : Int32}
    (h : policy.int32OfUInt32 n = .ok m) : policy.uint32OfInt32 m = .ok n := by
  have bound : n.toNat < 2 ^ 32 := n.toNat_lt
  unfold int32OfUInt32 at h
  split at h
  · cases h
  · next allowed =>
    cases h
    have wrapped : (Int32.ofInt n.toNat).toInt = (n.toNat : Int).bmod (2 ^ 32) := Int32.toInt_ofInt
    unfold uint32OfInt32
    rw [wrapped, ofInt_bmod, if_neg]
    rintro ⟨negative, strict⟩
    refine allowed ⟨?_, strict⟩
    rw [Int.bmod_def] at negative
    split at negative <;> omega

/-- A long word has room for every word. -/
theorem uint32OfInt64_int64OfUInt32 (policy : Conversion) (n : UInt32) :
    policy.uint32OfInt64 (int64OfUInt32 n) = .ok n := by
  have bound : n.toNat < 2 ^ 32 := n.toNat_lt
  have same : (int64OfUInt32 n).toInt = n.toNat := Int64.toInt_ofInt_of_le (by omega) (by omega)
  have rest : ((n.toNat : Int) % 2 ^ 32).toNat = n.toNat := by omega
  unfold uint32OfInt64
  rw [same, if_neg (by omega), UInt32.ofInt, rest, UInt32.ofNat_toNat]

end Conversion

end Number

/-! ## Digits -/

namespace Text

/-- Text without blanks is not trimmed. -/
theorem trimBlank_eq_self {cs : List Char} (free : ∀ c ∈ cs, isBlank c = false) : trimBlank cs = cs := by
  have kept {ds : List Char} (free : ∀ c ∈ ds, isBlank c = false) : ds.dropWhile isBlank = ds := by
    rw [List.dropWhile_eq_self_iff]
    intro nonempty
    simp [free _ (List.getElem_mem nonempty)]
  rw [trimBlank, kept free, kept fun c mem => free c (List.mem_reverse.mp mem), List.reverse_reverse]

theorem isBlank_of_isDigit {c : Char} (digit : c.isDigit = true) : isBlank c = false := by
  have range : 48 ≤ c.toNat ∧ c.toNat ≤ 57 := Char.isDigit_iff_toNat.mp digit
  unfold isBlank
  simp only [Bool.or_eq_false_iff, Bool.and_eq_false_iff, decide_eq_false_iff_not]
  omega

end Text

/-- Decimal digits are read as the number that they spell, if it is small enough. -/
theorem wordDigits_eq_ok {cs : List Char} {n : Nat} (digits : ∀ c ∈ cs, c.isDigit = true)
    (small : Nat.ofDigitChars 10 cs n < 2 ^ 32) : wordDigits n cs = .ok (Nat.ofDigitChars 10 cs n) := by
  induction cs generalizing n with
  | nil => rfl
  | cons c rest ih =>
    obtain ⟨digit, others⟩ := List.forall_mem_cons.mp digits
    rw [Nat.ofDigitChars_cons] at small ⊢
    -- the number only grows with the digits behind it
    have grown : Nat.ofDigitChars 10 rest (10 * n + (c.toNat - '0'.toNat)) =
        10 ^ rest.length * (10 * n + (c.toNat - '0'.toNat)) + Nat.ofDigitChars 10 rest 0 :=
      Nat.ofDigitChars_eq_ofDigitChars_zero
    have factor : 10 * n + (c.toNat - '0'.toNat) ≤
        10 ^ rest.length * (10 * n + (c.toNat - '0'.toNat)) := Nat.le_mul_of_pos_left _ (by positivity)
    have next : n * 10 + (c.toNat - 0x30) = 10 * n + (c.toNat - '0'.toNat) := by
      rw [Nat.mul_comm]
      rfl
    have range : '0' ≤ c ∧ c ≤ '9' := by simpa [Char.isDigit, Char.le_def] using digit
    rw [wordDigits, if_pos range, next, if_neg (by omega), ih others small]

theorem wordOfDigits_eq_wordDigits {cs : List Char} (nonempty : cs ≠ []) (unsigned : '+' ∉ cs) :
    wordOfDigits cs = wordDigits 0 cs := by
  unfold wordOfDigits
  split
  · exact absurd rfl nonempty
  · exact absurd (List.mem_singleton_self _) unsigned
  · exact absurd List.mem_cons_self unsigned
  · rfl

/-- The decimal digits of a word are read as the word. -/
theorem wordOfText_toString (n : UInt32) : wordOfText (toString n.toNat) = .ok n := by
  have digits : ∀ c ∈ Nat.toDigits 10 n.toNat, c.isDigit = true := fun c mem =>
    Nat.isDigit_of_mem_toDigits (by decide) (by decide) mem
  have unsigned : '+' ∉ Nat.toDigits 10 n.toNat := fun mem => absurd (digits _ mem) (by decide)
  have trimmed := Text.trimBlank_eq_self fun c mem => Text.isBlank_of_isDigit (digits c mem)
  have number : Nat.ofDigitChars 10 (Nat.toDigits 10 n.toNat) 0 = n.toNat := Nat.ofDigitChars_ten_toDigits
  have read : wordOfDigits (Nat.toDigits 10 n.toNat) = .ok n.toNat := by
    have small : Nat.ofDigitChars 10 (Nat.toDigits 10 n.toNat) 0 < 2 ^ 32 := number.symm ▸ n.toNat_lt
    rw [wordOfDigits_eq_wordDigits Nat.toDigits_ne_nil unsigned, wordDigits_eq_ok digits small, number]
  unfold wordOfText
  rw [Nat.toString_eq_repr, Nat.toList_repr, trimmed, read]
  dsimp only
  rw [UInt32.ofNat_toNat]

/-- Sixteen digits, each one byte of text that tells its value. -/
theorem hexDigit_told : ∀ n < 16, ∃ b, String.utf8EncodeChar (Bytes.hexDigit n) = [b] ∧
    Bytes.hexValue? b = some n := by
  decide

/-- The two digits of a byte are read as the byte. -/
theorem byteOfText_hexPair (b : UInt8) : byteOfText (String.ofList (Bytes.hexPair b)) = .ok b := by
  have bound : b.toNat < 256 := b.toNat_lt
  obtain ⟨high, written, read⟩ := hexDigit_told (b.toNat / 16) (by omega)
  obtain ⟨low, written', read'⟩ := hexDigit_told (b.toNat % 16) (by omega)
  have bytes : utf8 (String.ofList (Bytes.hexPair b)) = [high, low] := by
    rw [utf8_eq_flatMap, String.toList_ofList, Bytes.hexPair, List.flatMap_cons, List.flatMap_cons,
      written, written']
    rfl
  have halves : 16 * (b.toNat / 16) + b.toNat % 16 = b.toNat := Nat.div_add_mod b.toNat 16
  have size : (String.ofList (Bytes.hexPair b)).utf8ByteSize = 2 := by
    rw [← length_utf8, bytes]
    rfl
  have spelled : Bytes.ofHex (String.ofList (Bytes.hexPair b)) = .ok ⟨#[b]⟩ := by
    have text : (String.ofList (Bytes.hexPair b)).toUTF8.data.toList = [high, low] := bytes
    unfold Bytes.ofHex
    rw [text]
    simp only [Bytes.hexBytes, read, read', halves, UInt8.ofNat_toNat]
    rw [if_neg (by simp)]
    rfl
  unfold byteOfText
  rw [size, if_neg (by decide), spelled]
  rfl

/-! ## Reading and writing -/

/-- The value that a byte is written as. -/
def ByteForm.toValue : ByteForm → UInt8 → Value
  | binary, b => .binary (.ofBytes (ByteArray.empty.push b))
  | int32, b => .int32 (Int32.ofInt b.toNat)
  | int64, b => .int64 (Int64.ofInt b.toNat)
  | text, b => .string (String.ofList (Bytes.hexPair b))

theorem Write.uint8_eq (form : ByteForm) (b : UInt8) : uint8 form b = value (form.toValue b) := by
  cases form <;> rfl

namespace Read

theorem ofExcept_of_ok {α : Type} {result : Except Fault α} {a : α} (h : result = .ok a) (s : Reader) :
    ofExcept result s = .ok a s := by
  rw [h]
  rfl

/-- A byte is not too large for a byte. -/
theorem narrowByte_toNat (kind : Kind) (b : UInt8) : narrowByte kind b.toNat = .ok b := by
  have bound : b.toNat < 256 := b.toNat_lt
  unfold narrowByte
  rw [if_pos (by omega), Int.toNat_natCast, UInt8.ofNat_toNat]

/-- A byte comes back from each of its forms. -/
theorem yields_uint8 (form : ByteForm) (b : UInt8) : Yields uint8 (form.toValue b) b := by
  have bound : b.toNat < 256 := b.toNat_lt
  refine Yields.ofKind ?_
  cases form with
  | binary =>
    have canonical : (Binary.ofBytes (ByteArray.empty.push b)).subtype.IsCanonical := rfl
    exact (yields_binary canonical).bind fun _ => rfl
  | int32 =>
    have same : (Int32.ofInt b.toNat).toInt = b.toNat := Int32.toInt_ofInt_of_le (by omega) (by omega)
    have back : narrowByte .int32 (Int32.ofInt b.toNat).toInt = .ok b := by
      rw [same, narrowByte_toNat]
    exact (yields_int32 _).bind (ofExcept_of_ok back)
  | int64 =>
    have same : (Int64.ofInt b.toNat).toInt = b.toNat := Int64.toInt_ofInt_of_le (by omega) (by omega)
    have back : narrowByte .int64 (Int64.ofInt b.toNat).toInt = .ok b := by
      rw [same, narrowByte_toNat]
    exact (yields_int64 _).bind (ofExcept_of_ok back)
  | text => exact (yields_string _).bind (ofExcept_of_ok (byteOfText_hexPair b))

theorem converted_of_ok {result : Except Number.ConversionFault UInt32} {n : UInt32} (h : result = .ok n) :
    converted result = .ok n := by
  rw [h]
  rfl

end Read

/-- A word that is written is written as a value from which every reader with the same policy has the word
back. -/
theorem Write.exists_value_of_uint32 {form : WordForm} {policy : Number.Conversion} {n : UInt32}
    {w w' : Writer} (h : uint32 form policy n w = .ok () w') : ∃ v, value v w = .ok () w' ∧
      v.kind = form.kind ∧ v.nesting = 0 ∧ Read.Yields (Read.uint32 policy) v n := by
  cases form with
  | double =>
    have back := Read.converted_of_ok (policy.uint32OfDouble_ofUInt32 n)
    exact ⟨.double (Number.ofUInt32 n), h, rfl, rfl,
      .ofKind ((Read.yields_double _).bind (Read.ofExcept_of_ok back))⟩
  | int32 =>
    unfold uint32 at h
    dsimp only at h
    cases narrow : policy.int32OfUInt32 n with
    | error fault =>
      rw [narrow] at h
      cases h
    | ok m =>
      rw [narrow] at h
      have back := Read.converted_of_ok (Number.Conversion.uint32OfInt32_of_int32OfUInt32 narrow)
      exact ⟨.int32 m, h, rfl, rfl, .ofKind ((Read.yields_int32 m).bind (Read.ofExcept_of_ok back))⟩
  | int64 =>
    have back := Read.converted_of_ok (policy.uint32OfInt64_int64OfUInt32 n)
    exact ⟨.int64 (Number.Conversion.int64OfUInt32 n), h, rfl, rfl,
      .ofKind ((Read.yields_int64 _).bind (Read.ofExcept_of_ok back))⟩
  | text =>
    exact ⟨.string (toString n.toNat), h, rfl, rfl,
      .ofKind ((Read.yields_string _).bind (Read.ofExcept_of_ok (wordOfText_toString n)))⟩

end DocumentClient
