import DocumentClient.Typed.Unsigned
import Mathlib

/-!
# Doubles as unsigned words

The bits of a finite double stand for a number, which `value?` gives by the layout of the format: a sign, a
binary exponent, and a fraction of 52 places behind a leading one. A conversion reads the same bits as a whole
mantissa with an exponent and compares in whole numbers; these comparisons are those of the number.

With overflow refused, a word comes from a number in range and from nothing else, and is the floor of the number.
With overflow alone allowed, fractions are looked at in range only. A number out of range loses its fraction,
and what 64 bits do not hold, the infinities included, is cut to the nearest that they do.

Results:
1. `value?_of_reading`, `value?_eq_none_iff`: what bits stand for, by how they are read.
2. `floor_magnitude`, `isWhole_magnitude_iff`, `inRange_iff`: whole part, fraction and range of a mantissa with an
   exponent.
3. `Conversion.uint32OfDouble_eq_ok_iff`, `Conversion.uint32OfDouble_eq_error_iff`: what a conversion accepts and
   refuses, under every policy.
4. `Conversion.uint32OfDouble_exact`: conversion with overflow refused.
5. `Conversion.uint32OfDouble_wraps`: conversion with overflow alone allowed, and
   `Conversion.uint32OfDouble_lossy`: where it changes more than it may.
-/

namespace DocumentClient

namespace Number

/-! ## Numbers that doubles stand for -/

/-- A number with its sign. -/
def signed (negative : Bool) (x : ℚ) : ℚ :=
  if negative then -x else x

/-- The number that the bits of a finite double stand for: a sign, an exponent field, and a fraction of 52
places behind a leading one, which the least exponent field goes without. -/
def value? (bits : UInt64) : Option ℚ :=
  let negative := decide (2 ^ 63 ≤ bits.toNat)
  let field : Nat := bits.toNat / 2 ^ 52 % 2048
  let fraction : ℚ := (bits.toNat % 2 ^ 52 : Nat) / 2 ^ 52
  if field = 2047 then none
  else if field = 0 then some (signed negative (fraction * 2 ^ (-1022 : ℤ)))
  else some (signed negative ((1 + fraction) * 2 ^ ((field : ℤ) - 1023)))

/-- The number has no fraction. -/
def IsWhole (x : ℚ) : Prop :=
  ∃ z : ℤ, x = z

/-- The number without its fraction. -/
def truncation (x : ℚ) : ℤ :=
  if x < 0 then ⌈x⌉ else ⌊x⌋

/-- The number `mantissa * 2 ^ exponent`. -/
def magnitude (mantissa : Nat) (exponent : Int) : ℚ :=
  mantissa * 2 ^ exponent

variable {bits : UInt64} {negative : Bool} {mantissa : Nat} {exponent : Int} {x : ℚ}

/-- A fraction of 52 places is a whole mantissa with an exponent that is less by 52. -/
theorem magnitude_sub (exponent : ℤ) :
    magnitude mantissa (exponent - 52) = mantissa / 2 ^ 52 * 2 ^ exponent := by
  rw [magnitude, zpow_sub₀ two_ne_zero, mul_div_assoc', div_mul_eq_mul_div]
  rfl

/-- What is read from the bits of a finite double is its number. -/
theorem value?_of_reading (h : reading bits = .finite negative mantissa exponent) :
    value? bits = some (signed negative (magnitude mantissa exponent)) := by
  unfold reading at h
  unfold value?
  dsimp only at h ⊢
  split at h
  · split at h <;> cases h
  · next finite =>
    rw [if_neg finite]
    split at h
    · next least =>
      cases h
      rw [if_pos least, ← magnitude_sub]
      rfl
    · next other =>
      cases h
      generalize bits.toNat / 2 ^ 52 % 2048 = field at other ⊢
      generalize bits.toNat % 2 ^ 52 = fraction
      have point : (field : ℤ) - 1075 = field - 1023 - 52 := by ring
      have leading : ((2 ^ 52 + fraction : Nat) : ℚ) / 2 ^ 52 = 1 + fraction / 2 ^ 52 := by
        rw [Nat.cast_add, add_div, Nat.cast_pow, Nat.cast_ofNat, div_self (by positivity)]
      rw [if_neg other, point, magnitude_sub, leading]

/-- Bits that are read as no finite number stand for none. -/
theorem value?_eq_none_iff :
    value? bits = none ↔ ∃ negative, reading bits = .infinite negative ∨ reading bits = .nan negative := by
  unfold value? reading
  dsimp only
  split
  · split <;> simp
  · split <;> simp

/-- A number that bits stand for is read from them. -/
theorem exists_reading_of_value? (h : value? bits = some x) :
    ∃ negative mantissa exponent, reading bits = .finite negative mantissa exponent ∧
      x = signed negative (magnitude mantissa exponent) := by
  cases read : reading bits with
  | nan negative =>
    rw [value?_eq_none_iff.mpr ⟨negative, .inr read⟩] at h
    cases h
  | infinite negative =>
    rw [value?_eq_none_iff.mpr ⟨negative, .inl read⟩] at h
    cases h
  | finite negative mantissa exponent =>
    rw [value?_of_reading read, Option.some.injEq] at h
    exact ⟨negative, mantissa, exponent, rfl, h.symm⟩

/-! ## Numbers that a mantissa and an exponent make -/

theorem magnitude_eq_div :
    magnitude mantissa exponent =
      (mantissa * 2 ^ exponent.toNat : Nat) / (2 ^ (-exponent).toNat : Nat) := by
  rw [magnitude]
  obtain ⟨n, rfl | rfl⟩ := exponent.eq_nat_or_neg
  · simp
  · simp [div_eq_mul_inv]

/-- The whole part is the floor. -/
theorem floor_magnitude : ⌊magnitude mantissa exponent⌋ = wholePart mantissa exponent := by
  rw [magnitude_eq_div, wholePart, Rat.floor_natCast_div_natCast]
  rfl

theorem isWhole_iff : IsWhole x ↔ x = ⌊x⌋ := by
  constructor
  · rintro ⟨z, rfl⟩
    rw [Int.floor_intCast]
  · exact fun h => ⟨_, h⟩

theorem isWhole_neg_iff : IsWhole (-x) ↔ IsWhole x := by
  constructor
  · rintro ⟨z, h⟩
    exact ⟨-z, by rw [Int.cast_neg, ← h, neg_neg]⟩
  · rintro ⟨z, rfl⟩
    exact ⟨-z, (Int.cast_neg z).symm⟩

theorem isWhole_div_iff {a b : Nat} (positive : 0 < b) : IsWhole (a / b : ℚ) ↔ a % b = 0 := by
  have nonzero : (b : ℚ) ≠ 0 := Nat.cast_ne_zero.mpr positive.ne'
  rw [isWhole_iff, Rat.floor_natCast_div_natCast, div_eq_iff nonzero]
  have parts := Nat.div_add_mod' a b
  norm_cast
  omega

/-- There is no fraction iff nothing stands behind the point. -/
theorem isWhole_magnitude_iff :
    IsWhole (magnitude mantissa exponent) ↔ hasFraction mantissa exponent = false := by
  have places : mantissa * 2 ^ exponent.toNat % 2 ^ (-exponent).toNat =
      mantissa % 2 ^ (-exponent).toNat := by
    obtain ⟨n, rfl | rfl⟩ := exponent.eq_nat_or_neg
    · simp [Nat.mod_one]
    · simp
  rw [magnitude_eq_div, isWhole_div_iff (Nat.two_pow_pos _), places, hasFraction]
  simp

/-- A number is at most a whole one iff its floor is less, or the same without a fraction. -/
theorem le_natCast_iff {bound : Nat} : x ≤ bound ↔ ⌊x⌋ < bound ∨ ⌊x⌋ = bound ∧ IsWhole x := by
  rw [Int.floor_lt, isWhole_iff, le_iff_lt_or_eq, Int.cast_natCast]
  refine or_congr_right ⟨?_, ?_⟩
  · rintro rfl
    simp
  · rintro ⟨same, whole⟩
    rw [whole, same]
    rfl

theorem magnitude_nonneg : 0 ≤ magnitude mantissa exponent := by
  unfold magnitude
  positivity

theorem magnitude_eq_zero_iff : magnitude mantissa exponent = 0 ↔ mantissa = 0 := by
  simp [magnitude, zpow_ne_zero]

/-- The number is not less than the least word and not more than the greatest. -/
def InRange (x : ℚ) : Prop :=
  0 ≤ x ∧ x ≤ 4294967295

/-- The comparison of a conversion is that of the numbers. -/
theorem inRange_iff :
    InRange (signed negative (magnitude mantissa exponent)) ↔
      (mantissa = 0 ∨ negative = false) ∧
        (wholePart mantissa exponent < 2 ^ 32 - 1 ∨
          (wholePart mantissa exponent = 2 ^ 32 - 1 ∧ hasFraction mantissa exponent = false)) := by
  have least : (0 : ℚ) ≤ magnitude mantissa exponent := magnitude_nonneg
  have most : magnitude mantissa exponent ≤ (2 ^ 32 - 1 : Nat) ↔
      wholePart mantissa exponent < 2 ^ 32 - 1 ∨
        wholePart mantissa exponent = 2 ^ 32 - 1 ∧ hasFraction mantissa exponent = false := by
    rw [le_natCast_iff, floor_magnitude, isWhole_magnitude_iff, Nat.cast_lt, Nat.cast_inj]
  have zero : mantissa = 0 ↔ magnitude mantissa exponent = 0 := magnitude_eq_zero_iff.symm
  have bound : ((2 ^ 32 - 1 : Nat) : ℚ) = 4294967295 := by norm_num
  rw [← most, zero, bound, InRange]
  cases negative with
  | false => simp [signed, least]
  | true =>
    simp only [signed, if_true, Left.nonneg_neg_iff, Bool.true_eq_false, or_false]
    constructor
    · rintro ⟨small, -⟩
      have zero := le_antisymm small least
      exact ⟨zero, zero ▸ by norm_num⟩
    · rintro ⟨zero, -⟩
      rw [zero]
      norm_num

theorem isWhole_signed_iff :
    IsWhole (signed negative (magnitude mantissa exponent)) ↔ hasFraction mantissa exponent = false := by
  rw [← isWhole_magnitude_iff]
  cases negative with
  | false => rfl
  | true => exact isWhole_neg_iff

/-- Without its fraction a number is its whole part with the sign. -/
theorem truncation_signed :
    truncation (signed negative (magnitude mantissa exponent)) =
      if negative then -(wholePart mantissa exponent : ℤ) else wholePart mantissa exponent := by
  have least : (0 : ℚ) ≤ magnitude mantissa exponent := magnitude_nonneg
  rw [← floor_magnitude]
  cases negative with
  | false => simp [truncation, signed, not_lt.mpr least]
  | true =>
    simp only [truncation, signed, if_true, Left.neg_neg_iff, Int.ceil_neg]
    split
    · rfl
    · next zero =>
      rw [le_antisymm (not_lt.mp zero) least]
      simp

/-- The whole part of a number in range is its floor. -/
theorem InRange.floor_eq (h : InRange (signed negative (magnitude mantissa exponent))) :
    ⌊signed negative (magnitude mantissa exponent)⌋ = wholePart mantissa exponent := by
  have floor : truncation (signed negative (magnitude mantissa exponent)) =
      ⌊signed negative (magnitude mantissa exponent)⌋ := if_neg (not_lt.mpr h.1)
  rw [← floor, truncation_signed]
  rcases (inRange_iff.mp h).1 with rfl | rfl
  · simp [wholePart]
  · rfl

/-- The floor of a number in range is a word. -/
theorem InRange.floor_emod (h : InRange x) : ⌊x⌋ % 2 ^ 32 = ⌊x⌋ := by
  have least : 0 ≤ ⌊x⌋ := Int.floor_nonneg.mpr h.1
  have most : ⌊x⌋ ≤ 4294967295 := by
    have below : ((⌊x⌋ : ℤ) : ℚ) ≤ (4294967295 : ℤ) := (Int.floor_le x).trans (by exact_mod_cast h.2)
    exact_mod_cast below
  omega

/-! ## Conversion -/

/-- The nearest number that 64 bits hold. -/
def clamped (z : ℤ) : ℤ :=
  max (-2 ^ 63) (min z (2 ^ 63 - 1))

theorem toNat_ofInt (z : ℤ) : ((UInt32.ofInt z).toNat : ℤ) = z % 2 ^ 32 := by
  rw [UInt32.ofInt, UInt32.toNat_ofNat']
  omega

theorem ofInt_eq_iff {z : ℤ} {n : UInt32} : UInt32.ofInt z = n ↔ (n.toNat : ℤ) = z % 2 ^ 32 := by
  rw [← toNat_ofInt, Nat.cast_inj, UInt32.toNat_inj, eq_comm]

theorem ofInt_natCast (n : Nat) : UInt32.ofInt n = UInt32.ofNat n := by
  apply UInt32.toNat_inj.mp
  have same := toNat_ofInt n
  rw [UInt32.toNat_ofNat']
  omega

theorem converted_eq_ok_iff {α : Type} {result : Except ConversionFault α} {a : α} :
    Read.converted result = .ok a ↔ result = .ok a := by
  cases result <;> simp [Read.converted, Except.mapError]

theorem converted_eq_error_iff {α : Type} {result : Except ConversionFault α} {fault : Fault} :
    Read.converted result = .error fault ↔
      ∃ cause, result = .error cause ∧ .unrepresentable (.conversion cause) = fault := by
  cases result <;> simp [Read.converted, Except.mapError]

namespace Conversion

theorem wrapped_eq (negative : Bool) (whole : Nat) :
    wrapped negative whole = UInt32.ofInt (clamped (if negative then -(whole : ℤ) else whole)) := by
  unfold wrapped clamped
  cases negative with
  | false =>
    rw [if_neg Bool.false_ne_true, if_neg Bool.false_ne_true, ← ofInt_natCast]
    congr 1
    omega
  | true =>
    rw [if_pos rfl, if_pos rfl]
    congr 1
    omega

variable (policy : Conversion)

/-- The refusal of a number that is out of range. -/
def overflowing (bits : UInt64) : ConversionFault :=
  .overflow (.double bits) "UInt32"

/-- In range the floor is the word, if there is no fraction or it may be lost. -/
theorem uint32OfDouble_of_kept (h : value? bits = some x) (inside : InRange x)
    (kept : IsWhole x ∨ policy.allowTruncation = true) :
    policy.uint32OfDouble bits = .ok (UInt32.ofInt ⌊x⌋) := by
  obtain ⟨negative, mantissa, exponent, read, rfl⟩ := exists_reading_of_value? h
  have floor := inside.floor_eq
  rw [isWhole_signed_iff] at kept
  rw [inRange_iff] at inside
  have pass : ¬ (hasFraction mantissa exponent = true ∧ ¬ policy.allowTruncation = true) := by
    rintro ⟨fraction, strict⟩
    rw [fraction] at kept
    exact strict (kept.resolve_left Bool.true_eq_false.mp)
  unfold uint32OfDouble
  rw [read]
  dsimp only
  rw [if_neg (not_not_intro inside), if_neg pass, floor, ofInt_natCast]

/-- In range a fraction that must not be lost is refused. -/
theorem uint32OfDouble_of_fraction (h : value? bits = some x) (inside : InRange x)
    (fraction : ¬ IsWhole x) (strict : policy.allowTruncation = false) :
    policy.uint32OfDouble bits = .error (.truncation bits) := by
  obtain ⟨negative, mantissa, exponent, read, rfl⟩ := exists_reading_of_value? h
  rw [isWhole_signed_iff, Bool.not_eq_false] at fraction
  rw [inRange_iff] at inside
  unfold uint32OfDouble
  rw [read]
  dsimp only
  rw [if_neg (not_not_intro inside), if_pos ⟨fraction, by rw [strict]; exact Bool.false_ne_true⟩]

/-- Out of range the number is wrapped or refused; its fraction does not matter. -/
theorem uint32OfDouble_of_outside (h : value? bits = some x) (outside : ¬ InRange x) :
    policy.uint32OfDouble bits =
      if policy.allowOverflow then .ok (UInt32.ofInt (clamped (truncation x)))
      else .error (overflowing bits) := by
  obtain ⟨negative, mantissa, exponent, read, rfl⟩ := exists_reading_of_value? h
  rw [inRange_iff] at outside
  unfold uint32OfDouble
  rw [read]
  dsimp only
  rw [if_pos outside, wrapped_eq, truncation_signed]
  rfl

/-- An infinity is out of range like the least or the greatest number of 64 bits. -/
theorem uint32OfDouble_of_infinite (h : reading bits = .infinite negative) :
    policy.uint32OfDouble bits =
      if policy.allowOverflow then .ok (if negative then 0 else 4294967295)
      else .error (overflowing bits) := by
  unfold uint32OfDouble
  rw [h]
  cases negative <;> rfl

/-- What is no number is refused under every policy. -/
theorem uint32OfDouble_of_nan (h : reading bits = .nan negative) :
    policy.uint32OfDouble bits = .error (overflowing bits) := by
  unfold uint32OfDouble
  rw [h]
  rfl

/-- What a number out of range is wrapped to, if it is wrapped. Its fraction is dropped, and it is cut to what
64 bits hold. -/
def WrapsTo (bits : UInt64) (n : UInt32) : Prop :=
  (∃ x, value? bits = some x ∧ ¬ InRange x ∧ UInt32.ofInt (clamped (truncation x)) = n) ∨
    ∃ negative, reading bits = .infinite negative ∧ (if negative then 0 else 4294967295) = n

variable {policy} {n : UInt32} {cause : ConversionFault}

/-- Which doubles are converted to which word. -/
theorem uint32OfDouble_eq_ok_iff :
    policy.uint32OfDouble bits = .ok n ↔
      (∃ x, value? bits = some x ∧ InRange x ∧ (IsWhole x ∨ policy.allowTruncation = true) ∧
        UInt32.ofInt ⌊x⌋ = n) ∨
      policy.allowOverflow = true ∧ WrapsTo bits n := by
  unfold WrapsTo
  cases value : value? bits with
  | none =>
    obtain ⟨negative, read | read⟩ := value?_eq_none_iff.mp value
    · rw [uint32OfDouble_of_infinite policy read]
      cases policy.allowOverflow <;> simp [read]
    · rw [uint32OfDouble_of_nan policy read]
      simp [read]
  | some x =>
    obtain ⟨negative, mantissa, exponent, read, -⟩ := exists_reading_of_value? value
    by_cases inside : InRange x
    · by_cases kept : IsWhole x ∨ policy.allowTruncation = true
      · rw [uint32OfDouble_of_kept policy value inside kept]
        simp [inside, kept, read]
      · obtain ⟨fraction, strict⟩ := not_or.mp kept
        rw [uint32OfDouble_of_fraction policy value inside fraction (Bool.eq_false_of_not_eq_true strict)]
        simp [inside, fraction, strict, read]
    · rw [uint32OfDouble_of_outside policy value inside]
      cases policy.allowOverflow <;> simp [inside, read]

/-- Which doubles are refused, and why. -/
theorem uint32OfDouble_eq_error_iff :
    policy.uint32OfDouble bits = .error cause ↔
      (overflowing bits = cause ∧ (¬ ∃ x, value? bits = some x ∧ InRange x) ∧
        (policy.allowOverflow = false ∨ ∃ negative, reading bits = .nan negative)) ∨
      (.truncation bits = cause ∧ policy.allowTruncation = false ∧
        ∃ x, value? bits = some x ∧ InRange x ∧ ¬ IsWhole x) := by
  cases value : value? bits with
  | none =>
    obtain ⟨negative, read | read⟩ := value?_eq_none_iff.mp value
    · rw [uint32OfDouble_of_infinite policy read]
      cases policy.allowOverflow <;> simp [read]
    · rw [uint32OfDouble_of_nan policy read]
      simp [read]
  | some x =>
    obtain ⟨negative, mantissa, exponent, read, -⟩ := exists_reading_of_value? value
    by_cases inside : InRange x
    · by_cases kept : IsWhole x ∨ policy.allowTruncation = true
      · rw [uint32OfDouble_of_kept policy value inside kept]
        rcases kept with whole | lenient
        · simp [inside, whole]
        · simp [inside, lenient]
      · obtain ⟨fraction, strict⟩ := not_or.mp kept
        rw [uint32OfDouble_of_fraction policy value inside fraction (Bool.eq_false_of_not_eq_true strict)]
        simp [inside, fraction, strict]
    · rw [uint32OfDouble_of_outside policy value inside]
      cases policy.allowOverflow <;> simp [inside, read]

/-! ## With overflow refused -/

/-- The policy that refuses overflow and may allow truncation. -/
def bounded (truncates : Bool) : Conversion :=
  { allowTruncation := truncates }

/-- With overflow refused a double is converted iff its number is in range and has no fraction, or one that may
be lost, and then to the floor of the number. Whatever else the bits are, they have no form as a word: out of
range, no number at all, or with a fraction that must be kept. -/
theorem uint32OfDouble_exact (truncates : Bool) (bits : UInt64) :
    (∀ n : UInt32, Read.converted ((bounded truncates).uint32OfDouble bits) = .ok n ↔
      ∃ x, value? bits = some x ∧ InRange x ∧ (IsWhole x ∨ truncates = true) ∧ (n.toNat : ℤ) = ⌊x⌋) ∧
    ∀ fault : Fault, Read.converted ((bounded truncates).uint32OfDouble bits) = .error fault ↔
      fault.isRepresentation = true ∧
      ((.unrepresentable (.conversion (.overflow (.double bits) "UInt32")) = fault ∧
        ¬ ∃ x, value? bits = some x ∧ InRange x) ∨
      (.unrepresentable (.conversion (.truncation bits)) = fault ∧ truncates = false ∧
        ∃ x, value? bits = some x ∧ InRange x ∧ ¬ IsWhole x)) := by
  refine ⟨fun n => ?_, fun fault => ?_⟩
  · rw [converted_eq_ok_iff, uint32OfDouble_eq_ok_iff]
    simp only [bounded, Bool.false_eq_true, false_and, or_false]
    refine exists_congr fun x => and_congr_right fun _ => and_congr_right fun inside =>
      and_congr_right fun _ => ?_
    rw [ofInt_eq_iff, inside.floor_emod]
  · rw [converted_eq_error_iff]
    simp only [uint32OfDouble_eq_error_iff, bounded, true_or, and_true]
    constructor
    · rintro ⟨cause, ⟨rfl, outside⟩ | ⟨rfl, strict, fraction⟩, rfl⟩
      · exact ⟨rfl, .inl ⟨rfl, outside⟩⟩
      · exact ⟨rfl, .inr ⟨rfl, strict, fraction⟩⟩
    · rintro ⟨-, ⟨rfl, outside⟩ | ⟨rfl, strict, fraction⟩⟩
      · exact ⟨_, .inl ⟨rfl, outside⟩, rfl⟩
      · exact ⟨_, .inr ⟨rfl, strict, fraction⟩, rfl⟩

/-! ## With overflow alone allowed -/

/-- The policy that allows overflow and refuses truncation. -/
def wrapping : Conversion :=
  { allowOverflow := true }

/-- The numbers that overflow alone does not change but for wrapping: those in range, and the whole ones of 64
bits. -/
def Wrappable (x : ℚ) : Prop :=
  InRange x ∨ IsWhole x ∧ -2 ^ 63 ≤ x ∧ x < 2 ^ 63

/-- A whole number that may be wrapped is not cut. -/
theorem Wrappable.clamped_eq (h : Wrappable x) (whole : IsWhole x) : clamped (truncation x) = ⌊x⌋ := by
  have narrow : -2 ^ 63 ≤ x ∧ x < 2 ^ 63 := by
    rcases h with ⟨least, most⟩ | ⟨-, least, most⟩
    · exact ⟨le_trans (by norm_num) least, lt_of_le_of_lt most (by norm_num)⟩
    · exact ⟨least, most⟩
  obtain ⟨z, rfl⟩ := whole
  have least : -2 ^ 63 ≤ z := by exact_mod_cast narrow.1
  have most : z < 2 ^ 63 := by exact_mod_cast narrow.2
  simp only [truncation, Int.ceil_intCast, Int.floor_intCast, ite_self, clamped]
  omega

/-- What overflow alone lets through: whole numbers, and whatever is out of range. -/
theorem uint32OfDouble_overflow_eq_ok_iff :
    wrapping.uint32OfDouble bits = .ok n ↔
      (∃ x, value? bits = some x ∧ (IsWhole x ∨ ¬ InRange x) ∧
        (n.toNat : ℤ) = clamped (truncation x) % 2 ^ 32) ∨
      ∃ negative, reading bits = .infinite negative ∧ n = if negative then 0 else 4294967295 := by
  simp only [uint32OfDouble_eq_ok_iff, wrapping, WrapsTo, Bool.false_eq_true, or_false, true_and, ofInt_eq_iff]
  rw [← or_assoc, ← exists_or]
  refine or_congr (exists_congr fun x => ?_) (exists_congr fun _ => and_congr_right fun _ => eq_comm)
  rw [← and_or_left]
  refine and_congr_right fun _ => ?_
  by_cases inside : InRange x
  · by_cases whole : IsWhole x
    · simp [inside, whole, Wrappable.clamped_eq (.inl inside) whole]
    · simp [inside, whole]
  · simp [inside]

/-- With overflow alone allowed, a number in range and a whole number of 64 bits is wrapped exactly if it is
whole, and refused otherwise. Every other number that is out of range is converted too, without its fraction and
cut to what 64 bits hold, and so are the infinities; what is no number is refused. -/
theorem uint32OfDouble_wraps (bits : UInt64) :
    (∀ x, value? bits = some x → Wrappable x → ∀ n : UInt32,
      Read.converted (wrapping.uint32OfDouble bits) = .ok n ↔ IsWhole x ∧ (n.toNat : ℤ) = ⌊x⌋ % 2 ^ 32) ∧
    (∀ n : UInt32, Read.converted (wrapping.uint32OfDouble bits) = .ok n ↔
      (∃ x, value? bits = some x ∧ (IsWhole x ∨ ¬ InRange x) ∧
        (n.toNat : ℤ) = clamped (truncation x) % 2 ^ 32) ∨
      ∃ negative, reading bits = .infinite negative ∧ n = if negative then 0 else 4294967295) ∧
    ∀ fault : Fault, Read.converted (wrapping.uint32OfDouble bits) = .error fault ↔
      fault.isRepresentation = true ∧
      ((.unrepresentable (.conversion (.overflow (.double bits) "UInt32")) = fault ∧
        ∃ negative, reading bits = .nan negative) ∨
      (.unrepresentable (.conversion (.truncation bits)) = fault ∧
        ∃ x, value? bits = some x ∧ InRange x ∧ ¬ IsWhole x)) := by
  refine ⟨fun x value wrappable n => ?_, fun n => ?_, fun fault => ?_⟩
  · obtain ⟨negative, mantissa, exponent, read, -⟩ := exists_reading_of_value? value
    rw [converted_eq_ok_iff, uint32OfDouble_overflow_eq_ok_iff]
    simp only [value, read, Option.some.injEq, exists_eq_left', reduceCtorEq, false_and, exists_false, or_false]
    have whole : IsWhole x ∨ ¬ InRange x ↔ IsWhole x := by
      refine ⟨fun h => ?_, .inl⟩
      rcases wrappable with inside | ⟨whole, -⟩
      · exact h.resolve_right (not_not_intro inside)
      · exact whole
    rw [whole, and_congr_right_iff]
    intro whole
    rw [wrappable.clamped_eq whole]
  · rw [converted_eq_ok_iff, uint32OfDouble_overflow_eq_ok_iff]
  · rw [converted_eq_error_iff]
    simp only [uint32OfDouble_eq_error_iff, wrapping, Bool.true_eq_false, false_or, true_and]
    constructor
    · rintro ⟨cause, ⟨rfl, -, unread⟩ | ⟨rfl, fraction⟩, rfl⟩
      · exact ⟨rfl, .inl ⟨rfl, unread⟩⟩
      · exact ⟨rfl, .inr ⟨rfl, fraction⟩⟩
    · rintro ⟨-, ⟨rfl, negative, read⟩ | ⟨rfl, fraction⟩⟩
      · refine ⟨_, .inl ⟨rfl, ?_, negative, read⟩, rfl⟩
        rw [value?_eq_none_iff.mpr ⟨negative, .inr read⟩]
        simp
      · exact ⟨_, .inr ⟨rfl, fraction⟩, rfl⟩

theorem uint32OfDouble_wraps_minusOne :
    value? 0xbff0000000000000 = some (-1) ∧ Wrappable (-1) ∧
      Read.converted (wrapping.uint32OfDouble 0xbff0000000000000) = .ok 4294967295 := by
  have read : reading 0xbff0000000000000 = .finite true (2 ^ 52) (-52) := by decide
  have value : value? 0xbff0000000000000 = some (-1) := by
    rw [value?_of_reading read]
    norm_num [signed, magnitude]
  have whole : IsWhole (-1) := ⟨-1, by norm_num⟩
  have wrappable : Wrappable (-1) := .inr ⟨whole, by norm_num, by norm_num⟩
  have word : ((4294967295 : UInt32).toNat : ℤ) = ⌊(-1 : ℚ)⌋ % 2 ^ 32 := by
    rw [Int.floor_neg, Int.ceil_one]
    decide
  exact ⟨value, wrappable, ((uint32OfDouble_wraps _).1 (-1) value wrappable _).mpr ⟨whole, word⟩⟩

/-- Overflow alone loses a fraction out of range, cuts what is too large and lets an infinity through. -/
theorem uint32OfDouble_lossy :
    (value? 0xbfe0000000000000 = some (-1 / 2) ∧ ¬ IsWhole (-1 / 2) ∧
      Read.converted (wrapping.uint32OfDouble 0xbfe0000000000000) = .ok 0) ∧
    (value? 0x43e0000000000000 = some (2 ^ 63) ∧
      Read.converted (wrapping.uint32OfDouble 0x43e0000000000000) = .ok 4294967295) ∧
    (value? 0x7ff0000000000000 = none ∧
      Read.converted (wrapping.uint32OfDouble 0x7ff0000000000000) = .ok 4294967295) := by
  have half : reading 0xbfe0000000000000 = .finite true (2 ^ 52) (-53) := by decide
  have large : reading 0x43e0000000000000 = .finite false (2 ^ 52) 11 := by decide
  have infinite : reading 0x7ff0000000000000 = .infinite false := by decide
  refine ⟨⟨?_, ?_, rfl⟩, ⟨?_, rfl⟩, value?_eq_none_iff.mpr ⟨false, .inl infinite⟩, rfl⟩
  · rw [value?_of_reading half]
    norm_num [signed, magnitude]
  · rw [isWhole_iff]
    norm_num
  · rw [value?_of_reading large]
    norm_num [signed, magnitude]

end Conversion

end Number

end DocumentClient
