import DocumentClient.Proofs.Wire.Reading

/-!
# Looking only at bytes that are there

A slice that goes beyond a byte string is cut off here, and an index beyond it gives zero. A reader must
not depend on that. Its steps that look at bytes are stated once more with something arbitrary in the place
of what lies beyond the string, and are the same steps whatever that is.

Results:
1. `size_of_take`: as many bytes are taken as have been asked for.
2. `Beyond.IsUnseen`, `isUnseen`: no step of a reader, wherever it stands, looks beyond a byte string.
-/

namespace DocumentClient

open Outcome

/-- What might be found beyond the end of a byte string. -/
structure Beyond where
  slice : ByteArray → Nat → Nat → ByteArray
  byte : ByteArray → Nat → UInt8

namespace Beyond

variable (beyond : Beyond)

/-- The bytes between two offsets, if all of them are there. -/
def extract (data : ByteArray) (start stop : Nat) : ByteArray :=
  if start ≤ stop ∧ stop ≤ data.size then data.extract start stop else beyond.slice data start stop

/-- The byte at an offset, if it is there. -/
def get (data : ByteArray) (i : Nat) : UInt8 :=
  if i < data.size then data.get! i else beyond.byte data i

variable {beyond} {data : ByteArray} {start stop i : Nat}

theorem extract_eq (ordered : start ≤ stop) (present : stop ≤ data.size) :
    beyond.extract data start stop = data.extract start stop :=
  if_pos ⟨ordered, present⟩

theorem get_eq (present : i < data.size) : beyond.get data i = data.get! i :=
  if_pos present

end Beyond

namespace Read

/-! ## The steps once more -/

/-- The next `n` bytes. -/
def takeOr (beyond : Beyond) (n : Nat) : Read ByteArray := fun r =>
  let stop := r.pos + n
  if r.data.size < stop then .error .endOfInput r
  else if r.limit < stop then .error (.malformed (.overrun r.pos)) r
  else .ok (beyond.extract r.data r.pos stop) { r with pos := stop }

/-- The next byte. -/
def byteOr (beyond : Beyond) : Read UInt8 := do
  let bytes ← takeOr beyond 1
  return beyond.get bytes 0

/-- A length of at least `least`. -/
def lengthOr (beyond : Beyond) (least : Nat) : Read Nat := do
  let raw := Bytes.toInt32 (← takeOr beyond 4)
  if raw.toInt < least then throw (.malformed (.length raw))
  return raw.toInt.toNat

/-- The length that comes next, without moving. -/
def peekLengthOr (beyond : Beyond) : Read Nat :=
  peek fun r =>
    if r.data.size < r.pos + 4 then .error .endOfInput
    else
      let raw := Bytes.toInt32 (beyond.extract r.data r.pos (r.pos + 4))
      if raw.toInt < 0 then .error (.malformed (.length raw)) else .ok raw.toInt.toNat

/-- The offset of the first zero byte among the `count` bytes from `start` on. -/
def zeroFromOr? (beyond : Beyond) (data : ByteArray) : Nat → Nat → Option Nat
  | 0, _ => none
  | count + 1, start =>
    if beyond.get data start = 0 then some start else zeroFromOr? beyond data count (start + 1)

/-- A text that ends at the first zero byte. -/
def zeroEndedOr (beyond : Beyond) : Read String := fun r =>
  let stop := min r.limit r.data.size
  if stop < r.pos then .error .endOfInput r
  else
    match zeroFromOr? beyond r.data (stop - r.pos) r.pos with
    | none => .error (.malformed .openText) r
    | some found =>
      match Text.decodeUtf8 (beyond.extract r.data r.pos found) with
      | .ok text => .ok text { r with pos := found + 1 }
      | .error fault => .error (.utf8 fault) r

/-- A text behind its length, which counts the zero byte at its end. -/
def textOr (beyond : Beyond) : Read String := do
  let n ← lengthOr beyond 1
  let bytes ← takeOr beyond n
  if beyond.get bytes (n - 1) ≠ 0 then throw (.malformed .missingTerminator)
  match Text.decodeUtf8 (beyond.extract bytes 0 (n - 1)) with
  | .ok text => return text
  | .error fault => throw (.utf8 fault)

/-! ## They are the same steps -/

variable {beyond : Beyond} {r s : Reader} {n : Nat} {bytes : ByteArray}

theorem size_of_take (h : take n r = .ok bytes s) : bytes.size = n := by
  obtain ⟨present, -, rfl, -⟩ := take_eq_ok_iff.mp h
  rw [ByteArray.size_extract]
  omega

theorem takeOr_eq (n : Nat) : takeOr beyond n = take n := by
  funext r
  unfold takeOr take
  dsimp only
  by_cases short : r.data.size < r.pos + n
  · rw [if_pos short, if_pos short]
  · rw [if_neg short, if_neg short, Beyond.extract_eq (Nat.le_add_right _ _) (Nat.not_lt.mp short)]

theorem byteOr_eq : byteOr beyond = byte := by
  funext r
  unfold byteOr byte
  rw [takeOr_eq]
  cases h : take 1 r with
  | error fault m => rw [bind_eq_error_iff.mpr (.inl h), bind_eq_error_iff.mpr (.inl h)]
  | ok bytes m =>
    rw [bind_of_ok h, bind_of_ok h, Beyond.get_eq]
    rw [size_of_take h]
    exact Nat.one_pos

theorem lengthOr_eq (least : Nat) : lengthOr beyond least = length least := by
  unfold lengthOr length
  rw [takeOr_eq]

theorem peekLengthOr_eq : peekLengthOr beyond = peekLength := by
  unfold peekLengthOr peekLength
  refine congrArg peek (funext fun r => ?_)
  by_cases short : r.data.size < r.pos + 4
  · rw [if_pos short, if_pos short]
  · rw [if_neg short, if_neg short, Beyond.extract_eq (Nat.le_add_right _ _) (Nat.not_lt.mp short)]

theorem zeroFromOr?_eq {data : ByteArray} {count start : Nat} (present : start + count ≤ data.size) :
    zeroFromOr? beyond data count start = zeroFrom? data count start := by
  induction count generalizing start with
  | zero => rfl
  | succ count ih =>
    rw [zeroFromOr?, zeroFrom?, Beyond.get_eq (by omega), ih (by omega)]

theorem zeroEndedOr_eq : zeroEndedOr beyond = zeroEnded := by
  funext r
  unfold zeroEndedOr zeroEnded
  dsimp only
  by_cases out : min r.limit r.data.size < r.pos
  · rw [if_pos out, if_pos out]
  · rw [if_neg out, if_neg out, zeroFromOr?_eq (by omega)]
    cases search : zeroFrom? r.data (min r.limit r.data.size - r.pos) r.pos with
    | none => rfl
    | some found =>
      obtain ⟨le, lt, -, -⟩ := zeroFrom?_eq_some_iff.mp search
      dsimp only
      generalize looked : beyond.extract r.data r.pos found = bytes
      rw [Beyond.extract_eq le (by omega)] at looked
      subst looked
      rfl

theorem textOr_eq : textOr beyond = text := by
  funext r
  unfold textOr text
  rw [lengthOr_eq]
  cases hn : length 1 r with
  | error fault m => rw [bind_eq_error_iff.mpr (.inl hn), bind_eq_error_iff.mpr (.inl hn)]
  | ok n m =>
    rw [bind_of_ok hn, bind_of_ok hn, takeOr_eq]
    cases h : take n m with
    | error fault m => rw [bind_eq_error_iff.mpr (.inl h), bind_eq_error_iff.mpr (.inl h)]
    | ok bytes m' =>
      obtain ⟨-, ⟨-, enough⟩, -, -⟩ := (accepts_length 1 _ _ _).mp hn
      have size := size_of_take h
      rw [bind_of_ok h, bind_of_ok h, Beyond.get_eq (by omega)]
      generalize looked : beyond.extract bytes 0 (n - 1) = front
      rw [Beyond.extract_eq (Nat.zero_le _) (by omega)] at looked
      subst looked
      rfl

end Read

/-- Whatever lies beyond the end of a byte string makes no difference to a reader. -/
structure Beyond.IsUnseen (beyond : Beyond) : Prop where
  take : ∀ n, Read.takeOr beyond n = Read.take n
  byte : Read.byteOr beyond = Read.byte
  length : ∀ least, Read.lengthOr beyond least = Read.length least
  peekLength : Read.peekLengthOr beyond = Read.peekLength
  zeroEnded : Read.zeroEndedOr beyond = Read.zeroEnded
  text : Read.textOr beyond = Read.text

theorem Beyond.isUnseen (beyond : Beyond) : beyond.IsUnseen :=
  ⟨Read.takeOr_eq, Read.byteOr_eq, Read.lengthOr_eq, Read.peekLengthOr_eq, Read.zeroEndedOr_eq,
    Read.textOr_eq⟩

end DocumentClient
