import DocumentClient.Proofs.Outcome
import DocumentClient.Proofs.Wire.Parts
import DocumentClient.Wire.Reader.Value

/-!
# What a reader has before it

A reader stands at an offset of a byte string, inside containers that no value may leave. Whatever it
reads, it accepts some bytes that lie before it and moves behind them.

Results:
1. `Ahead.append_iff`: bytes one after another are ahead iff each part is, where it begins.
2. `Accepts`: a step accepts exactly the bytes that a rule allows and moves behind them;
   `accepts_take`, `accepts_byte`, `accepts_length`, `accepts_zeroEnded`, `accepts_text` for the parts
   of values and `accepts_bind` for steps in sequence.
3. `readType_eq_ok_iff`, `startContainer_eq_ok_iff`: the steps that change more than the offset.
-/

namespace DocumentClient

open Outcome

namespace Reader

/-- The reader `n` bytes further. -/
def advance (r : Reader) (n : Nat) : Reader :=
  { r with pos := r.pos + n }

/-- The bytes come next, and all of them lie inside the innermost container. -/
structure Ahead (r : Reader) (bs : List UInt8) : Prop where
  inside : r.pos + bs.length ≤ r.limit
  present : r.pos + bs.length ≤ r.data.size
  matching : r.data.extract r.pos (r.pos + bs.length) = bs.toByteArray

@[simp] theorem advance_pos (r : Reader) (n : Nat) : (r.advance n).pos = r.pos + n := rfl

@[simp] theorem advance_data (r : Reader) (n : Nat) : (r.advance n).data = r.data := rfl

@[simp] theorem advance_limit (r : Reader) (n : Nat) : (r.advance n).limit = r.limit := rfl

@[simp] theorem advance_frames (r : Reader) (n : Nat) : (r.advance n).frames = r.frames := rfl

@[simp] theorem advance_phase (r : Reader) (n : Nat) : (r.advance n).phase = r.phase := rfl

@[simp] theorem advance_depth (r : Reader) (n : Nat) : (r.advance n).depth = r.depth := rfl

@[simp] theorem advance_zero (r : Reader) : r.advance 0 = r := rfl

theorem advance_advance (r : Reader) (m n : Nat) :
    (r.advance m).advance n = r.advance (m + n) := by
  simp [advance, Nat.add_assoc]

theorem limit_of_nil {r : Reader} (h : r.frames = []) : r.limit = r.data.size := by
  rw [limit, h]

theorem limit_of_cons {r : Reader} {f : Frame} {outer : List Frame} (h : r.frames = f :: outer) :
    r.limit = f.stop := by
  rw [limit, h]

namespace Ahead

variable {r s : Reader} {as bs : List UInt8}

/-- Bytes one after another are ahead iff each part is, where it begins. -/
theorem append_iff : r.Ahead (as ++ bs) ↔ r.Ahead as ∧ (r.advance as.length).Ahead bs := by
  have split : r.data.extract r.pos (r.pos + (as.length + bs.length)) =
      r.data.extract r.pos (r.pos + as.length) ++
        r.data.extract (r.pos + as.length) (r.pos + as.length + bs.length) := by
    rw [Nat.add_assoc]
    exact ByteArray.extract_eq_extract_append_extract _ (by omega) (by omega)
  constructor
  · intro h
    rcases h with ⟨inside, present, matching⟩
    rw [List.length_append] at inside present matching
    rw [split, List.toByteArray_append] at matching
    have left : r.data.extract r.pos (r.pos + as.length) = as.toByteArray := by
      apply ByteArray.append_inj_left matching
      rw [ByteArray.size_extract, List.size_toByteArray]
      omega
    rw [left, ByteArray.append_right_inj] at matching
    exact ⟨⟨by omega, by omega, left⟩,
      ⟨by rw [advance_pos, advance_limit]; omega, by rw [advance_pos, advance_data]; omega, matching⟩⟩
  · intro h
    rcases h with ⟨ha, inside, present, matching⟩
    rw [advance_pos, advance_limit] at inside
    rw [advance_pos, advance_data] at present matching
    refine ⟨?_, ?_, ?_⟩ <;> rw [List.length_append]
    · omega
    · omega
    · rw [split, ha.matching, matching, List.toByteArray_append]

theorem left (h : r.Ahead (as ++ bs)) : r.Ahead as := (append_iff.mp h).1

theorem right (h : r.Ahead (as ++ bs)) : (r.advance as.length).Ahead bs := (append_iff.mp h).2

theorem append (ha : r.Ahead as) (hb : (r.advance as.length).Ahead bs) : r.Ahead (as ++ bs) :=
  append_iff.mpr ⟨ha, hb⟩

/-- What is ahead depends on the offset and the bytes; the containers only bound it. -/
theorem transfer (h : r.Ahead bs) (data : s.data = r.data) (pos : s.pos = r.pos)
    (inside : s.pos + bs.length ≤ s.limit) : s.Ahead bs := by
  refine ⟨inside, ?_, ?_⟩
  · rw [data, pos]
    exact h.present
  · rw [data, pos]
    exact h.matching

/-- Where bytes are ahead the reader stands inside its container. -/
theorem nil (h : r.Ahead bs) : r.Ahead [] := by
  rw [← List.nil_append bs] at h
  exact h.left

/-- Behind bytes that were ahead the reader still stands inside its container. -/
theorem rest (h : r.Ahead as) : (r.advance as.length).Ahead [] := by
  rw [← List.append_nil as] at h
  exact h.right

/-- Bytes of one length are ahead in one way only. -/
theorem unique (ha : r.Ahead as) (hb : r.Ahead bs) (len : as.length = bs.length) : as = bs := by
  apply List.toByteArray_inj.mp
  rw [← ha.matching, ← hb.matching, len]

/-- Some bytes are ahead wherever there is room for them. -/
theorem exists_of_room (n : Nat) (inside : r.pos + n ≤ r.limit) (present : r.pos + n ≤ r.data.size) :
    ∃ bs, bs.length = n ∧ r.Ahead bs := by
  have len : (r.data.extract r.pos (r.pos + n)).data.toList.length = n := by
    rw [Array.length_toList, ByteArray.size_data, ByteArray.size_extract]
    omega
  refine ⟨_, len, by omega, by omega, ?_⟩
  rw [len, Bytes.toByteArray_toList]

/-- The byte at an offset ahead. -/
theorem get! (h : r.Ahead bs) {i : Nat} (hi : i < bs.length) :
    r.data.get! (r.pos + i) = bs[i] := by
  have present := h.present
  have byte : (r.data.extract r.pos (r.pos + bs.length)).get! i = r.data.get! (r.pos + i) :=
    Bytes.get!_extract (by omega) (by omega)
  rw [← byte, h.matching, Bytes.get!_toByteArray hi]

theorem singleton {b : UInt8} (inside : r.pos < r.limit) (present : r.pos < r.data.size)
    (here : r.data.get! r.pos = b) : r.Ahead [b] := by
  obtain ⟨bs, len, ahead⟩ := exists_of_room 1 inside present
  obtain ⟨c, rfl⟩ := List.length_eq_one_iff.mp len
  have same : c = b := by
    rw [← here]
    exact (ahead.get! (i := 0) (by simp)).symm
  rw [← same]
  exact ahead

end Ahead

end Reader

namespace Read

open Grammar

variable {α β : Type}

theorem peek_eq_ok_iff {look : Reader → Except Fault α} {r r' : Reader} {a : α} :
    peek look r = .ok a r' ↔ look r = .ok a ∧ r' = r := by
  unfold peek
  cases look r with
  | ok b => simp [eq_comm]
  | error fault => simp

/-- A step accepts exactly the bytes that a rule allows, tells what they are and moves behind them. -/
def Accepts (p : Read α) (rule : List UInt8 → α → Prop) : Prop :=
  ∀ (r r' : Reader) (a : α),
    p r = .ok a r' ↔ ∃ bs, rule bs a ∧ r.Ahead bs ∧ r' = r.advance bs.length

theorem Accepts.congr {p : Read α} {rule rule' : List UInt8 → α → Prop} (hp : Accepts p rule)
    (same : ∀ bs a, rule' bs a ↔ rule bs a) : Accepts p rule' := by
  intro r r' a
  rw [hp]
  simp only [same]

theorem accepts_bind {p : Read α} {f : α → Read β} {rule : List UInt8 → α → Prop}
    {next : α → List UInt8 → β → Prop} (hp : Accepts p rule) (hf : ∀ a, Accepts (f a) (next a)) :
    Accepts (p >>= f) fun bs b => ∃ a as cs, bs = as ++ cs ∧ rule as a ∧ next a cs b := by
  intro r r' b
  rw [bind_eq_ok_iff]
  constructor
  · intro h
    rcases h with ⟨a, m, hx, hy⟩
    obtain ⟨as, ha, ahead, rfl⟩ := (hp _ _ _).mp hx
    obtain ⟨cs, hc, behind, rfl⟩ := (hf a _ _ _).mp hy
    refine ⟨as ++ cs, ⟨a, as, cs, rfl, ha, hc⟩, Reader.Ahead.append_iff.mpr ⟨ahead, behind⟩, ?_⟩
    rw [Reader.advance_advance, List.length_append]
  · intro h
    rcases h with ⟨bs, ⟨a, as, cs, rfl, ha, hc⟩, ahead, rfl⟩
    refine ⟨a, r.advance as.length, (hp _ _ _).mpr ⟨as, ha, ahead.left, rfl⟩, ?_⟩
    refine (hf a _ _ _).mpr ⟨cs, hc, ahead.right, ?_⟩
    rw [Reader.advance_advance, List.length_append]

theorem accepts_map {p : Read α} {f : α → β} {rule : List UInt8 → α → Prop} (hp : Accepts p rule) :
    Accepts (p >>= fun a => pure (f a)) fun bs b => ∃ a, rule bs a ∧ f a = b := by
  intro r r' b
  simp only [bind_eq_ok_iff, pure_eq_ok_iff]
  constructor
  · rintro ⟨a, _, h, rfl, rfl⟩
    obtain ⟨bs, fits, ahead, rfl⟩ := (hp _ _ _).mp h
    exact ⟨bs, ⟨a, fits, rfl⟩, ahead, rfl⟩
  · rintro ⟨bs, ⟨a, fits, rfl⟩, ahead, rfl⟩
    exact ⟨a, _, (hp _ _ _).mpr ⟨bs, fits, ahead, rfl⟩, rfl, rfl⟩

theorem accepts_guard {c : Prop} [Decidable c] {fault : Fault} {f : PUnit → Read α} {p : Read α}
    {rule : List UInt8 → α → Prop} (hp : Accepts p rule) :
    Accepts (if c then throw fault >>= f else p) fun bs a => ¬ c ∧ rule bs a := by
  intro r r' a
  rw [guard_eq_ok_iff, hp]
  exact ⟨fun ⟨pass, bs, fits, rest⟩ => ⟨bs, ⟨pass, fits⟩, rest⟩,
    fun ⟨bs, ⟨pass, fits⟩, rest⟩ => ⟨pass, bs, fits, rest⟩⟩

theorem accepts_ite {c : Prop} [Decidable c] {p q : Read α} {rule other : List UInt8 → α → Prop}
    (hp : Accepts p rule) (hq : Accepts q other) :
    Accepts (if c then p else q) fun bs a => if c then rule bs a else other bs a := by
  split
  · exact hp
  · exact hq

theorem take_eq_ok_iff {n : Nat} {r r' : Reader} {bytes : ByteArray} :
    take n r = .ok bytes r' ↔
      r.pos + n ≤ r.data.size ∧ r.pos + n ≤ r.limit ∧ r.data.extract r.pos (r.pos + n) = bytes ∧
        r' = r.advance n := by
  unfold take
  dsimp only
  split
  · simp only [reduceCtorEq, false_iff, not_and]
    omega
  · split
    · simp only [reduceCtorEq, false_iff, not_and]
      omega
    · simp only [EStateM.Result.ok.injEq]
      constructor
      · intro h
        rcases h with ⟨rfl, rfl⟩
        exact ⟨by omega, by omega, rfl, rfl⟩
      · intro h
        rcases h with ⟨-, -, rfl, rfl⟩
        exact ⟨rfl, rfl⟩

theorem accepts_take (n : Nat) :
    Accepts (take n) fun bs bytes => bs.length = n ∧ bytes = bs.toByteArray := by
  intro r r' bytes
  rw [take_eq_ok_iff]
  constructor
  · intro h
    rcases h with ⟨present, inside, rfl, rfl⟩
    obtain ⟨bs, rfl, ahead⟩ := Reader.Ahead.exists_of_room n inside present
    exact ⟨bs, ⟨rfl, ahead.matching⟩, ahead, rfl⟩
  · intro h
    rcases h with ⟨bs, ⟨rfl, rfl⟩, ahead, rfl⟩
    exact ⟨ahead.present, ahead.inside, ahead.matching, rfl⟩

theorem accepts_byte : Accepts byte fun bs b => bs = [b] := by
  intro r r' b
  unfold byte
  simp only [bind_eq_ok_iff, pure_eq_ok_iff]
  constructor
  · rintro ⟨bytes, m, h, rfl, rfl⟩
    obtain ⟨bs, ⟨len, rfl⟩, ahead, rfl⟩ := (accepts_take 1 _ _ _).mp h
    obtain ⟨c, rfl⟩ := List.length_eq_one_iff.mp len
    exact ⟨[c], by simp [ByteArray.get!], ahead, rfl⟩
  · rintro ⟨bs, rfl, ahead, rfl⟩
    exact ⟨_, _, (accepts_take 1 _ _ _).mpr ⟨[b], ⟨rfl, rfl⟩, ahead, rfl⟩, by simp [ByteArray.get!], rfl⟩

theorem accepts_length (least : Nat) :
    Accepts (length least) fun bs n => IsLength bs n ∧ least ≤ n := by
  intro r r' n
  unfold length
  simp only [bind_eq_ok_iff, guard_eq_ok_iff, pure_eq_ok_iff]
  constructor
  · rintro ⟨bytes, m, h, enough, rfl, rfl⟩
    obtain ⟨bs, ⟨len, rfl⟩, ahead, rfl⟩ := (accepts_take 4 _ _ _).mp h
    exact ⟨bs, ⟨isLength_iff.mpr ⟨len, by omega⟩, by omega⟩, ahead, by rw [len]⟩
  · rintro ⟨bs, ⟨size, enough⟩, ahead, rfl⟩
    obtain ⟨len, word⟩ := isLength_iff.mp size
    refine ⟨_, _, (accepts_take 4 _ _ _).mpr ⟨bs, ⟨len, rfl⟩, ahead, rfl⟩, ?_, ?_, rfl⟩ <;> omega

/-- Decoding inside a step succeeds iff the bytes are those of the text. -/
theorem decode_eq_ok_iff {bytes : ByteArray} {s : String} {r r' : Reader} :
    (match Text.decodeUtf8 bytes with
      | .ok text => (return text : Read String)
      | .error fault => throw (Fault.utf8 fault)) r = .ok s r' ↔
      bytes = (utf8 s).toByteArray ∧ r' = r := by
  rw [← decodeUtf8_eq_ok_iff]
  cases h : Text.decodeUtf8 bytes with
  | ok text => simp only [pure_eq_ok_iff, Except.ok.injEq, eq_comm]
  | error fault => simp [throw_eq_ok_iff]

theorem accepts_text : Accepts text IsText := by
  intro r r' s
  unfold text
  simp only [bind_eq_ok_iff, guard_eq_ok_iff, not_not]
  constructor
  · rintro ⟨n, m, hn, bytes, m', h, zero, rest⟩
    obtain ⟨front, rfl⟩ := decode_eq_ok_iff.mp rest
    obtain ⟨size, ⟨isSize, enough⟩, ahead, rfl⟩ := (accepts_length 1 _ _ _).mp hn
    obtain ⟨bs, ⟨len, rfl⟩, behind, rfl⟩ := (accepts_take n _ _ _).mp h
    rw [← len] at isSize zero front
    obtain rfl := (Bytes.eq_append_zero_iff (by omega)).mpr ⟨zero, front⟩
    rw [List.length_append] at isSize
    refine ⟨size ++ utf8 s ++ [0], .mk isSize, ?_, ?_⟩
    · rw [List.append_assoc]
      exact Reader.Ahead.append_iff.mpr ⟨ahead, behind⟩
    · rw [Reader.advance_advance, List.append_assoc, ← List.length_append]
  · rintro ⟨bs, ⟨isSize⟩, ahead, rfl⟩
    rw [List.append_assoc] at ahead
    obtain ⟨zero, front⟩ := (Bytes.eq_append_zero_iff (by simp)).mp (Eq.refl (utf8 s ++ [0]))
    refine ⟨_, _, (accepts_length 1 _ _ _).mpr ⟨_, ⟨isSize, by omega⟩, ahead.left, rfl⟩, _, _,
      (accepts_take _ _ _ _).mpr ⟨_, ⟨by simp, rfl⟩, ahead.right, rfl⟩, ?_, ?_⟩
    · simpa using zero
    · refine decode_eq_ok_iff.mpr ⟨by simpa using front, ?_⟩
      rw [Reader.advance_advance, List.append_assoc, ← List.length_append]

theorem zeroFrom?_eq_some_iff {data : ByteArray} {count start found : Nat} :
    zeroFrom? data count start = some found ↔
      start ≤ found ∧ found < start + count ∧ data.get! found = 0 ∧
        ∀ i, start ≤ i → i < found → data.get! i ≠ 0 := by
  induction count generalizing start with
  | zero =>
    simp only [zeroFrom?, reduceCtorEq, false_iff, not_and]
    omega
  | succ count ih =>
    rw [zeroFrom?]
    by_cases zero : data.get! start = 0
    · rw [if_pos zero, Option.some.injEq]
      constructor
      · rintro rfl
        exact ⟨Nat.le_refl _, by omega, zero, fun i _ _ => by omega⟩
      · intro h
        rcases h with ⟨le, -, -, before⟩
        by_contra ne
        exact before start (Nat.le_refl _) (by omega) zero
    · rw [if_neg zero, ih]
      constructor
      · intro h
        rcases h with ⟨le, lt, here, before⟩
        refine ⟨by omega, by omega, here, fun i hi hlt => ?_⟩
        by_cases first : i = start
        · exact first ▸ zero
        · exact before i (by omega) hlt
      · intro h
        rcases h with ⟨le, lt, here, before⟩
        have ne : found ≠ start := fun same => zero (same ▸ here)
        exact ⟨by omega, by omega, here, fun i hi hlt => before i (by omega) hlt⟩

theorem zeroEnded_eq_ok_iff {r r' : Reader} {s : String} :
    zeroEnded r = .ok s r' ↔ ∃ found, r.pos ≤ found ∧ found < r.limit ∧ found < r.data.size ∧
      r.data.get! found = 0 ∧ (∀ i, r.pos ≤ i → i < found → r.data.get! i ≠ 0) ∧
      r.data.extract r.pos found = (utf8 s).toByteArray ∧ r' = r.advance (found + 1 - r.pos) := by
  unfold zeroEnded
  dsimp only
  constructor
  · intro h
    split at h
    · exact absurd h (by simp)
    · split at h
      · exact absurd h (by simp)
      · next found hf =>
        obtain ⟨le, lt, zero, before⟩ := zeroFrom?_eq_some_iff.mp hf
        split at h
        · next text ht =>
          simp only [EStateM.Result.ok.injEq] at h
          obtain ⟨rfl, rfl⟩ := h
          refine ⟨found, le, by omega, by omega, zero, before, decodeUtf8_eq_ok_iff.mp ht, ?_⟩
          have behind : r.pos + (found + 1 - r.pos) = found + 1 := by omega
          rw [Reader.advance, behind]
        · exact absurd h (by simp)
  · rintro ⟨found, le, inside, present, zero, before, bytes, rfl⟩
    have search : zeroFrom? r.data (min r.limit r.data.size - r.pos) r.pos = some found :=
      zeroFrom?_eq_some_iff.mpr ⟨le, by omega, zero, before⟩
    have behind : r.pos + (found + 1 - r.pos) = found + 1 := by omega
    rw [if_neg (by omega), search]
    dsimp only
    rw [decodeUtf8_eq_ok_iff.mpr bytes, Reader.advance, behind]

theorem accepts_zeroEnded : Accepts zeroEnded IsZeroEnded := by
  intro r r' s
  rw [zeroEnded_eq_ok_iff]
  constructor
  · intro h
    rcases h with ⟨found, le, inside, present, zero, before, bytes, rfl⟩
    have len : r.pos + (utf8 s).length = found := by
      have size := congrArg ByteArray.size bytes
      rw [ByteArray.size_extract, List.size_toByteArray] at size
      omega
    have front : r.Ahead (utf8 s) := by
      refine ⟨by omega, by omega, ?_⟩
      rw [len, bytes]
    have last : (r.advance (utf8 s).length).Ahead [0] := by
      apply Reader.Ahead.singleton <;> simpa [len]
    have nonzero : 0 ∉ utf8 s := by
      intro mem
      obtain ⟨i, hi, byte⟩ := List.getElem_of_mem mem
      exact before (r.pos + i) (by omega) (by omega) ((front.get! hi).trans byte)
    refine ⟨utf8 s ++ [0], .mk nonzero, Reader.Ahead.append_iff.mpr ⟨front, last⟩, ?_⟩
    rw [List.length_append, List.length_singleton, ← len]
    congr 1
    omega
  · intro h
    rcases h with ⟨bs, ⟨nonzero⟩, ahead, rfl⟩
    have inside := ahead.inside
    have present := ahead.present
    rw [List.length_append, List.length_singleton] at inside present
    refine ⟨r.pos + (utf8 s).length, by omega, by omega, by omega, ?_, ?_, ahead.left.matching, ?_⟩
    · exact ahead.right.get! (i := 0) (by simp)
    · intro i le lt
      have here := ahead.left.get! (i := i - r.pos) (by omega)
      rw [Nat.add_sub_cancel' le] at here
      rw [here]
      exact fun zero => nonzero (zero ▸ List.getElem_mem _)
    · rw [List.length_append, List.length_singleton]
      congr 1
      omega

end Read

end DocumentClient
