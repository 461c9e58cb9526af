import DocumentClient.Proofs.Outcome
import DocumentClient.Proofs.Wire.Parts
import DocumentClient.Wire.Encoding

/-!
# What a writer adds

A writer that succeeds adds bytes to the innermost open container, or to the base if none is open.

Results:
1. `Writer.Awaits`: where a value may be written, which name it gets and where the writer stands then.
2. `beginValue_of_awaits`, `scalar_eq_ok_iff`, `closeContainer_eq_ok_iff`: the steps of the writer.
3. `isLength_digits`, `isText_of_textBytes`, `isZeroEnded_of_zeroEndedBytes`: the parts of values are
   written in the form that the grammar gives them.
-/

namespace DocumentClient

open Outcome Grammar Bytes

namespace Writer

/-- The writer with more bytes in the innermost open container. -/
def add (w : Writer) (bs : List UInt8) : Writer :=
  w.append bs.toByteArray

/-- The writer in another phase. -/
def inPhase (w : Writer) (phase : WritePhase) : Writer :=
  { w with phase := phase }

/-- A value may be written: `text` will be its name, and behind it the writer is the last argument with
the bytes of the value added. A field has its name from the caller, an item from its index. -/
inductive Awaits : Writer → String → Writer → Prop
  | field (base body : ByteArray) (outer : List OpenContainer) (text : String) :
      Awaits ⟨base, ⟨body, none⟩ :: outer, .value, some text⟩ text
        ⟨base, ⟨body, none⟩ :: outer, .name, none⟩
  | item (base body : ByteArray) (outer : List OpenContainer) (index : Nat) :
      Awaits ⟨base, ⟨body, some index⟩ :: outer, .name, none⟩ (toString index)
        ⟨base, ⟨body, some (index + 1)⟩ :: outer, .name, none⟩

theorem add_add (w : Writer) (as bs : List UInt8) : (w.add as).add bs = w.add (as ++ bs) := by
  unfold add
  rw [List.toByteArray_append]
  rcases w with ⟨base, _ | ⟨⟨body, index⟩, outer⟩, phase, name⟩
  · simp [append, ByteArray.append_assoc]
  · simp [append, ByteArray.append_assoc]

theorem add_nil (w : Writer) : w.add [] = w := by
  rcases w with ⟨base, _ | ⟨⟨body, index⟩, outer⟩, phase, name⟩
  · simp [add, append]
  · simp [add, append]

theorem append_eq_add (w : Writer) (bytes : ByteArray) : w.append bytes = w.add bytes.data.toList := by
  rw [add, toByteArray_toList]

theorem inPhase_add (w : Writer) (phase : WritePhase) (bs : List UInt8) :
    (w.inPhase phase).add bs = (w.add bs).inPhase phase := by
  rcases w with ⟨base, _ | ⟨⟨body, index⟩, outer⟩, phase, name⟩
  · rfl
  · rfl

@[simp] theorem inPhase_inPhase (w : Writer) (phase other : WritePhase) :
    (w.inPhase phase).inPhase other = w.inPhase other := rfl

theorem Awaits.inPhase_add {w w₁ : Writer} {text : String} (h : w.Awaits text w₁) (bs : List UInt8) :
    (w₁.add bs).inPhase .name = w₁.add bs := by
  cases h <;> rfl

end Writer

/-! ## Parts of values -/

namespace Bytes

theorem toList_numeral (w n : Nat) : (numeral w n).data.toList = digits w n := rfl

theorem toList_push (bytes : ByteArray) (b : UInt8) :
    (bytes.push b).data.toList = bytes.data.toList ++ [b] := by
  simp

theorem toList_append (as bs : ByteArray) :
    (as ++ bs).data.toList = as.data.toList ++ bs.data.toList := by
  simp

end Bytes

theorem isLength_digits {n : Nat} (small : n ≤ maxDocumentSize) : IsLength (digits 4 n) n :=
  ⟨rfl, Nat.lt_of_le_of_lt small (by decide)⟩

theorem lengthBytes_eq_ok_iff {n : Nat} {bytes : ByteArray} :
    lengthBytes n = .ok bytes ↔ n ≤ maxDocumentSize ∧ bytes = numeral 4 n := by
  unfold lengthBytes
  split
  · next large => simp [Nat.not_le.mpr large]
  · next fits => simp [Nat.not_lt.mp fits, eq_comm]

theorem lengthBytes_eq_error_iff {n : Nat} {fault : Fault} :
    lengthBytes n = .error fault ↔ maxDocumentSize < n ∧ fault = .documentTooLarge := by
  unfold lengthBytes
  split
  · next large => simp [large, eq_comm]
  · next fits => simp [fits]

theorem isText_of_textBytes {text : String} {bytes : ByteArray} (h : textBytes text = .ok bytes) :
    IsText bytes.data.toList text := by
  unfold textBytes at h
  cases hs : lengthBytes (text.utf8ByteSize + 1) with
  | error fault =>
    rw [hs] at h
    cases h
  | ok size =>
    rw [hs] at h
    cases h
    obtain ⟨small, rfl⟩ := lengthBytes_eq_ok_iff.mp hs
    rw [← length_utf8] at small ⊢
    rw [toList_push, toList_append, toList_numeral]
    exact .mk (isLength_digits small)

theorem isZeroEnded_of_zeroEndedBytes {text : String} {bytes : ByteArray}
    (h : zeroEndedBytes text = .ok bytes) : IsZeroEnded bytes.data.toList text := by
  unfold zeroEndedBytes at h
  split at h
  · exact absurd h (by simp)
  · next free =>
    injection h with h
    subst h
    rw [toList_push]
    exact .mk fun mem => free ((zero_mem_utf8_iff text).mp mem)

/-! ## Steps -/

namespace Write

variable {w w' w₁ : Writer} {text : String} {kind : Kind}

theorem put_eq_ok_iff {bytes : ByteArray} {u : Unit} :
    put bytes w = .ok u w' ↔ w' = w.add bytes.data.toList := by
  unfold put
  rw [modify_eq_ok_iff, Writer.append_eq_add, eq_comm]

theorem putPart_eq_ok_iff {part : Except Fault ByteArray} {u : Unit} :
    putPart part w = .ok u w' ↔ ∃ bytes, part = .ok bytes ∧ w' = w.add bytes.data.toList := by
  unfold putPart
  cases part with
  | ok bytes => simp [put_eq_ok_iff]
  | error fault => simp [throw_eq_ok_iff]

theorem endValue_eq_ok_iff {u : Unit} : endValue w = .ok u w' ↔ w' = w.inPhase .name := by
  unfold endValue
  rw [modify_eq_ok_iff, eq_comm]
  rfl

theorem beginValue_of_awaits (h : w.Awaits text w₁) :
    beginValue kind w = .ok () ((w₁.add (header kind text)).inPhase w.phase) := by
  have bytes (name : String) : (ByteArray.empty.push kind.tag ++ name.toUTF8).push 0 =
      (header kind name).toByteArray := by
    apply ByteArray.ext
    simp [header, utf8]
  cases h with
  | field base body outer =>
    unfold Writer.add
    rw [← bytes]
    rfl
  | item base body outer index =>
    unfold Writer.add
    rw [← bytes]
    rfl

/-- Between the start and the end of a value the phase does not matter. -/
theorem inPhase_value (h : w.Awaits text w₁) (phase : WritePhase) (bs : List UInt8) :
    (((w₁.add (header kind text)).inPhase phase).add bs).inPhase .name =
      w₁.add (header kind text ++ bs) := by
  rw [Writer.inPhase_add, Writer.inPhase_inPhase, Writer.add_add, h.inPhase_add]

/-- A value with the given bytes adds an element. -/
theorem scalar_eq_ok_iff {part : Except Fault ByteArray} {u : Unit} (h : w.Awaits text w₁) :
    scalar kind part w = .ok u w' ↔
      ∃ bytes, part = .ok bytes ∧ w' = w₁.add (header kind text ++ bytes.data.toList) := by
  unfold scalar
  rw [bind_of_ok (beginValue_of_awaits h)]
  simp only [bind_eq_ok_iff, putPart_eq_ok_iff, endValue_eq_ok_iff]
  constructor
  · rintro ⟨_, _, ⟨bytes, hp, rfl⟩, rfl⟩
    exact ⟨bytes, hp, inPhase_value h _ _⟩
  · rintro ⟨bytes, hp, rfl⟩
    exact ⟨(), _, ⟨bytes, hp, rfl⟩, (inPhase_value h _ _).symm⟩

theorem name_eq_ok_iff {base body : ByteArray} {outer : List OpenContainer} {u : Unit} :
    name text ⟨base, ⟨body, none⟩ :: outer, .name, none⟩ = .ok u w' ↔
      0 ∉ utf8 text ∧ w' = ⟨base, ⟨body, none⟩ :: outer, .value, some text⟩ := by
  unfold name
  rw [get_bind, zero_mem_utf8_iff]
  simp only [guard_eq_ok_iff, set_eq_ok_iff]
  constructor
  · intro h
    rcases h with ⟨-, -, free, rfl⟩
    exact ⟨free, rfl⟩
  · intro h
    rcases h with ⟨free, rfl⟩
    exact ⟨by simp, by simp [Writer.inArray], free, rfl⟩

/-- A container that is not too large goes to the one around it, behind its length. -/
theorem closeContainer_eq_ok_iff {base body : ByteArray} {index : Option Nat}
    {outer : List OpenContainer} {phase : WritePhase} {u : Unit} :
    closeContainer ⟨base, ⟨body, index⟩ :: outer, phase, none⟩ = .ok u w' ↔
      body.size + minDocumentSize ≤ maxDocumentSize ∧
      w' = ((Writer.mk base outer phase none).add
        (digits 4 (body.size + minDocumentSize) ++ body.data.toList ++ [0])).inPhase
          (if outer.isEmpty then .done else .name) := by
  unfold closeContainer
  rw [get_bind]
  dsimp only
  rw [set_bind]
  cases hl : lengthBytes (body.size + minDocumentSize) with
  | error fault =>
    have large : ¬ body.size + minDocumentSize ≤ maxDocumentSize := by
      intro fits
      rw [lengthBytes_eq_ok_iff.mpr ⟨fits, rfl⟩] at hl
      cases hl
    simp [bind_eq_ok_iff, throw_eq_ok_iff, large]
  | ok size =>
    obtain ⟨fits, rfl⟩ := lengthBytes_eq_ok_iff.mp hl
    have bytes : ((numeral 4 (body.size + minDocumentSize) ++ body).push 0).data.toList =
        digits 4 (body.size + minDocumentSize) ++ body.data.toList ++ [0] := by
      rw [toList_push, toList_append, toList_numeral]
    simp only [bind_eq_ok_iff, put_eq_ok_iff, modify_eq_ok_iff, bytes]
    constructor
    · intro h
      rcases h with ⟨_, _, rfl, rfl⟩
      exact ⟨fits, rfl⟩
    · intro h
      rcases h with ⟨-, rfl⟩
      exact ⟨(), _, rfl, rfl⟩

theorem endDocument_eq_ok_iff {base body : ByteArray} {outer : List OpenContainer} {u : Unit} :
    endDocument ⟨base, ⟨body, none⟩ :: outer, .name, none⟩ = .ok u w' ↔
      closeContainer ⟨base, ⟨body, none⟩ :: outer, .name, none⟩ = .ok u w' := by
  unfold endDocument
  rw [get_bind, guard_eq_ok_iff]
  simp [Writer.inArray]

theorem endArray_eq_ok_iff {base body : ByteArray} {outer : List OpenContainer} {index : Nat}
    {u : Unit} :
    endArray ⟨base, ⟨body, some index⟩ :: outer, .name, none⟩ = .ok u w' ↔
      closeContainer ⟨base, ⟨body, some index⟩ :: outer, .name, none⟩ = .ok u w' := by
  unfold endArray
  rw [get_bind, guard_eq_ok_iff]
  simp [Writer.inArray]

theorem openContainer_eq_ok_iff {index : Option Nat} {u : Unit} :
    openContainer index w = .ok u w' ↔ w.containers.length < maxNesting ∧
      w' = { w with containers := ⟨.empty, index⟩ :: w.containers, phase := .name } := by
  unfold openContainer
  rw [get_bind, guard_eq_ok_iff, not_le]
  apply and_congr_right
  intro _
  rw [set_eq_ok_iff, eq_comm]

theorem openContainer_eq_error_iff {index : Option Nat} {fault : Fault} :
    openContainer index w = .error fault w' ↔
      maxNesting ≤ w.containers.length ∧ fault = .nestingTooDeep ∧ w' = w := by
  have never : (set { w with containers := ⟨.empty, index⟩ :: w.containers, phase := .name } :
      Write PUnit) w ≠ .error fault w' := nofun
  unfold openContainer
  rw [get_bind, guard_eq_error_iff]
  simp only [never, and_false, or_false, eq_comm]

/-- A container that is a value is entered behind its tag and name. -/
theorem startDocument_of_awaits (h : w.Awaits text w₁) :
    startDocument w = openContainer none ((w₁.add (header .document text)).inPhase w.phase) := by
  unfold startDocument
  rw [get_bind, if_pos (by cases h <;> simp), bind_of_ok (beginValue_of_awaits h)]

theorem startArray_of_awaits (h : w.Awaits text w₁) :
    startArray w = openContainer (some 0) ((w₁.add (header .array text)).inPhase w.phase) := by
  unfold startArray
  rw [bind_of_ok (beginValue_of_awaits h)]

theorem startDocument_eq_ok_iff {u : Unit} (h : w.Awaits text w₁) :
    startDocument w = .ok u w' ↔
      openContainer none ((w₁.add (header .document text)).inPhase w.phase) = .ok u w' := by
  rw [startDocument_of_awaits h]

theorem startArray_eq_ok_iff {u : Unit} (h : w.Awaits text w₁) :
    startArray w = .ok u w' ↔
      openContainer (some 0) ((w₁.add (header .array text)).inPhase w.phase) = .ok u w' := by
  rw [startArray_of_awaits h]

/-- The writer inside a container that is a value. -/
theorem opened_of_awaits {kind : Kind} {index : Option Nat} (awaits : w.Awaits text w₁)
    (h : openContainer index ((w₁.add (header kind text)).inPhase w.phase) = .ok () w') :
    w' = ⟨w₁.base, ⟨.empty, index⟩ :: (w₁.add (header kind text)).containers, .name, none⟩ := by
  obtain ⟨-, rfl⟩ := openContainer_eq_ok_iff.mp h
  cases awaits <;> rfl

/-- A container that is closed becomes an element of the container around it. -/
theorem closed_of_awaits {kind : Kind} {block : List UInt8} (awaits : w.Awaits text w₁) :
    ((Writer.mk w₁.base (w₁.add (header kind text)).containers .name none).add block).inPhase
      (if (w₁.add (header kind text)).containers.isEmpty then .done else .name) =
      w₁.add (header kind text ++ block) := by
  rw [← Writer.add_add]
  cases awaits <;> rfl

end Write

end DocumentClient
