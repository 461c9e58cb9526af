import DocumentClient.Proofs.Wire.Decoding
import DocumentClient.Proofs.Wire.Writing

/-!
# Decoding undoes encoding

What a writer adds for a value is, in the form of the grammar, that value. The grammar is what the
decoder follows, so the document comes back as it was: every kind of value, the order of the fields at
every level, and the bits of every double.

Three things have no way back and are ruled out. A repeated name loses its later values, which a
document of this library never has. A binary subtype that no byte announces comes back as another one.
Containers that nest too deep are written inside the scope of code, whose containers the writer counts
from zero, but they are not read.

Results:
1. `Denotes`: a payload is a value wherever the value may stand.
2. `value_written`, `fields_written`, `items_written`: what a writer adds denotes what it was given;
   induction on the value, its fields and its items.
3. `decode_encode`: the round trip.
-/

namespace DocumentClient

open Outcome Grammar Bytes

/-! ## What the parts of a container inherit -/

namespace Value

theorem nesting_le_fieldsNesting {fields : List (String × Value)} {field : String × Value}
    (mem : field ∈ fields) : field.2.nesting ≤ fieldsNesting fields := by
  induction fields with
  | nil => cases mem
  | cons head rest ih =>
    rw [fieldsNesting]
    rcases List.mem_cons.mp mem with rfl | mem
    · exact Nat.le_max_left _ _
    · exact Nat.le_trans (ih mem) (Nat.le_max_right _ _)

theorem nesting_le_itemsNesting {items : List Value} {v : Value} (mem : v ∈ items) :
    v.nesting ≤ itemsNesting items := by
  induction items with
  | nil => cases mem
  | cons head rest ih =>
    rw [itemsNesting]
    rcases List.mem_cons.mp mem with rfl | mem
    · exact Nat.le_max_left _ _
    · exact Nat.le_trans (ih mem) (Nat.le_max_right _ _)

theorem fieldsNamesUnique_iff {fields : List (String × Value)} :
    FieldsNamesUnique fields ↔ ∀ field ∈ fields, field.2.NamesUnique := by
  induction fields with
  | nil => simp [FieldsNamesUnique]
  | cons head rest ih => rw [FieldsNamesUnique, ih, List.forall_mem_cons]

theorem itemsNamesUnique_iff {items : List Value} :
    ItemsNamesUnique items ↔ ∀ v ∈ items, v.NamesUnique := by
  induction items with
  | nil => simp [ItemsNamesUnique]
  | cons head rest ih => rw [ItemsNamesUnique, ih, List.forall_mem_cons]

theorem fieldsSubtypesCanonical_iff {fields : List (String × Value)} :
    FieldsSubtypesCanonical fields ↔ ∀ field ∈ fields, field.2.SubtypesCanonical := by
  induction fields with
  | nil => simp [FieldsSubtypesCanonical]
  | cons head rest ih => rw [FieldsSubtypesCanonical, ih, List.forall_mem_cons]

theorem itemsSubtypesCanonical_iff {items : List Value} :
    ItemsSubtypesCanonical items ↔ ∀ v ∈ items, v.SubtypesCanonical := by
  induction items with
  | nil => simp [ItemsSubtypesCanonical]
  | cons head rest ih => rw [ItemsSubtypesCanonical, ih, List.forall_mem_cons]

end Value

namespace Grammar

/-- Fields whose names are unique are all first. -/
theorem firstOfEach_eq_self {fields : List (String × Value)}
    (unique : (fields.map Prod.fst).Nodup) : firstOfEach fields = fields := by
  induction fields with
  | nil => rfl
  | cons head rest ih =>
    obtain ⟨fresh, unique⟩ := List.nodup_cons.mp unique
    rw [firstOfEach, ih unique, List.filter_eq_self.mpr]
    intro other mem
    have differ : other.1 ≠ head.1 := fun same => fresh (same ▸ List.mem_map_of_mem mem)
    exact decide_eq_true differ

theorem zero_notMem_utf8_toString (n : Nat) : 0 ∉ utf8 (toString n) := by
  rw [utf8_eq_flatMap, List.mem_flatMap]
  intro h
  rcases h with ⟨c, mem, zero⟩
  rw [zero_mem_utf8EncodeChar_iff] at zero
  subst zero
  -- a decimal digit is no zero byte
  rw [Nat.toString_eq_repr, Nat.toList_repr] at mem
  have digit := Nat.isDigit_of_mem_toDigits (by decide) (by decide) mem
  exact absurd digit (by decide)

/-- A payload is a value wherever the value may stand: it must not nest too deep there, and it must be
one that can come back. -/
def Denotes (payload : List UInt8) (v : Value) : Prop :=
  v.NamesUnique → v.SubtypesCanonical →
    ∀ depth, depth + v.nesting ≤ maxNesting → Derives depth payload v

/-- An element has a name that can end, and its payload is its value. -/
structure Spelled (e : Element) : Prop where
  name : 0 ∉ utf8 e.name
  payload : Denotes e.payload e.value

theorem Denotes.of_scalar {payload : List UInt8} {v : Value} (h : Scalar payload v) :
    Denotes payload v :=
  fun _ _ _ _ => .scalar h

theorem denotes_document {elements : List Element} {block : List UInt8}
    {fields : List (String × Value)} (same : elements.map Element.field = fields)
    (isBlock : IsBlock elements block) (spelled : ∀ e ∈ elements, Spelled e) :
    Denotes block (.document fields) := by
  subst same
  intro unique canonical depth shallow
  rw [Value.nesting] at shallow
  rw [Value.NamesUnique, Value.fieldsNamesUnique_iff] at unique
  rw [Value.SubtypesCanonical, Value.fieldsSubtypesCanonical_iff] at canonical
  rw [← firstOfEach_eq_self unique.1]
  refine .document (by omega) isBlock (fun e mem => (spelled e mem).name) fun e mem => ?_
  have here : e.field ∈ elements.map Element.field := List.mem_map_of_mem mem
  have below : e.value.nesting ≤ _ := Value.nesting_le_fieldsNesting here
  exact (spelled e mem).payload (unique.2 _ here) (canonical _ here) (depth + 1) (by omega)

theorem denotes_array {elements : List Element} {block : List UInt8} {items : List Value}
    (same : elements.map Element.value = items) (isBlock : IsBlock elements block)
    (spelled : ∀ e ∈ elements, Spelled e) : Denotes block (.array items) := by
  subst same
  intro unique canonical depth shallow
  rw [Value.nesting] at shallow
  rw [Value.NamesUnique, Value.itemsNamesUnique_iff] at unique
  rw [Value.SubtypesCanonical, Value.itemsSubtypesCanonical_iff] at canonical
  refine .array (by omega) isBlock (fun e mem => (spelled e mem).name) fun e mem => ?_
  have here : e.value ∈ elements.map Element.value := List.mem_map_of_mem mem
  have below := Value.nesting_le_itemsNesting here
  exact (spelled e mem).payload (unique _ here) (canonical _ here) (depth + 1) (by omega)

end Grammar

namespace Write

variable {w w' w₁ : Writer} {text : String}

/-- What a writer adds for the value is an element of the value. -/
def ValueWritten (v : Value) : Prop :=
  ∀ {w w' w₁ : Writer} {text : String}, w.Awaits text w₁ → value v w = .ok () w' →
    ∃ payload, Denotes payload v ∧ w' = w₁.add (Element.bytes ⟨text, payload, v⟩)

/-- What a writer adds for the fields are elements of the fields. -/
def FieldsWritten (entries : List (String × Value)) : Prop :=
  ∀ {base body : ByteArray} {outer : List OpenContainer} {w' : Writer},
    fields entries ⟨base, ⟨body, none⟩ :: outer, .name, none⟩ = .ok () w' →
    ∃ elements : List Element, elements.map Element.field = entries ∧ (∀ e ∈ elements, Spelled e) ∧
      w' = (Writer.mk base (⟨body, none⟩ :: outer) .name none).add (elements.flatMap Element.bytes)

/-- What a writer adds for the items are elements of the items. -/
def ItemsWritten (values : List Value) : Prop :=
  ∀ {base body : ByteArray} {outer : List OpenContainer} {index : Nat} {w' : Writer},
    items values ⟨base, ⟨body, some index⟩ :: outer, .name, none⟩ = .ok () w' →
    ∃ (elements : List Element) (next : Nat), elements.map Element.value = values ∧ (∀ e ∈ elements, Spelled e) ∧
      w' = (Writer.mk base (⟨body, some next⟩ :: outer) .name none).add
        (elements.flatMap Element.bytes)

/-! ## Scalars -/

theorem scalar_written {v : Value} {part : Except Fault ByteArray}
    (write : value v = scalar v.kind part)
    (form : ∀ bytes, part = .ok bytes → Scalar bytes.data.toList v) : ValueWritten v := by
  intro w w' w₁ text awaits h
  rw [write] at h
  obtain ⟨bytes, hp, rfl⟩ := (scalar_eq_ok_iff awaits).mp h
  exact ⟨_, .of_scalar (form bytes hp), rfl⟩

theorem fixed_written {v : Value} {bytes : ByteArray} (write : value v = scalar v.kind (.ok bytes))
    (form : Scalar bytes.data.toList v) : ValueWritten v :=
  scalar_written write fun _ h => Except.ok.inj h ▸ form

theorem timestamp_form (t : Timestamp) :
    Scalar (Bytes.ofUInt64 t.toUInt64).data.toList (.timestamp t) := by
  rw [ofUInt64, toList_numeral, digits_timestamp]
  exact .timestamp t

theorem binary_written (data : Binary) : ValueWritten (.binary data) := by
  obtain ⟨subtype, bytes⟩ := data
  intro w w' w₁ text awaits h
  rw [value, binary, bind_of_ok (beginValue_of_awaits awaits)] at h
  dsimp only at h
  have count : bytes.size = bytes.data.toList.length := by
    rw [Array.length_toList, ByteArray.size_data]
  split at h
  · next old =>
    -- the old form has a length of its own behind the subtype
    subst old
    simp only [bind_eq_ok_iff, putPart_eq_ok_iff, put_eq_ok_iff, endValue_eq_ok_iff,
      lengthBytes_eq_ok_iff] at h
    obtain ⟨_, _, ⟨_, ⟨most, rfl⟩, rfl⟩, _, _, rfl, _, _, ⟨_, ⟨few, rfl⟩, rfl⟩, _, _, rfl, rfl⟩ := h
    have total : bytes.size + 4 = (digits 4 bytes.size ++ bytes.data.toList).length := by
      rw [List.length_append, length_digits, count, Nat.add_comm]
    have outer : IsLength (digits 4 (bytes.size + 4)) (digits 4 bytes.size ++ bytes.data.toList).length :=
      total ▸ isLength_digits most
    have inner : IsLength (digits 4 bytes.size) bytes.data.toList.length := count ▸ isLength_digits few
    have form := Scalar.binaryOld outer inner
    rw [toByteArray_toList] at form
    refine ⟨_, .of_scalar form, ?_⟩
    rw [Writer.add_add, Writer.add_add, Writer.add_add, inPhase_value awaits]
    simp [Element.bytes, Value.kind, toList_numeral, BinarySubtype.toByte]
  · next recent =>
    simp only [bind_eq_ok_iff, putPart_eq_ok_iff, put_eq_ok_iff, endValue_eq_ok_iff,
      lengthBytes_eq_ok_iff] at h
    obtain ⟨_, _, ⟨_, ⟨most, rfl⟩, rfl⟩, _, _, rfl, _, _, rfl, rfl⟩ := h
    refine ⟨digits 4 bytes.size ++ subtype.toByte :: bytes.data.toList, ?_, ?_⟩
    · intro _ canonical depth _
      rw [Value.SubtypesCanonical, BinarySubtype.IsCanonical] at canonical
      -- a canonical subtype is announced by its byte, so this is not the byte of the old form
      have differ : subtype.toByte ≠ 2 := by
        intro two
        exact recent (canonical.symm.trans (Read.ofByte_eq_binaryOld_iff.mpr two))
      have size : IsLength (digits 4 bytes.size) bytes.data.toList.length := count ▸ isLength_digits most
      have form := Scalar.binary differ size
      rw [toByteArray_toList, canonical] at form
      exact .scalar form
    · rw [Writer.add_add, Writer.add_add, inPhase_value awaits]
      simp [Element.bytes, Value.kind, toList_numeral]

theorem regularExpression_written (pattern options : String) :
    ValueWritten (.regularExpression pattern options) := by
  intro w w' w₁ text awaits h
  rw [value, regularExpression, bind_of_ok (beginValue_of_awaits awaits)] at h
  simp only [bind_eq_ok_iff, putPart_eq_ok_iff, endValue_eq_ok_iff] at h
  obtain ⟨_, _, ⟨left, hl, rfl⟩, _, _, ⟨right, hr, rfl⟩, rfl⟩ := h
  refine ⟨left.data.toList ++ right.data.toList, .of_scalar ?_, ?_⟩
  · exact .regularExpression (isZeroEnded_of_zeroEndedBytes hl) (isZeroEnded_of_zeroEndedBytes hr)
  · rw [Writer.add_add, inPhase_value awaits]
    rfl

theorem dbPointer_written (collection : String) (id : ObjectId) :
    ValueWritten (.dbPointer collection id) := by
  intro w w' w₁ text awaits h
  rw [value, dbPointer, bind_of_ok (beginValue_of_awaits awaits)] at h
  simp only [bind_eq_ok_iff, putPart_eq_ok_iff, put_eq_ok_iff, endValue_eq_ok_iff] at h
  obtain ⟨_, _, ⟨left, hl, rfl⟩, _, _, rfl, rfl⟩ := h
  refine ⟨left.data.toList ++ id.bytes.toList, .of_scalar ?_, ?_⟩
  · exact .dbPointer id (isText_of_textBytes hl)
  · rw [Writer.add_add, inPhase_value awaits]
    rfl

/-! ## Containers -/

/-- The elements between their length and a zero byte are a block. -/
theorem isBlock_of_fits {elements : List Element}
    (fits : (elements.flatMap Element.bytes).length + minDocumentSize ≤ maxDocumentSize) :
    IsBlock elements (digits 4 ((elements.flatMap Element.bytes).length + minDocumentSize) ++
      elements.flatMap Element.bytes ++ [0]) := by
  have count : (digits 4 ((elements.flatMap Element.bytes).length + minDocumentSize) ++
      elements.flatMap Element.bytes ++ [0]).length =
      (elements.flatMap Element.bytes).length + minDocumentSize := by
    simp [minDocumentSize]
    omega
  refine ⟨⟨_, ?_, List.append_assoc _ _ _⟩, ?_, ?_⟩
  · rw [count]
    exact isLength_digits fits
  · rw [count]
    exact Nat.le_add_left _ _
  · rw [count]
    exact fits

/-- Closing a container of elements adds a block of them to what lies around. -/
theorem closeContainer_written {base : ByteArray} {index : Option Nat} {outer : List OpenContainer}
    {elements : List Element}
    (h : closeContainer ((Writer.mk base (⟨.empty, index⟩ :: outer) .name none).add
      (elements.flatMap Element.bytes)) = .ok () w') :
    ∃ block, IsBlock elements block ∧
      w' = ((Writer.mk base outer .name none).add block).inPhase
        (if outer.isEmpty then .done else .name) := by
  obtain ⟨fits, rfl⟩ := closeContainer_eq_ok_iff.mp h
  rw [ByteArray.empty_append, List.size_toByteArray] at fits ⊢
  rw [List.toList_data_toByteArray]
  exact ⟨_, isBlock_of_fits fits, rfl⟩

theorem document_written {entries : List (String × Value)} (written : FieldsWritten entries) :
    ValueWritten (.document entries) := by
  intro w w' w₁ text awaits h
  rw [value, documentOf] at h
  obtain ⟨_, w₂, start, h⟩ := bind_eq_ok_iff.mp h
  obtain ⟨_, w₃, inner, finish⟩ := bind_eq_ok_iff.mp h
  obtain rfl := opened_of_awaits awaits ((startDocument_eq_ok_iff awaits).mp start)
  obtain ⟨elements, same, spelled, rfl⟩ := written inner
  obtain ⟨block, isBlock, rfl⟩ := closeContainer_written (endDocument_eq_ok_iff.mp finish)
  exact ⟨block, denotes_document same isBlock spelled, closed_of_awaits awaits⟩

theorem array_written {values : List Value} (written : ItemsWritten values) :
    ValueWritten (.array values) := by
  intro w w' w₁ text awaits h
  rw [value, arrayOf] at h
  obtain ⟨_, w₂, start, h⟩ := bind_eq_ok_iff.mp h
  obtain ⟨_, w₃, inner, finish⟩ := bind_eq_ok_iff.mp h
  obtain rfl := opened_of_awaits awaits ((startArray_eq_ok_iff awaits).mp start)
  obtain ⟨elements, next, same, spelled, rfl⟩ := written inner
  obtain ⟨block, isBlock, rfl⟩ := closeContainer_written (endArray_eq_ok_iff.mp finish)
  exact ⟨block, denotes_array same isBlock spelled, closed_of_awaits awaits⟩

/-- A document that is written by itself is a block of its fields. -/
theorem alone_written {entries : List (String × Value)} {bytes : ByteArray}
    (written : FieldsWritten entries) (h : alone (documentOf (fields entries)) = .ok bytes) :
    Denotes bytes.data.toList (.document entries) := by
  unfold alone at h
  split at h
  · next w hw =>
    rw [documentOf] at hw
    obtain ⟨_, w₂, start, hw⟩ := bind_eq_ok_iff.mp hw
    obtain ⟨_, w₃, inner, finish⟩ := bind_eq_ok_iff.mp hw
    have start : openContainer none {} = .ok () w₂ := start
    obtain ⟨-, rfl⟩ := openContainer_eq_ok_iff.mp start
    obtain ⟨elements, same, spelled, rfl⟩ := written inner
    obtain ⟨block, isBlock, rfl⟩ := closeContainer_written (endDocument_eq_ok_iff.mp finish)
    have whole : ByteArray.empty ++ block.toByteArray = bytes := Except.ok.inj h
    rw [← whole, ByteArray.empty_append, List.toList_data_toByteArray]
    exact denotes_document same isBlock spelled
  · cases h

theorem scopedCode_written {code : String} {entries : List (String × Value)}
    (written : FieldsWritten entries) : ValueWritten (.javaScriptWithScope code entries) := by
  intro w w' w₁ text awaits h
  rw [value, scopedCodeOf, bind_of_ok (beginValue_of_awaits awaits)] at h
  cases ht : textBytes code with
  | error fault =>
    simp [ht, bind_eq_ok_iff, throw_eq_ok_iff] at h
  | ok body =>
    cases hs : alone (documentOf (fields entries)) with
    | error fault =>
      simp [ht, hs, bind_eq_ok_iff, throw_eq_ok_iff] at h
    | ok block =>
      cases hl : lengthBytes (4 + body.size + block.size) with
      | error fault =>
        simp [ht, hs, hl, bind_eq_ok_iff, throw_eq_ok_iff] at h
      | ok size =>
        simp only [ht, hs, hl, bind_eq_ok_iff, put_eq_ok_iff, endValue_eq_ok_iff] at h
        obtain ⟨_, _, rfl, rfl⟩ := h
        obtain ⟨fits, rfl⟩ := lengthBytes_eq_ok_iff.mp hl
        have total : 4 + body.size + block.size = (digits 4 (4 + body.size + block.size) ++
            body.data.toList ++ block.data.toList).length := by
          simp [Nat.add_assoc]
        refine ⟨digits 4 (4 + body.size + block.size) ++ body.data.toList ++ block.data.toList, ?_, ?_⟩
        · intro unique canonical depth shallow
          have inner := alone_written written hs unique canonical depth shallow
          exact .scopedCode (total ▸ isLength_digits fits) (isText_of_textBytes ht) inner
        · rw [toList_append, toList_append, toList_numeral]
          exact inPhase_value awaits _ _

/-! ## Whole values -/

theorem fields_nil_written : FieldsWritten [] := by
  intro base body outer w' h
  rw [fields, pure_eq_ok_iff] at h
  obtain ⟨-, rfl⟩ := h
  exact ⟨[], rfl, by simp, (Writer.add_nil _).symm⟩

theorem fields_cons_written {name : String} {v : Value} {rest : List (String × Value)}
    (here : ValueWritten v) (behind : FieldsWritten rest) : FieldsWritten ((name, v) :: rest) := by
  intro base body outer w' h
  rw [fields] at h
  obtain ⟨_, w₁, hn, h⟩ := bind_eq_ok_iff.mp h
  obtain ⟨_, w₂, hv, h⟩ := bind_eq_ok_iff.mp h
  obtain ⟨free, rfl⟩ := name_eq_ok_iff.mp hn
  obtain ⟨payload, denotes, rfl⟩ := here (.field base body outer name) hv
  obtain ⟨elements, rfl, spelled, rfl⟩ := behind h
  refine ⟨⟨name, payload, v⟩ :: elements, rfl, List.forall_mem_cons.mpr ⟨⟨free, denotes⟩, spelled⟩, ?_⟩
  rw [List.flatMap_cons, ← Writer.add_add]
  rfl

theorem items_nil_written : ItemsWritten [] := by
  intro base body outer index w' h
  rw [items, pure_eq_ok_iff] at h
  obtain ⟨-, rfl⟩ := h
  exact ⟨[], index, rfl, by simp, (Writer.add_nil _).symm⟩

theorem items_cons_written {v : Value} {rest : List Value} (here : ValueWritten v)
    (behind : ItemsWritten rest) : ItemsWritten (v :: rest) := by
  intro base body outer index w' h
  rw [items] at h
  obtain ⟨_, w₂, hv, h⟩ := bind_eq_ok_iff.mp h
  obtain ⟨payload, denotes, rfl⟩ := here (.item base body outer index) hv
  obtain ⟨elements, next, rfl, spelled, rfl⟩ := behind h
  refine ⟨⟨toString index, payload, v⟩ :: elements, next, rfl,
    List.forall_mem_cons.mpr ⟨⟨zero_notMem_utf8_toString index, denotes⟩, spelled⟩, ?_⟩
  rw [List.flatMap_cons, ← Writer.add_add]
  rfl

mutual

/-- What a writer adds for a value is the value. -/
theorem value_written : (v : Value) → ValueWritten v
  | .double _ => fixed_written rfl (.double _)
  | .string _ => scalar_written rfl fun _ h => .string (isText_of_textBytes h)
  | .document entries => document_written (fields_written entries)
  | .array values => array_written (items_written values)
  | .binary data => binary_written data
  | .undefined => fixed_written rfl .undefined
  | .objectId id => fixed_written rfl (.objectId id)
  | .boolean b => fixed_written rfl (.boolean b)
  | .dateTime t => fixed_written rfl (.dateTime t)
  | .null => fixed_written rfl .null
  | .regularExpression pattern options => regularExpression_written pattern options
  | .dbPointer collection id => dbPointer_written collection id
  | .javaScript _ => scalar_written rfl fun _ h => .javaScript (isText_of_textBytes h)
  | .symbol _ => scalar_written rfl fun _ h => .symbol (isText_of_textBytes h)
  | .javaScriptWithScope _ scope => scopedCode_written (fields_written scope)
  | .int32 n => fixed_written rfl (.int32 n)
  | .timestamp t => fixed_written rfl (timestamp_form t)
  | .int64 n => fixed_written rfl (.int64 n)
  | .decimal128 bytes => fixed_written rfl (.decimal128 bytes)
  | .minKey => fixed_written rfl .minKey
  | .maxKey => fixed_written rfl .maxKey

/-- What a writer adds for fields are the fields. -/
theorem fields_written : (entries : List (String × Value)) → FieldsWritten entries
  | [] => fields_nil_written
  | (_, v) :: rest => fields_cons_written (value_written v) (fields_written rest)

/-- What a writer adds for items are the items. -/
theorem items_written : (values : List Value) → ItemsWritten values
  | [] => items_nil_written
  | v :: rest => items_cons_written (value_written v) (items_written rest)

end

end Write

namespace Document

/-- A document that can be encoded comes back as it was. -/
theorem decode_encode {doc : Document} {bytes : ByteArray} (unique : doc.NamesUnique)
    (canonical : doc.SubtypesCanonical) (shallow : doc.nesting ≤ maxNesting)
    (h : doc.encode = .ok bytes) : decode bytes = .ok doc := by
  have denotes := Write.alone_written (Write.fields_written doc.fields) h
  exact decode_of_isDocument (denotes unique canonical 0 (by rw [Nat.zero_add]; exact shallow))

/-- A document with an array, a scope, the old form of binary data and a double that is no number. -/
def sample : Document :=
  ⟨[("a", .null),
    ("d", .document [("x", .array [.int32 5, .double 0x7ff8000000000001]), ("a", .string "é")]),
    ("b", .binary ⟨.binaryOld, ⟨#[1, 2]⟩⟩),
    ("c", .javaScriptWithScope "f()" [("y", .boolean true)])]⟩

/-- The bytes of `sample`. -/
def sampleBytes : ByteArray :=
  ⟨#[90, 0, 0, 0,
    10, 97, 0,
    3, 100, 0, 41, 0, 0, 0,
      4, 120, 0, 23, 0, 0, 0,
        16, 48, 0, 5, 0, 0, 0,
        1, 49, 0, 1, 0, 0, 0, 0, 0, 248, 127,
        0,
      2, 97, 0, 3, 0, 0, 0, 195, 169, 0,
      0,
    5, 98, 0, 6, 0, 0, 0, 2, 2, 0, 0, 0, 1, 2,
    15, 99, 0, 21, 0, 0, 0, 4, 0, 0, 0, 102, 40, 41, 0, 9, 0, 0, 0, 8, 121, 0, 1, 0,
    0]⟩

theorem decode_encode_sample :
    sample.NamesUnique ∧ sample.SubtypesCanonical ∧ sample.nesting ≤ maxNesting ∧
      sample.encode = .ok sampleBytes ∧ decode sampleBytes = .ok sample := by
  have unique : sample.NamesUnique := by
    simp [NamesUnique, sample, Value.NamesUnique, Value.FieldsNamesUnique, Value.ItemsNamesUnique]
  have canonical : sample.SubtypesCanonical := by
    simp [SubtypesCanonical, sample, Value.SubtypesCanonical, Value.FieldsSubtypesCanonical,
      Value.ItemsSubtypesCanonical]
    decide
  have shallow : sample.nesting ≤ maxNesting := by
    simp [nesting, sample, Value.nesting, Value.fieldsNesting, Value.itemsNesting, maxNesting]
  have written : sample.encode = .ok sampleBytes := by
    cbv
  exact ⟨unique, canonical, shallow, written, decode_encode unique canonical shallow written⟩

end Document

end DocumentClient
