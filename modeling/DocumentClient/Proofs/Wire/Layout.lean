import DocumentClient.Proofs.Wire.Writing

/-!
# The bytes of a value, computed from the value

What a writer adds for a value is told by recursion on the value alone: nothing is left open and filled
in later, and no writer occurs in it. When a writer accepts the value is told in the same way.

* `Value.payload` is what follows the name of an element. It is defined for every value; where a length
  does not fit into its word, no writer accepts the value.
* `Value.Writable depth v`: a writer with `depth` open containers accepts the value. The writer of a
  scope has none, whatever lies around the code.

Results:
1. `Write.value_laid`, `Write.fields_laid`, `Write.items_laid`: a writer accepts exactly the values that
   can be written and adds exactly their bytes; induction on the value, its fields and its items.
2. `Document.encode_eq_ok_iff`: the same of whole documents.
-/

namespace DocumentClient

open Outcome Grammar Bytes

/-! ## Layout -/

namespace Grammar

/-- A text behind its length, with a zero byte at its end. -/
def textLayout (text : String) : List UInt8 :=
  digits 4 ((utf8 text).length + 1) ++ utf8 text ++ [0]

/-- A text that ends at its first zero byte. -/
def zeroEndedLayout (text : String) : List UInt8 :=
  utf8 text ++ [0]

/-- Binary data behind its length and subtype. The old subtype repeats the length of the data. -/
def binaryLayout (data : Binary) : List UInt8 :=
  let bytes := data.bytes.data.toList
  let inner := if data.subtype = .binaryOld then digits 4 bytes.length ++ bytes else bytes
  digits 4 inner.length ++ data.subtype.toByte :: inner

/-- The elements of a container between the length of the whole and a zero byte. -/
def frame (elements : List UInt8) : List UInt8 :=
  digits 4 (elements.length + minDocumentSize) ++ elements ++ [0]

end Grammar

namespace Value

mutual

/-- The bytes of a value behind its name. -/
def payload : Value → List UInt8
  | double bits => digits 8 bits.toNat
  | string text => textLayout text
  | document fields => frame (fieldsPayload fields)
  | array items => frame (itemsPayload 0 items)
  | binary data => binaryLayout data
  | undefined => []
  | objectId id => id.bytes.toList
  | boolean b => [if b then 1 else 0]
  | dateTime t => digits 8 t.millis.toUInt64.toNat
  | null => []
  | regularExpression pattern options => zeroEndedLayout pattern ++ zeroEndedLayout options
  | dbPointer collection id => textLayout collection ++ id.bytes.toList
  | javaScript code => textLayout code
  | symbol text => textLayout text
  | javaScriptWithScope code scope =>
    let inner := textLayout code ++ frame (fieldsPayload scope)
    digits 4 (inner.length + 4) ++ inner
  | int32 n => digits 4 n.toUInt32.toNat
  | timestamp t => digits 4 t.increment.toNat ++ digits 4 t.time.toNat
  | int64 n => digits 8 n.toUInt64.toNat
  | decimal128 bytes => bytes.toList
  | minKey => []
  | maxKey => []

/-- The elements of a document: for each field its tag, its name and its bytes. -/
def fieldsPayload : List (String × Value) → List UInt8
  | [] => []
  | (name, v) :: rest => header v.kind name ++ v.payload ++ fieldsPayload rest

/-- The elements of an array, named by their places in decimal; the first has the place `index`. -/
def itemsPayload : Nat → List Value → List UInt8
  | _, [] => []
  | index, v :: rest => header v.kind (toString index) ++ v.payload ++ itemsPayload (index + 1) rest

end

/-! ## What can be written -/

mutual

/-- A writer with `depth` open containers accepts the value. -/
def Writable : Nat → Value → Prop
  | _, string text => (utf8 text).length + 1 ≤ maxDocumentSize
  | depth, document fields => depth < maxNesting ∧ FieldsWritable (depth + 1) fields ∧
      (fieldsPayload fields).length + minDocumentSize ≤ maxDocumentSize
  | depth, array items => depth < maxNesting ∧ ItemsWritable (depth + 1) items ∧
      (itemsPayload 0 items).length + minDocumentSize ≤ maxDocumentSize
  | _, binary data =>
      (if data.subtype = .binaryOld then data.bytes.size + 4 else data.bytes.size) ≤ maxDocumentSize
  | _, regularExpression pattern options => 0 ∉ utf8 pattern ∧ 0 ∉ utf8 options
  | _, dbPointer collection _ => (utf8 collection).length + 1 ≤ maxDocumentSize
  | _, javaScript code => (utf8 code).length + 1 ≤ maxDocumentSize
  | _, symbol text => (utf8 text).length + 1 ≤ maxDocumentSize
  | _, javaScriptWithScope code scope => (utf8 code).length + 1 ≤ maxDocumentSize ∧
      FieldsWritable 1 scope ∧ (fieldsPayload scope).length + minDocumentSize ≤ maxDocumentSize ∧
      (textLayout code ++ frame (fieldsPayload scope)).length + 4 ≤ maxDocumentSize
  | _, _ => True

/-- A writer with `depth` open containers accepts the fields. -/
def FieldsWritable : Nat → List (String × Value) → Prop
  | _, [] => True
  | depth, (name, v) :: rest => 0 ∉ utf8 name ∧ v.Writable depth ∧ FieldsWritable depth rest

/-- A writer with `depth` open containers accepts the items. -/
def ItemsWritable : Nat → List Value → Prop
  | _, [] => True
  | depth, v :: rest => v.Writable depth ∧ ItemsWritable depth rest

end

end Value

/-! ## Parts of values -/

theorem textBytes_eq_ok_iff {text : String} {bytes : ByteArray} :
    textBytes text = .ok bytes ↔
      (utf8 text).length + 1 ≤ maxDocumentSize ∧ bytes = (textLayout text).toByteArray := by
  have size : text.utf8ByteSize + 1 = (utf8 text).length + 1 := by rw [length_utf8]
  have whole : ((numeral 4 ((utf8 text).length + 1) ++ text.toUTF8).push 0) =
      (textLayout text).toByteArray := by
    rw [← toByteArray_toList (ByteArray.push _ 0), toList_push, toList_append, toList_numeral]
    rfl
  unfold textBytes
  rw [exceptBind_eq_ok_iff, size]
  simp only [lengthBytes_eq_ok_iff]
  constructor
  · rintro ⟨length, ⟨fits, rfl⟩, h⟩
    cases h
    exact ⟨fits, whole⟩
  · rintro ⟨fits, rfl⟩
    exact ⟨_, ⟨fits, rfl⟩, congrArg Except.ok whole⟩

theorem zeroEndedBytes_eq_ok_iff {text : String} {bytes : ByteArray} :
    zeroEndedBytes text = .ok bytes ↔
      0 ∉ utf8 text ∧ bytes = (zeroEndedLayout text).toByteArray := by
  have whole : text.toUTF8.push 0 = (zeroEndedLayout text).toByteArray := by
    rw [← toByteArray_toList (ByteArray.push _ 0), toList_push]
    rfl
  unfold zeroEndedBytes
  rw [zero_mem_utf8_iff, whole]
  split
  · next zero => simp [zero]
  · next free => simp [free, eq_comm]

namespace Write

/-- A writer accepts the value iff it can be written, and adds its bytes. -/
def ValueLaid (v : Value) : Prop :=
  ∀ ⦃w w' w₁ : Writer⦄ ⦃text : String⦄, w.Awaits text w₁ →
    (value v w = .ok () w' ↔ v.Writable w.containers.length ∧
      w' = w₁.add (header v.kind text ++ v.payload))

/-- A writer accepts the fields iff they can be written, and adds their bytes. -/
def FieldsLaid (entries : List (String × Value)) : Prop :=
  ∀ ⦃base body : ByteArray⦄ ⦃outer : List OpenContainer⦄ ⦃w' : Writer⦄,
    fields entries ⟨base, ⟨body, none⟩ :: outer, .name, none⟩ = .ok () w' ↔
      Value.FieldsWritable (outer.length + 1) entries ∧
        w' = (Writer.mk base (⟨body, none⟩ :: outer) .name none).add (Value.fieldsPayload entries)

/-- A writer accepts the items iff they can be written, and adds their bytes. -/
def ItemsLaid (values : List Value) : Prop :=
  ∀ ⦃base body : ByteArray⦄ ⦃outer : List OpenContainer⦄ ⦃index : Nat⦄ ⦃w' : Writer⦄,
    items values ⟨base, ⟨body, some index⟩ :: outer, .name, none⟩ = .ok () w' ↔
      Value.ItemsWritable (outer.length + 1) values ∧
        w' = (Writer.mk base (⟨body, some (index + values.length)⟩ :: outer) .name none).add
          (Value.itemsPayload index values)

/-! ## Adding bytes -/

/-- Writing succeeds iff something fits, and then adds some bytes. -/
def Adds (write : Write Unit) (fits : Prop) (bytes : List UInt8) : Prop :=
  ∀ w w', write w = .ok () w' ↔ fits ∧ w' = w.add bytes

/-- The same of writing that comes to the end of a value. -/
def Finishes (write : Write Unit) (fits : Prop) (bytes : List UInt8) : Prop :=
  ∀ w w', write w = .ok () w' ↔ fits ∧ w' = (w.add bytes).inPhase .name

theorem Adds.put (bytes : ByteArray) : Adds (put bytes) True bytes.data.toList := by
  intro w w'
  rw [put_eq_ok_iff, true_and]

theorem Adds.putPart {part : Except Fault ByteArray} {fits : Prop} {layout : List UInt8}
    (form : ∀ bytes, part = .ok bytes ↔ fits ∧ bytes = layout.toByteArray) :
    Adds (putPart part) fits layout := by
  intro w w'
  rw [putPart_eq_ok_iff]
  constructor
  · rintro ⟨bytes, h, rfl⟩
    obtain ⟨fits, rfl⟩ := (form bytes).mp h
    rw [List.toList_data_toByteArray]
    exact ⟨fits, rfl⟩
  · rintro ⟨fits, rfl⟩
    refine ⟨_, (form _).mpr ⟨fits, rfl⟩, ?_⟩
    rw [List.toList_data_toByteArray]

theorem Adds.text (text : String) :
    Adds (Write.putPart (textBytes text)) ((utf8 text).length + 1 ≤ maxDocumentSize)
      (textLayout text) :=
  .putPart fun _ => textBytes_eq_ok_iff

theorem Adds.zeroEnded (text : String) :
    Adds (Write.putPart (zeroEndedBytes text)) (0 ∉ utf8 text) (zeroEndedLayout text) :=
  .putPart fun _ => zeroEndedBytes_eq_ok_iff

theorem Adds.length (n : Nat) :
    Adds (Write.putPart (lengthBytes n)) (n ≤ maxDocumentSize) (digits 4 n) :=
  .putPart fun _ => lengthBytes_eq_ok_iff

theorem Finishes.endValue : Finishes endValue True [] := by
  intro w w'
  rw [endValue_eq_ok_iff, Writer.add_nil, true_and]

theorem Finishes.bind {first rest : Write Unit} {here behind : Prop} {left right : List UInt8}
    (hf : Adds first here left) (hr : Finishes rest behind right) :
    Finishes (first >>= fun _ => rest) (here ∧ behind) (left ++ right) := by
  intro w w'
  rw [bind_eq_ok_iff]
  constructor
  · rintro ⟨_, m, h, h'⟩
    obtain ⟨here, rfl⟩ := (hf w m).mp h
    obtain ⟨behind, rfl⟩ := (hr _ w').mp h'
    rw [Writer.add_add]
    exact ⟨⟨here, behind⟩, rfl⟩
  · rintro ⟨⟨here, behind⟩, rfl⟩
    refine ⟨(), _, (hf w _).mpr ⟨here, rfl⟩, (hr _ _).mpr ⟨behind, ?_⟩⟩
    rw [Writer.add_add]

/-- What comes to the end of a value behind its tag and name writes the value. -/
theorem Finishes.laid {v : Value} {rest : Write Unit} {fits : Prop}
    (h : Finishes rest fits v.payload) (write : value v = beginValue v.kind >>= fun _ => rest)
    (writable : ∀ depth, v.Writable depth ↔ fits) : ValueLaid v := by
  intro w w' w₁ text awaits
  rw [write, bind_of_ok (beginValue_of_awaits awaits), h, writable, inPhase_value awaits]

/-! ## Scalars -/

theorem scalar_laid {v : Value} {part : Except Fault ByteArray} {fits : Prop}
    (h : Adds (putPart part) fits v.payload) (write : value v = scalar v.kind part)
    (writable : ∀ depth, v.Writable depth ↔ fits) : ValueLaid v := by
  have ends := Finishes.bind h Finishes.endValue
  rw [and_true, List.append_nil] at ends
  exact ends.laid write writable

theorem fixed_laid {v : Value} {bytes : ByteArray} (write : value v = scalar v.kind (.ok bytes))
    (form : bytes.data.toList = v.payload) (writable : ∀ depth, v.Writable depth ↔ True) :
    ValueLaid v :=
  scalar_laid (form ▸ .put bytes) write writable

theorem timestamp_layout (t : Timestamp) :
    (Bytes.ofUInt64 t.toUInt64).data.toList = (Value.timestamp t).payload := by
  rw [ofUInt64, toList_numeral, digits_timestamp, Value.payload]

/-- Behind tag and name a writer adds the layout of binary data. -/
theorem exists_finishes_binary (data : Binary) : ∃ rest : Write Unit,
    value (.binary data) = (beginValue .binary >>= fun _ => rest) ∧
      Finishes rest ((Value.binary data).Writable 0) (binaryLayout data) := by
  obtain ⟨subtype, bytes⟩ := data
  have announced : (ByteArray.empty.push subtype.toByte).data.toList = [subtype.toByte] := rfl
  by_cases old : subtype = .binaryOld
  · have ends := Finishes.bind (.length (bytes.size + 4)) (.bind (.put (.push .empty subtype.toByte))
      (.bind (.length bytes.size) (.bind (.put bytes) .endValue)))
    have form : binaryLayout ⟨subtype, bytes⟩ = digits 4 (bytes.size + 4) ++
        ([subtype.toByte] ++ (digits 4 bytes.size ++ (bytes.data.toList ++ []))) := by
      simp [binaryLayout, old, Nat.add_comm]
    have fits : (bytes.size + 4 ≤ maxDocumentSize ∧ True ∧ bytes.size ≤ maxDocumentSize ∧ True ∧ True) ↔
        (Value.binary ⟨subtype, bytes⟩).Writable 0 := by
      simp only [Value.Writable, if_pos old, true_and, and_true]
      omega
    rw [announced, ← form, fits] at ends
    refine ⟨_, ?_, ends⟩
    rw [value, binary]
    simp only [if_pos old]
  · have ends := Finishes.bind (.length bytes.size) (.bind (.put (.push .empty subtype.toByte))
      (.bind (.put bytes) .endValue))
    have form : binaryLayout ⟨subtype, bytes⟩ = digits 4 bytes.size ++
        ([subtype.toByte] ++ (bytes.data.toList ++ [])) := by
      simp [binaryLayout, old]
    have fits : (bytes.size ≤ maxDocumentSize ∧ True ∧ True ∧ True) ↔
        (Value.binary ⟨subtype, bytes⟩).Writable 0 := by
      simp only [Value.Writable, if_neg old, and_true]
    rw [announced, ← form, fits] at ends
    refine ⟨_, ?_, ends⟩
    rw [value, binary]
    simp only [if_neg old]

theorem binary_laid (data : Binary) : ValueLaid (.binary data) := by
  obtain ⟨rest, write, ends⟩ := exists_finishes_binary data
  exact ends.laid write fun depth => by simp only [Value.Writable]

theorem regularExpression_laid (pattern options : String) :
    ValueLaid (.regularExpression pattern options) := by
  have ends := Finishes.bind (.zeroEnded pattern) (.bind (.zeroEnded options) .endValue)
  rw [and_true, List.append_nil] at ends
  exact ends.laid rfl fun _ => Iff.rfl

theorem dbPointer_laid (collection : String) (id : ObjectId) :
    ValueLaid (.dbPointer collection id) := by
  have ends := Finishes.bind (.text collection) (.bind (.put id.toBytes) .endValue)
  rw [and_true, and_true, List.append_nil] at ends
  exact ends.laid rfl fun _ => Iff.rfl

/-! ## Containers -/

/-- Closing a container frames its elements. -/
theorem closeContainer_laid {base : ByteArray} {index : Option Nat} {outer : List OpenContainer}
    {elements : List UInt8} {w' : Writer} :
    closeContainer ((Writer.mk base (⟨.empty, index⟩ :: outer) .name none).add elements) = .ok () w' ↔
      elements.length + minDocumentSize ≤ maxDocumentSize ∧
        w' = ((Writer.mk base outer .name none).add (frame elements)).inPhase
          (if outer.isEmpty then .done else .name) := by
  refine closeContainer_eq_ok_iff.trans ?_
  rw [ByteArray.empty_append, List.size_toByteArray, List.toList_data_toByteArray]
  rfl

/-- Entering a container that is a value. -/
theorem openContainer_laid {w w' w₁ : Writer} {text : String} {kind : Kind} {index : Option Nat}
    (awaits : w.Awaits text w₁) :
    openContainer index ((w₁.add (header kind text)).inPhase w.phase) = .ok () w' ↔
      w.containers.length < maxNesting ∧
        w' = ⟨w₁.base, ⟨.empty, index⟩ :: (w₁.add (header kind text)).containers, .name, none⟩ := by
  have level : ((w₁.add (header kind text)).inPhase w.phase).containers.length =
      w.containers.length := by
    cases awaits <;> rfl
  constructor
  · intro h
    obtain ⟨shallow, -⟩ := openContainer_eq_ok_iff.mp h
    exact ⟨level ▸ shallow, opened_of_awaits awaits h⟩
  · rintro ⟨shallow, rfl⟩
    refine openContainer_eq_ok_iff.mpr ⟨level ▸ shallow, ?_⟩
    cases awaits <;> rfl

/-- A container that is a value is an element around the frame of its elements. -/
theorem container_laid {w w' w₁ : Writer} {text : String} {kind : Kind} {index next : Option Nat}
    {inner finish : Write Unit} {writable : Prop} {elements : List UInt8}
    (awaits : w.Awaits text w₁)
    (laid : ∀ w', inner ⟨w₁.base, ⟨.empty, index⟩ :: (w₁.add (header kind text)).containers, .name,
        none⟩ = .ok () w' ↔ writable ∧ w' = (Writer.mk w₁.base
          (⟨.empty, next⟩ :: (w₁.add (header kind text)).containers) .name none).add elements)
    (closes : ∀ w' body, finish (Writer.mk w₁.base
        (⟨body, next⟩ :: (w₁.add (header kind text)).containers) .name none) = .ok () w' ↔
      closeContainer (Writer.mk w₁.base
        (⟨body, next⟩ :: (w₁.add (header kind text)).containers) .name none) = .ok () w') :
    (openContainer index >>= fun _ => inner >>= fun _ => finish)
        ((w₁.add (header kind text)).inPhase w.phase) = .ok () w' ↔
      (w.containers.length < maxNesting ∧ writable ∧
        elements.length + minDocumentSize ≤ maxDocumentSize) ∧
        w' = w₁.add (header kind text ++ frame elements) := by
  simp only [bind_eq_ok_iff, openContainer_laid awaits]
  constructor
  · rintro ⟨_, w₂, ⟨shallow, rfl⟩, _, w₃, filled, finished⟩
    obtain ⟨writable, rfl⟩ := (laid w₃).mp filled
    obtain ⟨fits, rfl⟩ := closeContainer_laid.mp ((closes _ _).mp finished)
    exact ⟨⟨shallow, writable, fits⟩, closed_of_awaits awaits⟩
  · rintro ⟨⟨shallow, writable, fits⟩, rfl⟩
    refine ⟨(), _, ⟨shallow, rfl⟩, (), _, (laid _).mpr ⟨writable, rfl⟩, (closes _ _).mpr ?_⟩
    exact closeContainer_laid.mpr ⟨fits, (closed_of_awaits awaits).symm⟩

theorem document_laid {entries : List (String × Value)} (laid : FieldsLaid entries) :
    ValueLaid (.document entries) := by
  intro w w' w₁ text awaits
  have level : (w₁.add (header .document text)).containers.length = w.containers.length := by
    cases awaits <;> rfl
  rw [value, documentOf, bind_eq_bind (startDocument_of_awaits awaits)]
  have inner (w' : Writer) := @laid w₁.base .empty (w₁.add (header .document text)).containers w'
  rw [level] at inner
  exact container_laid awaits inner fun _ _ => endDocument_eq_ok_iff

theorem array_laid {values : List Value} (laid : ItemsLaid values) : ValueLaid (.array values) := by
  intro w w' w₁ text awaits
  have level : (w₁.add (header .array text)).containers.length = w.containers.length := by
    cases awaits <;> rfl
  rw [value, arrayOf, bind_eq_bind (startArray_of_awaits awaits)]
  have inner (w' : Writer) := @laid w₁.base .empty (w₁.add (header .array text)).containers 0 w'
  rw [level] at inner
  exact container_laid awaits inner fun _ _ => endArray_eq_ok_iff

/-- A whole document behind other bytes. -/
theorem whole_laid {entries : List (String × Value)} (laid : FieldsLaid entries) (base : ByteArray)
    {w' : Writer} : documentOf (fields entries) (.ofBytes base) = .ok () w' ↔
      (Value.document entries).Writable 0 ∧
        w' = ⟨base ++ (Value.document entries).payload.toByteArray, [], .done, none⟩ := by
  have start : startDocument (.ofBytes base) =
      .ok () ⟨base, [⟨.empty, none⟩], .name, none⟩ := rfl
  have inner (w' : Writer) := @laid base .empty [] w'
  rw [documentOf, bind_of_ok start]
  simp only [bind_eq_ok_iff, inner]
  constructor
  · rintro ⟨_, _, ⟨writable, rfl⟩, finish⟩
    obtain ⟨fits, rfl⟩ := closeContainer_laid.mp (endDocument_eq_ok_iff.mp finish)
    exact ⟨⟨by decide, writable, fits⟩, rfl⟩
  · rintro ⟨⟨-, writable, fits⟩, rfl⟩
    exact ⟨(), _, ⟨writable, rfl⟩, endDocument_eq_ok_iff.mpr (closeContainer_laid.mpr ⟨fits, rfl⟩)⟩

/-- The bytes that a writer of its own makes. -/
theorem alone_laid {entries : List (String × Value)} (laid : FieldsLaid entries) {bytes : ByteArray} :
    alone (documentOf (fields entries)) = .ok bytes ↔
      (Value.document entries).Writable 0 ∧ bytes = (Value.document entries).payload.toByteArray := by
  have wrote (w' : Writer) := @whole_laid entries laid .empty w'
  unfold alone
  constructor
  · intro h
    split at h
    · next u w' eq =>
      obtain ⟨writable, rfl⟩ := (wrote w').mp eq
      cases h
      exact ⟨writable, ByteArray.empty_append⟩
    · cases h
  · rintro ⟨writable, rfl⟩
    have done := (wrote _).mpr ⟨writable, rfl⟩
    rw [show ({} : Writer) = .ofBytes .empty from rfl, done]
    exact congrArg Except.ok ByteArray.empty_append

theorem scopedCode_laid {code : String} {entries : List (String × Value)} (laid : FieldsLaid entries) :
    ValueLaid (.javaScriptWithScope code entries) := by
  intro w w' w₁ text awaits
  have total : 4 + (textLayout code).toByteArray.size +
      (Value.document entries).payload.toByteArray.size =
      (textLayout code ++ frame (Value.fieldsPayload entries)).length + 4 := by
    rw [List.size_toByteArray, List.size_toByteArray, Value.payload, List.length_append]
    omega
  rw [value, scopedCodeOf, bind_of_ok (beginValue_of_awaits awaits)]
  constructor
  · intro h
    cases ht : textBytes code with
    | error fault => simp [ht, bind_eq_ok_iff, throw_eq_ok_iff] at h
    | ok body =>
      cases hs : alone (documentOf (fields entries)) with
      | error fault => simp [ht, hs, bind_eq_ok_iff, throw_eq_ok_iff] at h
      | ok block =>
        obtain ⟨short, rfl⟩ := textBytes_eq_ok_iff.mp ht
        obtain ⟨⟨-, writable, fits⟩, rfl⟩ := (alone_laid laid).mp hs
        simp only [ht, hs, total] at h
        cases hl : lengthBytes ((textLayout code ++ frame (Value.fieldsPayload entries)).length + 4) with
        | error fault =>
          rw [hl] at h
          simp [bind_eq_ok_iff, throw_eq_ok_iff] at h
        | ok size =>
          obtain ⟨small, rfl⟩ := lengthBytes_eq_ok_iff.mp hl
          simp only [hl, bind_eq_ok_iff, put_eq_ok_iff, endValue_eq_ok_iff] at h
          obtain ⟨_, _, rfl, rfl⟩ := h
          refine ⟨⟨short, writable, fits, small⟩, ?_⟩
          rw [inPhase_value awaits]
          simp [Value.payload, Value.kind, toList_numeral]
  · rintro ⟨⟨short, writable, fits, small⟩, rfl⟩
    have ht := textBytes_eq_ok_iff.mpr ⟨short, rfl⟩
    have hs := (alone_laid laid).mpr ⟨⟨by decide, writable, fits⟩, rfl⟩
    have hl := lengthBytes_eq_ok_iff.mpr ⟨small, rfl⟩
    simp only [ht, hs, total, hl, bind_eq_ok_iff, put_eq_ok_iff, endValue_eq_ok_iff]
    refine ⟨(), _, rfl, ?_⟩
    rw [inPhase_value awaits]
    simp [Value.payload, Value.kind, toList_numeral]

/-! ## Whole values -/

theorem fields_nil_laid : FieldsLaid [] := by
  intro base body outer w'
  rw [fields, pure_eq_ok_iff, Value.fieldsPayload, Writer.add_nil]
  simp [Value.FieldsWritable, eq_comm]

theorem fields_cons_laid {name : String} {v : Value} {rest : List (String × Value)}
    (here : ValueLaid v) (behind : FieldsLaid rest) : FieldsLaid ((name, v) :: rest) := by
  intro base body outer w'
  have awaits := Writer.Awaits.field base body outer name
  rw [fields, Value.FieldsWritable, Value.fieldsPayload, ← Writer.add_add]
  simp only [bind_eq_ok_iff, name_eq_ok_iff]
  constructor
  · rintro ⟨_, _, ⟨free, rfl⟩, _, _, hv, h⟩
    obtain ⟨writable, rfl⟩ := (here awaits).mp hv
    obtain ⟨others, rfl⟩ := behind.mp h
    exact ⟨⟨free, writable, others⟩, rfl⟩
  · rintro ⟨⟨free, writable, others⟩, rfl⟩
    exact ⟨(), _, ⟨free, rfl⟩, (), _, (here awaits).mpr ⟨writable, rfl⟩, behind.mpr ⟨others, rfl⟩⟩

theorem items_nil_laid : ItemsLaid [] := by
  intro base body outer index w'
  rw [items, pure_eq_ok_iff, Value.itemsPayload, Writer.add_nil]
  simp [Value.ItemsWritable, eq_comm]

theorem items_cons_laid {v : Value} {rest : List Value} (here : ValueLaid v)
    (behind : ItemsLaid rest) : ItemsLaid (v :: rest) := by
  intro base body outer index w'
  have awaits := Writer.Awaits.item base body outer index
  have next : index + 1 + rest.length = index + (v :: rest).length := by
    rw [List.length_cons]
    omega
  rw [items, Value.ItemsWritable, Value.itemsPayload, ← Writer.add_add, ← next]
  simp only [bind_eq_ok_iff]
  constructor
  · rintro ⟨_, _, hv, h⟩
    obtain ⟨writable, rfl⟩ := (here awaits).mp hv
    obtain ⟨others, rfl⟩ := behind.mp h
    exact ⟨⟨writable, others⟩, rfl⟩
  · rintro ⟨⟨writable, others⟩, rfl⟩
    exact ⟨(), _, (here awaits).mpr ⟨writable, rfl⟩, behind.mpr ⟨others, rfl⟩⟩

mutual

/-- A writer accepts the values that can be written, and adds their bytes. -/
theorem value_laid : (v : Value) → ValueLaid v
  | .double _ => fixed_laid rfl rfl fun _ => Iff.rfl
  | .string text => scalar_laid (.text text) rfl fun _ => Iff.rfl
  | .document entries => document_laid (fields_laid entries)
  | .array values => array_laid (items_laid values)
  | .binary data => binary_laid data
  | .undefined => fixed_laid rfl rfl fun _ => Iff.rfl
  | .objectId _ => fixed_laid rfl rfl fun _ => Iff.rfl
  | .boolean _ => fixed_laid rfl rfl fun _ => Iff.rfl
  | .dateTime _ => fixed_laid rfl rfl fun _ => Iff.rfl
  | .null => fixed_laid rfl rfl fun _ => Iff.rfl
  | .regularExpression pattern options => regularExpression_laid pattern options
  | .dbPointer collection id => dbPointer_laid collection id
  | .javaScript code => scalar_laid (.text code) rfl fun _ => Iff.rfl
  | .symbol text => scalar_laid (.text text) rfl fun _ => Iff.rfl
  | .javaScriptWithScope _ scope => scopedCode_laid (fields_laid scope)
  | .int32 _ => fixed_laid rfl rfl fun _ => Iff.rfl
  | .timestamp t => fixed_laid rfl (timestamp_layout t) fun _ => Iff.rfl
  | .int64 _ => fixed_laid rfl rfl fun _ => Iff.rfl
  | .decimal128 _ => fixed_laid rfl rfl fun _ => Iff.rfl
  | .minKey => fixed_laid rfl rfl fun _ => Iff.rfl
  | .maxKey => fixed_laid rfl rfl fun _ => Iff.rfl

theorem fields_laid : (entries : List (String × Value)) → FieldsLaid entries
  | [] => fields_nil_laid
  | (_, v) :: rest => fields_cons_laid (value_laid v) (fields_laid rest)

theorem items_laid : (values : List Value) → ItemsLaid values
  | [] => items_nil_laid
  | v :: rest => items_cons_laid (value_laid v) (items_laid rest)

end

end Write

namespace Document

/-- The document can be written. -/
def Writable (doc : Document) : Prop :=
  (Value.document doc.fields).Writable 0

/-- The bytes of a document, by recursion on it. -/
def layout (doc : Document) : List UInt8 :=
  (Value.document doc.fields).payload

/-- A document can be encoded iff it can be written, and the bytes are those of its layout. -/
theorem encode_eq_ok_iff {doc : Document} {bytes : ByteArray} :
    doc.encode = .ok bytes ↔ doc.Writable ∧ bytes = doc.layout.toByteArray :=
  Write.alone_laid (Write.fields_laid doc.fields)

end Document

end DocumentClient
