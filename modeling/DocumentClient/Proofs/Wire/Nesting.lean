import DocumentClient.Proofs.Wire.Layout
import DocumentClient.Proofs.Wire.RoundTrip

/-!
# How deep containers may nest

The scope of code is a container for a reader, which counts it with all the containers around the code.
The writer of a scope counts from zero. So a document that can be written is read again if it nests at
most `maxNesting` deep in the count of the reader, and for all others the reader has one answer: that
they nest too deep.

A document may repeat a name, and then is read as one that does not. `Value.asRead` is what comes back.

Results:
1. `Grammar.derives_payload`: what a writer adds for a value is in the form of the grammar, unless the
   value nests too deep where it stands.
2. `Read.value_refused`: a reader that meets a value which nests too deep comes to the container that is
   the first to lie too deep, and fails there.
3. `Document.decode_layout`: both together, for whole documents.
4. `Value.nesting_le`: what can be written nests at most `maxNesting` deep for each scope around it.
5. `Document.asRead_of_namesUnique`: a document that repeats no name comes back as it is.
6. `Document.decode_of_encode`: how much deeper than a reader a writer goes, and what comes of it.
-/

namespace DocumentClient

open Outcome Grammar Bytes

/-! ## What is read back -/

namespace Value

mutual

/-- The value as it is read: each document keeps the first value of each name. -/
def asRead : Value → Value
  | document fields => document (firstOfEach (fieldsAsRead fields))
  | array items => array (itemsAsRead items)
  | javaScriptWithScope code scope => javaScriptWithScope code (firstOfEach (fieldsAsRead scope))
  | v => v

/-- Named values, each as it is read. -/
def fieldsAsRead : List (String × Value) → List (String × Value)
  | [] => []
  | (name, v) :: rest => (name, v.asRead) :: fieldsAsRead rest

/-- Items, each as it is read. -/
def itemsAsRead : List Value → List Value
  | [] => []
  | v :: rest => v.asRead :: itemsAsRead rest

end

theorem kind_asRead (v : Value) : v.asRead.kind = v.kind := by
  cases v <;> rfl

/-- The elements of a document on the wire. -/
def fieldElements (entries : List (String × Value)) : List Element :=
  entries.map fun entry => ⟨entry.1, entry.2.payload, entry.2.asRead⟩

/-- The elements of an array on the wire; the first has the place `index`. -/
def itemElements : Nat → List Value → List Element
  | _, [] => []
  | index, v :: rest => ⟨toString index, v.payload, v.asRead⟩ :: itemElements (index + 1) rest

theorem flatMap_fieldElements (entries : List (String × Value)) :
    (fieldElements entries).flatMap Element.bytes = fieldsPayload entries := by
  induction entries with
  | nil => rfl
  | cons entry rest ih =>
    obtain ⟨name, v⟩ := entry
    rw [fieldsPayload, ← ih, ← kind_asRead]
    rfl

theorem flatMap_itemElements (index : Nat) (values : List Value) :
    (itemElements index values).flatMap Element.bytes = itemsPayload index values := by
  induction values generalizing index with
  | nil => rfl
  | cons v rest ih =>
    rw [itemsPayload, ← ih, ← kind_asRead]
    rfl

theorem map_field_fieldElements (entries : List (String × Value)) :
    (fieldElements entries).map Element.field = fieldsAsRead entries := by
  induction entries with
  | nil => rfl
  | cons entry rest ih =>
    rw [fieldsAsRead, ← ih]
    rfl

theorem map_value_itemElements (index : Nat) (values : List Value) :
    (itemElements index values).map Element.value = itemsAsRead values := by
  induction values generalizing index with
  | nil => rfl
  | cons v rest ih =>
    rw [itemsAsRead, ← ih (index + 1)]
    rfl

end Value

/-! ## What does not nest too deep is derived -/

namespace Grammar

theorem length_frame (elements : List UInt8) :
    (frame elements).length = elements.length + minDocumentSize := by
  simp only [frame, List.length_append, length_digits, List.length_singleton, minDocumentSize]
  omega

theorem isText_textLayout {text : String} (short : (utf8 text).length + 1 ≤ maxDocumentSize) :
    IsText (textLayout text) text :=
  .mk (isLength_digits short)

theorem scalar_binaryLayout {level : Nat} {data : Binary} (fits : (Value.binary data).Writable level)
    (canonical : data.subtype.IsCanonical) : Scalar (binaryLayout data) (.binary data) := by
  obtain ⟨subtype, bytes⟩ := data
  have count : bytes.size = bytes.data.toList.length := by
    rw [Array.length_toList, ByteArray.size_data]
  rw [Value.Writable] at fits
  unfold binaryLayout
  by_cases old : subtype = .binaryOld
  · subst old
    have total : bytes.size + 4 = (digits 4 bytes.data.toList.length ++ bytes.data.toList).length := by
      rw [List.length_append, length_digits, count, Nat.add_comm]
    rw [if_pos rfl, total] at fits
    have few : bytes.data.toList.length ≤ maxDocumentSize := by
      rw [List.length_append] at fits
      omega
    have form := Scalar.binaryOld (isLength_digits fits) (isLength_digits few)
    rw [toByteArray_toList] at form
    exact form
  · rw [if_neg old, count] at fits
    -- a canonical subtype is announced by its byte, so this is not the byte of the old form
    have differ : subtype.toByte ≠ 2 := by
      intro two
      exact old (Eq.trans (Eq.symm canonical) (Read.ofByte_eq_binaryOld_iff.mpr two))
    have form := Scalar.binary differ (isLength_digits fits)
    rw [toByteArray_toList, show BinarySubtype.ofByte subtype.toByte = subtype from canonical] at form
    dsimp only
    rw [if_neg old]
    exact form

/-- The element has a name that can end and a value that may stand inside `depth` containers. -/
def Element.Fits (depth : Nat) (e : Element) : Prop :=
  0 ∉ utf8 e.name ∧ Derives depth e.payload e.value

/-- Elements that fit make a container if they are not too many bytes. -/
theorem isContainer_frame {depth : Nat} {elements : List Element} (shallow : depth < maxNesting)
    (size : (elements.flatMap Element.bytes).length + minDocumentSize ≤ maxDocumentSize)
    (fits : ∀ e ∈ elements, e.Fits (depth + 1)) :
    IsContainer depth elements (frame (elements.flatMap Element.bytes)) :=
  ⟨shallow, Write.isBlock_of_fits size, fun e mem => (fits e mem).1, fun e mem => (fits e mem).2⟩

theorem derives_document {depth : Nat} {entries : List (String × Value)} (shallow : depth < maxNesting)
    (size : (Value.fieldsPayload entries).length + minDocumentSize ≤ maxDocumentSize)
    (fits : ∀ e ∈ Value.fieldElements entries, e.Fits (depth + 1)) :
    Derives depth (frame (Value.fieldsPayload entries)) (Value.document entries).asRead := by
  rw [← Value.flatMap_fieldElements] at size ⊢
  rw [Value.asRead, ← Value.map_field_fieldElements]
  exact derives_document_iff.mpr ⟨_, isContainer_frame shallow size fits, rfl⟩

theorem derives_array {depth : Nat} {values : List Value} (shallow : depth < maxNesting)
    (size : (Value.itemsPayload 0 values).length + minDocumentSize ≤ maxDocumentSize)
    (fits : ∀ e ∈ Value.itemElements 0 values, e.Fits (depth + 1)) :
    Derives depth (frame (Value.itemsPayload 0 values)) (Value.array values).asRead := by
  rw [← Value.flatMap_itemElements] at size ⊢
  rw [Value.asRead, ← Value.map_value_itemElements 0]
  exact derives_array_iff.mpr ⟨_, isContainer_frame shallow size fits, rfl⟩

theorem derives_scopedCode {depth : Nat} {code : String} {scope : List (String × Value)}
    (short : (utf8 code).length + 1 ≤ maxDocumentSize)
    (size : (textLayout code ++ frame (Value.fieldsPayload scope)).length + 4 ≤ maxDocumentSize)
    (inner : Derives depth (frame (Value.fieldsPayload scope)) (Value.document scope).asRead) :
    Derives depth (Value.javaScriptWithScope code scope).payload
      (Value.javaScriptWithScope code scope).asRead := by
  have total : (textLayout code ++ frame (Value.fieldsPayload scope)).length + 4 =
      (digits 4 ((textLayout code ++ frame (Value.fieldsPayload scope)).length + 4) ++
        textLayout code ++ frame (Value.fieldsPayload scope)).length := by
    simp only [List.length_append, length_digits]
    omega
  rw [Value.payload, Value.asRead, ← List.append_assoc]
  exact .scopedCode (total ▸ isLength_digits size) (isText_textLayout short) inner

mutual

/-- What a writer adds for a value is in the form of the grammar where the value does not nest too
deep. -/
theorem derives_payload : (v : Value) → ∀ {level depth : Nat}, v.Writable level →
    v.SubtypesCanonical → depth + v.nesting ≤ maxNesting → Derives depth v.payload v.asRead
  | .double bits, _, _, _, _, _ => .scalar (.double bits)
  | .string _, _, _, short, _, _ => .scalar (.string (isText_textLayout short))
  | .document entries, _, depth, ⟨_, inner, size⟩, canonical, shallow => by
    rw [Value.nesting] at shallow
    exact derives_document (by omega) size (derives_fields entries inner canonical (by omega))
  | .array values, _, depth, ⟨_, inner, size⟩, canonical, shallow => by
    rw [Value.nesting] at shallow
    exact derives_array (by omega) size (derives_items 0 values inner canonical (by omega))
  | .binary data, level, _, size, canonical, _ =>
    .scalar (scalar_binaryLayout (show (Value.binary data).Writable level from size) canonical)
  | .undefined, _, _, _, _, _ => .scalar .undefined
  | .objectId id, _, _, _, _, _ => .scalar (.objectId id)
  | .boolean b, _, _, _, _, _ => .scalar (.boolean b)
  | .dateTime t, _, _, _, _, _ => .scalar (.dateTime t)
  | .null, _, _, _, _, _ => .scalar .null
  | .regularExpression _ _, _, _, ⟨left, right⟩, _, _ =>
    .scalar (.regularExpression (.mk left) (.mk right))
  | .dbPointer _ id, _, _, short, _, _ => .scalar (.dbPointer id (isText_textLayout short))
  | .javaScript _, _, _, short, _, _ => .scalar (.javaScript (isText_textLayout short))
  | .symbol _, _, _, short, _, _ => .scalar (.symbol (isText_textLayout short))
  | .javaScriptWithScope _ scope, _, depth, ⟨short, inner, size, total⟩, canonical, shallow => by
    rw [Value.nesting] at shallow
    have fits := derives_fields scope inner canonical
      (show depth + 1 + Value.fieldsNesting scope ≤ maxNesting by omega)
    exact derives_scopedCode short total (derives_document (by omega) size fits)
  | .int32 n, _, _, _, _, _ => .scalar (.int32 n)
  | .timestamp t, _, _, _, _, _ => .scalar (.timestamp t)
  | .int64 n, _, _, _, _, _ => .scalar (.int64 n)
  | .decimal128 bytes, _, _, _, _, _ => .scalar (.decimal128 bytes)
  | .minKey, _, _, _, _, _ => .scalar .minKey
  | .maxKey, _, _, _, _, _ => .scalar .maxKey

theorem derives_fields : (entries : List (String × Value)) → ∀ {level depth : Nat},
    Value.FieldsWritable level entries → Value.FieldsSubtypesCanonical entries →
    depth + Value.fieldsNesting entries ≤ maxNesting →
    ∀ e ∈ Value.fieldElements entries, e.Fits depth
  | [], _, _, _, _, _ => List.forall_mem_nil _
  | (_, v) :: rest, _, depth, ⟨free, here, behind⟩, ⟨canonical, others⟩, shallow => by
    rw [Value.fieldsNesting] at shallow
    have derived := derives_payload v here canonical (show depth + v.nesting ≤ maxNesting by omega)
    exact List.forall_mem_cons.mpr ⟨⟨free, derived⟩, derives_fields rest behind others (by omega)⟩

theorem derives_items (index : Nat) : (values : List Value) → ∀ {level depth : Nat},
    Value.ItemsWritable level values → Value.ItemsSubtypesCanonical values →
    depth + Value.itemsNesting values ≤ maxNesting →
    ∀ e ∈ Value.itemElements index values, e.Fits depth
  | [], _, _, _, _, _ => List.forall_mem_nil _
  | v :: rest, _, depth, ⟨here, behind⟩, ⟨canonical, others⟩, shallow => by
    rw [Value.itemsNesting] at shallow
    have derived := derives_payload v here canonical (show depth + v.nesting ≤ maxNesting by omega)
    exact List.forall_mem_cons.mpr ⟨⟨zero_notMem_utf8_toString index, derived⟩,
      derives_items (index + 1) rest behind others (by omega)⟩

end

end Grammar

/-! ## What nests too deep is refused -/

namespace Read

variable {r m : Reader} {fuel level : Nat}

/-- A reader fails at a value that nests too deep where the reader stands. -/
def ValueRefused (v : Value) : Prop :=
  ∀ {fuel level : Nat} {r : Reader}, v.payload.length < fuel → v.Writable level → v.SubtypesCanonical →
    r.phase = .value → r.kind = some v.kind → r.Ahead v.payload → r.depth ≤ maxNesting →
    maxNesting < r.depth + v.nesting → Fails (valueWithin fuel) r .nestingTooDeep

/-- A reader fails at fields of which one nests too deep. -/
def FieldsRefused (entries : List (String × Value)) : Prop :=
  ∀ {fuel level : Nat} {m : Reader} {f : Frame} {outer : List Frame} (doc : Document),
    (Value.fieldsPayload entries).length < fuel → Value.FieldsWritable level entries →
    Value.FieldsSubtypesCanonical entries → m.phase = .type → m.frames = f :: outer →
    m.Ahead (Value.fieldsPayload entries) → m.depth ≤ maxNesting →
    maxNesting < m.depth + Value.fieldsNesting entries → Fails (fieldsWithin fuel doc) m .nestingTooDeep

/-- A reader fails at items of which one nests too deep. -/
def ItemsRefused (values : List Value) : Prop :=
  ∀ {fuel level index : Nat} {m : Reader} {f : Frame} {outer : List Frame} (items : Array Value),
    (Value.itemsPayload index values).length < fuel → Value.ItemsWritable level values →
    Value.ItemsSubtypesCanonical values → m.phase = .type → m.frames = f :: outer →
    m.Ahead (Value.itemsPayload index values) → m.depth ≤ maxNesting →
    maxNesting < m.depth + Value.itemsNesting values → Fails (itemsWithin fuel items) m .nestingTooDeep

/-- The depth of a container is looked at before anything else of it. -/
theorem startContainer_of_deep {container : Container} (expects : r.Expects container)
    (deep : maxNesting ≤ r.depth) : Fails (startContainer container) r .nestingTooDeep := by
  refine ⟨r, ?_⟩
  unfold startContainer
  rw [get_bind]
  rcases expects with ⟨phase, rfl⟩ | ⟨phase, here⟩
  · rw [phase]
    dsimp only
    rw [if_neg (not_not.mpr rfl), if_pos deep]
    rfl
  · rw [phase]
    dsimp only
    rw [bind_of_ok (expectKind_eq_ok_iff (u := ()).mpr ⟨here, rfl⟩), if_pos deep]
    rfl

/-- A container lies too deep itself, or what it holds is refused. -/
theorem container_refused {α : Type} {container : Container} {elements : List UInt8} {inner : Read α}
    (expects : r.Expects container) (size : elements.length + minDocumentSize ≤ maxDocumentSize)
    (ahead : r.Ahead (Grammar.frame elements))
    (refused : r.depth < maxNesting →
      (r.entered container (Grammar.frame elements).length).Ahead elements →
      Fails inner (r.entered container (Grammar.frame elements).length) .nestingTooDeep) :
    Fails (startContainer container >>= fun _ => inner) r .nestingTooDeep := by
  by_cases shallow : r.depth < maxNesting
  · have count := length_frame elements
    have parts : r.Ahead (digits 4 (elements.length + minDocumentSize) ++ (elements ++ [0])) := by
      rw [← List.append_assoc]
      exact ahead
    have isLength : IsLength (digits 4 (elements.length + minDocumentSize))
        (Grammar.frame elements).length := by
      rw [count]
      exact isLength_digits size
    have start : startContainer container r =
        .ok () (r.entered container (Grammar.frame elements).length) :=
      startContainer_eq_ok_iff.mpr
        ⟨expects, shallow, _, _, isLength, by omega, by omega, parts.left, ahead.inside, rfl⟩
    have behind : (r.entered container (Grammar.frame elements).length).Ahead elements := by
      have whole := parts.right
      rw [length_digits] at whole
      refine whole.left.transfer rfl rfl ?_
      show r.pos + 4 + elements.length ≤ r.pos + (Grammar.frame elements).length
      rw [count, minDocumentSize]
      omega
    exact (refused shallow behind).behind start
  · exact (startContainer_of_deep expects (Nat.le_of_not_lt shallow)).bind

theorem documentOf_refused {entries : List (String × Value)} (refused : FieldsRefused entries)
    (enough : (Grammar.frame (Value.fieldsPayload entries)).length ≤ fuel)
    (inner : Value.FieldsWritable level entries)
    (size : (Value.fieldsPayload entries).length + minDocumentSize ≤ maxDocumentSize)
    (canonical : Value.FieldsSubtypesCanonical entries) (expects : r.Expects .document)
    (ahead : r.Ahead (Grammar.frame (Value.fieldsPayload entries)))
    (tooDeep : maxNesting < r.depth + (Value.document entries).nesting) :
    Fails (documentOf (fieldsWithin fuel)) r .nestingTooDeep := by
  rw [Value.nesting] at tooDeep
  rw [length_frame, minDocumentSize] at enough
  refine container_refused expects size ahead fun shallow behind => Fails.bind ?_
  have depth : (r.entered .document (Grammar.frame (Value.fieldsPayload entries)).length).depth =
      r.depth + 1 := rfl
  exact refused .empty (by omega) inner canonical rfl rfl behind (by omega) (by omega)

theorem arrayOf_refused {values : List Value} (refused : ItemsRefused values)
    (enough : (Grammar.frame (Value.itemsPayload 0 values)).length ≤ fuel)
    (inner : Value.ItemsWritable level values)
    (size : (Value.itemsPayload 0 values).length + minDocumentSize ≤ maxDocumentSize)
    (canonical : Value.ItemsSubtypesCanonical values) (expects : r.Expects .array)
    (ahead : r.Ahead (Grammar.frame (Value.itemsPayload 0 values)))
    (tooDeep : maxNesting < r.depth + (Value.array values).nesting) :
    Fails (arrayOf (itemsWithin fuel)) r .nestingTooDeep := by
  rw [Value.nesting] at tooDeep
  rw [length_frame, minDocumentSize] at enough
  refine container_refused expects size ahead fun shallow behind => Fails.bind ?_
  have depth : (r.entered .array (Grammar.frame (Value.itemsPayload 0 values)).length).depth =
      r.depth + 1 := rfl
  exact refused #[] (by omega) inner canonical rfl rfl behind (by omega) (by omega)

/-- Code fails as its scope does, which is read by itself at the depth of the code. -/
theorem scopedCodeOf_of_scope {fields : Document → Read Document} {fault : Fault} {code : String}
    {size text block : List UInt8} (phase : r.phase = .value)
    (here : r.kind = some .javaScriptWithScope)
    (isSize : IsLength size (size ++ text ++ block).length) (isText : IsText text code)
    (ahead : r.Ahead (size ++ text ++ block))
    (peeked : peekLength (r.advance (size ++ text).length) =
      .ok block.length (r.advance (size ++ text).length))
    (fails : Fails (documentOf fields) { data := block.toByteArray, outerDepth := r.depth } fault) :
    Fails (scopedCodeOf fields) r fault := by
  have place : (r.advance size.length).advance text.length = r.advance (size ++ text).length := by
    rw [Reader.advance_advance, List.length_append]
  have long : 4 ≤ (size ++ text ++ block).length := by
    rw [List.append_assoc, List.length_append, isSize.length_eq]
    omega
  have total := (accepts_length 4 _ _ _).mpr ⟨size, ⟨isSize, long⟩, ahead.left.left, rfl⟩
  have named := (accepts_text _ _ _).mpr ⟨text, isText, ahead.left.right, rfl⟩
  have taken := (accepts_take _ _ _ _).mpr ⟨block, ⟨rfl, rfl⟩, ahead.right, rfl⟩
  rw [place] at named
  obtain ⟨s, fails⟩ := fails
  refine ⟨(r.advance (size ++ text).length).advance block.length, ?_⟩
  unfold scopedCodeOf
  rw [bind_of_ok (beginValue_eq_ok_iff (u := ()).mpr ⟨phase, here, rfl⟩), get_bind, bind_of_ok total,
    bind_of_ok named, bind_of_ok peeked, bind_of_ok taken, get_bind]
  simp only [Reader.advance_depth, fails]
  rfl

theorem peekLength_frame {elements : List UInt8}
    (size : elements.length + minDocumentSize ≤ maxDocumentSize)
    (ahead : r.Ahead (Grammar.frame elements)) :
    peekLength r = .ok (Grammar.frame elements).length r := by
  have front : r.Ahead (digits 4 (elements.length + minDocumentSize)) := ahead.left.left
  have present := front.present
  have matching := front.matching
  rw [length_digits] at present matching
  rw [length_frame]
  exact peekLength_eq_ok_iff.mpr ⟨⟨_, isLength_digits size, present, matching⟩, rfl⟩

theorem scopedCodeOf_refused {code : String} {scope : List (String × Value)}
    (refused : FieldsRefused scope)
    (enough : (Value.javaScriptWithScope code scope).payload.length ≤ fuel)
    (writable : (Value.javaScriptWithScope code scope).Writable level)
    (canonical : Value.FieldsSubtypesCanonical scope) (phase : r.phase = .value)
    (here : r.kind = some .javaScriptWithScope)
    (ahead : r.Ahead (Value.javaScriptWithScope code scope).payload)
    (tooDeep : maxNesting < r.depth + (Value.javaScriptWithScope code scope).nesting) :
    Fails (scopedCodeOf (fieldsWithin fuel)) r .nestingTooDeep := by
  obtain ⟨short, inner, size, small⟩ := writable
  have parts : (Value.javaScriptWithScope code scope).payload =
      digits 4 ((textLayout code ++ Grammar.frame (Value.fieldsPayload scope)).length + 4) ++
        textLayout code ++ Grammar.frame (Value.fieldsPayload scope) := by
    rw [Value.payload, List.append_assoc]
  rw [parts] at ahead enough
  have total : (textLayout code ++ Grammar.frame (Value.fieldsPayload scope)).length + 4 =
      (digits 4 ((textLayout code ++ Grammar.frame (Value.fieldsPayload scope)).length + 4) ++
        textLayout code ++ Grammar.frame (Value.fieldsPayload scope)).length := by
    simp only [List.length_append, length_digits]
    omega
  refine scopedCodeOf_of_scope phase here (total ▸ isLength_digits small) (isText_textLayout short)
    ahead (peekLength_frame size ahead.right) ?_
  rw [List.length_append] at enough
  exact documentOf_refused refused (by omega) inner size canonical (.inl ⟨rfl, rfl⟩)
    (front_ahead_iff.mpr (List.prefix_refl _)) tooDeep

/-! ### One element and then the rest -/

/-- Fields fail where a value fails, or where the fields behind it do. -/
theorem fieldsWithin_fails {doc : Document} {kind : Kind} {fault : Fault}
    (next : readType m = .ok (some kind) r)
    (fails : Fails (valueWithin fuel) (r.named "") fault ∨ ∃ v s,
      valueWithin fuel (r.named "") = .ok v s ∧
        Fails (fieldsWithin fuel (doc.insertIfAbsent r.name v)) s fault) :
    Fails (fieldsWithin (fuel + 1) doc) m fault := by
  rw [fieldsWithin]
  refine Fails.behind (Fails.behind ?_ takeName_eq) next
  rcases fails with fails | ⟨v, s, read, fails⟩
  · exact fails.bind
  · exact fails.behind (f := fun v => fieldsWithin fuel (doc.insertIfAbsent r.name v)) read

theorem itemsWithin_fails {items : Array Value} {kind : Kind} {fault : Fault}
    (next : readType m = .ok (some kind) r)
    (fails : Fails (valueWithin fuel) r fault ∨ ∃ v s,
      valueWithin fuel r = .ok v s ∧ Fails (itemsWithin fuel (items.push v)) s fault) :
    Fails (itemsWithin (fuel + 1) items) m fault := by
  rw [itemsWithin]
  refine Fails.behind ?_ next
  rcases fails with fails | ⟨v, s, read, fails⟩
  · exact fails.bind
  · exact fails.behind (f := fun v => itemsWithin fuel (items.push v)) read

/-- An element that comes next nests too deep and is refused, or it is read. -/
theorem element_read {name : String} {v : Value} {f : Frame} {outer : List Frame} (label : String)
    (refused : ValueRefused v) (enough : v.payload.length < fuel) (writable : v.Writable level)
    (canonical : v.SubtypesCanonical) (free : 0 ∉ utf8 name) (phase : m.phase = .type)
    (frames : m.frames = f :: outer) (ahead : m.Ahead (header v.kind name ++ v.payload))
    (depth : m.depth ≤ maxNesting) :
    ∃ m₁, readType m = .ok (some v.kind) m₁ ∧ m₁.name = name ∧
      (Fails (valueWithin fuel) (m₁.named label) .nestingTooDeep ∨
        m.depth + v.nesting ≤ maxNesting ∧ ∃ name', valueWithin fuel (m₁.named label) =
          .ok v.asRead ((m.passed (header v.kind name ++ v.payload).length).named name')) := by
  by_cases fits : m.depth + v.nesting ≤ maxNesting
  · have derived := derives_payload v writable canonical fits
    have bytes : Element.bytes ⟨name, v.payload, v.asRead⟩ = header v.kind name ++ v.payload := by
      rw [← Value.kind_asRead]
      rfl
    have next : m.HasNext ⟨name, v.payload, v.asRead⟩ := ⟨free, derived, bytes ▸ ahead⟩
    obtain ⟨m₁, name', hr, named, hv⟩ :=
      element_complete (complete fuel).1 label enough phase frames next
    rw [Reader.after, bytes] at hv
    rw [Value.kind_asRead] at hr
    exact ⟨m₁, hr, named, .inr ⟨fits, name', hv⟩⟩
  · have next := (readType_eq_ok_iff phase frames).mpr
      (.inr ⟨v.kind, name, rfl, free, ahead.left, rfl⟩)
    have behind := ahead.right
    refine ⟨_, next, rfl, .inl ?_⟩
    exact refused enough writable canonical rfl rfl (behind.transfer rfl rfl behind.inside) depth
      (Nat.lt_of_not_le fits)

theorem fields_cons_refused {name : String} {v : Value} {rest : List (String × Value)}
    (here : ValueRefused v) (behind : FieldsRefused rest) : FieldsRefused ((name, v) :: rest) := by
  intro fuel level m f outer doc enough writable canonical phase frames ahead depth tooDeep
  obtain ⟨free, fits, others⟩ := writable
  rw [Value.fieldsPayload] at enough ahead
  rw [Value.fieldsNesting] at tooDeep
  cases fuel with
  | zero => exact absurd enough (Nat.not_lt_zero _)
  | succ fuel =>
    have long : 0 < (header v.kind name).length := Nat.succ_pos _
    simp only [List.length_append] at enough
    have few : v.payload.length < fuel := by omega
    obtain ⟨m₁, next, rfl, outcome⟩ := element_read "" here few fits canonical.1 free phase frames
      ahead.left depth
    refine fieldsWithin_fails next (outcome.imp_right ?_)
    rintro ⟨shallow, name', read⟩
    refine ⟨_, _, read, ?_⟩
    have next := ahead.right.transfer (s := (m.passed _).named name') rfl rfl ahead.right.inside
    exact behind _ (by omega) others canonical.2 rfl frames next depth (by change _ < m.depth + _; omega)

theorem items_cons_refused {v : Value} {rest : List Value} (here : ValueRefused v)
    (behind : ItemsRefused rest) : ItemsRefused (v :: rest) := by
  intro fuel level index m f outer items enough writable canonical phase frames ahead depth tooDeep
  obtain ⟨fits, others⟩ := writable
  rw [Value.itemsPayload] at enough ahead
  rw [Value.itemsNesting] at tooDeep
  cases fuel with
  | zero => exact absurd enough (Nat.not_lt_zero _)
  | succ fuel =>
    have long : 0 < (header v.kind (toString index)).length := Nat.succ_pos _
    simp only [List.length_append] at enough
    have few : v.payload.length < fuel := by omega
    -- items keep the name in store, so the label is the name of the element
    obtain ⟨m₁, next, named, outcome⟩ := element_read (toString index) here few fits
      canonical.1 (zero_notMem_utf8_toString index) phase frames ahead.left depth
    have same : m₁.named (toString index) = m₁ := by
      rw [← named]
      rfl
    rw [same] at outcome
    refine itemsWithin_fails next (outcome.imp_right ?_)
    rintro ⟨shallow, name', read⟩
    refine ⟨_, _, read, ?_⟩
    have next := ahead.right.transfer (s := (m.passed _).named name') rfl rfl ahead.right.inside
    exact behind _ (by omega) others canonical.2 rfl frames next depth (by change _ < m.depth + _; omega)

/-! ### Whole values -/

theorem flat_refused {v : Value} (flat : v.nesting = 0) : ValueRefused v := by
  intro fuel level r _ _ _ _ _ _ depth tooDeep
  omega

theorem document_refused {entries : List (String × Value)} (refused : FieldsRefused entries) :
    ValueRefused (.document entries) := by
  intro fuel level r enough writable canonical phase here ahead depth tooDeep
  obtain ⟨-, inner, size⟩ := writable
  cases fuel with
  | zero => exact absurd enough (Nat.not_lt_zero _)
  | succ fuel =>
    have fails := documentOf_refused refused (Nat.le_of_lt_succ enough) inner size canonical
      (.inr ⟨phase, here⟩) ahead tooDeep
    rw [valueWithin]
    exact Fails.behind fails.bind ((currentKind_eq_ok_iff phase).mpr ⟨here, rfl⟩)

theorem array_refused {values : List Value} (refused : ItemsRefused values) :
    ValueRefused (.array values) := by
  intro fuel level r enough writable canonical phase here ahead depth tooDeep
  obtain ⟨-, inner, size⟩ := writable
  cases fuel with
  | zero => exact absurd enough (Nat.not_lt_zero _)
  | succ fuel =>
    have fails := arrayOf_refused refused (Nat.le_of_lt_succ enough) inner size canonical
      (.inr ⟨phase, here⟩) ahead tooDeep
    rw [valueWithin]
    exact Fails.behind fails.bind ((currentKind_eq_ok_iff phase).mpr ⟨here, rfl⟩)

theorem scopedCode_refused {code : String} {scope : List (String × Value)}
    (refused : FieldsRefused scope) : ValueRefused (.javaScriptWithScope code scope) := by
  intro fuel level r enough writable canonical phase here ahead depth tooDeep
  cases fuel with
  | zero => exact absurd enough (Nat.not_lt_zero _)
  | succ fuel =>
    have fails := scopedCodeOf_refused refused (Nat.le_of_lt_succ enough) writable canonical phase
      here ahead tooDeep
    rw [valueWithin]
    exact Fails.behind fails.bind ((currentKind_eq_ok_iff phase).mpr ⟨here, rfl⟩)

theorem fields_nil_refused : FieldsRefused [] := by
  intro fuel level m f outer doc _ _ _ _ _ _ depth tooDeep
  rw [Value.fieldsNesting] at tooDeep
  omega

theorem items_nil_refused : ItemsRefused [] := by
  intro fuel level index m f outer items _ _ _ _ _ _ depth tooDeep
  rw [Value.itemsNesting] at tooDeep
  omega

mutual

/-- A reader fails at a value that nests too deep. -/
theorem value_refused : (v : Value) → ValueRefused v
  | .document entries => document_refused (fields_refused entries)
  | .array values => array_refused (items_refused values)
  | .javaScriptWithScope _ scope => scopedCode_refused (fields_refused scope)
  | .double _ | .string _ | .binary _ | .undefined | .objectId _ | .boolean _ | .dateTime _ | .null
  | .regularExpression _ _ | .dbPointer _ _ | .javaScript _ | .symbol _ | .int32 _ | .timestamp _
  | .int64 _ | .decimal128 _ | .minKey | .maxKey => flat_refused rfl

theorem fields_refused : (entries : List (String × Value)) → FieldsRefused entries
  | [] => fields_nil_refused
  | (_, v) :: rest => fields_cons_refused (value_refused v) (fields_refused rest)

theorem items_refused : (values : List Value) → ItemsRefused values
  | [] => items_nil_refused
  | v :: rest => items_cons_refused (value_refused v) (items_refused rest)

end

end Read

/-! ## Scopes -/

namespace Value

mutual

/-- The most scopes of code that lie inside each other. -/
def scopes : Value → Nat
  | document fields => fieldsScopes fields
  | array items => itemsScopes items
  | javaScriptWithScope _ scope => 1 + fieldsScopes scope
  | _ => 0

/-- The same below a list of fields. -/
def fieldsScopes : List (String × Value) → Nat
  | [] => 0
  | (_, v) :: rest => max v.scopes (fieldsScopes rest)

/-- The same below a list of items. -/
def itemsScopes : List Value → Nat
  | [] => 0
  | v :: rest => max v.scopes (itemsScopes rest)

end

theorem max_nesting_le {depth left right few many : Nat}
    (first : depth + left ≤ maxNesting * (few + 1)) (second : depth + right ≤ maxNesting * (many + 1)) :
    depth + max left right ≤ maxNesting * (max few many + 1) := by
  unfold maxNesting at *
  omega

mutual

/-- Every scope lets a value nest as deep again. -/
theorem nesting_le : (v : Value) → ∀ {depth : Nat}, depth ≤ maxNesting → v.Writable depth →
    depth + v.nesting ≤ maxNesting * (v.scopes + 1)
  | .document entries, depth, _, ⟨shallow, inner, _⟩ => by
    have below := fieldsNesting_le entries shallow inner
    rw [nesting, scopes]
    omega
  | .array values, depth, _, ⟨shallow, inner, _⟩ => by
    have below := itemsNesting_le values shallow inner
    rw [nesting, scopes]
    omega
  | .javaScriptWithScope _ scope, depth, level, ⟨_, inner, _⟩ => by
    have below := fieldsNesting_le scope (by decide) inner
    rw [nesting, scopes]
    unfold maxNesting at *
    omega
  | .double _, _, level, _ | .string _, _, level, _ | .binary _, _, level, _
  | .undefined, _, level, _ | .objectId _, _, level, _ | .boolean _, _, level, _
  | .dateTime _, _, level, _ | .null, _, level, _ | .regularExpression _ _, _, level, _
  | .dbPointer _ _, _, level, _ | .javaScript _, _, level, _ | .symbol _, _, level, _
  | .int32 _, _, level, _ | .timestamp _, _, level, _ | .int64 _, _, level, _
  | .decimal128 _, _, level, _ | .minKey, _, level, _ | .maxKey, _, level, _ => level

theorem fieldsNesting_le : (entries : List (String × Value)) → ∀ {depth : Nat}, depth ≤ maxNesting →
    FieldsWritable depth entries → depth + fieldsNesting entries ≤ maxNesting * (fieldsScopes entries + 1)
  | [], _, level, _ => level
  | (_, v) :: rest, depth, level, ⟨_, here, behind⟩ => by
    have first := nesting_le v level here
    have others := fieldsNesting_le rest level behind
    exact max_nesting_le first others

theorem itemsNesting_le : (values : List Value) → ∀ {depth : Nat}, depth ≤ maxNesting →
    ItemsWritable depth values → depth + itemsNesting values ≤ maxNesting * (itemsScopes values + 1)
  | [], _, level, _ => level
  | v :: rest, depth, level, ⟨here, behind⟩ => by
    have first := nesting_le v level here
    have others := itemsNesting_le rest level behind
    exact max_nesting_le first others

end

mutual

/-- A value whose documents have unique names is read as it is. -/
theorem asRead_eq_self : (v : Value) → v.NamesUnique → v.asRead = v
  | .document entries, ⟨unique, inner⟩ => by
    rw [asRead, fieldsAsRead_eq_self entries inner, firstOfEach_eq_self unique]
  | .array values, inner => by rw [asRead, itemsAsRead_eq_self values inner]
  | .javaScriptWithScope _ scope, ⟨unique, inner⟩ => by
    rw [asRead, fieldsAsRead_eq_self scope inner, firstOfEach_eq_self unique]
  | .double _, _ | .string _, _ | .binary _, _ | .undefined, _ | .objectId _, _ | .boolean _, _
  | .dateTime _, _ | .null, _ | .regularExpression _ _, _ | .dbPointer _ _, _ | .javaScript _, _
  | .symbol _, _ | .int32 _, _ | .timestamp _, _ | .int64 _, _ | .decimal128 _, _ | .minKey, _
  | .maxKey, _ => rfl

theorem fieldsAsRead_eq_self : (entries : List (String × Value)) → FieldsNamesUnique entries →
    fieldsAsRead entries = entries
  | [], _ => rfl
  | (_, v) :: rest, ⟨here, behind⟩ => by
    rw [fieldsAsRead, asRead_eq_self v here, fieldsAsRead_eq_self rest behind]

theorem itemsAsRead_eq_self : (values : List Value) → ItemsNamesUnique values →
    itemsAsRead values = values
  | [], _ => rfl
  | v :: rest, ⟨here, behind⟩ => by
    rw [itemsAsRead, asRead_eq_self v here, itemsAsRead_eq_self rest behind]

end

end Value

/-! ## Whole documents -/

namespace Document

open Read

/-- The document as it is read. -/
def asRead (doc : Document) : Document :=
  ⟨firstOfEach (Value.fieldsAsRead doc.fields)⟩

/-- The most scopes of code that lie inside each other. -/
def scopes (doc : Document) : Nat :=
  (Value.document doc.fields).scopes

theorem asRead_of_namesUnique {doc : Document} (unique : doc.NamesUnique) : doc.asRead = doc := by
  have same := Value.asRead_eq_self (.document doc.fields) unique
  rw [Value.asRead, Value.document.injEq] at same
  rw [asRead, same]

/-- What can be written is read unless it nests too deep, and this is the only thing that a reader finds
wrong with it. -/
theorem decode_layout {doc : Document} (writable : doc.Writable) (canonical : doc.SubtypesCanonical) :
    decode doc.layout.toByteArray =
      if doc.nesting ≤ maxNesting then .ok doc.asRead else .error .nestingTooDeep := by
  split
  · next shallow =>
    have derived := derives_payload (.document doc.fields) writable canonical
      (show 0 + doc.nesting ≤ maxNesting by omega)
    apply decode_of_isDocument
    rw [List.toList_data_toByteArray]
    exact derived
  · next deep =>
    obtain ⟨-, inner, size⟩ := writable
    have enough : doc.layout.length ≤ fuelFor (.ofBytes doc.layout.toByteArray) := by
      show _ ≤ doc.layout.toByteArray.size + 1
      rw [List.size_toByteArray]
      exact Nat.le_succ _
    obtain ⟨r, fails⟩ : Fails Read.document (.ofBytes doc.layout.toByteArray) .nestingTooDeep :=
      documentOf_refused (fields_refused doc.fields) enough inner size canonical (.inl ⟨rfl, rfl⟩)
        (front_ahead_iff.mpr (List.prefix_refl _)) (show maxNesting < 0 + doc.nesting by omega)
    unfold decode
    rw [fails]

/-- What can be encoded nests at most `maxNesting` deep, and as deep again for each scope of code that
lies around. It is decoded if a reader finds it to nest no deeper than `maxNesting` with its scopes, and
otherwise refused for that. What comes back is the document itself if it repeats no name. -/
theorem decode_of_encode {doc : Document} {bytes : ByteArray} (h : doc.encode = .ok bytes) :
    doc.nesting ≤ maxNesting * (doc.scopes + 1) ∧
      (doc.SubtypesCanonical →
        decode bytes =
          if doc.nesting ≤ maxNesting then .ok doc.asRead else .error .nestingTooDeep) ∧
        (doc.NamesUnique → doc.asRead = doc) := by
  obtain ⟨writable, rfl⟩ := encode_eq_ok_iff.mp h
  refine ⟨?_, decode_layout writable, asRead_of_namesUnique⟩
  have bound := Value.nesting_le (.document doc.fields) (Nat.zero_le _) writable
  rw [Nat.zero_add] at bound
  exact bound

/-- Code with a scope of two names. -/
def withScope : Document :=
  ⟨[("c", .javaScriptWithScope "f" [("x", .null), ("y", .array [])])]⟩

/-- The bytes of `withScope`. -/
def withScopeBytes : ByteArray :=
  ⟨#[34, 0, 0, 0,
    15, 99, 0, 26, 0, 0, 0, 2, 0, 0, 0, 102, 0,
      16, 0, 0, 0, 10, 120, 0, 4, 121, 0, 5, 0, 0, 0, 0, 0,
    0]⟩

theorem decode_of_encode_withScope :
    withScope.encode = .ok withScopeBytes ∧ withScope.SubtypesCanonical ∧ withScope.NamesUnique ∧
      withScope.nesting ≤ maxNesting * (withScope.scopes + 1) ∧
        (decode withScopeBytes =
          if withScope.nesting ≤ maxNesting then .ok withScope.asRead else .error .nestingTooDeep) ∧
          withScope.asRead = withScope := by
  have written : withScope.encode = .ok withScopeBytes := by
    cbv
  have canonical : withScope.SubtypesCanonical := by
    simp [SubtypesCanonical, withScope, Value.SubtypesCanonical, Value.FieldsSubtypesCanonical,
      Value.ItemsSubtypesCanonical]
  have unique : withScope.NamesUnique := by
    simp [NamesUnique, withScope, Value.NamesUnique, Value.FieldsNamesUnique, Value.ItemsNamesUnique]
  obtain ⟨bound, decodes, same⟩ := decode_of_encode written
  exact ⟨written, canonical, unique, bound, decodes canonical, same unique⟩

/-! ### A document that is written and not read -/

/-- Code in the scope of code, `n` times. -/
def scopedCodes : Nat → Value
  | 0 => .null
  | n + 1 => .javaScriptWithScope "f" [("d", scopedCodes n)]

theorem nesting_scopedCodes (n : Nat) : (scopedCodes n).nesting = n := by
  induction n with
  | zero => rfl
  | succ n ih =>
    rw [scopedCodes, Value.nesting, Value.fieldsNesting, Value.fieldsNesting, ih]
    omega

theorem subtypesCanonical_scopedCodes (n : Nat) : (scopedCodes n).SubtypesCanonical := by
  induction n with
  | zero => trivial
  | succ n ih => exact ⟨ih, trivial⟩

theorem length_payload_scopedCodes (n : Nat) : (scopedCodes n).payload.length = 18 * n := by
  induction n with
  | zero => rfl
  | succ n ih =>
    have code : (textLayout "f").length = 6 := by decide
    have name : (header (scopedCodes n).kind "d").length = 3 := rfl
    simp only [scopedCodes, Value.payload, Value.fieldsPayload, List.length_append, length_digits,
      length_frame, List.length_nil, code, name, ih, minDocumentSize]
    omega

theorem writable_scopedCodes {n depth : Nat} (few : 18 * n ≤ maxDocumentSize) :
    (scopedCodes n).Writable depth := by
  induction n generalizing depth with
  | zero => trivial
  | succ n ih =>
    have count := length_payload_scopedCodes (n + 1)
    simp only [scopedCodes, Value.payload, List.length_append, length_digits, length_frame] at count
    refine ⟨by decide, ⟨by decide, ih (by omega), trivial⟩, by omega, ?_⟩
    rw [List.length_append, length_frame]
    omega

/-- One container more than may lie inside each other, all but the outermost being scopes. -/
def deep : Document :=
  ⟨[("a", scopedCodes 100)]⟩

theorem decode_encode_deep :
    maxNesting < deep.nesting ∧
      ∃ bytes, deep.encode = .ok bytes ∧ decode bytes = .error .nestingTooDeep := by
  have count : deep.nesting = 101 := by
    rw [nesting, Value.nesting, deep, Value.fieldsNesting, Value.fieldsNesting, nesting_scopedCodes]
    rfl
  have tooDeep : ¬ deep.nesting ≤ maxNesting := by
    rw [count]
    decide
  have writable : deep.Writable := by
    refine ⟨by decide, ⟨by decide, writable_scopedCodes (by decide), trivial⟩, ?_⟩
    simp only [deep, Value.fieldsPayload, List.length_append, length_payload_scopedCodes]
    decide
  have decoded := decode_layout writable ⟨subtypesCanonical_scopedCodes 100, trivial⟩
  rw [if_neg tooDeep] at decoded
  exact ⟨Nat.lt_of_not_le tooDeep, _, encode_eq_ok_iff.mpr ⟨writable, rfl⟩, decoded⟩

end Document

end DocumentClient
