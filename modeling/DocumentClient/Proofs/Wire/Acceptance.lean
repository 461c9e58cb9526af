import DocumentClient.Proofs.Wire.Nesting

/-!
# Which documents can be encoded

While a value is written, limits are looked at in many places: names and patterns for zero bytes, the
open containers when one more is entered, and each length when it is about to be written. All of this
comes to three conditions on the whole value, and whatever fails points at one of them.

A writer counts the containers that it has opened itself, and the scope of code has a writer of its own.
So `Value.levels` leaves scopes out, and what holds of the outermost writer holds of each of theirs.

Results:
1. `Value.writable_iff`: a value that is small enough as a whole has no part that is too large.
2. `Write.value_blamed`, `Write.fields_blamed`, `Write.items_blamed`: what stands behind each fault of a
   writer; induction on the value, its fields and its items.
3. `Document.writable_iff`, `Document.encode_blamed`: both for whole documents.
4. `Document.encode_outcome`: which documents can be encoded, and what becomes of the others.
-/

namespace DocumentClient

open Outcome Grammar Bytes

namespace Value

/-! ## Parts of a value -/

/-- The first value is the second or lies in it, at any depth. -/
inductive IsPart : Value → Value → Prop
  | whole (v : Value) : IsPart v v
  | field {part v : Value} {name : String} {entries : List (String × Value)}
      (mem : (name, v) ∈ entries) (inner : IsPart part v) : IsPart part (document entries)
  | item {part v : Value} {values : List Value} (mem : v ∈ values) (inner : IsPart part v) :
      IsPart part (array values)
  | scope {part : Value} {code : String} {entries : List (String × Value)}
      (inner : IsPart part (document entries)) : IsPart part (javaScriptWithScope code entries)

mutual

/-- The levels of documents and arrays that the writer of a value opens. -/
def levels : Value → Nat
  | document fields => 1 + fieldsLevels fields
  | array items => 1 + itemsLevels items
  | _ => 0

/-- The levels of documents and arrays below a list of fields. -/
def fieldsLevels : List (String × Value) → Nat
  | [] => 0
  | (_, v) :: rest => max v.levels (fieldsLevels rest)

/-- The levels of documents and arrays below a list of items. -/
def itemsLevels : List Value → Nat
  | [] => 0
  | v :: rest => max v.levels (itemsLevels rest)

end

/-- No writer of the value has more than `maxNesting` containers open, where the first of them starts
with `depth`. -/
structure ShallowFrom (depth : Nat) (v : Value) : Prop where
  own : depth + v.levels ≤ maxNesting
  scopes : ∀ code scope, (javaScriptWithScope code scope).IsPart v → (document scope).levels ≤ maxNesting

/-- What is ended by a zero byte holds none: the names of fields, patterns and their options. -/
structure ZeroFree (v : Value) : Prop where
  names : ∀ entries, (document entries).IsPart v → ∀ entry ∈ entries, 0 ∉ utf8 entry.1
  patterns : ∀ pattern options, (regularExpression pattern options).IsPart v →
    0 ∉ utf8 pattern ∧ 0 ∉ utf8 options

/-- What a writer with `depth` open containers finds wrong with a value. -/
inductive Blames (depth : Nat) (v : Value) : Fault → Prop
  | name {name : String} {named : Value} {entries : List (String × Value)}
      (here : (document entries).IsPart v) (mem : (name, named) ∈ entries) (zero : 0 ∈ utf8 name) :
      Blames depth v (.malformed (.zeroInName name))
  | pattern {pattern options text : String} (here : (regularExpression pattern options).IsPart v)
      (either : text = pattern ∨ text = options) (zero : 0 ∈ utf8 text) :
      Blames depth v (.malformed (.zeroInText text))
  | nesting (deep : ¬ v.ShallowFrom depth) : Blames depth v .nestingTooDeep
  | size (large : maxDocumentSize < v.payload.length) : Blames depth v .documentTooLarge

/-- The value holds no other value. -/
def Flat : Value → Prop
  | document _ | array _ | javaScriptWithScope _ _ => False
  | _ => True

variable {v part : Value} {entries : List (String × Value)} {values : List Value} {depth : Nat}

theorem isPart_document_iff :
    part.IsPart (document entries) ↔
      part = document entries ∨ ∃ entry ∈ entries, part.IsPart entry.2 := by
  constructor
  · rintro (_ | ⟨mem, inner⟩)
    · exact .inl rfl
    · exact .inr ⟨_, mem, inner⟩
  · rintro (rfl | ⟨entry, mem, inner⟩)
    · exact .whole _
    · exact .field mem inner

theorem isPart_array_iff :
    part.IsPart (array values) ↔ part = array values ∨ ∃ v ∈ values, part.IsPart v := by
  constructor
  · rintro (_ | _ | ⟨mem, inner⟩)
    · exact .inl rfl
    · exact .inr ⟨_, mem, inner⟩
  · rintro (rfl | ⟨v, mem, inner⟩)
    · exact .whole _
    · exact .item mem inner

theorem isPart_scopedCode_iff {code : String} :
    part.IsPart (javaScriptWithScope code entries) ↔
      part = javaScriptWithScope code entries ∨ part.IsPart (document entries) := by
  constructor
  · rintro (_ | _ | _ | inner)
    · exact .inl rfl
    · exact .inr inner
  · rintro (rfl | inner)
    · exact .whole _
    · exact .scope inner

theorem IsPart.trans {whole : Value} (h : part.IsPart v) (outer : v.IsPart whole) :
    part.IsPart whole := by
  induction outer with
  | whole => exact h
  | field mem _ ih => exact .field mem ih
  | item mem _ ih => exact .item mem ih
  | scope _ ih => exact .scope ih

theorem eq_of_isPart_flat (flat : v.Flat) (h : part.IsPart v) : part = v := by
  cases h with
  | whole => rfl
  | field | item | scope => cases flat

/-! ## What is asked of a value, by what it holds -/

/-- What a list counts as the most that one of its members does. -/
theorem add_max_le_iff {α : Type} {count : α → Nat} {most : List α → Nat} (none : most [] = 0)
    (some : ∀ a rest, most (a :: rest) = max (count a) (most rest)) {list : List α} {bound : Nat} :
    depth + most list ≤ bound ↔ depth ≤ bound ∧ ∀ a ∈ list, depth + count a ≤ bound := by
  induction list with
  | nil => simp [none]
  | cons a rest ih =>
    have both : depth + max (count a) (most rest) ≤ bound ↔
        depth + count a ≤ bound ∧ depth + most rest ≤ bound := by omega
    rw [List.forall_mem_cons, some, both, ih]
    exact and_left_comm

theorem shallowFrom_document_iff :
    (document entries).ShallowFrom depth ↔
      depth < maxNesting ∧ ∀ entry ∈ entries, entry.2.ShallowFrom (depth + 1) := by
  have own : depth + (document entries).levels ≤ maxNesting ↔
      depth < maxNesting ∧ ∀ entry ∈ entries, depth + 1 + entry.2.levels ≤ maxNesting := by
    rw [levels, ← Nat.add_assoc, add_max_le_iff rfl fun _ _ => rfl, Nat.succ_le_iff]
  constructor
  · rintro ⟨shallow, scopes⟩
    obtain ⟨below, inner⟩ := own.mp shallow
    exact ⟨below, fun entry mem => ⟨inner entry mem, fun code scope here =>
      scopes code scope (.field mem here)⟩⟩
  · rintro ⟨below, inner⟩
    refine ⟨own.mpr ⟨below, fun entry mem => (inner entry mem).own⟩, fun code scope here => ?_⟩
    obtain ⟨⟨⟩⟩ | ⟨entry, mem, here⟩ := isPart_document_iff.mp here
    exact (inner entry mem).scopes code scope here

theorem shallowFrom_array_iff :
    (array values).ShallowFrom depth ↔
      depth < maxNesting ∧ ∀ v ∈ values, v.ShallowFrom (depth + 1) := by
  have own : depth + (array values).levels ≤ maxNesting ↔
      depth < maxNesting ∧ ∀ v ∈ values, depth + 1 + v.levels ≤ maxNesting := by
    rw [levels, ← Nat.add_assoc, add_max_le_iff rfl fun _ _ => rfl, Nat.succ_le_iff]
  constructor
  · rintro ⟨shallow, scopes⟩
    obtain ⟨below, inner⟩ := own.mp shallow
    exact ⟨below, fun v mem => ⟨inner v mem, fun code scope here =>
      scopes code scope (.item mem here)⟩⟩
  · rintro ⟨below, inner⟩
    refine ⟨own.mpr ⟨below, fun v mem => (inner v mem).own⟩, fun code scope here => ?_⟩
    obtain ⟨⟨⟩⟩ | ⟨v, mem, here⟩ := isPart_array_iff.mp here
    exact (inner v mem).scopes code scope here

/-- The writer of a scope starts without open containers. -/
theorem shallowFrom_scopedCode_iff {code : String} (level : depth ≤ maxNesting) :
    (javaScriptWithScope code entries).ShallowFrom depth ↔ (document entries).ShallowFrom 0 := by
  constructor
  · rintro ⟨-, scopes⟩
    exact ⟨(Nat.zero_add _).trans_le (scopes code entries (.whole _)), fun code scope here =>
      scopes code scope (.scope here)⟩
  · rintro ⟨own, scopes⟩
    refine ⟨level, fun code scope here => ?_⟩
    rcases isPart_scopedCode_iff.mp here with same | here
    · cases same
      exact (Nat.zero_add _).symm.trans_le own
    · exact scopes code scope here

theorem shallowFrom_flat (flat : v.Flat) (level : depth ≤ maxNesting) : v.ShallowFrom depth := by
  refine ⟨?_, fun code scope here => ?_⟩
  · cases v with
    | document | array => cases flat
    | _ => exact level
  · obtain rfl := eq_of_isPart_flat flat here
    cases flat

theorem zeroFree_document_iff :
    (document entries).ZeroFree ↔ ∀ entry ∈ entries, 0 ∉ utf8 entry.1 ∧ entry.2.ZeroFree := by
  constructor
  · rintro ⟨names, patterns⟩ entry mem
    exact ⟨names entries (.whole _) entry mem, fun fields here => names fields (.field mem here),
      fun pattern options here => patterns pattern options (.field mem here)⟩
  · intro free
    refine ⟨fun fields here => ?_, fun pattern options here => ?_⟩
    · rcases isPart_document_iff.mp here with same | ⟨entry, mem, here⟩
      · cases same
        exact fun entry mem => (free entry mem).1
      · exact (free entry mem).2.names fields here
    · obtain ⟨⟨⟩⟩ | ⟨entry, mem, here⟩ := isPart_document_iff.mp here
      exact (free entry mem).2.patterns pattern options here

theorem zeroFree_array_iff : (array values).ZeroFree ↔ ∀ v ∈ values, v.ZeroFree := by
  constructor
  · rintro ⟨names, patterns⟩ v mem
    exact ⟨fun fields here => names fields (.item mem here),
      fun pattern options here => patterns pattern options (.item mem here)⟩
  · intro free
    refine ⟨fun fields here => ?_, fun pattern options here => ?_⟩
    · obtain ⟨⟨⟩⟩ | ⟨v, mem, here⟩ := isPart_array_iff.mp here
      exact (free v mem).names fields here
    · obtain ⟨⟨⟩⟩ | ⟨v, mem, here⟩ := isPart_array_iff.mp here
      exact (free v mem).patterns pattern options here

theorem zeroFree_scopedCode_iff {code : String} :
    (javaScriptWithScope code entries).ZeroFree ↔ (document entries).ZeroFree := by
  constructor
  · rintro ⟨names, patterns⟩
    exact ⟨fun fields here => names fields (.scope here),
      fun pattern options here => patterns pattern options (.scope here)⟩
  · rintro ⟨names, patterns⟩
    refine ⟨fun fields here => ?_, fun pattern options here => ?_⟩
    · exact names fields ((isPart_scopedCode_iff.mp here).resolve_left nofun)
    · exact patterns pattern options ((isPart_scopedCode_iff.mp here).resolve_left nofun)

theorem zeroFree_regularExpression_iff {pattern options : String} :
    (regularExpression pattern options).ZeroFree ↔ 0 ∉ utf8 pattern ∧ 0 ∉ utf8 options := by
  constructor
  · exact fun free => free.patterns pattern options (.whole _)
  · intro free
    refine ⟨fun _ here => ?_, fun _ _ here => ?_⟩
    · cases here
    · cases here
      exact free

theorem zeroFree_flat (flat : v.Flat) (other : v.kind ≠ .regularExpression) : v.ZeroFree := by
  refine ⟨fun fields here => ?_, fun pattern options here => ?_⟩
  · obtain rfl := eq_of_isPart_flat flat here
    cases flat
  · obtain rfl := eq_of_isPart_flat flat here
    exact absurd rfl other

/-! ## Size as a whole and in parts -/

theorem length_textLayout (text : String) : (textLayout text).length = (utf8 text).length + 5 := by
  simp only [textLayout, List.length_append, length_digits, List.length_singleton]
  omega

theorem length_binaryLayout (data : Binary) : (binaryLayout data).length =
    (if data.subtype = .binaryOld then data.bytes.size + 4 else data.bytes.size) + 5 := by
  have count : data.bytes.data.toList.length = data.bytes.size := by
    rw [Array.length_toList, ByteArray.size_data]
  unfold binaryLayout
  split
  · simp only [List.length_append, List.length_cons, length_digits, count]
    omega
  · simp only [List.length_append, List.length_cons, length_digits, count]
    omega

theorem length_payload_scopedCode (code : String) (scope : List (String × Value)) :
    (javaScriptWithScope code scope).payload.length =
      (textLayout code ++ frame (fieldsPayload scope)).length + 4 := by
  rw [payload, List.length_append, length_digits, Nat.add_comm]

mutual

/-- A value that is small enough as a whole is accepted if no zero byte and no depth stands against it. -/
theorem writable_iff : (v : Value) → ∀ {depth : Nat}, depth ≤ maxNesting →
    v.payload.length ≤ maxDocumentSize → (v.Writable depth ↔ v.ZeroFree ∧ v.ShallowFrom depth)
  | .document entries, depth, _, small => by
    rw [payload, length_frame] at small
    rw [Writable, zeroFree_document_iff, shallowFrom_document_iff]
    constructor
    · rintro ⟨below, inner, -⟩
      have fits := (fieldsWritable_iff entries below (by omega)).mp inner
      exact ⟨fun e mem => ⟨(fits e mem).1, (fits e mem).2.1⟩, below, fun e mem => (fits e mem).2.2⟩
    · rintro ⟨free, below, shallow⟩
      refine ⟨below, (fieldsWritable_iff entries below (by omega)).mpr fun e mem => ?_, small⟩
      exact ⟨(free e mem).1, (free e mem).2, shallow e mem⟩
  | .array values, depth, _, small => by
    rw [payload, length_frame] at small
    rw [Writable, zeroFree_array_iff, shallowFrom_array_iff]
    constructor
    · rintro ⟨below, inner, -⟩
      have fits := (itemsWritable_iff values 0 below (by omega)).mp inner
      exact ⟨fun v mem => (fits v mem).1, below, fun v mem => (fits v mem).2⟩
    · rintro ⟨free, below, shallow⟩
      refine ⟨below, (itemsWritable_iff values 0 below (by omega)).mpr fun v mem => ?_, small⟩
      exact ⟨free v mem, shallow v mem⟩
  | .javaScriptWithScope code scope, depth, level, small => by
    rw [length_payload_scopedCode] at small
    have parts := small
    rw [List.length_append, length_textLayout, length_frame] at parts
    have inner := fieldsWritable_iff scope (show 1 ≤ maxNesting by decide) (by omega)
    rw [Writable, zeroFree_scopedCode_iff, shallowFrom_scopedCode_iff level, zeroFree_document_iff,
      shallowFrom_document_iff, inner]
    constructor
    · rintro ⟨-, fits, -, -⟩
      exact ⟨fun e mem => ⟨(fits e mem).1, (fits e mem).2.1⟩, by decide, fun e mem => (fits e mem).2.2⟩
    · rintro ⟨free, -, shallow⟩
      refine ⟨by omega, fun e mem => ?_, by omega, small⟩
      exact ⟨(free e mem).1, (free e mem).2, shallow e mem⟩
  | .regularExpression pattern options, depth, level, _ => by
    have shallow := shallowFrom_flat (v := regularExpression pattern options) trivial level
    rw [Writable, zeroFree_regularExpression_iff, and_iff_left shallow]
  | .string _, _, level, small | .javaScript _, _, level, small | .symbol _, _, level, small => by
    rw [payload, length_textLayout] at small
    exact iff_of_true (by rw [Writable]; omega)
      ⟨zeroFree_flat trivial nofun, shallowFrom_flat trivial level⟩
  | .dbPointer _ _, _, level, small => by
    rw [payload, List.length_append, length_textLayout] at small
    exact iff_of_true (by rw [Writable]; omega)
      ⟨zeroFree_flat trivial nofun, shallowFrom_flat trivial level⟩
  | .binary _, _, level, small => by
    rw [payload, length_binaryLayout] at small
    exact iff_of_true (by rw [Writable]; omega)
      ⟨zeroFree_flat trivial nofun, shallowFrom_flat trivial level⟩
  | .double _, _, level, _ | .undefined, _, level, _ | .objectId _, _, level, _
  | .boolean _, _, level, _ | .dateTime _, _, level, _ | .null, _, level, _ | .int32 _, _, level, _
  | .timestamp _, _, level, _ | .int64 _, _, level, _ | .decimal128 _, _, level, _
  | .minKey, _, level, _ | .maxKey, _, level, _ =>
    iff_of_true trivial ⟨zeroFree_flat trivial nofun, shallowFrom_flat trivial level⟩

theorem fieldsWritable_iff : (entries : List (String × Value)) → ∀ {depth : Nat}, depth ≤ maxNesting →
    (fieldsPayload entries).length ≤ maxDocumentSize → (FieldsWritable depth entries ↔
      ∀ e ∈ entries, 0 ∉ utf8 e.1 ∧ e.2.ZeroFree ∧ e.2.ShallowFrom depth)
  | [], _, _, _ => iff_of_true trivial (List.forall_mem_nil _)
  | (_, v) :: rest, _, level, small => by
    rw [fieldsPayload, List.length_append, List.length_append] at small
    rw [FieldsWritable, List.forall_mem_cons, writable_iff v level (by omega),
      fieldsWritable_iff rest level (by omega), ← and_assoc]

theorem itemsWritable_iff : (values : List Value) → (index : Nat) → ∀ {depth : Nat},
    depth ≤ maxNesting → (itemsPayload index values).length ≤ maxDocumentSize →
    (ItemsWritable depth values ↔ ∀ v ∈ values, v.ZeroFree ∧ v.ShallowFrom depth)
  | [], _, _, _, _ => iff_of_true trivial (List.forall_mem_nil _)
  | v :: rest, index, _, level, small => by
    rw [itemsPayload, List.length_append, List.length_append] at small
    rw [ItemsWritable, List.forall_mem_cons, writable_iff v level (by omega),
      itemsWritable_iff rest (index + 1) level (by omega)]

end

/-! ## What is blamed on a part -/

variable {w w' w₁ : Writer} {fault : Fault} {whole : Value} {inner : Nat}

/-- What is wrong with a part is wrong with the whole. -/
theorem Blames.lift (h : v.Blames inner fault) (part : v.IsPart whole)
    (shallow : whole.ShallowFrom depth → v.ShallowFrom inner)
    (size : v.payload.length ≤ whole.payload.length) : whole.Blames depth fault := by
  cases h with
  | name here mem zero => exact .name (here.trans part) mem zero
  | pattern here either zero => exact .pattern (here.trans part) either zero
  | nesting deep => exact .nesting (mt shallow deep)
  | size large => exact .size (large.trans_le size)

theorem length_payload_le_fields {entry : String × Value} (mem : entry ∈ entries) :
    entry.2.payload.length ≤ (fieldsPayload entries).length := by
  induction entries with
  | nil => cases mem
  | cons other rest ih =>
    rw [fieldsPayload, List.length_append, List.length_append]
    rcases List.mem_cons.mp mem with rfl | mem
    · omega
    · have := ih mem
      omega

theorem length_payload_le_items (mem : v ∈ values) (index : Nat) :
    v.payload.length ≤ (itemsPayload index values).length := by
  induction values generalizing index with
  | nil => cases mem
  | cons other rest ih =>
    rw [itemsPayload, List.length_append, List.length_append]
    rcases List.mem_cons.mp mem with rfl | mem
    · omega
    · have := ih mem (index + 1)
      omega

theorem Blames.field {name : String} (h : v.Blames (depth + 1) fault) (mem : (name, v) ∈ entries) :
    (document entries).Blames depth fault := by
  refine h.lift (.field mem (.whole v)) (fun shallow => ?_) ?_
  · exact (shallowFrom_document_iff.mp shallow).2 _ mem
  · rw [payload, length_frame]
    exact (length_payload_le_fields mem).trans (Nat.le_add_right _ _)

theorem Blames.item (h : v.Blames (depth + 1) fault) (mem : v ∈ values) :
    (array values).Blames depth fault := by
  refine h.lift (.item mem (.whole v)) (fun shallow => ?_) ?_
  · exact (shallowFrom_array_iff.mp shallow).2 _ mem
  · rw [payload, length_frame]
    exact (length_payload_le_items mem 0).trans (Nat.le_add_right _ _)

theorem Blames.scope {code : String} (h : (document entries).Blames 0 fault) :
    (javaScriptWithScope code entries).Blames depth fault := by
  refine h.lift (.scope (.whole _)) (fun shallow => ?_) ?_
  · have level : depth ≤ maxNesting := (Nat.le_add_right _ _).trans shallow.own
    exact (shallowFrom_scopedCode_iff level).mp shallow
  · rw [length_payload_scopedCode, List.length_append, payload]
    omega

end Value

/-! ## Faults of parts -/

theorem textBytes_eq_error_iff {text : String} {fault : Fault} :
    textBytes text = .error fault ↔
      maxDocumentSize < (utf8 text).length + 1 ∧ fault = .documentTooLarge := by
  rw [length_utf8]
  unfold textBytes
  cases hs : lengthBytes (text.utf8ByteSize + 1) with
  | error other =>
    obtain ⟨large, rfl⟩ := lengthBytes_eq_error_iff.mp hs
    simp [large, eq_comm]
  | ok size =>
    obtain ⟨fits, -⟩ := lengthBytes_eq_ok_iff.mp hs
    exact iff_of_false nofun fun large => absurd fits (Nat.not_le.mpr large.1)

theorem zeroEndedBytes_eq_error_iff {text : String} {fault : Fault} :
    zeroEndedBytes text = .error fault ↔
      0 ∈ utf8 text ∧ fault = .malformed (.zeroInText text) := by
  unfold zeroEndedBytes
  rw [zero_mem_utf8_iff]
  split
  · next zero => simp [zero, eq_comm]
  · next free => simp [free]

namespace Write

variable {w w' w₁ : Writer} {fault : Fault} {text : String} {first rest : Write Unit}

theorem name_eq_error {base body : ByteArray} {outer : List OpenContainer}
    (h : name text ⟨base, ⟨body, none⟩ :: outer, .name, none⟩ = .error fault w') :
    0 ∈ utf8 text ∧ fault = .malformed (.zeroInName text) := by
  unfold name at h
  rw [get_bind] at h
  simp only [guard_eq_error_iff] at h
  rcases h with ⟨late, -⟩ | ⟨-, ⟨unnamed, -⟩ | ⟨-, ⟨zero, rfl, -⟩ | ⟨-, h⟩⟩⟩
  · exact absurd rfl late
  · cases unnamed
  · exact ⟨(zero_mem_utf8_iff text).mpr zero, rfl⟩
  · cases h

theorem closeContainer_eq_error {base body : ByteArray} {index : Option Nat}
    {outer : List OpenContainer} {phase : WritePhase} {name : Option String}
    (h : closeContainer ⟨base, ⟨body, index⟩ :: outer, phase, name⟩ = .error fault w') :
    maxDocumentSize < body.size + minDocumentSize ∧ fault = .documentTooLarge := by
  unfold closeContainer at h
  rw [get_bind] at h
  dsimp only at h
  rw [set_bind] at h
  cases hl : lengthBytes (body.size + minDocumentSize) with
  | error large =>
    obtain ⟨large, rfl⟩ := lengthBytes_eq_error_iff.mp hl
    rw [hl] at h
    cases h
    exact ⟨large, rfl⟩
  | ok size =>
    rw [hl] at h
    cases h

theorem endDocument_eq {base body : ByteArray} {outer : List OpenContainer} :
    endDocument ⟨base, ⟨body, none⟩ :: outer, .name, none⟩ =
      closeContainer ⟨base, ⟨body, none⟩ :: outer, .name, none⟩ := rfl

theorem endArray_eq {base body : ByteArray} {outer : List OpenContainer} {index : Nat} :
    endArray ⟨base, ⟨body, some index⟩ :: outer, .name, none⟩ =
      closeContainer ⟨base, ⟨body, some index⟩ :: outer, .name, none⟩ := rfl

/-! ## Faults of values -/

/-- Whatever fault comes up has the cause. -/
def FailsFor (write : Write Unit) (cause : Fault → Prop) : Prop :=
  ∀ w fault w', write w = .error fault w' → cause fault

/-- The fault of a value is blamed on it. -/
def ValueBlamed (v : Value) : Prop :=
  ∀ ⦃w w' w₁ : Writer⦄ ⦃text : String⦄ ⦃fault : Fault⦄, w.Awaits text w₁ →
    value v w = .error fault w' → v.Blames w.containers.length fault

/-- The fault of fields is blamed on one of them. -/
def FieldsBlamed (entries : List (String × Value)) : Prop :=
  ∀ ⦃base body : ByteArray⦄ ⦃outer : List OpenContainer⦄ ⦃w' : Writer⦄ ⦃fault : Fault⦄,
    fields entries ⟨base, ⟨body, none⟩ :: outer, .name, none⟩ = .error fault w' →
      ∃ entry ∈ entries, (0 ∈ utf8 entry.1 ∧ fault = .malformed (.zeroInName entry.1)) ∨
        entry.2.Blames (outer.length + 1) fault

/-- The fault of items is blamed on one of them. -/
def ItemsBlamed (values : List Value) : Prop :=
  ∀ ⦃base body : ByteArray⦄ ⦃outer : List OpenContainer⦄ ⦃index : Nat⦄ ⦃w' : Writer⦄ ⦃fault : Fault⦄,
    items values ⟨base, ⟨body, some index⟩ :: outer, .name, none⟩ = .error fault w' →
      ∃ v ∈ values, v.Blames (outer.length + 1) fault

namespace FailsFor

variable {cause : Fault → Prop}

theorem put (bytes : ByteArray) : FailsFor (put bytes) cause :=
  fun _ _ _ h => nomatch h

theorem endValue : FailsFor endValue cause :=
  fun _ _ _ h => nomatch h

theorem putPart {part : Except Fault ByteArray} (why : ∀ fault, part = .error fault → cause fault) :
    FailsFor (putPart part) cause := by
  cases part with
  | ok bytes => exact .put bytes
  | error fault =>
    rintro w _ w' ⟨⟩
    exact why fault rfl

theorem bind (hf : FailsFor first cause) (hr : FailsFor rest cause) :
    FailsFor (first >>= fun _ => rest) cause := by
  intro w fault w' h
  rcases bind_eq_error_iff.mp h with h | ⟨⟨⟩, m, -, h⟩
  · exact hf _ _ _ h
  · exact hr _ _ _ h

theorem throw_behind {bytes : ByteArray} {fault : Fault} (why : cause fault) :
    FailsFor (Write.put bytes >>= fun _ => throw fault) cause := by
  rintro w _ w' ⟨⟩
  exact why

/-- Behind the tag and the name of a value it does not matter where the value stands. -/
theorem blamed {v : Value} (h : ∀ depth, FailsFor rest (v.Blames depth))
    (write : value v = beginValue v.kind >>= fun _ => rest) : ValueBlamed v := by
  intro w w' w₁ text fault awaits fails
  rw [write, bind_of_ok (beginValue_of_awaits awaits)] at fails
  exact h _ _ _ _ fails

end FailsFor

theorem blames_text {v : Value} {depth : Nat} (text : String)
    (part : (textLayout text).length ≤ v.payload.length) :
    FailsFor (putPart (textBytes text)) (v.Blames depth) := by
  refine .putPart fun fault h => ?_
  obtain ⟨large, rfl⟩ := textBytes_eq_error_iff.mp h
  rw [Value.length_textLayout] at part
  exact .size (by omega)

theorem blames_length {v : Value} {depth : Nat} (n : Nat) (part : n ≤ v.payload.length) :
    FailsFor (putPart (lengthBytes n)) (v.Blames depth) := by
  refine .putPart fun fault h => ?_
  obtain ⟨large, rfl⟩ := lengthBytes_eq_error_iff.mp h
  exact .size (large.trans_le part)

theorem scalar_blamed {v : Value} {part : Except Fault ByteArray}
    (h : ∀ depth, FailsFor (putPart part) (v.Blames depth)) (write : value v = scalar v.kind part) :
    ValueBlamed v :=
  FailsFor.blamed (fun depth => (h depth).bind .endValue) write

theorem fixed_blamed {v : Value} {bytes : ByteArray} (write : value v = scalar v.kind (.ok bytes)) :
    ValueBlamed v := by
  refine scalar_blamed (fun depth => ?_) write
  exact .put bytes

theorem binary_blamed (data : Binary) : ValueBlamed (.binary data) := by
  have size := Value.length_binaryLayout data
  by_cases old : data.subtype = .binaryOld
  · rw [if_pos old] at size
    refine FailsFor.blamed (fun depth => .bind (blames_length (data.bytes.size + 4) ?_)
      (.bind (.put (.push .empty data.subtype.toByte)) (.bind (blames_length data.bytes.size ?_)
        (.bind (.put data.bytes) .endValue)))) ?_
    · rw [Value.payload]
      omega
    · rw [Value.payload]
      omega
    · rw [value, binary]
      simp only [if_pos old]
      rfl
  · rw [if_neg old] at size
    refine FailsFor.blamed (fun depth => .bind (blames_length data.bytes.size ?_)
      (.bind (.put (.push .empty data.subtype.toByte)) (.bind (.put data.bytes) .endValue))) ?_
    · rw [Value.payload]
      omega
    · rw [value, binary]
      simp only [if_neg old]
      rfl

theorem regularExpression_blamed (pattern options : String) :
    ValueBlamed (.regularExpression pattern options) := by
  have part (depth : Nat) (text : String) (either : text = pattern ∨ text = options) :
      FailsFor (putPart (zeroEndedBytes text))
        ((Value.regularExpression pattern options).Blames depth) := by
    refine .putPart fun fault h => ?_
    obtain ⟨zero, rfl⟩ := zeroEndedBytes_eq_error_iff.mp h
    exact .pattern (.whole _) either zero
  exact FailsFor.blamed (fun depth => .bind (part depth pattern (.inl rfl))
    (.bind (part depth options (.inr rfl)) .endValue)) rfl

theorem dbPointer_blamed (collection : String) (id : ObjectId) :
    ValueBlamed (.dbPointer collection id) := by
  refine FailsFor.blamed (fun depth => .bind (blames_text collection ?_)
    (.bind (.put id.toBytes) .endValue)) rfl
  rw [Value.payload, List.length_append]
  exact Nat.le_add_right _ _

/-! ## Faults of containers -/

/-- The rest of a document that has been entered. -/
theorem entered_document_blamed {entries : List (String × Value)} (blamed : FieldsBlamed entries)
    {base : ByteArray} {outer : List OpenContainer}
    (h : (fields entries >>= fun _ => endDocument) ⟨base, ⟨.empty, none⟩ :: outer, .name, none⟩ =
      .error fault w') : (Value.document entries).Blames outer.length fault := by
  rcases bind_eq_error_iff.mp h with h | ⟨⟨⟩, m, ok, h⟩
  · obtain ⟨⟨name, v⟩, mem, ⟨zero, rfl⟩ | inner⟩ := blamed h
    · exact .name (.whole _) mem zero
    · exact inner.field mem
  · obtain ⟨-, rfl⟩ := (fields_laid entries).mp ok
    obtain ⟨large, rfl⟩ := closeContainer_eq_error (endDocument_eq ▸ h)
    rw [ByteArray.empty_append, List.size_toByteArray] at large
    refine .size ?_
    rwa [Value.payload, length_frame]

/-- The rest of an array that has been entered. -/
theorem entered_array_blamed {values : List Value} (blamed : ItemsBlamed values)
    {base : ByteArray} {outer : List OpenContainer}
    (h : (items values >>= fun _ => endArray) ⟨base, ⟨.empty, some 0⟩ :: outer, .name, none⟩ =
      .error fault w') : (Value.array values).Blames outer.length fault := by
  rcases bind_eq_error_iff.mp h with h | ⟨⟨⟩, m, ok, h⟩
  · obtain ⟨v, mem, inner⟩ := blamed h
    exact inner.item mem
  · obtain ⟨-, rfl⟩ := (items_laid values).mp ok
    obtain ⟨large, rfl⟩ := closeContainer_eq_error (endArray_eq ▸ h)
    rw [ByteArray.empty_append, List.size_toByteArray] at large
    refine .size ?_
    rwa [Value.payload, length_frame]

/-- A container is entered unless it would lie too deep. -/
theorem openContainer_blamed {v : Value} {index : Option Nat} {depth : Nat} (container : 0 < v.levels)
    (h : openContainer index w = .error fault w') (level : w.containers.length = depth) :
    v.Blames depth fault := by
  obtain ⟨deep, rfl, -⟩ := openContainer_eq_error_iff.mp h
  refine .nesting fun shallow => ?_
  have own := shallow.own
  omega

theorem document_blamed {entries : List (String × Value)} (blamed : FieldsBlamed entries) :
    ValueBlamed (.document entries) := by
  intro w w' w₁ text fault awaits h
  have level : (w₁.add (header .document text)).containers.length = w.containers.length := by
    cases awaits <;> rfl
  rw [value, documentOf, bind_eq_bind (startDocument_of_awaits awaits)] at h
  rcases bind_eq_error_iff.mp h with h | ⟨⟨⟩, m, opened, h⟩
  · exact openContainer_blamed (Nat.lt_add_right _ Nat.one_pos) h level
  · obtain ⟨-, rfl⟩ := (openContainer_laid awaits).mp opened
    exact level ▸ entered_document_blamed blamed h

theorem array_blamed {values : List Value} (blamed : ItemsBlamed values) :
    ValueBlamed (.array values) := by
  intro w w' w₁ text fault awaits h
  have level : (w₁.add (header .array text)).containers.length = w.containers.length := by
    cases awaits <;> rfl
  rw [value, arrayOf, bind_eq_bind (startArray_of_awaits awaits)] at h
  rcases bind_eq_error_iff.mp h with h | ⟨⟨⟩, m, opened, h⟩
  · exact openContainer_blamed (Nat.lt_add_right _ Nat.one_pos) h level
  · obtain ⟨-, rfl⟩ := (openContainer_laid awaits).mp opened
    exact level ▸ entered_array_blamed blamed h

/-- A writer of its own is never left before its document is finished. -/
theorem alone_blamed {entries : List (String × Value)} (blamed : FieldsBlamed entries)
    (h : alone (documentOf (fields entries)) = .error fault) :
    (Value.document entries).Blames 0 fault := by
  unfold alone at h
  split at h
  · next u w' ok =>
    obtain ⟨-, rfl⟩ := (whole_laid (fields_laid entries) .empty).mp ok
    cases h
  · next other w' fails =>
    obtain rfl := Except.error.inj h
    rcases bind_eq_error_iff.mp fails with start | ⟨⟨⟩, m, start, h⟩
    · cases start
    · cases start
      exact entered_document_blamed blamed h

theorem scopedCode_blamed {code : String} {scope : List (String × Value)}
    (blamed : FieldsBlamed scope) : ValueBlamed (.javaScriptWithScope code scope) := by
  refine FailsFor.blamed (fun depth => ?_) rfl
  have whole := Value.length_payload_scopedCode code scope
  rw [List.length_append] at whole
  cases ht : textBytes code with
  | error fault =>
    obtain ⟨large, rfl⟩ := textBytes_eq_error_iff.mp ht
    rw [Value.length_textLayout] at whole
    exact .throw_behind (.size (by omega))
  | ok text =>
    obtain ⟨-, rfl⟩ := textBytes_eq_ok_iff.mp ht
    cases hs : alone (documentOf (fields scope)) with
    | error fault =>
      dsimp only
      exact .throw_behind (alone_blamed blamed hs).scope
    | ok bytes =>
      obtain ⟨-, rfl⟩ := (alone_laid (fields_laid scope)).mp hs
      dsimp only
      cases hl : lengthBytes (4 + (textLayout code).toByteArray.size +
          (Value.document scope).payload.toByteArray.size) with
      | error fault =>
        obtain ⟨large, rfl⟩ := lengthBytes_eq_error_iff.mp hl
        rw [List.size_toByteArray, List.size_toByteArray, Value.payload] at large
        dsimp only
        exact .throw_behind (.size (by omega))
      | ok length =>
        dsimp only
        exact .bind (.put _) .endValue

/-! ## Faults of whole values -/

theorem fields_nil_blamed : FieldsBlamed [] :=
  fun _ _ _ _ _ h => nomatch h

theorem fields_cons_blamed {name : String} {v : Value} {rest : List (String × Value)}
    (here : ValueBlamed v) (behind : FieldsBlamed rest) : FieldsBlamed ((name, v) :: rest) := by
  intro base body outer w' fault h
  have awaits := Writer.Awaits.field base body outer name
  rw [fields] at h
  rcases bind_eq_error_iff.mp h with h | ⟨⟨⟩, m, named, h⟩
  · exact ⟨_, List.mem_cons_self, .inl (name_eq_error h)⟩
  · obtain ⟨-, rfl⟩ := name_eq_ok_iff.mp named
    rcases bind_eq_error_iff.mp h with h | ⟨⟨⟩, m, ok, h⟩
    · exact ⟨_, List.mem_cons_self, .inr (here awaits h)⟩
    · obtain ⟨-, rfl⟩ := (value_laid v awaits).mp ok
      obtain ⟨entry, mem, why⟩ := behind h
      exact ⟨entry, List.mem_cons_of_mem _ mem, why⟩

theorem items_nil_blamed : ItemsBlamed [] :=
  fun _ _ _ _ _ _ h => nomatch h

theorem items_cons_blamed {v : Value} {rest : List Value} (here : ValueBlamed v)
    (behind : ItemsBlamed rest) : ItemsBlamed (v :: rest) := by
  intro base body outer index w' fault h
  have awaits := Writer.Awaits.item base body outer index
  rw [items] at h
  rcases bind_eq_error_iff.mp h with h | ⟨⟨⟩, m, ok, h⟩
  · exact ⟨_, List.mem_cons_self, here awaits h⟩
  · obtain ⟨-, rfl⟩ := (value_laid v awaits).mp ok
    obtain ⟨u, mem, why⟩ := behind h
    exact ⟨u, List.mem_cons_of_mem _ mem, why⟩

mutual

/-- What a writer finds wrong with a value is wrong with it. -/
theorem value_blamed : (v : Value) → ValueBlamed v
  | .document entries => document_blamed (fields_blamed entries)
  | .array values => array_blamed (items_blamed values)
  | .javaScriptWithScope _ scope => scopedCode_blamed (fields_blamed scope)
  | .binary data => binary_blamed data
  | .regularExpression pattern options => regularExpression_blamed pattern options
  | .dbPointer collection id => dbPointer_blamed collection id
  | .string text | .javaScript text | .symbol text =>
    scalar_blamed (fun _ => blames_text text (Nat.le_refl _)) rfl
  | .double _ | .undefined | .objectId _ | .boolean _ | .dateTime _ | .null | .int32 _
  | .timestamp _ | .int64 _ | .decimal128 _ | .minKey | .maxKey =>
    fixed_blamed rfl

theorem fields_blamed : (entries : List (String × Value)) → FieldsBlamed entries
  | [] => fields_nil_blamed
  | (_, v) :: rest => fields_cons_blamed (value_blamed v) (fields_blamed rest)

theorem items_blamed : (values : List Value) → ItemsBlamed values
  | [] => items_nil_blamed
  | v :: rest => items_cons_blamed (value_blamed v) (items_blamed rest)

end

end Write

namespace Document

/-! ## Whole documents -/

/-- No writer of the document has more than `maxNesting` containers open. -/
def Shallow (doc : Document) : Prop :=
  (Value.document doc.fields).ShallowFrom 0

/-- No name of a field, no pattern and no options hold a zero byte. -/
def ZeroFree (doc : Document) : Prop :=
  (Value.document doc.fields).ZeroFree

theorem length_layout (doc : Document) :
    doc.layout.length = (Value.fieldsPayload doc.fields).length + minDocumentSize := by
  rw [layout, Value.payload, length_frame]

theorem writable_iff {doc : Document} :
    doc.Writable ↔ doc.ZeroFree ∧ doc.Shallow ∧ doc.layout.length ≤ maxDocumentSize := by
  constructor
  · intro writable
    have small : doc.layout.length ≤ maxDocumentSize := doc.length_layout ▸ writable.2.2
    obtain ⟨free, shallow⟩ := (Value.writable_iff _ (Nat.zero_le _) small).mp writable
    exact ⟨free, shallow, small⟩
  · rintro ⟨free, shallow, small⟩
    exact (Value.writable_iff _ (Nat.zero_le _) small).mpr ⟨free, shallow⟩

/-- What keeps a document from being encoded is wrong with it. -/
theorem encode_blamed {doc : Document} {fault : Fault} (h : doc.encode = .error fault) :
    (Value.document doc.fields).Blames 0 fault :=
  Write.alone_blamed (Write.fields_blamed doc.fields) h

/-- A document tells its size at its front. -/
theorem declaredSize_layout {doc : Document} (small : doc.layout.length ≤ maxDocumentSize) :
    declaredSize doc.layout.toByteArray = .ok doc.layout.length := by
  have size := doc.length_layout
  have form : doc.layout = digits 4 doc.layout.length ++ (Value.fieldsPayload doc.fields ++ [0]) := by
    rw [size, layout, Value.payload, frame, List.append_assoc]
  have front : doc.layout.toByteArray.extract 0 4 = (digits 4 doc.layout.length).toByteArray := by
    have len : 4 = (digits 4 doc.layout.length).toByteArray.size := by
      rw [List.size_toByteArray, length_digits]
    rw [form, List.toByteArray_append, ← form]
    exact ByteArray.extract_append_eq_left len
  have word := (isLength_iff.mp (isLength_digits small)).2
  have least : minDocumentSize = 5 := rfl
  unfold declaredSize
  rw [List.size_toByteArray, if_neg (by omega), front]
  dsimp only
  rw [word, if_neg (by omega), Int.toNat_natCast]

/-- A document can be encoded iff what a zero byte ends holds none, no writer has more than `maxNesting`
containers open, and its bytes are at most `maxDocumentSize`. If it cannot, it fails for one of these
reasons. If it can, the bytes are those of its layout and tell how many they are. -/
theorem encode_outcome (doc : Document) :
    ((∃ bytes, doc.encode = .ok bytes) ↔
      doc.ZeroFree ∧ doc.Shallow ∧ doc.layout.length ≤ maxDocumentSize) ∧
    (∀ fault, doc.encode = .error fault → (Value.document doc.fields).Blames 0 fault) ∧
    ∀ bytes, doc.encode = .ok bytes →
      bytes.data.toList = doc.layout ∧ declaredSize bytes = .ok bytes.size := by
  refine ⟨?_, fun fault => encode_blamed, fun bytes h => ?_⟩
  · rw [← writable_iff]
    constructor
    · rintro ⟨bytes, h⟩
      exact (encode_eq_ok_iff.mp h).1
    · exact fun writable => ⟨_, encode_eq_ok_iff.mpr ⟨writable, rfl⟩⟩
  · obtain ⟨writable, rfl⟩ := encode_eq_ok_iff.mp h
    obtain ⟨-, -, small⟩ := writable_iff.mp writable
    rw [List.size_toByteArray, List.toList_data_toByteArray]
    exact ⟨rfl, declaredSize_layout small⟩

end Document

end DocumentClient
