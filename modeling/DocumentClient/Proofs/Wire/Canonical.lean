import DocumentClient.Proofs.Wire.Acceptance

/-!
# Which byte strings are written again as they were read

A reader keeps the first value of each name and no name of an item. A writer names items by their places.
So two byte strings may be read as one document, and at most one of them is written again. All the rest
of a byte string is told by the document: every value has one form.

* `Grammar.Inside`: a container of some elements lies in the bytes of a value, at any depth.
* `Container.Names`: the names that elements of a container have when a writer gives them.

Results:
1. `Grammar.Derives.unique`, `Grammar.IsContainer.unique`: the grammar is not ambiguous.
2. `Grammar.Derives.readable`: what is derived has unique names and canonical subtypes, no zero byte where
   one would end a text, and nests at most `maxNesting` deep.
3. `Grammar.eq_payload_of_names`: bytes in which all names are as a writer gives them are written again;
   induction on the derivation.
4. `Grammar.names_of_payload`: what is written has such names at every depth; induction on the way to the
   container.
5. `Document.encode_of_decode`: both together.
-/

namespace DocumentClient

open Outcome Grammar Bytes

/-- The names of elements as a writer gives them: a document repeats none, and an array tells the places
of its items in decimal. -/
def Container.Names : Container → List String → Prop
  | .document, names => names.Nodup
  | .array, names => names = (List.range names.length).map toString

namespace Grammar

/-- A container of the elements lies in the bytes of a value of some kind, inside `depth` others, or is
this value. -/
inductive Inside (container : Container) (elements : List Element) : Nat → Kind → List UInt8 → Prop
  | whole {depth : Nat} {bytes : List UInt8} (here : IsContainer depth elements bytes) :
      Inside container elements depth container.kind bytes
  | element {depth : Nat} {bytes : List UInt8} (outer : Container) {others : List Element} {e : Element}
      (here : IsContainer depth others bytes) (mem : e ∈ others)
      (inner : Inside container elements (depth + 1) e.value.kind e.payload) :
      Inside container elements depth outer.kind bytes
  | scope {depth : Nat} {size text block : List UInt8} {code : String}
      (isSize : IsLength size (size ++ text ++ block).length) (isText : IsText text code)
      (inner : Inside container elements depth .document block) :
      Inside container elements depth .javaScriptWithScope (size ++ text ++ block)

/-! ## One form for each value -/

variable {depth : Nat} {bs bs' x y : List UInt8} {v v' : Value}

theorem utf8_injective {left right : String} (h : utf8 left = utf8 right) : left = right := by
  have bytes : left.toByteArray = right.toByteArray := by
    rw [← toByteArray_utf8, ← toByteArray_utf8, h]
  exact String.toByteArray_inj.mp bytes

theorem tag_injective {kind other : Kind} (h : kind.tag = other.tag) : kind = other :=
  Option.some.inj ((Kind.ofTag?_tag kind).symm.trans (h ▸ Kind.ofTag?_tag other))

/-- A value of a kind stands at the front of some bytes in one way at most, since a reader finds it
there. -/
theorem Derives.unique (h : Derives (depth + 1) bs v) (h' : Derives (depth + 1) bs' v')
    (kind : v.kind = v'.kind) (same : bs ++ x = bs' ++ y) : bs = bs' ∧ v = v' := by
  let r : Reader :=
    { data := (bs ++ x).toByteArray, frames := [⟨.document, (bs ++ x).length⟩], phase := .value,
      kind := some v.kind, outerDepth := depth }
  have ahead {front rest : List UInt8} (split : bs ++ x = front ++ rest) : r.Ahead front := by
    have all := (@Read.front_ahead_iff _ _ depth).mpr (split ▸ List.prefix_append front rest)
    refine all.transfer rfl rfl ?_
    show 0 + front.length ≤ (bs ++ x).length
    rw [split, List.length_append]
    omega
  have enough : bs.length < bs.length + bs'.length + 1 ∧ bs'.length < bs.length + bs'.length + 1 := by
    omega
  obtain ⟨name, read⟩ := (Read.complete _).1 enough.1 (show Derives r.depth bs v from h) rfl rfl
    (List.cons_ne_nil _ _) (ahead rfl)
  obtain ⟨name', read'⟩ := (Read.complete _).1 enough.2 (show Derives r.depth bs' v' from h') rfl
    (congrArg some kind) (List.cons_ne_nil _ _) (ahead same)
  rw [read] at read'
  injection read' with value reader
  have len : 0 + bs.length = 0 + bs'.length := congrArg (fun r : Reader => r.pos) reader
  exact ⟨(List.append_inj same (by omega)).1, value⟩

/-- What stands before the first zero byte is told by the bytes. -/
theorem zeroEnded_unique {left right : List UInt8} (free : 0 ∉ left) (free' : 0 ∉ right)
    (same : left ++ 0 :: x = right ++ 0 :: y) : left = right ∧ x = y := by
  rcases List.append_eq_append_iff.mp same with ⟨c, rfl, rest⟩ | ⟨c, rfl, rest⟩
  · cases c with
    | nil => exact ⟨(List.append_nil _).symm, (List.cons.inj rest).2⟩
    | cons b c => exact absurd (List.mem_append_right _ ((List.cons.inj rest).1 ▸ List.mem_cons_self)) free'
  · cases c with
    | nil => exact ⟨List.append_nil _, (List.cons.inj rest).2.symm⟩
    | cons b c => exact absurd (List.mem_append_right _ ((List.cons.inj rest).1 ▸ List.mem_cons_self)) free

/-- A name and what follows it are told by the bytes. -/
theorem header_unique {kind other : Kind} {name text : String} (free : 0 ∉ utf8 name)
    (free' : 0 ∉ utf8 text) (same : header kind name ++ x = header other text ++ y) :
    kind = other ∧ name = text ∧ x = y := by
  simp only [header, List.cons_append, List.append_assoc, List.nil_append, List.cons.injEq] at same
  obtain ⟨tag, behind⟩ := same
  obtain ⟨names, rest⟩ := zeroEnded_unique free free' behind
  exact ⟨tag_injective tag, utf8_injective names, rest⟩

theorem elements_unique {elements others : List Element} (fits : ∀ e ∈ elements, e.Fits (depth + 1))
    (fits' : ∀ e ∈ others, e.Fits (depth + 1)) (same : content elements = content others) :
    elements = others := by
  induction elements generalizing others with
  | nil =>
    cases others with
    | nil => rfl
    | cons e rest =>
      injection same with tag
      exact absurd tag.symm (Kind.tag_ne_zero _)
  | cons e elements ih =>
    cases others with
    | nil =>
      injection same with tag
      exact absurd tag (Kind.tag_ne_zero _)
    | cons e' others =>
      obtain ⟨⟨free, derives⟩, behind⟩ := List.forall_mem_cons.mp fits
      obtain ⟨⟨free', derives'⟩, behind'⟩ := List.forall_mem_cons.mp fits'
      rw [content_cons, content_cons, Element.bytes, Element.bytes, List.append_assoc,
        List.append_assoc] at same
      obtain ⟨kind, name, same⟩ := header_unique free free' same
      obtain ⟨payload, value⟩ := derives.unique derives' kind same
      rw [payload, List.append_cancel_left_eq] at same
      have first : e = e' := by
        cases e
        cases e'
        exact (Element.mk.injEq _ _ _ _ _ _).mpr ⟨name, payload, value⟩
      rw [first, ih behind behind' same]

theorem IsContainer.fits {elements : List Element} (h : IsContainer depth elements bs) :
    ∀ e ∈ elements, e.Fits (depth + 1) :=
  fun e mem => ⟨h.names e mem, h.values e mem⟩

/-- The elements of a container are told by its bytes. -/
theorem IsContainer.unique {elements others : List Element} (h : IsContainer depth elements bs)
    (h' : IsContainer depth others bs) : elements = others := by
  obtain ⟨size, isSize, layout⟩ := h.block.layout
  obtain ⟨size', isSize', layout'⟩ := h'.block.layout
  refine elements_unique h.fits h'.fits ?_
  have len : size.length = size'.length := isSize.length_eq.trans isSize'.length_eq.symm
  exact (List.append_inj (layout.symm.trans layout') len).2

/-- The parts of code with a scope are told by its bytes. -/
theorem scopedCode_unique {size size' text text' block block' : List UInt8} {code code' : String}
    {n n' : Nat} (isSize : IsLength size n) (isSize' : IsLength size' n') (isText : IsText text code)
    (isText' : IsText text' code') (same : size ++ text ++ block = size' ++ text' ++ block') :
    block = block' := by
  rw [List.append_assoc, List.append_assoc] at same
  have len : size.length = size'.length := isSize.length_eq.trans isSize'.length_eq.symm
  obtain ⟨-, same⟩ := List.append_inj same len
  obtain ⟨isLength⟩ := isText
  obtain ⟨isLength'⟩ := isText'
  simp only [List.append_assoc] at same
  obtain ⟨lengths, same⟩ := List.append_inj same (isLength.length_eq.trans isLength'.length_eq.symm)
  have count := isLength.unique (lengths ▸ isLength')
  obtain ⟨-, same⟩ := List.append_inj same (by omega)
  exact (List.append_inj same rfl).2

/-! ## What a derived value has -/

/-- What every value has that a reader gives out inside `depth` containers. -/
structure Readable (depth : Nat) (v : Value) : Prop where
  unique : v.NamesUnique
  canonical : v.SubtypesCanonical
  free : v.ZeroFree
  shallow : v.ShallowFrom depth
  nesting : depth + v.nesting ≤ maxNesting

theorem firstOfEach_sublist (fields : List (String × Value)) : (firstOfEach fields).Sublist fields := by
  induction fields with
  | nil => exact .slnil
  | cons field rest ih =>
    rw [firstOfEach]
    exact (List.filter_sublist.trans ih).cons_cons field

theorem nodup_firstOfEach (fields : List (String × Value)) :
    ((firstOfEach fields).map Prod.fst).Nodup := by
  induction fields with
  | nil => exact List.nodup_nil
  | cons field rest ih =>
    rw [firstOfEach, List.map_cons, List.nodup_cons]
    refine ⟨fun again => ?_, ih.sublist (List.filter_sublist.map _)⟩
    obtain ⟨other, mem, same⟩ := List.mem_map.mp again
    exact of_decide_eq_true (List.mem_filter.mp mem).2 same

theorem readable_document {entries : List (String × Value)} (below : depth < maxNesting)
    (unique : (entries.map Prod.fst).Nodup)
    (inner : ∀ entry ∈ entries, 0 ∉ utf8 entry.1 ∧ Readable (depth + 1) entry.2) :
    Readable depth (.document entries) where
  unique := ⟨unique, Value.fieldsNamesUnique_iff.mpr fun entry mem => (inner entry mem).2.unique⟩
  canonical := Value.fieldsSubtypesCanonical_iff.mpr fun entry mem => (inner entry mem).2.canonical
  free := Value.zeroFree_document_iff.mpr fun entry mem => ⟨(inner entry mem).1, (inner entry mem).2.free⟩
  shallow := Value.shallowFrom_document_iff.mpr ⟨below, fun entry mem => (inner entry mem).2.shallow⟩
  nesting := by
    rw [Value.nesting, ← Nat.add_assoc, Value.add_max_le_iff rfl fun _ _ => rfl]
    exact ⟨below, fun entry mem => (inner entry mem).2.nesting⟩

theorem readable_array {values : List Value} (below : depth < maxNesting)
    (inner : ∀ v ∈ values, Readable (depth + 1) v) : Readable depth (.array values) where
  unique := Value.itemsNamesUnique_iff.mpr fun v mem => (inner v mem).unique
  canonical := Value.itemsSubtypesCanonical_iff.mpr fun v mem => (inner v mem).canonical
  free := Value.zeroFree_array_iff.mpr fun v mem => (inner v mem).free
  shallow := Value.shallowFrom_array_iff.mpr ⟨below, fun v mem => (inner v mem).shallow⟩
  nesting := by
    rw [Value.nesting, ← Nat.add_assoc, Value.add_max_le_iff rfl fun _ _ => rfl]
    exact ⟨below, fun v mem => (inner v mem).nesting⟩

theorem readable_scopedCode {code : String} {scope : List (String × Value)} (level : depth ≤ maxNesting)
    (inner : Readable depth (.document scope)) :
    Readable depth (.javaScriptWithScope code scope) where
  unique := inner.unique
  canonical := inner.canonical
  free := Value.zeroFree_scopedCode_iff.mpr inner.free
  shallow := by
    have own := inner.shallow.own
    exact (Value.shallowFrom_scopedCode_iff level).mpr ⟨by omega, inner.shallow.scopes⟩
  nesting := inner.nesting

theorem readable_scalar (level : depth ≤ maxNesting) (h : Scalar bs v) : Readable depth v := by
  have flat : v.Flat := by
    cases h <;> trivial
  have nesting : v.nesting = 0 := by
    cases h <;> rfl
  refine ⟨?_, ?_, ?_, Value.shallowFrom_flat flat level, nesting ▸ level⟩
  · cases h <;> trivial
  · cases h with
    | binary => exact congrArg BinarySubtype.ofByte (BinarySubtype.toByte_ofByte _)
    | binaryOld => exact rfl
    | _ => trivial
  · cases h with
    | regularExpression left right =>
      obtain ⟨left⟩ := left
      obtain ⟨right⟩ := right
      exact Value.zeroFree_regularExpression_iff.mpr ⟨left, right⟩
    | _ => exact Value.zeroFree_flat flat fun same => by cases same

theorem Derives.readable (h : Derives depth bs v) (level : depth ≤ maxNesting) : Readable depth v := by
  induction h with
  | scalar h => exact readable_scalar level h
  | document below block names values ih =>
    refine readable_document below (nodup_firstOfEach _) fun entry mem => ?_
    obtain ⟨e, here, rfl⟩ := List.mem_map.mp ((firstOfEach_sublist _).mem mem)
    exact ⟨names e here, ih e here below⟩
  | array below block names values ih =>
    refine readable_array below fun v mem => ?_
    obtain ⟨e, here, rfl⟩ := List.mem_map.mp mem
    exact ih e here below
  | scopedCode isSize isText inner ih => exact readable_scopedCode level (ih level)

/-! ## Bytes with the names of a writer -/

theorem IsText.eq_textLayout {text : String} (h : IsText bs text) : bs = textLayout text := by
  obtain ⟨isSize⟩ := h
  rw [isSize.eq_digits, textLayout]

theorem IsZeroEnded.eq_zeroEndedLayout {text : String} (h : IsZeroEnded bs text) :
    bs = zeroEndedLayout text := by
  obtain ⟨free⟩ := h
  rw [zeroEndedLayout]

theorem Scalar.eq_payload (h : Scalar bs v) : bs = v.payload := by
  cases h with
  | string h | javaScript h | symbol h => exact h.eq_textLayout
  | dbPointer id h => exact congrArg (· ++ id.bytes.toList) h.eq_textLayout
  | regularExpression left right =>
    rw [left.eq_zeroEndedLayout, right.eq_zeroEndedLayout, Value.payload]
  | binary other isSize =>
    have new := mt Read.ofByte_eq_binaryOld_iff.mp other
    rw [Value.payload, binaryLayout, isSize.eq_digits]
    simp only [if_neg new, BinarySubtype.toByte_ofByte, List.toList_data_toByteArray]
  | binaryOld isSize isInner =>
    rw [Value.payload, binaryLayout, isSize.eq_digits, isInner.eq_digits]
    simp only [if_true, List.toList_data_toByteArray]
    rfl
  | _ => rfl

/-- A container is the frame of its elements. -/
theorem IsBlock.eq_frame {elements : List Element} (h : IsBlock elements bs) :
    bs = frame (elements.flatMap Element.bytes) := by
  obtain ⟨size, isSize, layout⟩ := h.layout
  have len := congrArg List.length layout
  rw [content, List.length_append, isSize.length_eq, List.length_append, List.length_singleton] at len
  have count : bs.length = (elements.flatMap Element.bytes).length + minDocumentSize := by
    rw [minDocumentSize]
    omega
  rw [isSize.eq_digits, count] at layout
  rw [layout, content, frame, List.append_assoc]

theorem fieldsPayload_map_field {elements : List Element}
    (same : ∀ e ∈ elements, e.payload = e.value.payload) :
    Value.fieldsPayload (elements.map Element.field) = elements.flatMap Element.bytes := by
  induction elements with
  | nil => rfl
  | cons e rest ih =>
    obtain ⟨here, behind⟩ := List.forall_mem_cons.mp same
    rw [List.map_cons, Element.field, Value.fieldsPayload, ih behind, List.flatMap_cons, Element.bytes,
      here]

theorem itemsPayload_map_value {elements : List Element} {index : Nat}
    (same : ∀ e ∈ elements, e.payload = e.value.payload)
    (names : elements.map Element.name = (List.range' index elements.length).map toString) :
    Value.itemsPayload index (elements.map Element.value) = elements.flatMap Element.bytes := by
  induction elements generalizing index with
  | nil => rfl
  | cons e rest ih =>
    obtain ⟨here, behind⟩ := List.forall_mem_cons.mp same
    rw [List.length_cons, List.range'_succ, List.map_cons, List.map_cons, List.cons.injEq] at names
    rw [List.map_cons, Value.itemsPayload, ih behind names.2, List.flatMap_cons, Element.bytes, here,
      names.1]

/-- Bytes whose names are all as a writer gives them are those of their value. -/
theorem eq_payload_of_names (h : Derives depth bs v)
    (names : ∀ container elements, Inside container elements depth v.kind bs →
      container.Names (elements.map Element.name)) : bs = v.payload := by
  induction h with
  | scalar h => exact h.eq_payload
  | document below block free values ih =>
    have here : IsContainer _ _ _ := ⟨below, block, free, values⟩
    have unique := names .document _ (.whole here)
    have same := fun e mem => ih e mem fun container elements lies =>
      names container elements (.element .document here mem lies)
    rw [firstOfEach_eq_self (by rwa [List.map_map]), Value.payload, fieldsPayload_map_field same,
      ← block.eq_frame]
  | array below block free values ih =>
    have here : IsContainer _ _ _ := ⟨below, block, free, values⟩
    have places := names .array _ (.whole here)
    have same := fun e mem => ih e mem fun container elements lies =>
      names container elements (.element .array here mem lies)
    rw [Container.Names, List.length_map, List.range_eq_range'] at places
    rw [Value.payload, itemsPayload_map_value same places, ← block.eq_frame]
  | scopedCode isSize isText inner ih =>
    have scope := ih fun container elements lies => names container elements (.scope isSize isText lies)
    rw [isText.eq_textLayout, scope, List.append_assoc] at isSize ⊢
    rw [isSize.eq_digits, List.length_append, isSize.length_eq, Nat.add_comm]
    rfl

/-! ## The names that a writer gives -/

/-- A value that can be written, and inside `depth` containers is read as it is. -/
structure Kept (depth : Nat) (v : Value) : Prop where
  writable : ∃ level, v.Writable level
  unique : v.NamesUnique
  canonical : v.SubtypesCanonical
  nesting : depth + v.nesting ≤ maxNesting

theorem writable_of_mem_fields {entries : List (String × Value)} {level : Nat}
    (writable : Value.FieldsWritable level entries) : ∀ entry ∈ entries, entry.2.Writable level := by
  induction entries with
  | nil => exact List.forall_mem_nil _
  | cons entry rest ih => exact List.forall_mem_cons.mpr ⟨writable.2.1, ih writable.2.2⟩

theorem writable_of_mem_items {values : List Value} {level : Nat}
    (writable : Value.ItemsWritable level values) : ∀ v ∈ values, v.Writable level := by
  induction values with
  | nil => exact List.forall_mem_nil _
  | cons v rest ih => exact List.forall_mem_cons.mpr ⟨writable.1, ih writable.2⟩

theorem map_name_itemElements (index : Nat) (values : List Value) :
    (Value.itemElements index values).map Element.name =
      (List.range' index values.length).map toString := by
  induction values generalizing index with
  | nil => rfl
  | cons v rest ih =>
    rw [Value.itemElements, List.map_cons, ih, List.length_cons, List.range'_succ, List.map_cons]

theorem exists_of_mem_itemElements {values : List Value} {e : Element} {index : Nat}
    (mem : e ∈ Value.itemElements index values) :
    ∃ v ∈ values, e.payload = v.payload ∧ e.value = v.asRead := by
  induction values generalizing index with
  | nil => cases mem
  | cons v rest ih =>
    rcases List.mem_cons.mp mem with rfl | mem
    · exact ⟨v, List.mem_cons_self, rfl, rfl⟩
    · obtain ⟨u, mem, same⟩ := ih mem
      exact ⟨u, List.mem_cons_of_mem v mem, same⟩

namespace Kept

variable {entries : List (String × Value)} {values : List Value}

theorem field (h : Kept depth (.document entries)) : ∀ entry ∈ entries, Kept (depth + 1) entry.2 := by
  intro entry mem
  obtain ⟨⟨level, -, inner, -⟩, unique, canonical, nesting⟩ := h
  have deepest := Value.nesting_le_fieldsNesting mem
  rw [Value.nesting] at nesting
  exact ⟨⟨_, writable_of_mem_fields inner entry mem⟩, Value.fieldsNamesUnique_iff.mp unique.2 entry mem,
    Value.fieldsSubtypesCanonical_iff.mp canonical entry mem, by omega⟩

theorem item (h : Kept depth (.array values)) : ∀ v ∈ values, Kept (depth + 1) v := by
  intro v mem
  obtain ⟨⟨level, -, inner, -⟩, unique, canonical, nesting⟩ := h
  have deepest := Value.nesting_le_itemsNesting mem
  rw [Value.nesting] at nesting
  exact ⟨⟨_, writable_of_mem_items inner v mem⟩, Value.itemsNamesUnique_iff.mp unique v mem,
    Value.itemsSubtypesCanonical_iff.mp canonical v mem, by omega⟩

theorem scope {code : String} (h : Kept depth (.javaScriptWithScope code entries)) :
    Kept depth (.document entries) := by
  obtain ⟨⟨level, -, inner, size, -⟩, unique, canonical, nesting⟩ := h
  exact ⟨⟨0, by decide, inner, size⟩, unique, canonical, nesting⟩

/-- The elements that a writer gives to a document or an array. -/
theorem exists_elements {container : Container} (h : Kept depth v) (isKind : v.kind = container.kind) :
    ∃ elements, IsContainer depth elements v.payload ∧ container.Names (elements.map Element.name) ∧
      ∀ e ∈ elements, ∃ u, Kept (depth + 1) u ∧ u.kind = e.value.kind ∧ e.payload = u.payload := by
  have ⟨⟨level, writable⟩, unique, canonical, nesting⟩ := h
  cases container with
  | document =>
    obtain ⟨entries, rfl⟩ : ∃ entries, v = .document entries := by
      cases v with
      | document entries => exact ⟨entries, rfl⟩
      | _ => cases isKind
    obtain ⟨-, inner, size⟩ := writable
    rw [Value.nesting] at nesting
    have fits := derives_fields entries inner canonical (show depth + 1 + _ ≤ maxNesting by omega)
    rw [← Value.flatMap_fieldElements] at size
    refine ⟨Value.fieldElements entries, ?_, ?_, fun e mem => ?_⟩
    · rw [Value.payload, ← Value.flatMap_fieldElements]
      exact isContainer_frame (by omega) size fits
    · rw [Value.fieldElements, List.map_map]
      exact unique.1
    · obtain ⟨entry, here, rfl⟩ := List.mem_map.mp mem
      exact ⟨entry.2, h.field entry here, (Value.kind_asRead _).symm, rfl⟩
  | array =>
    obtain ⟨values, rfl⟩ : ∃ values, v = .array values := by
      cases v with
      | array values => exact ⟨values, rfl⟩
      | _ => cases isKind
    obtain ⟨-, inner, size⟩ := writable
    rw [Value.nesting] at nesting
    have fits := derives_items 0 values inner canonical (show depth + 1 + _ ≤ maxNesting by omega)
    rw [← Value.flatMap_itemElements] at size
    refine ⟨Value.itemElements 0 values, ?_, ?_, fun e mem => ?_⟩
    · rw [Value.payload, ← Value.flatMap_itemElements]
      exact isContainer_frame (by omega) size fits
    · rw [map_name_itemElements, Container.Names, List.length_map, List.length_range',
        List.range_eq_range']
    · obtain ⟨u, mem, payload, value⟩ := exists_of_mem_itemElements mem
      exact ⟨u, h.item u mem, by rw [value, Value.kind_asRead], payload⟩

end Kept

/-- In bytes that are written all names are as a writer gives them. -/
theorem names_of_payload {container : Container} {elements : List Element} {kind : Kind}
    (lies : Inside container elements depth kind bs) (h : Kept depth v) (isKind : v.kind = kind)
    (same : bs = v.payload) : container.Names (elements.map Element.name) := by
  induction lies generalizing v with
  | whole here =>
    subst same
    obtain ⟨own, there, names, -⟩ := h.exists_elements isKind
    rwa [here.unique there]
  | element outer here mem _ ih =>
    subst same
    obtain ⟨own, there, -, inner⟩ := h.exists_elements isKind
    obtain ⟨u, kept, kind, payload⟩ := inner _ (here.unique there ▸ mem)
    exact ih kept kind payload
  | scope isSize isText _ ih =>
    obtain ⟨code, scope, rfl⟩ : ∃ code scope, v = .javaScriptWithScope code scope := by
      cases v with
      | javaScriptWithScope code scope => exact ⟨code, scope, rfl⟩
      | _ => cases isKind
    obtain ⟨level, short, -, -, total⟩ := h.writable
    rw [Value.payload, ← List.append_assoc] at same
    have block := scopedCode_unique isSize (isLength_digits total) isText (isText_textLayout short) same
    exact ih h.scope rfl block

end Grammar

/-! ## Whole documents -/

namespace Document

/-- What has been read is written, unless it has become too large. The bytes come out as they were read
iff no document in them repeats a name and each array names its items by their places. -/
theorem encode_of_decode {data : ByteArray} {doc : Document} (h : decode data = .ok doc) :
    ((∃ bytes, doc.encode = .ok bytes) ∨ doc.encode = .error .documentTooLarge) ∧
      (doc.encode = .ok data ↔ ∀ container elements,
        Inside container elements 0 .document data.data.toList →
          container.Names (elements.map Element.name)) := by
  have derives : Derives 0 data.data.toList (.document doc.fields) := isDocument_of_decode h
  have readable := derives.readable (Nat.zero_le _)
  have small : data.data.toList.length ≤ maxDocumentSize := by
    obtain ⟨elements, here, -⟩ := derives_document_iff.mp derives
    exact here.block.most
  refine ⟨?_, ?_, fun names => ?_⟩
  · cases written : doc.encode with
    | ok bytes => exact .inl ⟨bytes, rfl⟩
    | error fault =>
      right
      cases encode_blamed written with
      | name here mem zero => exact absurd zero (readable.free.names _ here _ mem)
      | pattern here either zero =>
        obtain ⟨left, right⟩ := readable.free.patterns _ _ here
        rcases either with rfl | rfl
        · exact absurd zero left
        · exact absurd zero right
      | nesting deep => exact absurd readable.shallow deep
      | size => rfl
  · intro written container elements lies
    obtain ⟨writable, same⟩ := encode_eq_ok_iff.mp written
    have kept : Kept 0 (.document doc.fields) :=
      ⟨⟨0, writable⟩, readable.unique, readable.canonical, readable.nesting⟩
    refine names_of_payload lies kept rfl ?_
    rw [same, List.toList_data_toByteArray]
    rfl
  · have same : data.data.toList = doc.layout := eq_payload_of_names derives names
    have writable := writable_iff.mpr ⟨readable.free, readable.shallow, same ▸ small⟩
    exact encode_eq_ok_iff.mpr ⟨writable, by rw [← same, toByteArray_toList]⟩

/-- Code whose scope repeats a name, and an array whose one item is named by the place 7. -/
def renamedBytes : ByteArray :=
  ⟨#[45, 0, 0, 0,
    15, 99, 0, 26, 0, 0, 0, 2, 0, 0, 0, 102, 0,
      16, 0, 0, 0, 10, 120, 0, 4, 120, 0, 5, 0, 0, 0, 0, 0,
    4, 97, 0, 8, 0, 0, 0, 10, 55, 0, 0,
    0]⟩

/-- What `renamedBytes` are read as. -/
def renamed : Document :=
  ⟨[("c", .javaScriptWithScope "f" [("x", .null)]), ("a", .array [.null])]⟩

theorem encode_of_decode_renamed :
    decode renamedBytes = .ok renamed ∧
      ((∃ bytes, renamed.encode = .ok bytes) ∨ renamed.encode = .error .documentTooLarge) ∧
      (renamed.encode = .ok renamedBytes ↔ ∀ container elements,
        Inside container elements 0 .document renamedBytes.data.toList →
          container.Names (elements.map Element.name)) := by
  have read : decode renamedBytes = .ok renamed := by
    cbv
  exact ⟨read, encode_of_decode read⟩

end Document

end DocumentClient
