import DocumentClient.Proofs.Wire.Containers
import DocumentClient.Wire.Encoding

/-!
# Decoding follows the grammar

A byte string decodes to a document exactly if the grammar derives it with that meaning.

Results:
1. `fields_extendAbsent_empty`: keeping the first value of each name, field by field, is `firstOfEach`.
2. `holds_cons_iff`: what a container holds is one element and then the rest.
3. `sound`: whatever a reader takes for a value, for fields or for items is derived by the grammar;
   induction on the fuel, all three at once (`ValueSound`, `FieldsSound`, `ItemsSound`).
4. `complete`: whatever the grammar derives is read if there is more fuel than bytes (`ValueComplete`,
   `FieldsComplete`, `ItemsComplete`).
5. `decode_eq_ok_iff_isDocument`: both together, for whole documents.
-/

namespace DocumentClient

open Outcome Grammar Bytes

/-- The kinds of values that hold other values. Such a value begins with its own length. -/
def Kind.IsFramed (kind : Kind) : Prop :=
  kind = .document ∨ kind = .array ∨ kind = .javaScriptWithScope

/-! ## Keeping the first value of each name -/

namespace Document

/-- Puts one field after another, each only if its name is not there yet. -/
def extendAbsent (doc : Document) (fields : List (String × Value)) : Document :=
  fields.foldl (fun d field => d.insertIfAbsent field.1 field.2) doc

theorem contains_iff (doc : Document) (name : String) :
    doc.contains name = true ↔ name ∈ doc.names := by
  obtain ⟨fields⟩ := doc
  unfold contains get? names
  induction fields with
  | nil => simp
  | cons field rest ih =>
    obtain ⟨k, v⟩ := field
    by_cases same : name = k
    · simp [List.lookup, same]
    · have differ : (name == k) = false := beq_eq_false_iff_ne.mpr same
      simp [List.lookup, differ, same, ih]

theorem fields_extendAbsent (doc : Document) (fields : List (String × Value)) :
    (doc.extendAbsent fields).fields =
      doc.fields ++ (firstOfEach fields).filter fun field => field.1 ∉ doc.names := by
  induction fields generalizing doc with
  | nil => simp [extendAbsent, firstOfEach]
  | cons field rest ih =>
    have step : doc.extendAbsent (field :: rest) =
        (doc.insertIfAbsent field.1 field.2).extendAbsent rest := rfl
    rw [step, ih, insertIfAbsent, firstOfEach]
    by_cases known : doc.contains field.1
    · have mem := (doc.contains_iff field.1).mp known
      -- the field is dropped, and so are all later ones of its name
      rw [if_pos known, List.filter_cons_of_neg (by simpa using mem), List.filter_filter]
      congr 1
      apply List.filter_congr
      intro other _
      by_cases same : other.1 = field.1
      · simp [same, mem]
      · simp [same]
    · have fresh : field.1 ∉ doc.names := fun mem => known ((doc.contains_iff field.1).mpr mem)
      have more : names ⟨doc.fields ++ [(field.1, field.2)]⟩ = doc.names ++ [field.1] := by
        simp [names]
      rw [if_neg known, List.filter_cons_of_pos (by simpa using fresh), List.filter_filter, more,
        List.append_assoc, List.singleton_append]
      congr 2
      apply List.filter_congr
      intro other _
      rw [Bool.eq_iff_iff]
      simp [not_or]

theorem fields_extendAbsent_empty (fields : List (String × Value)) :
    (empty.extendAbsent fields).fields = firstOfEach fields := by
  rw [fields_extendAbsent]
  simp [empty, names]

end Document

/-! ## One element and then the rest -/

namespace Reader

variable {m : Reader} {e : Element} {elements : List Element}

/-- The element comes next. -/
structure HasNext (m : Reader) (e : Element) : Prop where
  name : 0 ∉ utf8 e.name
  value : Derives m.depth e.payload e.value
  ahead : m.Ahead e.bytes

/-- The reader behind the element. -/
def after (m : Reader) (e : Element) : Reader :=
  m.passed e.bytes.length

theorem holds_nil_iff : m.Holds [] ↔ m.Ahead [0] ∧ m.pos + 1 = m.limit := by
  constructor
  · intro h
    rcases h with ⟨-, -, ahead, ends⟩
    exact ⟨ahead, ends⟩
  · intro h
    rcases h with ⟨ahead, ends⟩
    exact ⟨by simp, by simp, ahead, ends⟩

/-- A container holds an element and others iff it has the element next and holds the others behind it. -/
theorem holds_cons_iff (name : String) :
    m.Holds (e :: elements) ↔ m.HasNext e ∧ ((m.after e).named name).Holds elements := by
  constructor
  · rintro ⟨names, values, ahead, ends⟩
    rw [content_cons] at ahead ends
    rw [List.length_append] at ends
    refine ⟨⟨names e List.mem_cons_self, values e List.mem_cons_self, ahead.left⟩,
      fun o h => names o (List.mem_cons_of_mem e h), fun o h => values o (List.mem_cons_of_mem e h), ?_, ?_⟩
    · exact ahead.right.transfer rfl rfl ahead.right.inside
    · exact (Nat.add_assoc _ _ _).trans ends
  · rintro ⟨⟨name, value, ahead⟩, names, values, behind, ends⟩
    refine ⟨List.forall_mem_cons.mpr ⟨name, names⟩, List.forall_mem_cons.mpr ⟨value, values⟩, ?_, ?_⟩
    · rw [content_cons]
      exact ahead.append (behind.transfer rfl rfl behind.inside)
    · rw [content_cons, List.length_append, ← Nat.add_assoc]
      exact ends

theorem closed_after (f : Frame) (name name' : String) :
    (((m.after e).named name).closed f.container (content elements).length).named name' =
      (m.closed f.container (content (e :: elements)).length).named name' := by
  unfold Reader.after Reader.passed Reader.closed Reader.named Reader.advance
  simp [content_cons, Nat.add_assoc]

end Reader

/-! ## What is read is derived -/

namespace Read

variable {r r' m m' : Reader} {fuel : Nat}

/-- A value that is read is derived from the bytes that were ahead. -/
def ValueSound (fuel : Nat) : Prop :=
  ∀ {r r' : Reader} {v : Value}, r.phase = .value → r.frames ≠ [] → r.Ahead [] →
    valueWithin fuel r = .ok v r' → ∃ bs name, Derives r.depth bs v ∧ r.kind = some v.kind ∧
      r.Ahead bs ∧ r' = (r.passed bs.length).named name

/-- Fields that are read are what the container holds. -/
def FieldsSound (fuel : Nat) : Prop :=
  ∀ {m m' : Reader} {f : Frame} {outer : List Frame} {doc doc' : Document}, m.phase = .type →
    m.frames = f :: outer → fieldsWithin fuel doc m = .ok doc' m' → ∃ elements name,
      m.Holds elements ∧ doc' = doc.extendAbsent (elements.map Element.field) ∧
      m' = (m.closed f.container (content elements).length).named name

/-- Items that are read are what the container holds. -/
def ItemsSound (fuel : Nat) : Prop :=
  ∀ {m m' : Reader} {f : Frame} {outer : List Frame} {items items' : Array Value}, m.phase = .type →
    m.frames = f :: outer → itemsWithin fuel items m = .ok items' m' → ∃ elements name,
      m.Holds elements ∧ items' = items ++ (elements.map Element.value).toArray ∧
      m' = (m.closed f.container (content elements).length).named name

theorem takeName_eq : takeName m = .ok m.name (m.named "") := rfl

theorem fieldsWithin_eq_ok_iff {doc doc' : Document} :
    fieldsWithin (fuel + 1) doc m = .ok doc' m' ↔
      (readType m = .ok none m' ∧ doc = doc') ∨
      ∃ kind m₁ v m₂, readType m = .ok (some kind) m₁ ∧ valueWithin fuel (m₁.named "") = .ok v m₂ ∧
        fieldsWithin fuel (doc.insertIfAbsent m₁.name v) m₂ = .ok doc' m' := by
  rw [fieldsWithin, bind_eq_ok_iff]
  constructor
  · rintro ⟨next, m₁, hr, h⟩
    cases next with
    | none =>
      obtain ⟨rfl, rfl⟩ := pure_eq_ok_iff.mp h
      exact .inl ⟨hr, rfl⟩
    | some kind =>
      dsimp only at h
      rw [bind_of_ok takeName_eq] at h
      obtain ⟨v, m₂, hv, rest⟩ := bind_eq_ok_iff.mp h
      exact .inr ⟨kind, m₁, v, m₂, hr, hv, rest⟩
  · rintro (⟨hr, rfl⟩ | ⟨kind, m₁, v, m₂, hr, hv, rest⟩)
    · exact ⟨none, m', hr, rfl⟩
    · refine ⟨some kind, m₁, hr, ?_⟩
      dsimp only
      rw [bind_of_ok takeName_eq]
      exact bind_eq_ok_iff.mpr ⟨v, m₂, hv, rest⟩

theorem itemsWithin_eq_ok_iff {items items' : Array Value} :
    itemsWithin (fuel + 1) items m = .ok items' m' ↔
      (readType m = .ok none m' ∧ items = items') ∨
      ∃ kind m₁ v m₂, readType m = .ok (some kind) m₁ ∧ valueWithin fuel m₁ = .ok v m₂ ∧
        itemsWithin fuel (items.push v) m₂ = .ok items' m' := by
  rw [itemsWithin, bind_eq_ok_iff]
  constructor
  · rintro ⟨next, m₁, hr, h⟩
    cases next with
    | none =>
      obtain ⟨rfl, rfl⟩ := pure_eq_ok_iff.mp h
      exact .inl ⟨hr, rfl⟩
    | some kind =>
      obtain ⟨v, m₂, hv, rest⟩ := bind_eq_ok_iff.mp h
      exact .inr ⟨kind, m₁, v, m₂, hr, hv, rest⟩
  · rintro (⟨hr, rfl⟩ | ⟨kind, m₁, v, m₂, hr, hv, rest⟩)
    · exact ⟨none, m', hr, rfl⟩
    · exact ⟨some kind, m₁, hr, bind_eq_ok_iff.mpr ⟨v, m₂, hv, rest⟩⟩

/-- An element whose value is read soundly comes next. -/
theorem element_sound (sound : ValueSound fuel) {f : Frame} {outer : List Frame} {kind : Kind}
    {v : Value} {label : String} (phase : m.phase = .type) (frames : m.frames = f :: outer)
    (hr : readType m = .ok (some kind) r) (hv : valueWithin fuel (r.named label) = .ok v r') :
    ∃ e name, e.name = r.name ∧ e.value = v ∧ m.HasNext e ∧ r' = (m.after e).named name := by
  rcases (readType_eq_ok_iff phase frames).mp hr with ⟨absent, -⟩ | ⟨_, text, same, free, ahead, rfl⟩
  · cases absent
  · cases same
    have inside : m.frames ≠ [] := by simp [frames]
    obtain ⟨bs, name, derives, sort, behind, rfl⟩ := sound (r := (m.atValue _ kind text).named label)
      rfl inside (ahead.rest.transfer rfl rfl ahead.inside) hv
    cases sort
    have next : (m.advance (header v.kind text).length).Ahead bs := behind.transfer rfl rfl behind.inside
    refine ⟨⟨text, bs, v⟩, name, rfl, rfl, ⟨free, derives, ahead.append next⟩, ?_⟩
    rw [Reader.after, Element.bytes, List.length_append]
    unfold Reader.passed Reader.atValue Reader.named Reader.advance
    simp [Nat.add_assoc]

theorem fieldsSound_succ (values : ValueSound fuel) (fields : FieldsSound fuel) :
    FieldsSound (fuel + 1) := by
  intro m m' f outer doc doc' phase frames h
  rcases fieldsWithin_eq_ok_iff.mp h with ⟨hr, rfl⟩ | ⟨kind, m₁, v, m₂, hr, hv, rest⟩
  · rcases (readType_eq_ok_iff phase frames).mp hr with ⟨-, ahead, ends, rfl⟩ | ⟨_, _, absent, -⟩
    · have limit : m.limit = f.stop := by rw [Reader.limit, frames]
      exact ⟨[], m.name, Reader.holds_nil_iff.mpr ⟨ahead, limit ▸ ends⟩, rfl, rfl⟩
    · cases absent
  · obtain ⟨e, name, named, rfl, next, rfl⟩ := element_sound values phase frames hr hv
    obtain ⟨elements, name', holds, rfl, rfl⟩ := fields (m := (m.after e).named name) rfl frames rest
    refine ⟨e :: elements, name', (Reader.holds_cons_iff name).mpr ⟨next, holds⟩, ?_,
      Reader.closed_after f name name'⟩
    rw [← named]
    rfl

theorem itemsSound_succ (values : ValueSound fuel) (items : ItemsSound fuel) :
    ItemsSound (fuel + 1) := by
  intro m m' f outer items₀ items' phase frames h
  rcases itemsWithin_eq_ok_iff.mp h with ⟨hr, rfl⟩ | ⟨kind, m₁, v, m₂, hr, hv, rest⟩
  · rcases (readType_eq_ok_iff phase frames).mp hr with ⟨-, ahead, ends, rfl⟩ | ⟨_, _, absent, -⟩
    · have limit : m.limit = f.stop := by rw [Reader.limit, frames]
      exact ⟨[], m.name, Reader.holds_nil_iff.mpr ⟨ahead, limit ▸ ends⟩, by simp, rfl⟩
    · cases absent
  · obtain ⟨e, name, -, rfl, next, rfl⟩ :=
      element_sound values phase frames hr hv
    obtain ⟨elements, name', holds, rfl, rfl⟩ := items (m := (m.after e).named name) rfl frames rest
    refine ⟨e :: elements, name', (Reader.holds_cons_iff name).mpr ⟨next, holds⟩, ?_,
      Reader.closed_after f name name'⟩
    simp

theorem documentOf_sound (fields : FieldsSound fuel) {doc : Document}
    (h : documentOf (fieldsWithin fuel) r = .ok doc r') : r.Expects .document ∧ ∃ bs name,
      Derives r.depth bs (.document doc.fields) ∧ r.Ahead bs ∧ r' = (r.behind bs.length).named name := by
  obtain ⟨m, m', start, inner, -, rfl⟩ := documentOf_eq_ok_iff.mp h
  -- the shape of the entered reader is needed before what the container holds is known
  obtain ⟨-, -, -, n, -, -, -, -, -, rfl⟩ := startContainer_eq_ok_iff.mp start
  obtain ⟨elements, name, holds, eq, rfl⟩ := fields rfl rfl inner
  obtain ⟨expects, shallow, bs, block, ahead, names, values, same⟩ := container_iff.mp ⟨start, holds⟩
  refine ⟨expects, bs, name, ?_, ahead, ?_⟩
  · rw [eq, Document.fields_extendAbsent_empty]
    exact .document shallow block names values
  · rw [same]
    exact left_closed block name

theorem arrayOf_sound (items : ItemsSound fuel) {values : List Value}
    (h : arrayOf (itemsWithin fuel) r = .ok values r') : r.Expects .array ∧ ∃ bs name,
      Derives r.depth bs (.array values) ∧ r.Ahead bs ∧ r' = (r.behind bs.length).named name := by
  obtain ⟨m, m', start, inner, -, rfl⟩ := arrayOf_eq_ok_iff.mp h
  obtain ⟨-, -, -, n, -, -, -, -, -, rfl⟩ := startContainer_eq_ok_iff.mp start
  obtain ⟨elements, name, holds, eq, rfl⟩ := items rfl rfl inner
  obtain ⟨expects, shallow, bs, block, ahead, names, derived, same⟩ := container_iff.mp ⟨start, holds⟩
  refine ⟨expects, bs, name, ?_, ahead, ?_⟩
  · have all : values = elements.map Element.value := by simpa using eq
    rw [all]
    exact .array shallow block names derived
  · rw [same]
    exact left_closed block name

/-- A reader at the front of some bytes has their prefixes ahead. -/
theorem front_ahead_iff {bytes bs : List UInt8} {depth : Nat} :
    Reader.Ahead { data := bytes.toByteArray, outerDepth := depth } bs ↔ bs <+: bytes := by
  have all : Reader.Ahead { data := bytes.toByteArray, outerDepth := depth } bytes := by
    have size : bytes.toByteArray.size = bytes.length := List.size_toByteArray
    refine ⟨?_, ?_, ?_⟩
    · exact Nat.le_of_eq ((Nat.zero_add _).trans size.symm)
    · exact Nat.le_of_eq ((Nat.zero_add _).trans size.symm)
    · rw [Nat.zero_add, ← size]
      exact ByteArray.extract_zero_size
  constructor
  · intro ahead
    have len : bs.length ≤ bytes.length := by
      have inside := ahead.present
      rw [List.size_toByteArray] at inside
      exact Nat.le_trans (Nat.le_add_left _ _) inside
    have parts : Reader.Ahead { data := bytes.toByteArray, outerDepth := depth }
        (bytes.take bs.length ++ bytes.drop bs.length) := by
      rw [List.take_append_drop]
      exact all
    rw [ahead.unique parts.left (by rw [List.length_take, Nat.min_eq_left len])]
    exact List.take_prefix _ _
  · intro h
    rcases h with ⟨rest, rfl⟩
    exact all.left

/-- A derived document tells its own length at its front. -/
theorem exists_length_of_derives {depth : Nat} {bs : List UInt8} {fields : List (String × Value)}
    (h : Derives depth bs (.document fields)) : ∃ size rest, bs = size ++ rest ∧ IsLength size bs.length := by
  cases h with
  | scalar h => cases h
  | document _ block _ _ =>
    obtain ⟨size, isSize, eq⟩ := block.layout
    exact ⟨size, _, eq, isSize⟩

theorem scopedCodeOf_sound (fields : FieldsSound fuel) {code : String} {scope : Document}
    (h : scopedCodeOf (fieldsWithin fuel) r = .ok (code, scope) r') :
    r.phase = .value ∧ r.kind = some .javaScriptWithScope ∧ ∃ bs,
      Derives r.depth bs (.javaScriptWithScope code scope.fields) ∧ r.Ahead bs ∧
      r' = r.passed bs.length := by
  obtain ⟨phase, here, size, text, block, s, isSize, isText, ahead, peeked, inner, rfl⟩ :=
    scopedCodeOf_eq_ok_iff.mp h
  refine ⟨phase, here, size ++ text ++ block, ?_, ahead, rfl⟩
  obtain ⟨⟨word, isWord, -, front⟩, -⟩ := peekLength_eq_ok_iff.mp peeked
  obtain ⟨-, bs, -, derives, start, -⟩ := documentOf_sound fields inner
  -- the scope begins with the length that was peeked, so it takes all that was set apart for it
  have whole : bs = block := by
    obtain ⟨own, rest, eq, isOwn⟩ := exists_length_of_derives derives
    have inside := front_ahead_iff.mp start
    have begins : own <+: block := List.IsPrefix.trans ⟨rest, eq.symm⟩ inside
    obtain ⟨tail, rfl⟩ := begins
    have here := ahead.right.left.matching
    rw [isOwn.length_eq, front, List.toByteArray_inj] at here
    subst here
    exact inside.eq_of_length (isOwn.unique isWord)
  exact .scopedCode isSize isText (whole ▸ derives)

/-- A value that holds others is derived from the bytes that were ahead. The reader comes behind it, and a
document or an array that no container is open around leaves nothing more to be read. -/
theorem framed_sound (fields : FieldsSound fuel) (items : ItemsSound fuel) {kind : Kind} {v : Value}
    (phase : r.phase = .value) (here : r.kind = some kind) (framed : kind.IsFramed)
    (h : valueWithin (fuel + 1) r = .ok v r') : ∃ bs name, Derives r.depth bs v ∧ v.kind = kind ∧
      r.Ahead bs ∧ (r' = (r.passed bs.length).named name ∨ r' = (r.behind bs.length).named name) := by
  have next : currentKind r = .ok kind r := (currentKind_eq_ok_iff phase).mpr ⟨here, rfl⟩
  rw [valueWithin, bind_of_ok next] at h
  rcases framed with rfl | rfl | rfl
  · obtain ⟨doc, _, hd, h⟩ := bind_eq_ok_iff.mp h
    obtain ⟨rfl, rfl⟩ := pure_eq_ok_iff.mp h
    obtain ⟨-, bs, name, derives, ahead, rfl⟩ := documentOf_sound fields hd
    exact ⟨bs, name, derives, rfl, ahead, .inr rfl⟩
  · obtain ⟨values, _, ha, h⟩ := bind_eq_ok_iff.mp h
    obtain ⟨rfl, rfl⟩ := pure_eq_ok_iff.mp h
    obtain ⟨-, bs, name, derives, ahead, rfl⟩ := arrayOf_sound items ha
    exact ⟨bs, name, derives, rfl, ahead, .inr rfl⟩
  · obtain ⟨⟨code, scope⟩, _, hs, h⟩ := bind_eq_ok_iff.mp h
    obtain ⟨rfl, rfl⟩ := pure_eq_ok_iff.mp h
    obtain ⟨-, -, bs, derives, ahead, rfl⟩ := scopedCodeOf_sound fields hs
    exact ⟨bs, r.name, derives, rfl, ahead, .inl rfl⟩

/-- A value is derived from the bytes that were ahead, whatever its kind. -/
theorem anyValue_sound (fields : FieldsSound fuel) (items : ItemsSound fuel) {v : Value}
    (phase : r.phase = .value) (room : r.Ahead []) (h : valueWithin (fuel + 1) r = .ok v r') :
    ∃ bs name, Derives r.depth bs v ∧ r.kind = some v.kind ∧ r.Ahead bs ∧
      (r' = (r.passed bs.length).named name ∨ r' = (r.behind bs.length).named name) := by
  cases here : r.kind with
  | none =>
    obtain ⟨kind, _, hk, -⟩ := bind_eq_ok_iff.mp (by rw [valueWithin] at h; exact h)
    obtain ⟨found, -⟩ := (currentKind_eq_ok_iff phase).mp hk
    rw [here] at found
    cases found
  | some kind =>
    by_cases framed : kind.IsFramed
    · obtain ⟨bs, name, derives, sort, ahead, lands⟩ := framed_sound fields items phase here framed h
      exact ⟨bs, name, derives, by rw [sort], ahead, lands⟩
    · -- all other kinds hold no values
      simp only [Kind.IsFramed, not_or] at framed
      obtain ⟨bs, ⟨scalar, sort⟩, ahead, rfl⟩ := (valueWithin_scalar_iff phase here room framed).mp h
      exact ⟨bs, r.name, .scalar scalar, by rw [sort], ahead, .inl rfl⟩

theorem valueSound_succ (fields : FieldsSound fuel) (items : ItemsSound fuel) :
    ValueSound (fuel + 1) := by
  intro r r' v phase inside room h
  have behind (n : Nat) : r.behind n = r.passed n := by
    unfold Reader.behind Reader.passed
    rw [if_neg (by simpa using inside)]
  obtain ⟨bs, name, derives, here, ahead, rfl | rfl⟩ := anyValue_sound fields items phase room h
  · exact ⟨bs, name, derives, here, ahead, rfl⟩
  · exact ⟨bs, name, derives, here, ahead, by rw [behind]⟩

/-- Whatever a reader takes for a value, for fields or for items is derived by the grammar. -/
theorem sound (fuel : Nat) : ValueSound fuel ∧ FieldsSound fuel ∧ ItemsSound fuel := by
  induction fuel with
  | zero =>
    refine ⟨?_, ?_, ?_⟩
    · intro r r' v _ _ _ h
      rw [valueWithin, throw_eq_ok_iff] at h
      exact h.elim
    · intro m m' f outer doc doc' _ _ h
      rw [fieldsWithin, throw_eq_ok_iff] at h
      exact h.elim
    · intro m m' f outer items items' _ _ h
      rw [itemsWithin, throw_eq_ok_iff] at h
      exact h.elim
  | succ fuel ih =>
    obtain ⟨values, fields, items⟩ := ih
    exact ⟨valueSound_succ fields items, fieldsSound_succ values fields, itemsSound_succ values items⟩

/-! ## What is derived is read -/

/-- A derived value is read. -/
def ValueComplete (fuel : Nat) : Prop :=
  ∀ {r : Reader} {bs : List UInt8} {v : Value}, bs.length < fuel → Derives r.depth bs v →
    r.phase = .value → r.kind = some v.kind → r.frames ≠ [] → r.Ahead bs →
    ∃ name, valueWithin fuel r = .ok v ((r.passed bs.length).named name)

/-- The fields that a container holds are read. -/
def FieldsComplete (fuel : Nat) : Prop :=
  ∀ {m : Reader} {f : Frame} {outer : List Frame} {elements : List Element} (doc : Document),
    (content elements).length ≤ fuel → m.phase = .type → m.frames = f :: outer → m.Holds elements →
    ∃ name, fieldsWithin fuel doc m = .ok (doc.extendAbsent (elements.map Element.field))
      ((m.closed f.container (content elements).length).named name)

/-- The items that a container holds are read. -/
def ItemsComplete (fuel : Nat) : Prop :=
  ∀ {m : Reader} {f : Frame} {outer : List Frame} {elements : List Element} (items : Array Value),
    (content elements).length ≤ fuel → m.phase = .type → m.frames = f :: outer → m.Holds elements →
    ∃ name, itemsWithin fuel items m = .ok (items ++ (elements.map Element.value).toArray)
      ((m.closed f.container (content elements).length).named name)

/-- An element that comes next is read. -/
theorem element_complete (complete : ValueComplete fuel) {f : Frame} {outer : List Frame}
    {e : Element} (label : String) (enough : e.payload.length < fuel) (phase : m.phase = .type)
    (frames : m.frames = f :: outer) (next : m.HasNext e) :
    ∃ m₁ name, readType m = .ok (some e.value.kind) m₁ ∧ m₁.name = e.name ∧
      valueWithin fuel (m₁.named label) = .ok e.value ((m.after e).named name) := by
  have inside : m.frames ≠ [] := by simp [frames]
  have ahead : m.Ahead (header e.value.kind e.name ++ e.payload) := next.ahead
  have behind := ahead.right
  have hr := (readType_eq_ok_iff phase frames).mpr
    (.inr ⟨e.value.kind, e.name, rfl, next.name, ahead.left, rfl⟩)
  obtain ⟨name, hv⟩ := complete
    (r := (m.atValue (header e.value.kind e.name).length e.value.kind e.name).named label)
    enough next.value rfl rfl inside (behind.transfer rfl rfl behind.inside)
  refine ⟨_, name, hr, rfl, ?_⟩
  rw [hv, Reader.after, Element.bytes, List.length_append]
  unfold Reader.passed Reader.atValue Reader.named Reader.advance
  simp [Nat.add_assoc]

theorem length_content_cons (e : Element) (elements : List Element) :
    (content (e :: elements)).length =
      (utf8 e.name).length + 2 + e.payload.length + (content elements).length := by
  simp [content_cons, Element.bytes, header]
  omega

theorem fieldsComplete_succ (values : ValueComplete fuel) (fields : FieldsComplete fuel) :
    FieldsComplete (fuel + 1) := by
  intro m f outer elements doc enough phase frames holds
  have limit : m.limit = f.stop := by rw [Reader.limit, frames]
  cases elements with
  | nil =>
    obtain ⟨ahead, ends⟩ := Reader.holds_nil_iff.mp holds
    refine ⟨m.name, fieldsWithin_eq_ok_iff.mpr (.inl ⟨?_, rfl⟩)⟩
    exact (readType_eq_ok_iff phase frames).mpr (.inl ⟨rfl, ahead, limit ▸ ends, rfl⟩)
  | cons e elements =>
    rw [length_content_cons] at enough
    obtain ⟨next, -⟩ := (Reader.holds_cons_iff "").mp holds
    -- fields take the name out of the reader before the value is read
    obtain ⟨m₁, name, hr, named, hv⟩ := element_complete values "" (by omega) phase frames next
    obtain ⟨-, rest⟩ := (Reader.holds_cons_iff name).mp holds
    obtain ⟨name', h⟩ := fields (m := (m.after e).named name)
      (doc.insertIfAbsent e.name e.value) (by omega) rfl frames rest
    refine ⟨name', fieldsWithin_eq_ok_iff.mpr (.inr ⟨_, m₁, _, _, hr, hv, ?_⟩)⟩
    rw [named, h, Reader.closed_after]
    rfl

theorem itemsComplete_succ (values : ValueComplete fuel) (items : ItemsComplete fuel) :
    ItemsComplete (fuel + 1) := by
  intro m f outer elements items₀ enough phase frames holds
  have limit : m.limit = f.stop := by rw [Reader.limit, frames]
  cases elements with
  | nil =>
    obtain ⟨ahead, ends⟩ := Reader.holds_nil_iff.mp holds
    refine ⟨m.name, itemsWithin_eq_ok_iff.mpr (.inl ⟨?_, by simp⟩)⟩
    exact (readType_eq_ok_iff phase frames).mpr (.inl ⟨rfl, ahead, limit ▸ ends, rfl⟩)
  | cons e elements =>
    rw [length_content_cons] at enough
    obtain ⟨next, -⟩ := (Reader.holds_cons_iff "").mp holds
    -- items keep the name in store, so the label is the name of the element
    obtain ⟨m₁, name, hr, named, hv⟩ := element_complete values e.name (by omega) phase frames next
    obtain ⟨-, rest⟩ := (Reader.holds_cons_iff name).mp holds
    obtain ⟨name', h⟩ := items (m := (m.after e).named name)
      (items₀.push e.value) (by omega) rfl frames rest
    rw [← named] at hv
    refine ⟨name', itemsWithin_eq_ok_iff.mpr (.inr ⟨_, m₁, _, _, hr, hv, ?_⟩)⟩
    rw [h, Reader.closed_after]
    simp

theorem documentOf_complete (fields : FieldsComplete fuel) {bs : List UInt8}
    {values : List (String × Value)} (enough : bs.length ≤ fuel) (expects : r.Expects .document)
    (ahead : r.Ahead bs) (derives : Derives r.depth bs (.document values)) :
    ∃ name, documentOf (fieldsWithin fuel) r = .ok ⟨values⟩ ((r.behind bs.length).named name) := by
  cases derives with
  | scalar h => cases h
  | @document _ _ elements shallow block names derived =>
    obtain ⟨start, holds⟩ := container_iff.mpr ⟨expects, shallow, bs, block, ahead, names, derived, rfl⟩
    have shorter := length_block block
    obtain ⟨name, inner⟩ := fields .empty (by omega) rfl rfl holds
    have all : Document.empty.extendAbsent (elements.map Element.field) =
        ⟨firstOfEach (elements.map Element.field)⟩ := by
      rw [← Document.fields_extendAbsent_empty]
    rw [all] at inner
    refine ⟨name, documentOf_eq_ok_iff.mpr ⟨_, _, start, inner, rfl, ?_⟩⟩
    exact (left_closed block name).symm

theorem arrayOf_complete (items : ItemsComplete fuel) {bs : List UInt8} {values : List Value}
    (enough : bs.length ≤ fuel) (expects : r.Expects .array) (ahead : r.Ahead bs)
    (derives : Derives r.depth bs (.array values)) :
    ∃ name, arrayOf (itemsWithin fuel) r = .ok values ((r.behind bs.length).named name) := by
  cases derives with
  | scalar h => cases h
  | @array _ _ elements shallow block names derived =>
    obtain ⟨start, holds⟩ := container_iff.mpr ⟨expects, shallow, bs, block, ahead, names, derived, rfl⟩
    have shorter := length_block block
    obtain ⟨name, inner⟩ := items #[] (by omega) rfl rfl holds
    rw [Array.empty_append] at inner
    refine ⟨name, arrayOf_eq_ok_iff.mpr ⟨_, _, start, inner, rfl, ?_⟩⟩
    exact (left_closed block name).symm

theorem scopedCodeOf_complete (fields : FieldsComplete fuel) {bs : List UInt8} {code : String}
    {scope : List (String × Value)} (enough : bs.length ≤ fuel) (phase : r.phase = .value)
    (here : r.kind = some .javaScriptWithScope) (ahead : r.Ahead bs)
    (derives : Derives r.depth bs (.javaScriptWithScope code scope)) :
    scopedCodeOf (fieldsWithin fuel) r = .ok (code, ⟨scope⟩) (r.passed bs.length) := by
  cases derives with
  | scalar h => cases h
  | @scopedCode _ size text block _ _ isSize isText inner =>
    rw [List.length_append] at enough
    obtain ⟨name, read⟩ := documentOf_complete (r := { data := block.toByteArray, outerDepth := r.depth })
      fields (by omega) (.inl ⟨rfl, rfl⟩) (front_ahead_iff.mpr (List.prefix_refl block)) inner
    obtain ⟨own, rest, eq, isOwn⟩ := exists_length_of_derives inner
    have front : (r.advance (size ++ text).length).Ahead own := by
      have begins := ahead.right
      rw [eq] at begins
      exact begins.left
    have peeked := peekLength_eq_ok_iff.mpr
      ⟨⟨own, isOwn, isOwn.length_eq ▸ front.present, isOwn.length_eq ▸ front.matching⟩, rfl⟩
    exact scopedCodeOf_eq_ok_iff.mpr
      ⟨phase, here, size, text, block, _, isSize, isText, ahead, peeked, read, rfl⟩

theorem valueComplete_succ (fields : FieldsComplete fuel) (items : ItemsComplete fuel) :
    ValueComplete (fuel + 1) := by
  intro r bs v enough derives phase here inside ahead
  have behind (n : Nat) : r.behind n = r.passed n := by
    unfold Reader.behind Reader.passed
    rw [if_neg (by simpa using inside)]
  have next : currentKind r = .ok v.kind r := (currentKind_eq_ok_iff phase).mpr ⟨here, rfl⟩
  have few : bs.length ≤ fuel := by omega
  cases v with
  | document values =>
    obtain ⟨name, h⟩ := documentOf_complete fields few (.inr ⟨phase, here⟩) ahead derives
    refine ⟨name, ?_⟩
    rw [valueWithin, bind_of_ok next, ← behind]
    exact bind_eq_ok_iff.mpr ⟨_, _, h, rfl⟩
  | array values =>
    obtain ⟨name, h⟩ := arrayOf_complete items few (.inr ⟨phase, here⟩) ahead derives
    refine ⟨name, ?_⟩
    rw [valueWithin, bind_of_ok next, ← behind]
    exact bind_eq_ok_iff.mpr ⟨_, _, h, rfl⟩
  | javaScriptWithScope code scope =>
    have h := scopedCodeOf_complete fields few phase here ahead derives
    refine ⟨r.name, ?_⟩
    rw [valueWithin, bind_of_ok next]
    exact bind_eq_ok_iff.mpr ⟨_, _, h, rfl⟩
  | _ =>
    cases derives with
    | scalar scalar =>
      refine ⟨r.name, (valueWithin_scalar_iff phase here ahead.nil (by simp [Value.kind])).mpr ?_⟩
      exact ⟨bs, ⟨scalar, rfl⟩, ahead, rfl⟩

/-- Whatever the grammar derives is read if there is more fuel than bytes. -/
theorem complete (fuel : Nat) : ValueComplete fuel ∧ FieldsComplete fuel ∧ ItemsComplete fuel := by
  induction fuel with
  | zero =>
    refine ⟨?_, ?_, ?_⟩
    · intro r bs v enough
      exact absurd enough (Nat.not_lt_zero _)
    · intro m f outer elements doc enough
      exact absurd enough (by simp [content])
    · intro m f outer elements items enough
      exact absurd enough (by simp [content])
  | succ fuel ih =>
    obtain ⟨values, fields, items⟩ := ih
    exact ⟨valueComplete_succ fields items, fieldsComplete_succ values fields,
      itemsComplete_succ values items⟩

end Read

namespace Document

open Read

theorem ofBytes_eq (data : ByteArray) :
    Reader.ofBytes data = { data := data.data.toList.toByteArray, outerDepth := 0 } := by
  rw [toByteArray_toList]
  rfl

theorem length_toList (data : ByteArray) : data.data.toList.length = data.size := by
  rw [Array.length_toList, ByteArray.size_data]

/-- What is decoded is derived, from all of the bytes. -/
theorem isDocument_of_decode {data : ByteArray} {doc : Document} (h : decode data = .ok doc) :
    IsDocument data.data.toList doc := by
  unfold decode Read.document at h
  split at h
  · exact absurd h (by simp)
  · next found r hr =>
    split at h
    · exact absurd h (by simp)
    · next ends =>
      injection h with same
      subst same
      obtain ⟨-, bs, name, derives, ahead, rfl⟩ := documentOf_sound (sound _).2.1 hr
      have ends : 0 + bs.length = data.size := not_not.mp ends
      rw [ofBytes_eq, front_ahead_iff] at ahead
      have whole := ahead.eq_of_length (by rw [length_toList]; omega)
      rw [whole] at derives
      exact derives

/-- What is derived is decoded, and nothing is left over. -/
theorem decode_of_isDocument {data : ByteArray} {doc : Document}
    (derives : IsDocument data.data.toList doc) : decode data = .ok doc := by
  have ahead : (Reader.ofBytes data).Ahead data.data.toList := by
    rw [ofBytes_eq]
    exact front_ahead_iff.mpr (List.prefix_refl _)
  have enough : data.data.toList.length ≤ fuelFor (.ofBytes data) := by
    rw [length_toList]
    exact Nat.le_succ data.size
  obtain ⟨name, h⟩ := documentOf_complete (r := .ofBytes data) (complete _).2.1 enough
    (.inl ⟨rfl, rfl⟩) ahead derives
  have ends : ((Reader.ofBytes data).behind data.data.toList.length).pos = data.size := by
    rw [length_toList]
    exact Nat.zero_add _
  unfold decode Read.document
  rw [h]
  exact if_neg (not_not.mpr ends)

/-- A byte string decodes to a document exactly if the grammar derives it with that meaning. -/
theorem decode_eq_ok_iff_isDocument (data : ByteArray) (doc : Document) :
    decode data = .ok doc ↔ IsDocument data.data.toList doc :=
  ⟨isDocument_of_decode, decode_of_isDocument⟩

end Document

end DocumentClient
