import DocumentClient.Proofs.Typed.Geo
import DocumentClient.Proofs.Typed.Registry
import DocumentClient.Proofs.Typed.Unsigned

/-!
# Typed values come back from the fields of documents

A codec writes a typed value as one value of some kind. Whoever reads it goes by the kind that is found and
not by how the codec that wrote it was set up, so a byte or a word may be read by a codec for another form.

* `Codec.Matches codec other`: the second codec is meant to read what the first one writes.
* `Shape.Storable shape a`: the documents in a typed value are ones that any reader gives back.
* `Codec.Carries codec other a`: the first codec writes one value for `a`, and the second one reads `a` from
  it.

A missing value is written as null, so a value that may itself be null does not come back from a codec for
missing values.

Results:
1. `Codec.Matches.carries`: codecs that belong together carry every storable value, by induction on how they
   belong together.
2. `Codec.decode_of_encodeField`: so a typed value that is written as a field of a document is read back from
   this field, whichever fields stand around it.
-/

namespace DocumentClient

open Outcome Grammar Coder

/-! ## Values that come back -/

/-- The value comes back from a field of a document, which is one more container around it. -/
structure Value.Storable (v : Value) : Prop where
  unique : v.NamesUnique
  canonical : v.SubtypesCanonical
  shallow : v.nesting < maxNesting

/-- The documents in a typed value come back. -/
def Shape.Storable : (shape : Shape) → shape.Carrier → Prop
  | .document, doc => (Value.document doc.fields).Storable
  | .value, v => v.Storable
  | .nullable shape, some a => Storable shape a
  | _, _ => True

/-- Null stands for some value of the shape. -/
def Shape.HasNull : Shape → Prop
  | .value => True
  | .nullable _ => True
  | _ => False

namespace Codec

variable {shape : Shape} {codec other : Codec shape} {a : shape.Carrier}

/-! ## Codecs that belong together -/

/-- The second codec is meant to read what the first one writes. The forms of a byte and of a word may differ,
the policy for words that do not fit may not. -/
inductive Matches : {shape : Shape} → Codec shape → Codec shape → Prop
  | uint8 (form other : ByteForm) : Matches (.uint8 form) (.uint8 other)
  | uint32 (form other : WordForm) (policy : Number.Conversion) :
      Matches (.uint32 form policy) (.uint32 other policy)
  | int32 : Matches .int32 .int32
  | int64 : Matches .int64 .int64
  | double : Matches .double .double
  | boolean : Matches .boolean .boolean
  | text : Matches .text .text
  | document : Matches .document .document
  | value : Matches .value .value
  | projected : Matches .projected .projected
  | geographic : Matches .geographic .geographic
  | linkedCrs : Matches .linkedCrs .linkedCrs
  | namedCrs : Matches .namedCrs .namedCrs
  | crs : Matches .crs .crs
  | nullable {shape : Shape} {codec other : Codec shape} :
      Matches codec other → ¬ shape.HasNull → Matches codec.nullable other.nullable

/-! ## One value for another -/

/-- The first codec writes one value for `a`. From wherever this value may stand, the second codec reads `a`
and comes behind it, with any registry that knows as much as the first codec's. -/
def Carries (codec other : Codec shape) (a : shape.Carrier) : Prop :=
  ∀ ⦃c c' : Coder Writer⦄, codec.encode a c = .ok () c' → ∃ v : Value,
    Write.value v c.place = .ok () c'.place ∧ c'.registry.Covers c.registry ∧
    v.nesting < maxNesting ∧ (v.kind = .null → shape.HasNull) ∧
    ∀ reading : Registry, reading.Covers c.registry → ∀ s : Reader, s.Meets v →
      s.depth + v.nesting ≤ maxNesting → ∃ label registry, other.decode ⟨s, reading⟩ =
        .ok a ⟨(s.passed v.payload.length).named label, registry⟩

/-- Codecs that ask no registry carry what their writer and their reader carry. -/
theorem carries_of_yields {write : Write Unit} {read : Read shape.Carrier} {v : Value}
    (writes : codec.encode a = atPlace write) (reads : other.decode = atPlace read)
    (same : write = Write.value v) (yields : Read.Yields read v a) (shallow : v.nesting < maxNesting)
    (present : v.kind = .null → shape.HasNull) : Carries codec other a := by
  intro c c' ok
  rw [writes, atPlace_eq_ok_iff, same] at ok
  obtain ⟨written, untouched⟩ := ok
  refine ⟨v, written, untouched ▸ .refl _, shallow, present, fun reading _ s meets deep => ?_⟩
  obtain ⟨label, found⟩ := yields meets deep
  refine ⟨label, reading, ?_⟩
  rw [reads, atPlace_eq_ok_iff]
  exact ⟨found, rfl⟩

theorem uint32_carries (form other : WordForm) (policy : Number.Conversion) (n : UInt32) :
    Carries (.uint32 form policy) (.uint32 other policy) n := by
  intro c c' ok
  have ok : atPlace (Write.uint32 form policy n) c = .ok () c' := ok
  obtain ⟨wrote, untouched⟩ := atPlace_eq_ok_iff.mp ok
  obtain ⟨v, written, kind, flat, yields⟩ := Write.exists_value_of_uint32 wrote
  refine ⟨v, written, untouched ▸ .refl _, flat ▸ by decide, ?_, fun reading _ s meets deep => ?_⟩
  · rw [kind]
    intro null
    cases form <;> cases null
  · obtain ⟨label, found⟩ := yields meets deep
    exact ⟨label, reading, atPlace_eq_ok_iff.mpr ⟨found, rfl⟩⟩

/-- A reference system is carried if the codec of its kind, which the registry tells, carries it. There is only
one codec for each kind, so that the one which is told writes and reads as any other does. -/
theorem crs_carries_of_lookup {inner : Shape} (kind : CrsKind) (wrap : inner.Carrier → Crs)
    {x : inner.Carrier} {properties : List (String × Value)} {write : Codec inner → Write Unit}
    {read : Codec inner → Read inner.Carrier} {dispatch : CrsKind → Decode Crs}
    (writes : encodeCrs (wrap x) = Coder.codec inner >>= fun found => atPlace (write found))
    (same : ∀ found, write found = Write.value (.document (kind.fields properties)))
    (reads : decodeCrs = atPlace Read.crsKind >>= dispatch)
    (branch : dispatch kind =
      Coder.codec inner >>= fun found => atPlace (read found) >>= fun y => pure (wrap y))
    (yields : ∀ found, Read.Yields (read found) (.document (kind.fields properties)) x)
    (flat : Value.fieldsNesting properties = 0) : Carries .crs .crs (wrap x) := by
  intro c c' ok
  have ok : encodeCrs (wrap x) c = .ok () c' := ok
  rw [writes] at ok
  obtain ⟨found, m, asked, ok⟩ := bind_eq_ok_iff.mp ok
  obtain ⟨place, made, -, looked⟩ := codec_eq_ok_iff.mp asked
  rw [atPlace_eq_ok_iff, place, same] at ok
  obtain ⟨written, untouched⟩ := ok
  have nested : (Value.document (kind.fields properties)).nesting = 2 := CrsKind.nesting_fields flat
  refine ⟨_, written, untouched ▸ Registry.covers_of_lookup looked, nested ▸ by decide, nofun,
    fun reading covers s meets deep => ?_⟩
  obtain ⟨there, registry, told⟩ := covers inner ⟨made, _, looked⟩
  obtain ⟨label, given⟩ := yields there.codec meets deep
  have shallow : s.depth < maxNesting := by
    rw [nested] at deep
    omega
  have ahead : atPlace Read.crsKind ⟨s, reading⟩ = .ok kind ⟨s, reading⟩ :=
    atPlace_eq_ok_iff.mpr ⟨Read.crsKind_of_meets meets shallow, rfl⟩
  have answered : Coder.codec inner ⟨s, reading⟩ = .ok there.codec ⟨s, registry⟩ :=
    codec_eq_ok_iff.mpr ⟨rfl, there, rfl, told⟩
  have taken : atPlace (read there.codec) ⟨s, registry⟩ = .ok x ⟨_, registry⟩ :=
    atPlace_eq_ok_iff.mpr ⟨given, rfl⟩
  refine ⟨label, registry, ?_⟩
  show decodeCrs ⟨s, reading⟩ = _
  rw [reads, bind_of_ok ahead, branch, bind_of_ok answered, bind_of_ok taken]
  rfl

theorem crs_carries (system : Crs) : Carries .crs .crs system := by
  cases system with
  | linked system =>
    refine @crs_carries_of_lookup .linkedCrs .linked .linked system _ _ _ _ rfl (fun found => ?_) rfl rfl
      (fun found => ?_) system.fieldsNesting_properties
    · cases found
      exact Write.linkedCrs_eq system
    · cases found
      exact Read.yields_linkedCrs system
  | named system =>
    refine @crs_carries_of_lookup .namedCrs .named .named system _ _ _ _ rfl (fun found => ?_) rfl rfl
      (fun found => ?_) system.fieldsNesting_properties
    · cases found
      exact Write.namedCrs_eq system
    · cases found
      exact Read.yields_namedCrs system

/-- A missing value is told by its kind, and so is one that is there, unless null stands for it. -/
theorem nullable_carries {a : Option shape.Carrier} (inner : ∀ b, a = some b → Carries codec other b)
    (solid : ¬ shape.HasNull) : Carries codec.nullable other.nullable a := by
  intro c c' ok
  cases a with
  | none =>
    have ok : atPlace Write.null c = .ok () c' := ok
    obtain ⟨written, untouched⟩ := atPlace_eq_ok_iff.mp ok
    refine ⟨.null, written, untouched ▸ .refl _, by decide, fun _ => trivial,
      fun reading _ s meets deep => ?_⟩
    obtain ⟨label, found⟩ := Read.yields_null meets deep
    have ahead : atPlace Read.currentKind ⟨s, reading⟩ = .ok .null ⟨s, reading⟩ :=
      atPlace_eq_ok_iff.mpr ⟨meets.currentKind, rfl⟩
    have taken : atPlace Read.null ⟨s, reading⟩ = .ok () ⟨_, reading⟩ :=
      atPlace_eq_ok_iff.mpr ⟨found, rfl⟩
    refine ⟨label, reading, ?_⟩
    rw [decode, bind_of_ok ahead, if_pos rfl, bind_of_ok taken]
    rfl
  | some b =>
    obtain ⟨v, written, covers, shallow, present, reads⟩ := inner b rfl ok
    have there : v.kind ≠ .null := fun null => solid (present null)
    refine ⟨v, written, covers, shallow, fun null => absurd null there,
      fun reading known s meets deep => ?_⟩
    obtain ⟨label, registry, found⟩ := reads reading known s meets deep
    have ahead : atPlace Read.currentKind ⟨s, reading⟩ = .ok v.kind ⟨s, reading⟩ :=
      atPlace_eq_ok_iff.mpr ⟨meets.currentKind, rfl⟩
    refine ⟨label, registry, ?_⟩
    rw [decode, bind_of_ok ahead, if_neg there, bind_of_ok found]
    rfl

/-- Codecs that belong together carry every value that can be stored. -/
theorem Matches.carries (h : Matches codec other) :
    ∀ {a : shape.Carrier}, shape.Storable a → Carries codec other a := by
  have scalar : 0 < maxNesting := by decide
  have point : 1 < maxNesting := by decide
  have nested {kind : CrsKind} {properties : List (String × Value)}
      (flat : Value.fieldsNesting properties = 0) :
      (Value.document (kind.fields properties)).nesting < maxNesting := by
    rw [CrsKind.nesting_fields flat]
    decide
  induction h with
  | uint8 form other =>
    intro b _
    refine carries_of_yields rfl rfl (Write.uint8_eq form b) (Read.yields_uint8 form b) ?_ fun null => ?_
    · cases form <;> exact scalar
    · cases form <;> cases null
  | uint32 form other policy => exact fun _ => uint32_carries form other policy _
  | int32 => exact fun _ => carries_of_yields rfl rfl rfl (Read.yields_int32 _) scalar nofun
  | int64 => exact fun _ => carries_of_yields rfl rfl rfl (Read.yields_int64 _) scalar nofun
  | double => exact fun _ => carries_of_yields rfl rfl rfl (Read.yields_double _) scalar nofun
  | boolean => exact fun _ => carries_of_yields rfl rfl rfl (Read.yields_boolean _) scalar nofun
  | text => exact fun _ => carries_of_yields rfl rfl rfl (Read.yields_string _) scalar nofun
  | document =>
    intro doc storable
    exact carries_of_yields rfl rfl rfl (Read.yields_document storable.unique storable.canonical)
      storable.shallow nofun
  | value =>
    intro v storable
    exact carries_of_yields rfl rfl rfl (Read.yields_value storable.unique storable.canonical)
      storable.shallow fun _ => trivial
  | projected =>
    exact fun _ => carries_of_yields rfl rfl (Write.pair_eq _ _) (Read.yields_projected _) point nofun
  | geographic =>
    exact fun _ => carries_of_yields rfl rfl (Write.pair_eq _ _) (Read.yields_geographic _) point nofun
  | linkedCrs =>
    intro system _
    exact carries_of_yields rfl rfl (Write.linkedCrs_eq system) (Read.yields_linkedCrs system)
      (nested system.fieldsNesting_properties) nofun
  | namedCrs =>
    intro system _
    exact carries_of_yields rfl rfl (Write.namedCrs_eq system) (Read.yields_namedCrs system)
      (nested system.fieldsNesting_properties) nofun
  | crs => exact fun _ => crs_carries _
  | nullable _ solid ih =>
    intro a storable
    refine nullable_carries (fun b present => ?_) solid
    subst present
    exact ih storable

/-! ## Fields of documents -/

/-- Writes a document in which the typed value is one of the fields. -/
def encodeField (codec : Codec shape) (before : List (String × Value)) (name : String) (a : shape.Carrier)
    (after : List (String × Value)) : Encode Unit := do
  atPlace Write.startDocument
  atPlace (Write.fields before)
  atPlace (Write.name name)
  codec.encode a
  atPlace (Write.fields after)
  atPlace Write.endDocument

section Fields

variable {before after : List (String × Value)} {name : String} {registry : Registry} {c : Coder Writer}

/-- A document with a typed value in a field is written as the document with the value that is written for
it. -/
theorem exists_document_of_encodeField (carries : Carries codec other a)
    (ok : codec.encodeField before name a after ⟨{}, registry⟩ = .ok () c) : ∃ v : Value,
      Write.documentOf (Write.fields (before ++ (name, v) :: after)) {} = .ok () c.place ∧
      c.registry.Covers registry ∧ v.nesting < maxNesting ∧
      ∀ reading : Registry, reading.Covers registry → ∀ s : Reader, s.Meets v →
        s.depth + v.nesting ≤ maxNesting → ∃ c', other.decode ⟨s, reading⟩ = .ok a c' := by
  unfold encodeField at ok
  simp only [bind_eq_ok_iff, atPlace_eq_ok_iff] at ok
  obtain ⟨_, c₁, ⟨start, same₁⟩, _, c₂, ⟨front, same₂⟩, _, c₃, ⟨named, same₃⟩, _, c₄, wrote, _, c₅,
    ⟨back, same₅⟩, finish, same⟩ := ok
  have untouched : c₃.registry = registry := by rw [same₃, same₂, same₁]
  obtain ⟨v, written, covers, shallow, -, reads⟩ := carries wrote
  refine ⟨v, ?_, ?_, shallow, fun reading known s meets deep => ?_⟩
  · rw [Write.documentOf, Write.fields_append, Write.fields]
    simp only [bind_assoc]
    rw [bind_of_ok start, bind_of_ok front, bind_of_ok named, bind_of_ok written, bind_of_ok back, finish]
  · rw [same, same₅, ← untouched]
    exact covers
  · obtain ⟨label, registry', found⟩ := reads reading (untouched ▸ known) s meets deep
    exact ⟨_, found⟩

/-- A typed value that is written as a field of a document is read back from this field. The reader comes to
the field over those before it, by counting them or by the name if it is new, and needs a registry that knows
as much as the writer's did; the writer's own is still one. -/
theorem decode_of_encodeField (fit : Matches codec other) (storable : shape.Storable a)
    (ok : codec.encodeField before name a after ⟨{}, registry⟩ = .ok () c) :
    ∃ bytes kind m s, c.place.finish = .ok bytes ∧
      Read.startDocument (.ofBytes bytes) = .ok () m ∧
      Read.elementAt before.length m = .ok (some kind) s ∧ s.currentName = .ok name ∧
      (name ∉ before.map Prod.fst → Read.findElement name m = .ok true s) ∧
      c.registry.Covers registry ∧
      ∀ reading : Registry, reading.Covers registry → ∃ c', other.decode ⟨s, reading⟩ = .ok a c' := by
  obtain ⟨v, written, covers, shallow, reads⟩ :=
    exists_document_of_encodeField (fit.carries storable) ok
  obtain ⟨writable, whole⟩ := (Write.whole_laid (Write.fields_laid _) .empty).mp written
  obtain ⟨m, s, entered, reached, named, searched, meets, depth⟩ := Reader.exists_field_of_whole writable
  have finished : c.place.finish =
      .ok (Value.document (before ++ (name, v) :: after)).payload.toByteArray := by
    rw [whole, ByteArray.empty_append]
    rfl
  refine ⟨_, v.kind, m, s, finished, entered, reached, named, searched, covers, fun reading known => ?_⟩
  exact reads reading known s meets (by omega)

/-- A reference system by a link. -/
def linkedSystem : Crs :=
  .linked ⟨"u", some "proj4"⟩

/-- A document with this system between two other fields. -/
def linkedSystemBytes : ByteArray :=
  ⟨#[82, 0, 0, 0,
    8, 97, 0, 1,
    3, 99, 114, 115, 0, 65, 0, 0, 0,
      2, 116, 121, 112, 101, 0, 5, 0, 0, 0, 108, 105, 110, 107, 0,
      3, 112, 114, 111, 112, 101, 114, 116, 105, 101, 115, 0, 33, 0, 0, 0,
        2, 104, 114, 101, 102, 0, 2, 0, 0, 0, 117, 0,
        2, 116, 121, 112, 101, 0, 6, 0, 0, 0, 112, 114, 111, 106, 52, 0,
        0,
      0,
    10, 122, 0,
    0]⟩

/-- The writer behind this document, and the registry that has built the codec of linked systems. -/
def linkedSystemCoder : Coder Writer :=
  ⟨⟨linkedSystemBytes, [], .done, none⟩,
    { Registry.default with built := [(.linkedCrs, ⟨.linkedCrs, .linkedCrs, 0⟩)], builds := 1 }⟩

theorem decode_of_encodeField_linkedSystem :
    crs.nullable.encodeField [("a", .boolean true)] "crs" (some linkedSystem) [("z", .null)]
        ⟨{}, .default⟩ = .ok () linkedSystemCoder ∧
      ∃ m s c', Read.startDocument (.ofBytes linkedSystemBytes) = .ok () m ∧
        Read.findElement "crs" m = .ok true s ∧
        crs.nullable.decode ⟨s, .default⟩ = .ok (some linkedSystem) c' := by
  have written : crs.nullable.encodeField [("a", .boolean true)] "crs" (some linkedSystem) [("z", .null)]
      ⟨{}, .default⟩ = .ok () linkedSystemCoder := by
    cbv
  have storable : (Shape.nullable .crs).Storable (some linkedSystem) := trivial
  obtain ⟨bytes, kind, m, s, finished, entered, -, -, searched, -, reads⟩ :=
    decode_of_encodeField (.nullable .crs id) storable written
  obtain rfl : linkedSystemBytes = bytes := Except.ok.inj finished
  obtain ⟨c', found⟩ := reads .default (.refl _)
  exact ⟨written, m, s, c', entered, searched (by decide), found⟩

end Fields

end Codec

end DocumentClient
