import DocumentClient.Geo.Coordinates
import DocumentClient.Geo.Crs
import DocumentClient.Proofs.Wire.Fields

/-!
# Coordinates and reference systems, read back

A point is written as an array and a reference system as a document. Both are read by hand, element by
element, and refused where an element is missing or is one too many. What the writer makes of a point or
of a system passes all of these checks and tells what it was.

Results:
1. `Write.pair_eq`, `Write.linkedCrs_eq`, `Write.namedCrs_eq`: the value that is written.
2. `Read.yields_pair`: both doubles of a point come back, to the last bit.
3. `Read.yields_linkedCrs`, `Read.yields_namedCrs`: so does a reference system of either kind.
4. `Read.crsKind_of_meets`: looking ahead for the kind finds it, and leaves the reader where it was.
-/

namespace DocumentClient

open Outcome Grammar

/-! ## What is written -/

/-- The fields of a reference system. -/
def CrsKind.fields (kind : CrsKind) (properties : List (String × Value)) : List (String × Value) :=
  [("type", .string kind.discriminator), ("properties", .document properties)]

/-- The properties of a linked reference system. -/
def LinkedCrs.properties (crs : LinkedCrs) : List (String × Value) :=
  ("href", .string crs.href) :: crs.format.toList.map fun format => ("type", .string format)

/-- The properties of a named reference system. -/
def NamedCrs.properties (crs : NamedCrs) : List (String × Value) :=
  [("name", .string crs.name)]

theorem LinkedCrs.fieldsNesting_properties (crs : LinkedCrs) :
    Value.fieldsNesting crs.properties = 0 := by
  obtain ⟨href, format⟩ := crs
  cases format <;> rfl

theorem NamedCrs.fieldsNesting_properties (crs : NamedCrs) :
    Value.fieldsNesting crs.properties = 0 := rfl

/-- A reference system is a document with one document inside. -/
theorem CrsKind.nesting_fields {kind : CrsKind} {properties : List (String × Value)}
    (flat : Value.fieldsNesting properties = 0) : (Value.document (kind.fields properties)).nesting = 2 := by
  simp [CrsKind.fields, Value.nesting, Value.fieldsNesting, flat]

namespace Write

theorem pair_eq (first second : UInt64) :
    pair first second = value (.array [.double first, .double second]) := by
  simp only [pair, value, items, bind_pure_unit]

theorem crsOf_eq (kind : CrsKind) (properties : List (String × Value)) :
    crsOf kind (fields properties) = value (.document (kind.fields properties)) := by
  simp only [crsOf, value, CrsKind.fields, fields, bind_pure_unit]

theorem linkedCrs_eq (crs : LinkedCrs) :
    linkedCrs crs = value (.document (CrsKind.linked.fields crs.properties)) := by
  rw [← crsOf_eq, linkedCrs]
  cases h : crs.format with
  | none => simp [LinkedCrs.properties, h, fields, value]
  | some format => simp [LinkedCrs.properties, h, fields, value]

theorem namedCrs_eq (crs : NamedCrs) :
    namedCrs crs = value (.document (CrsKind.named.fields crs.properties)) := by
  rw [← crsOf_eq, namedCrs]
  simp only [NamedCrs.properties, fields, value, bind_pure_unit]

end Write

/-! ## What is read -/

namespace Read

/-! ### Points -/

/-- The items of an array are elements with their places for names. -/
theorem itemsPayload_pair (first second : Value) :
    Value.itemsPayload 0 [first, second] = Value.fieldsPayload [("0", first), ("1", second)] := rfl

/-- One of the two doubles of a point is read, with its tag and name. -/
theorem ordinate_of_inside {m r : Reader} {container : Container} {n : Nat} {name : String}
    {bits : UInt64} {rest : List (String × Value)}
    (inside : m.Inside r container n ((name, .double bits) :: rest)) (shallow : r.depth < maxNesting)
    (what : String) : ∃ m', ordinate what m = .ok bits m' ∧ m'.Inside r container n rest := by
  obtain ⟨s, read, -, meets, ⟨-, -, depth⟩, behind⟩ := inside.next
  obtain ⟨label, found⟩ := yields_double bits meets (by rw [depth]; exact shallow)
  refine ⟨_, ?_, behind label⟩
  rw [ordinate, bind_of_ok read]
  exact found

/-- Both doubles of a point come back. -/
theorem yields_pair (what : String) (first second : UInt64) :
    Yields (pair what) (.array [.double first, .double second]) (first, second) := by
  intro s meets shallow
  obtain ⟨-, -, -, size⟩ := meets.writable
  have shallow : s.depth < maxNesting := shallow
  have expects : s.Expects .array := .inr ⟨meets.phase, meets.kind⟩
  have writable : Value.FieldsWritable 0 [("0", .double first), ("1", .double second)] :=
    ⟨by decide, trivial, by decide, trivial, trivial⟩
  rw [itemsPayload_pair] at size
  obtain ⟨m, entered, inside⟩ := Reader.startContainer_laid expects shallow writable size meets.ahead
  obtain ⟨m₁, east, behind⟩ := ordinate_of_inside inside shallow what
  obtain ⟨m₂, north, last⟩ := ordinate_of_inside behind shallow what
  obtain ⟨m₃, stops, phase, left⟩ := last.last
  have ended : endArray m₃ = .ok () m₃.left := endArray_eq_ok_iff.mpr ⟨phase, rfl⟩
  refine ⟨m₂.name, ?_⟩
  rw [pair, startArray, bind_of_ok entered, bind_of_ok east, bind_of_ok north, bind_of_ok stops]
  dsimp only
  rw [bind_of_ok ended, left, meets.behind]
  rfl

theorem yields_projected (point : ProjectedCoordinates) :
    Yields projected (.array [.double point.easting, .double point.northing]) point :=
  (yields_pair _ point.easting point.northing).bind fun _ => rfl

theorem yields_geographic (point : GeographicCoordinates) :
    Yields geographic (.array [.double point.longitude, .double point.latitude]) point :=
  (yields_pair _ point.longitude point.latitude).bind fun _ => rfl

/-! ### Reference systems -/

theorem yields_firstText (text : String) : Yields (firstText none) (.string text) (some text) :=
  (yields_string text).bind (f := fun text => pure (some text)) fun _ => rfl

/-- The type and the properties of a reference system are read, if the properties are. -/
theorem folds_crs {π : Type} {kind : CrsKind} {property : π → String → Read π} {start done : π}
    {properties : List (String × Value)} (folds : Folds property start properties done) :
    Folds (crsField kind property) { properties := start } (kind.fields properties)
      ⟨true, true, done⟩ := by
  have typed : Yields (crsField kind property { properties := start } "type")
      (.string kind.discriminator) { typed := true, properties := start } := by
    refine (yields_string _).bind fun s => ?_
    rw [if_neg (not_not.mpr rfl)]
    rfl
  have closed : Yields (crsField kind property { typed := true, properties := start } "properties")
      (.document properties) ⟨true, true, done⟩ :=
    Yields.folded folds fun _ => rfl
  exact .cons typed (.cons closed (.nil _))

/-- A reference system comes back if its properties do. -/
theorem yields_crsOf {π : Type} {kind : CrsKind} {property : π → String → Read π} {start done : π}
    {properties : List (String × Value)} (folds : Folds property start properties done) :
    Yields (crsOf kind property start) (.document (kind.fields properties)) done :=
  Yields.folded (folds_crs folds) fun _ => rfl

theorem yields_linkedCrs (crs : LinkedCrs) :
    Yields linkedCrs (.document (CrsKind.linked.fields crs.properties)) crs := by
  obtain ⟨href, format⟩ := crs
  have first : Yields (linkedProperty {} "href") (.string href) { href := some href } :=
    (yields_firstText href).bind fun _ => rfl
  cases format with
  | none => exact (yields_crsOf (.cons first (.nil _))).bind fun _ => rfl
  | some format =>
    have second : Yields (linkedProperty { href := some href } "type") (.string format)
        { href := some href, format := some format } :=
      (yields_firstText format).bind fun _ => rfl
    exact (yields_crsOf (.cons first (.cons second (.nil _)))).bind fun _ => rfl

theorem yields_namedCrs (crs : NamedCrs) :
    Yields namedCrs (.document (CrsKind.named.fields crs.properties)) crs := by
  have name : Yields (namedProperty none "name") (.string crs.name) (some crs.name) :=
    yields_firstText crs.name
  exact (yields_crsOf (.cons name (.nil _))).bind fun _ => rfl

/-- Looking ahead for the kind finds it, and leaves the reader where it was. -/
theorem crsKind_of_meets {s : Reader} {kind : CrsKind} {properties : List (String × Value)}
    (meets : s.Meets (.document (kind.fields properties))) (shallow : s.depth < maxNesting) :
    crsKind s = .ok kind s := by
  obtain ⟨level, -, writable, size⟩ := meets.writable
  have expects : s.Expects .document := .inr ⟨meets.phase, meets.kind⟩
  obtain ⟨m, entered, inside⟩ := Reader.startContainer_laid expects shallow writable size meets.ahead
  -- no field stands before the type, so the search stops at once
  have inside : m.Inside s .document _ ([] ++ ("type", .string kind.discriminator) :: _) := inside
  obtain ⟨t, -, -, typed, deeper, searched⟩ := inside.exists_elementAt
  have found : findElement "type" m = .ok true t := searched (by simp) _ (Nat.succ_pos _)
  obtain ⟨label, read⟩ := yields_string kind.discriminator typed (by rw [deeper.depth]; exact shallow)
  have back : returnTo s.toBookmark
      ((t.passed (Value.string kind.discriminator).payload.length).named label) = .ok () s := by
    obtain ⟨⟨pos, phase, kind, name, frames⟩, data, outerDepth⟩ := t
    obtain ⟨same, outer, -⟩ := deeper
    dsimp only at same outer
    subst same outer
    rfl
  have marked : bookmark s = .ok s.toBookmark s := rfl
  unfold crsKind
  rw [bind_of_ok marked, startDocument, bind_of_ok entered, bind_of_ok found, if_neg (not_not.mpr rfl)]
  dsimp only
  rw [bind_of_ok read, bind_of_ok back, CrsKind.ofDiscriminator?_discriminator]
  rfl

end Read

end DocumentClient
