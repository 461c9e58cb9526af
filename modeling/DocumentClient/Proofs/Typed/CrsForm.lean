import DocumentClient.Geo.Crs
import DocumentClient.Proofs.Document.Map
import DocumentClient.Proofs.Wire.Elements

/-!
# What a reference system looks like

A decoded document has each name once, and what it means does not depend on the order of its fields. So
it is easily said which documents are reference systems. It is said once more here by the steps in which such
a system is read, field by field, but on the decoded document.

* `Crs.IsForm system doc`: what a document looks like that is the system.
* `Crs.ofDocument? doc`: the system that a document is, by the steps of reading it.

Results:
1. `Crs.linkedProperty?_eq_some_iff`, `Crs.field?_eq_some_iff`: what one step can do.
2. `Crs.firstCounts_linkedProperty`, `Crs.firstCounts_namedProperty`, `Crs.firstCounts_field`: only the first
   value of each name counts.
3. `Crs.foldlM_linkedProperty_iff`, `Crs.foldlM_namedProperty_iff`, `Crs.foldlM_field_iff`: what any number of
   fields lead to; induction on the fields.
4. `Crs.ofDocument?_eq_some_iff`: the steps find the systems that look like one.
-/

namespace DocumentClient

open Grammar

/-! ## The form of a reference system -/

/-- The document has no fields of other names. -/
def Document.Only (doc : Document) (names : List String) : Prop :=
  ∀ name ∈ doc.names, name ∈ names

/-- The document tells a reference system of the kind, with these properties. -/
structure CrsKind.IsForm (kind : CrsKind) (doc properties : Document) : Prop where
  only : doc.Only ["type", "properties"]
  type : doc.get? "type" = some (.string kind.discriminator)
  properties : doc.get? "properties" = some properties.toValue

/-- The properties are those of the linked system. -/
structure LinkedCrs.IsForm (crs : LinkedCrs) (properties : Document) : Prop where
  only : properties.Only ["href", "type"]
  href : properties.get? "href" = some (.string crs.href)
  format : properties.get? "type" = crs.format.map .string

/-- The properties are those of the named system. -/
structure NamedCrs.IsForm (crs : NamedCrs) (properties : Document) : Prop where
  only : properties.Only ["name"]
  name : properties.get? "name" = some (.string crs.name)

/-- The document is the reference system. -/
def Crs.IsForm (system : Crs) (doc : Document) : Prop :=
  match system with
  | .linked crs => ∃ properties, CrsKind.linked.IsForm doc properties ∧ crs.IsForm properties
  | .named crs => ∃ properties, CrsKind.named.IsForm doc properties ∧ crs.IsForm properties

/-! ## The steps on a decoded document -/

namespace Crs

/-- A text that counts once only. -/
def firstText? (seen : Option String) (v : Value) : Option (Option String) :=
  match seen with
  | some text => some (some text)
  | none => v.asString?.map some

/-- One property of a linked system. -/
def linkedProperty? (properties : Read.LinkedProperties) (field : String × Value) :
    Option Read.LinkedProperties :=
  if field.1 = "href" then
    (firstText? properties.href field.2).map fun href => { properties with href := href }
  else if field.1 = "type" then
    (firstText? properties.format field.2).map fun format => { properties with format := format }
  else none

/-- One property of a named system. -/
def namedProperty? (found : Option String) (field : String × Value) : Option (Option String) :=
  if field.1 = "name" then firstText? found field.2 else none

variable {π : Type}

/-- One field of a reference system. -/
def field? (kind : CrsKind) (property? : π → String × Value → Option π) (fields : CrsFields π)
    (field : String × Value) : Option (CrsFields π) :=
  if field.1 = "type" then
    if fields.typed then some fields
    else field.2.asString?.bind fun found =>
      if found ≠ kind.discriminator then none else some { fields with typed := true }
  else if field.1 = "properties" then
    if fields.closed then some fields
    else field.2.asDocument?.bind fun doc =>
      (doc.fields.foldlM property? fields.properties).bind fun properties =>
        some { fields with closed := true, properties := properties }
  else none

/-- The properties of a reference system of the kind. -/
def ofKind? (kind : CrsKind) (property? : π → String × Value → Option π) (start : π) (doc : Document) :
    Option π :=
  (doc.fields.foldlM (field? kind property?) { properties := start }).bind fun fields =>
    if ¬ fields.typed then none else some fields.properties

/-- The linked system that a document is. -/
def linked? (doc : Document) : Option LinkedCrs :=
  (ofKind? .linked linkedProperty? {} doc).bind fun properties =>
    properties.href.map fun href => ⟨href, properties.format⟩

/-- The named system that a document is. -/
def named? (doc : Document) : Option NamedCrs :=
  (ofKind? .named namedProperty? none doc).bind fun name => name.map NamedCrs.mk

/-- The kind that a document tells. -/
def kind? (doc : Document) : Option CrsKind :=
  (doc.get? "type").bind fun v => v.asString?.bind CrsKind.ofDiscriminator?

/-- The reference system that a document is. -/
def ofDocument? (doc : Document) : Option Crs :=
  (kind? doc).bind fun
    | .linked => (linked? doc).map .linked
    | .named => (named? doc).map .named

/-! ### The first value of each name counts -/

/-- The text is known if it is there. -/
theorem firstText?_isSome {seen found : Option String} {v : Value} (h : firstText? seen v = some found) :
    found.isSome := by
  unfold firstText? at h
  split at h
  · cases h
    rfl
  · obtain ⟨text, -, rfl⟩ := Option.map_eq_some_iff.mp h
    rfl

theorem firstText?_of_isSome {seen : Option String} (h : seen.isSome) (v : Value) :
    firstText? seen v = some seen := by
  obtain ⟨text, rfl⟩ := Option.isSome_iff_exists.mp h
  rfl

theorem linkedProperty?_eq_some_iff {s t : Read.LinkedProperties} {field : String × Value} :
    linkedProperty? s field = some t ↔
      (field.1 = "href" ∧ ∃ text, firstText? s.href field.2 = some text ∧ { s with href := text } = t) ∨
      (field.1 = "type" ∧ ∃ text, firstText? s.format field.2 = some text ∧ { s with format := text } = t) := by
  unfold linkedProperty?
  by_cases href : field.1 = "href"
  · rw [if_pos href, Option.map_eq_some_iff]
    simp [href]
  · by_cases type : field.1 = "type"
    · rw [if_neg href, if_pos type, Option.map_eq_some_iff]
      simp [type]
    · simp [href, type]

theorem firstCounts_linkedProperty : Document.FirstCounts linkedProperty? fun properties name =>
    (name = "href" ∧ properties.href.isSome) ∨ (name = "type" ∧ properties.format.isSome) where
  told {s t field} taken := by
    rcases linkedProperty?_eq_some_iff.mp taken with ⟨here, found, text, rfl⟩ | ⟨here, found, text, rfl⟩
    · exact .inl ⟨here, firstText?_isSome text⟩
    · exact .inr ⟨here, firstText?_isSome text⟩
  kept {s t field name} taken known := by
    rcases linkedProperty?_eq_some_iff.mp taken with ⟨-, found, text, rfl⟩ | ⟨-, found, text, rfl⟩
    · exact known.imp_left fun ⟨same, _⟩ => ⟨same, firstText?_isSome text⟩
    · exact known.imp_right fun ⟨same, _⟩ => ⟨same, firstText?_isSome text⟩
  passed {s field} known := by
    refine linkedProperty?_eq_some_iff.mpr (known.imp ?_ ?_)
    · exact fun ⟨here, present⟩ => ⟨here, s.href, firstText?_of_isSome present field.2, rfl⟩
    · exact fun ⟨here, present⟩ => ⟨here, s.format, firstText?_of_isSome present field.2, rfl⟩

theorem firstCounts_namedProperty : Document.FirstCounts namedProperty? fun found name =>
    name = "name" ∧ found.isSome where
  told {s t field} taken := by
    unfold namedProperty? at taken
    split_ifs at taken with name
    exact ⟨name, firstText?_isSome taken⟩
  kept {s t field name} taken known := by
    unfold namedProperty? at taken
    split_ifs at taken
    exact ⟨known.1, firstText?_isSome taken⟩
  passed {s field} known := by
    rw [namedProperty?, if_pos known.1, firstText?_of_isSome known.2]

theorem field?_eq_some_iff {kind : CrsKind} {property? : π → String × Value → Option π} {s t : CrsFields π}
    {field : String × Value} : field? kind property? s field = some t ↔
      (field.1 = "type" ∧ (s.typed = true ∨ field.2 = .string kind.discriminator) ∧
        { s with typed := true } = t) ∨
      (field.1 = "properties" ∧ if s.closed = true then s = t else
        ∃ doc, field.2.asDocument? = some doc ∧ ∃ found, doc.fields.foldlM property? s.properties = some found ∧
          { s with closed := true, properties := found } = t) := by
  obtain ⟨name, v⟩ := field
  obtain ⟨typed, closed, properties⟩ := s
  unfold field?
  by_cases type : name = "type"
  · cases typed with
    | true => simp [type]
    | false => cases v <;> simp [type, Value.asString?]
  · by_cases here : name = "properties"
    · cases closed <;> simp [here, Option.bind_eq_some_iff]
    · simp [type, here]

theorem firstCounts_field (kind : CrsKind) (property? : π → String × Value → Option π) :
    Document.FirstCounts (field? kind property?) fun fields name =>
      (name = "type" ∧ fields.typed = true) ∨ (name = "properties" ∧ fields.closed = true) where
  told {s t field} taken := by
    rcases field?_eq_some_iff.mp taken with ⟨here, -, rfl⟩ | ⟨here, taken⟩
    · exact .inl ⟨here, rfl⟩
    · split_ifs at taken with closed
      · exact .inr ⟨here, taken ▸ closed⟩
      · obtain ⟨-, -, -, -, rfl⟩ := taken
        exact .inr ⟨here, rfl⟩
  kept {s t field name} taken known := by
    rcases field?_eq_some_iff.mp taken with ⟨-, -, rfl⟩ | ⟨-, taken⟩
    · exact known.imp_left fun ⟨same, _⟩ => ⟨same, rfl⟩
    · split_ifs at taken
      · exact taken ▸ known
      · obtain ⟨-, -, -, -, rfl⟩ := taken
        exact known.imp_right fun ⟨same, _⟩ => ⟨same, rfl⟩
  passed {s field} known := by
    obtain ⟨typed, closed, properties⟩ := s
    refine field?_eq_some_iff.mpr (known.imp ?_ ?_)
    · rintro ⟨here, rfl⟩
      exact ⟨here, .inl rfl, rfl⟩
    · rintro ⟨here, rfl⟩
      exact ⟨here, by rw [if_pos rfl]⟩

end Crs

/-! ## Which documents are reference systems -/

namespace Crs

open Document

variable {fields : List (String × Value)} {seen result : Option String} {found : Option Value} {v : Value}

/-- What a place for a text holds in the end, if this was found first: what it held before, or else the text
that was found. -/
def Fills (seen : Option String) (found : Option Value) (result : Option String) : Prop :=
  match seen with
  | some text => result = some text
  | none => found = result.map .string

theorem fills_none_iff : Fills seen none result ↔ result = seen := by
  cases seen <;> cases result <;> simp [Fills]

/-- The first value fills the place, and a later one does not. -/
theorem fills_some_iff (found : Option Value) :
    Fills seen (some v) result ↔ ∃ text, firstText? seen v = some text ∧ Fills text found result := by
  cases seen with
  | some text => simp [Fills, firstText?]
  | none => cases v <;> cases result <;> simp [Fills, firstText?, Value.asString?, eq_comm]

theorem foldlM_linkedProperty_iff {s t : Read.LinkedProperties} :
    fields.foldlM linkedProperty? s = some t ↔ (∀ name ∈ fields.map Prod.fst, name ∈ ["href", "type"]) ∧
      Fills s.href (fields.lookup "href") t.href ∧ Fills s.format (fields.lookup "type") t.format := by
  induction fields generalizing s with
  | nil =>
    obtain ⟨href, format⟩ := s
    obtain ⟨href', format'⟩ := t
    simp [fills_none_iff, eq_comm]
  | cons field rest ih =>
    obtain ⟨k, v⟩ := field
    rw [List.foldlM_cons, Option.bind_eq_bind, Option.bind_eq_some_iff]
    simp only [ih, List.map_cons, List.forall_mem_cons, lookup_field]
    constructor
    · rintro ⟨_, stepped, names, href, format⟩
      rcases linkedProperty?_eq_some_iff.mp stepped with ⟨rfl, text, taken, rfl⟩ | ⟨rfl, text, taken, rfl⟩
      · exact ⟨⟨by decide, names⟩, (fills_some_iff _).mpr ⟨text, taken, href⟩, format⟩
      · exact ⟨⟨by decide, names⟩, href, (fills_some_iff _).mpr ⟨text, taken, format⟩⟩
    · rintro ⟨⟨here, names⟩, href, format⟩
      have named : k = "href" ∨ k = "type" := by simpa using here
      rcases named with rfl | rfl
      · obtain ⟨text, taken, href⟩ := (fills_some_iff _).mp href
        exact ⟨_, linkedProperty?_eq_some_iff.mpr (.inl ⟨rfl, text, taken, rfl⟩), names, href, format⟩
      · obtain ⟨text, taken, format⟩ := (fills_some_iff _).mp format
        exact ⟨_, linkedProperty?_eq_some_iff.mpr (.inr ⟨rfl, text, taken, rfl⟩), names, href, format⟩

theorem foldlM_namedProperty_iff :
    fields.foldlM namedProperty? seen = some result ↔ (∀ name ∈ fields.map Prod.fst, name ∈ ["name"]) ∧
      Fills seen (fields.lookup "name") result := by
  induction fields generalizing seen with
  | nil => simp [fills_none_iff, eq_comm]
  | cons field rest ih =>
    obtain ⟨k, v⟩ := field
    rw [List.foldlM_cons, Option.bind_eq_bind, Option.bind_eq_some_iff]
    simp only [ih, List.map_cons, List.forall_mem_cons, lookup_field]
    by_cases name : k = "name"
    · subst name
      rw [if_pos rfl, fills_some_iff (rest.lookup "name")]
      constructor
      · rintro ⟨text, taken, names, first⟩
        exact ⟨⟨by decide, names⟩, text, taken, first⟩
      · rintro ⟨⟨-, names⟩, text, taken, first⟩
        exact ⟨text, taken, names, first⟩
    · have step : namedProperty? seen (k, v) = none := by
        rw [namedProperty?, if_neg name]
      simp [step, name]

variable {π : Type} {kind : CrsKind} {property? : π → String × Value → Option π} {s t : CrsFields π}

/-- Whether the type is there in the end, if this was found first. -/
def Types (kind : CrsKind) (seen : Bool) (found : Option Value) (result : Bool) : Prop :=
  if seen then result = true else found = if result then some (.string kind.discriminator) else none

/-- What the properties are in the end, if this was found first. -/
def Closes (property? : π → String × Value → Option π) (s : CrsFields π) (found : Option Value)
    (t : CrsFields π) : Prop :=
  if s.closed then t.closed = true ∧ t.properties = s.properties
  else match found with
    | none => t.closed = false ∧ t.properties = s.properties
    | some v => t.closed = true ∧ ∃ doc, v.asDocument? = some doc ∧
        doc.fields.foldlM property? s.properties = some t.properties

theorem types_some_iff {seen : Bool} {result : Bool} : Types kind seen (some v) result ↔
    (seen = true ∨ v = .string kind.discriminator) ∧ result = true := by
  cases seen <;> cases result <;> simp [Types]

/-- The first value closes the properties, and a later one does not. -/
theorem closes_some_iff (found : Option Value) : Closes property? s (some v) t ↔
    if s.closed = true then Closes property? s found t
    else ∃ doc, v.asDocument? = some doc ∧ ∃ inner, doc.fields.foldlM property? s.properties = some inner ∧
      Closes property? { s with closed := true, properties := inner } found t := by
  obtain ⟨typed, closed, properties⟩ := s
  cases closed with
  | true => simp [Closes]
  | false =>
    constructor
    · rintro ⟨closed, doc, here, folded⟩
      exact ⟨doc, here, t.properties, folded, closed, rfl⟩
    · rintro ⟨doc, here, inner, folded, closed, same⟩
      exact ⟨closed, doc, here, same ▸ folded⟩

theorem foldlM_field_iff : fields.foldlM (field? kind property?) s = some t ↔
    (∀ name ∈ fields.map Prod.fst, name ∈ ["type", "properties"]) ∧
      Types kind s.typed (fields.lookup "type") t.typed ∧
      Closes property? s (fields.lookup "properties") t := by
  induction fields generalizing s with
  | nil =>
    obtain ⟨typed, closed, properties⟩ := s
    obtain ⟨typed', closed', properties'⟩ := t
    cases typed <;> cases typed' <;> cases closed <;> simp [Types, Closes, eq_comm]
  | cons field rest ih =>
    obtain ⟨k, v⟩ := field
    rw [List.foldlM_cons, Option.bind_eq_bind, Option.bind_eq_some_iff]
    simp only [ih, List.map_cons, List.forall_mem_cons, lookup_field]
    constructor
    · rintro ⟨s', stepped, names, typed, closes⟩
      rcases field?_eq_some_iff.mp stepped with ⟨rfl, fits, rfl⟩ | ⟨rfl, taken⟩
      · exact ⟨⟨by decide, names⟩, types_some_iff.mpr ⟨fits, typed⟩, closes⟩
      · have same : s'.typed = s.typed := by
          split_ifs at taken
          · rw [taken]
          · obtain ⟨-, -, -, -, rfl⟩ := taken
            rfl
        refine ⟨⟨by decide, names⟩, same ▸ typed, (closes_some_iff (rest.lookup "properties")).mpr ?_⟩
        split_ifs at taken ⊢
        · exact taken ▸ closes
        · obtain ⟨doc, told, inner, folded, rfl⟩ := taken
          exact ⟨doc, told, inner, folded, closes⟩
    · rintro ⟨⟨here, names⟩, typed, closes⟩
      have named : k = "type" ∨ k = "properties" := by simpa using here
      rcases named with rfl | rfl
      · obtain ⟨fits, typed⟩ := types_some_iff.mp typed
        exact ⟨_, field?_eq_some_iff.mpr (.inl ⟨rfl, fits, rfl⟩), names, typed, closes⟩
      · have closes := (closes_some_iff (rest.lookup "properties")).mp closes
        split_ifs at closes with closed
        · refine ⟨s, field?_eq_some_iff.mpr (.inr ⟨rfl, ?_⟩), names, typed, closes⟩
          rw [if_pos closed]
        · obtain ⟨doc, told, inner, folded, closes⟩ := closes
          refine ⟨{ s with closed := true, properties := inner }, field?_eq_some_iff.mpr (.inr ⟨rfl, ?_⟩),
            names, typed, closes⟩
          rw [if_neg closed]
          exact ⟨doc, told, inner, folded, rfl⟩

variable {start found : π} {doc : Document}

theorem asDocument?_eq_some_iff {properties : Document} :
    v.asDocument? = some properties ↔ v = properties.toValue := by
  obtain ⟨fields⟩ := properties
  cases v <;> simp [Value.asDocument?, toValue]

/-- The properties of a system of the kind are found iff the document has its form. Where there are none
nothing is found. -/
theorem ofKind?_eq_some_iff (filled : found ≠ start) : ofKind? kind property? start doc = some found ↔
    ∃ properties, kind.IsForm doc properties ∧ properties.fields.foldlM property? start = some found := by
  rw [ofKind?, Option.bind_eq_some_iff]
  constructor
  · rintro ⟨⟨typed, closed, properties⟩, folded, last⟩
    cases typed <;> cases last
    obtain ⟨only, type, closes⟩ := foldlM_field_iff.mp folded
    unfold Closes at closes
    rw [if_neg nofun] at closes
    split at closes
    · exact absurd closes.2 filled
    · next v here =>
      obtain ⟨-, properties, told, folded⟩ := closes
      exact ⟨properties, ⟨only, type, here.trans (congrArg some (asDocument?_eq_some_iff.mp told))⟩, folded⟩
  · rintro ⟨properties, ⟨only, type, here⟩, folded⟩
    refine ⟨⟨true, true, found⟩, foldlM_field_iff.mpr ⟨only, type, ?_⟩, rfl⟩
    rw [show doc.fields.lookup "properties" = some properties.toValue from here]
    exact ⟨rfl, properties, rfl, folded⟩

/-- What has been read of a linked system is all of it if the properties have the form of one. -/
theorem foldlM_linkedProperty_isForm {crs : LinkedCrs} {properties : Document} :
    properties.fields.foldlM linkedProperty? {} = some ⟨some crs.href, crs.format⟩ ↔ crs.IsForm properties := by
  rw [foldlM_linkedProperty_iff]
  exact ⟨fun ⟨only, href, format⟩ => ⟨only, href, format⟩, fun ⟨only, href, format⟩ => ⟨only, href, format⟩⟩

theorem foldlM_namedProperty_isForm {crs : NamedCrs} {properties : Document} :
    properties.fields.foldlM namedProperty? none = some (some crs.name) ↔ crs.IsForm properties := by
  rw [foldlM_namedProperty_iff]
  exact ⟨fun ⟨only, name⟩ => ⟨only, name⟩, fun ⟨only, name⟩ => ⟨only, name⟩⟩

theorem linked?_eq_some_iff {crs : LinkedCrs} : linked? doc = some crs ↔
    ∃ properties, CrsKind.linked.IsForm doc properties ∧ crs.IsForm properties := by
  have whole : linked? doc = some crs ↔
      ofKind? .linked linkedProperty? {} doc = some ⟨some crs.href, crs.format⟩ := by
    rw [linked?, Option.bind_eq_some_iff]
    constructor
    · rintro ⟨⟨href, format⟩, read, last⟩
      obtain ⟨text, rfl, rfl⟩ := Option.map_eq_some_iff.mp last
      exact read
    · intro read
      exact ⟨_, read, rfl⟩
  have filled : (⟨some crs.href, crs.format⟩ : Read.LinkedProperties) ≠ {} := nofun
  rw [whole, ofKind?_eq_some_iff filled]
  simp only [foldlM_linkedProperty_isForm]

theorem named?_eq_some_iff {crs : NamedCrs} : named? doc = some crs ↔
    ∃ properties, CrsKind.named.IsForm doc properties ∧ crs.IsForm properties := by
  have whole : named? doc = some crs ↔ ofKind? .named namedProperty? none doc = some (some crs.name) := by
    rw [named?, Option.bind_eq_some_iff]
    constructor
    · rintro ⟨found, read, last⟩
      obtain ⟨text, rfl, rfl⟩ := Option.map_eq_some_iff.mp last
      exact read
    · intro read
      exact ⟨_, read, rfl⟩
  have filled : some crs.name ≠ none := nofun
  rw [whole, ofKind?_eq_some_iff filled]
  simp only [foldlM_namedProperty_isForm]

/-- The kind is told by the type, which a system of the kind has. -/
theorem kind?_of_isForm {properties : Document} (form : kind.IsForm doc properties) :
    kind? doc = some kind := by
  rw [kind?, form.type]
  exact CrsKind.ofDiscriminator?_discriminator kind

/-- The documents that are reference systems are those that look like one. -/
theorem ofDocument?_eq_some_iff {system : Crs} : ofDocument? doc = some system ↔ system.IsForm doc := by
  constructor
  · intro told
    obtain ⟨kind, -, told⟩ := Option.bind_eq_some_iff.mp told
    cases kind with
    | linked =>
      obtain ⟨crs, here, rfl⟩ := Option.map_eq_some_iff.mp told
      exact linked?_eq_some_iff.mp here
    | named =>
      obtain ⟨crs, here, rfl⟩ := Option.map_eq_some_iff.mp told
      exact named?_eq_some_iff.mp here
  · intro form
    cases system with
    | linked crs =>
      obtain ⟨properties, outer, -⟩ := id form
      rw [ofDocument?, kind?_of_isForm outer, Option.bind_some]
      exact Option.map_eq_some_iff.mpr ⟨crs, linked?_eq_some_iff.mpr form, rfl⟩
    | named crs =>
      obtain ⟨properties, outer, -⟩ := id form
      rw [ofDocument?, kind?_of_isForm outer, Option.bind_some]
      exact Option.map_eq_some_iff.mpr ⟨crs, named?_eq_some_iff.mpr form, rfl⟩

end Crs

end DocumentClient
