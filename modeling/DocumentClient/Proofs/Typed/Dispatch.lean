import DocumentClient.Proofs.Typed.CrsForm
import DocumentClient.Proofs.Typed.Registry
import DocumentClient.Proofs.Wire.Bounds

/-!
# Reference systems of a kind that is not known beforehand

The type of a reference system may stand behind its properties, so it is looked for before anything is
read. Then the document is read from its front by the codec of that kind, in a loop over the fields with
another one inside. Reading the bytes in this way finds what there is to be found in the decoded document.

Results:
1. `Read.mirrors_linkedProperty`, `Read.mirrors_namedProperty`, `Read.mirrors_crsField`: each field is read as
   the decoded one says.
2. `Read.ends_linkedCrs`, `Read.ends_namedCrs`: so is a system of either kind.
3. `Read.crsKind_eq_ok_iff`: the kind is found ahead, and the reader is back where it was.
4. `Codec.concludes_inner`, `Codec.concludes_decodeCrs`: the codec of that kind reads the system.
5. `Codec.decodeDocument_crs`: decoding a system is decoding a document and finding the system that it is.
6. `Crs.decodeDocument_iff_isForm`: which bytes are decoded as which system.
-/

namespace DocumentClient

open Outcome Grammar

/-! ## Each step is read as it is decoded -/

namespace Read

open Crs

variable {π : Type} {r : Reader} {bs : List UInt8} {doc : Document} {kind : CrsKind} {v : Value}

theorem settles_throw {α : Type} (fault : Fault) (v : Value) : Settles (throw fault : Read α) v none :=
  fun r _ _ _ => ends_throw fault r _

theorem settles_firstText (seen : Option String) (v : Value) :
    Settles (firstText seen) v (firstText? seen v) := by
  cases seen with
  | some text => exact (settles_skipValue v).map (f := fun _ => some text)
  | none => exact (settles_string v).map

theorem mirrors_linkedProperty : Mirrors linkedProperty linkedProperty? := by
  intro properties name v
  unfold linkedProperty linkedProperty?
  by_cases href : name = "href"
  · rw [if_pos href, if_pos href]
    exact (settles_firstText _ v).map
  · rw [if_neg href, if_neg href]
    by_cases type : name = "type"
    · rw [if_pos type, if_pos type]
      exact (settles_firstText _ v).map
    · rw [if_neg type, if_neg type]
      exact settles_throw _ v

theorem mirrors_namedProperty : Mirrors namedProperty namedProperty? := by
  intro found name v
  unfold namedProperty namedProperty?
  by_cases same : name = "name"
  · rw [if_pos same, if_pos same]
    exact settles_firstText found v
  · rw [if_neg same, if_neg same]
    exact settles_throw _ v

theorem mirrors_crsField {property : π → String → Read π} {property? : π → String × Value → Option π}
    {known : π → String → Prop} (mirrors : Mirrors property property?)
    (first : Document.FirstCounts property? known) (kind : CrsKind) :
    Mirrors (crsField kind property) (field? kind property?) := by
  intro fields name v
  unfold crsField field?
  by_cases type : name = "type"
  · rw [if_pos type, if_pos type]
    by_cases typed : fields.typed = true
    · rw [if_pos typed, if_pos typed]
      exact (settles_skipValue v).map (f := fun _ => fields)
    · rw [if_neg typed, if_neg typed]
      exact (settles_string v).bind fun found r => .guard fun _ => ends_pure _ r
  · rw [if_neg type, if_neg type]
    by_cases properties : name = "properties"
    · rw [if_pos properties, if_pos properties]
      by_cases closed : fields.closed = true
      · rw [if_pos closed, if_pos closed]
        exact (settles_skipValue v).map (f := fun _ => fields)
      · rw [if_neg closed, if_neg closed]
        exact settles_folded (k := fun found => pure { fields with closed := true, properties := found })
          (h := fun found => some { fields with closed := true, properties := found }) mirrors first
          (fun _ r => ends_pure _ r) fields.properties v
    · rw [if_neg properties, if_neg properties]
      exact settles_throw _ v

/-! ## A whole reference system -/

/-- The reader stands before the bytes of the document, which may be the whole or an element. -/
structure BeforeDocument (r : Reader) (bs : List UInt8) (doc : Document) : Prop where
  expects : r.Expects .document
  ahead : r.Ahead bs
  derives : Derives r.depth bs doc.toValue

theorem ends_crsOf {property : π → String → Read π} {property? : π → String × Value → Option π}
    {known : π → String → Prop} (mirrors : Mirrors property property?)
    (first : Document.FirstCounts property? known) (kind : CrsKind) (start : π)
    (before : BeforeDocument r bs doc) :
    Ends (crsOf kind property start r) (r.behind bs.length) (ofKind? kind property? start doc) := by
  have checked (fields : CrsFields π) (r : Reader) :
      Ends ((do
        if ¬ fields.typed then throw (.malformed (.crsUntyped kind))
        return fields.properties : Read π) r) r (if ¬ fields.typed then none else some fields.properties) :=
    .guard fun _ => ends_pure _ r
  exact ends_folded (mirrors_crsField mirrors first kind) (firstCounts_field kind property?) checked
    before.expects before.ahead before.derives

theorem ends_linkedCrs (before : BeforeDocument r bs doc) :
    Ends (linkedCrs r) (r.behind bs.length) (linked? doc) := by
  refine (ends_crsOf mirrors_linkedProperty firstCounts_linkedProperty .linked {} before).bind
    fun properties label => ?_
  cases properties.href with
  | some href => exact ⟨label, rfl⟩
  | none => exact ends_throw _ _ _

theorem ends_namedCrs (before : BeforeDocument r bs doc) :
    Ends (namedCrs r) (r.behind bs.length) (named? doc) := by
  refine (ends_crsOf mirrors_namedProperty firstCounts_namedProperty .named none before).bind
    fun name label => ?_
  cases name with
  | some name => exact ⟨label, rfl⟩
  | none => exact ends_throw _ _ _

/-- A reader that has gone on is back at a bookmark as if it had never left. -/
theorem returnTo_of_within {s : Reader} (within : Reader.Within r s) :
    returnTo r.toBookmark s = .ok () r := by
  obtain ⟨mark, data, outerDepth⟩ := s
  obtain ⟨-, same, around, -, -⟩ := within
  dsimp only at same around
  subst same around
  rfl

/-- Looking ahead finds the kind that the document tells, and leaves the reader where it was. -/
theorem crsKind_eq_ok_iff (sound : r.Sound) (before : BeforeDocument r bs doc) {s : Reader} :
    crsKind r = .ok kind s ↔ kind? doc = some kind ∧ s = r := by
  obtain ⟨elements, ⟨shallow, block, names, values⟩, fields⟩ := derives_document_iff.mp before.derives
  obtain ⟨entered, holds⟩ := container_iff.mpr
    ⟨before.expects, shallow, bs, block, before.ahead, names, values, rfl⟩
  have get : doc.get? "type" = (elements.map Element.field).lookup "type" := by
    rw [Document.get?, fields, lookup_firstOfEach]
  have few := length_lt_length_content elements
  have total := length_block block
  have present := before.ahead.present
  have search := findWithin_of_holds "type" (show _ < r.data.size + 1 by omega) rfl rfl holds
  have marked : bookmark r = .ok r.toBookmark r := rfl
  have inside : Reader.Within r (r.entered .document bs.length) :=
    left_of_ok entered ▸ stays_startContainer .document r sound
  rw [kind?, get]
  unfold crsKind
  rw [bind_of_ok marked, startDocument, bind_of_ok entered]
  cases told : (elements.map Element.field).lookup "type" with
  | none =>
    rw [told] at search
    obtain ⟨label, missing⟩ := search
    have missing : findElement "type" (r.entered .document bs.length) = .ok false _ := missing
    rw [bind_of_ok missing]
    refine ⟨fun whole => ?_, fun found => ?_⟩
    · cases whole
    · cases found.1
  | some v =>
    rw [told] at search
    obtain ⟨e, m, rfl, found, stands, -⟩ := search
    have found : findElement "type" (r.entered .document bs.length) = .ok true m := found
    have there := inside.trans (left_of_ok found ▸ stays_findElement "type" _ inside.sound)
    have settled := settles_string e.value stands rfl
    rw [bind_of_ok found, if_neg (not_not.mpr rfl), Option.bind_some]
    dsimp only
    cases spelled : e.value.asString? with
    | none =>
      rw [spelled] at settled
      refine ⟨fun whole => ?_, fun found => ?_⟩
      · obtain ⟨found, t, read, -⟩ := bind_eq_ok_iff.mp whole
        exact absurd read (settled found t)
      · cases found.1
    | some text =>
      rw [spelled] at settled
      obtain ⟨label, read⟩ := settled
      have back := there.trans (left_of_ok read ▸ stays_textOf acceptsValue_string m there.sound)
      rw [bind_of_ok read, bind_of_ok (returnTo_of_within back), Option.bind_some]
      cases CrsKind.ofDiscriminator? text with
      | some found => exact pure_eq_ok_iff.trans (and_congr (Option.some_inj.symm) eq_comm)
      | none =>
        refine ⟨fun whole => ?_, fun found => ?_⟩
        · cases whole
        · cases found.1

end Read

/-! ## Decoding -/

namespace Codec

open Coder Crs Read

variable {r : Reader} {bs : List UInt8} {doc : Document} {registry : Registry}

/-- Decoding that ended so has come to the reader, up to the name in store, with the result; it has failed if
there is none. -/
def Concludes {α : Type} (ended : EStateM.Result Fault (Coder Reader) α) (s : Reader) : Option α → Prop
  | some a => ∃ label registry, ended = .ok a ⟨s.named label, registry⟩
  | none => ∀ a c, ended ≠ .ok a c

/-- A system of one kind is decoded as its codec decodes it. There is only one codec for each kind. -/
theorem concludes_inner {inner : Shape} {read : Codec inner → Read inner.Carrier} {wrap : inner.Carrier → Crs}
    {s : Reader} {x : Option inner.Carrier} (known : registry.Knows inner)
    (ends : ∀ found, Ends (read found r) s x) :
    Concludes ((do
        let found ← codec inner
        return wrap (← atPlace (read found)) : Decode Crs) ⟨r, registry⟩) s (x.map wrap) := by
  obtain ⟨made, registry', looked⟩ := known
  have answered : codec inner ⟨r, registry⟩ = .ok made.codec ⟨r, registry'⟩ :=
    codec_eq_ok_iff.mpr ⟨rfl, made, rfl, looked⟩
  have ended := ends made.codec
  rw [bind_of_ok answered]
  cases x with
  | some a =>
    obtain ⟨label, taken⟩ := ended
    have taken : atPlace (read made.codec) ⟨r, registry'⟩ = .ok a ⟨s.named label, registry'⟩ :=
      atPlace_eq_ok_iff.mpr ⟨taken, rfl⟩
    refine ⟨label, registry', ?_⟩
    rw [bind_of_ok taken]
    rfl
  | none =>
    intro system c whole
    obtain ⟨a, c', taken, -⟩ := bind_eq_ok_iff.mp whole
    exact ended a c'.place (atPlace_eq_ok_iff.mp taken).1

/-- Decoding a reference system is finding the one that the decoded document is. -/
theorem concludes_decodeCrs (sound : r.Sound) (before : BeforeDocument r bs doc)
    (known : registry.Covers .default) :
    Concludes (decodeCrs ⟨r, registry⟩) (r.behind bs.length) (ofDocument? doc) := by
  rw [ofDocument?]
  unfold decodeCrs
  cases told : kind? doc with
  | none =>
    intro system c whole
    obtain ⟨kind, m, found, -⟩ := bind_eq_ok_iff.mp whole
    have ahead := (crsKind_eq_ok_iff sound before).mp (atPlace_eq_ok_iff.mp found).1
    rw [told] at ahead
    cases ahead.1
  | some kind =>
    have ahead : crsKind r = .ok kind r := (crsKind_eq_ok_iff sound before).mpr ⟨told, rfl⟩
    have found : atPlace crsKind ⟨r, registry⟩ = .ok kind ⟨r, registry⟩ :=
      atPlace_eq_ok_iff.mpr ⟨ahead, rfl⟩
    rw [bind_of_ok found, Option.bind_some]
    cases kind with
    | linked =>
      refine concludes_inner (known .linkedCrs ⟨_, _, rfl⟩) fun found => ?_
      cases found
      exact ends_linkedCrs before
    | named =>
      refine concludes_inner (known .namedCrs ⟨_, _, rfl⟩) fun found => ?_
      cases found
      exact ends_namedCrs before

/-- Decoding bytes as a reference system is decoding them as a document and finding the system that it is. -/
theorem decodeDocument_crs {data : ByteArray} (decoded : Document.decode data = .ok doc)
    (known : registry.Covers .default) :
    match ofDocument? doc with
    | some system => ∃ registry', Codec.crs.decodeDocument data registry = .ok system registry'
    | none => ∃ fault registry', Codec.crs.decodeDocument data registry = .error fault registry' := by
  have ahead : (Reader.ofBytes data).Ahead data.data.toList := by
    rw [Document.ofBytes_eq]
    exact front_ahead_iff.mpr (List.prefix_refl _)
  have whole := concludes_decodeCrs (r := .ofBytes data) (.front data (Nat.zero_le _))
    ⟨.inl ⟨rfl, rfl⟩, ahead, Document.isDocument_of_decode decoded⟩ known
  cases told : ofDocument? doc with
  | some system =>
    rw [told] at whole
    obtain ⟨label, registry', read⟩ := whole
    have ends : ((Reader.ofBytes data).behind data.data.toList.length).pos = data.size := by
      rw [Document.length_toList]
      exact Nat.zero_add _
    refine ⟨registry', ?_⟩
    unfold decodeDocument
    rw [show Codec.crs.decode = decodeCrs from rfl, read]
    exact if_pos ⟨rfl, ends⟩
  | none =>
    rw [told] at whole
    unfold decodeDocument
    rw [show Codec.crs.decode = decodeCrs from rfl]
    cases read : decodeCrs ⟨.ofBytes data, registry⟩ with
    | ok system c => exact absurd read (whole system c)
    | error fault c => exact ⟨fault, c.registry, rfl⟩

end Codec

/-! ## Which bytes are reference systems -/

namespace Crs

open Document

/-- Bytes that are a document are decoded as a reference system iff the document looks like it, whatever
stands first and whatever comes again under a name that has been there; otherwise decoding fails. -/
theorem decodeDocument_iff_isForm {data : ByteArray} {doc : Document} {registry : Registry}
    (decoded : decode data = .ok doc) (known : registry.Covers .default) :
    (∀ system : Crs, (∃ registry', Codec.crs.decodeDocument data registry = .ok system registry') ↔
      system.IsForm doc) ∧
    ((∀ system : Crs, ¬ system.IsForm doc) →
      ∃ fault registry', Codec.crs.decodeDocument data registry = .error fault registry') := by
  have ends := Codec.decodeDocument_crs decoded known
  simp only [← ofDocument?_eq_some_iff]
  cases told : ofDocument? doc with
  | some found =>
    rw [told] at ends
    obtain ⟨registry', read⟩ := ends
    refine ⟨fun system => ⟨?_, ?_⟩, fun never => absurd rfl (never found)⟩
    · rintro ⟨other, again⟩
      cases read.symm.trans again
      rfl
    · rintro ⟨⟩
      exact ⟨registry', read⟩
  | none =>
    rw [told] at ends
    obtain ⟨fault, registry', failed⟩ := ends
    refine ⟨fun system => ⟨?_, nofun⟩, fun _ => ⟨fault, registry', failed⟩⟩
    rintro ⟨other, read⟩
    cases failed.symm.trans read

/-- A linked system with its type behind its properties, and with a second value under two of the names. -/
def reversedLink : ByteArray :=
  ⟨#[61, 0, 0, 0,
    3, 112, 114, 111, 112, 101, 114, 116, 105, 101, 115, 0, 23, 0, 0, 0,
    2, 104, 114, 101, 102, 0, 2, 0, 0, 0, 117, 0, 10, 104, 114, 101, 102, 0, 0,
    2, 116, 121, 112, 101, 0, 5, 0, 0, 0, 108, 105, 110, 107, 0, 10, 116, 121, 112, 101, 0, 0]⟩

theorem decodeDocument_iff_isForm_reversed :
    (∃ doc, decode reversedLink = .ok doc ∧ Crs.IsForm (.linked ⟨"u", none⟩) doc) ∧
      Registry.default.Covers .default ∧
      (∃ registry', Codec.crs.decodeDocument reversedLink .default = .ok (.linked ⟨"u", none⟩) registry') ∧
      decode ⟨#[5, 0, 0, 0, 0]⟩ = .ok .empty ∧
      ∃ fault registry', Codec.crs.decodeDocument ⟨#[5, 0, 0, 0, 0]⟩ .default = .error fault registry' := by
  have decoded : decode reversedLink =
      .ok ⟨[("properties", .document [("href", .string "u")]), ("type", .string "link")]⟩ := by
    cbv
  have form : Crs.IsForm (.linked ⟨"u", none⟩)
      ⟨[("properties", .document [("href", .string "u")]), ("type", .string "link")]⟩ :=
    ⟨⟨[("href", .string "u")]⟩, ⟨by unfold Only; decide, rfl, rfl⟩, ⟨by unfold Only; decide, rfl, rfl⟩⟩
  have bare : decode ⟨#[5, 0, 0, 0, 0]⟩ = .ok .empty := by
    cbv
  have formless (system : Crs) : ¬ system.IsForm .empty := by
    intro form
    cases system <;> obtain ⟨properties, ⟨-, type, -⟩, -⟩ := form <;> cases type
  exact ⟨⟨_, decoded, form⟩, .refl _, ((decodeDocument_iff_isForm decoded (.refl _)).1 _).mpr form, bare,
    (decodeDocument_iff_isForm bare (.refl _)).2 formless⟩

end Crs

end DocumentClient
