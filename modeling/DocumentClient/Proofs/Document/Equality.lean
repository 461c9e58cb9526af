import DocumentClient.Document.Equality
import DocumentClient.Proofs.Document.Building
import DocumentClient.Proofs.Wire.Acceptance

/-!
# Equality forgets the order of fields

Two documents are compared by looking up each field of one in the other, after their lengths. That this is
the same from both sides needs unique names, which every document has that is built by edits
(`Document.namesUnique_run`): then one list of names lies in another of the same length only if both have the
same names.

`Value.Alike` says what the comparison finds out, at all depths and without an order of fields. As a relation
of its own it is symmetric and transitive, whatever the names. It is not reflexive, since a double that is no
number is not alike itself.

Results:
1. `Value.beq_document_iff`, `Value.beq_array_iff`, `Value.beq_scopedCode_iff`: what makes containers equal.
2. `Value.beq_iff_alike`: values with unique names are equal iff they are alike; induction on the value.
3. `Value.Alike.symm`, `Value.Alike.trans`, `Value.alike_self_iff`: the laws of being alike.
4. `Document.beq_laws`: all of this for the comparison itself.
-/

namespace DocumentClient

/-! ## Doubles -/

namespace Number

variable {a b c : UInt64}

/-- The bits stand for no number. -/
def IsNaN (bits : UInt64) : Prop :=
  ∃ negative, reading bits = .nan negative

/-- The bits stand for one of the two zeros. -/
def IsZero (bits : UInt64) : Prop :=
  ∃ negative exponent, reading bits = .finite negative 0 exponent

/-- Equal doubles are numbers with the same bits, or two zeros. -/
theorem equal_iff : equal a b = true ↔ ¬ IsNaN a ∧ ¬ IsNaN b ∧ (a = b ∨ IsZero a ∧ IsZero b) := by
  unfold equal IsNaN IsZero
  split
  · next negative reads => simp [reads]
  · next negative reads _ => simp [reads]
  · next reads reads' => simp [reads, reads']
  · next number number' nonzero =>
    have apart : ¬ (IsZero a ∧ IsZero b) := by
      rintro ⟨⟨n, e, reads⟩, n', e', reads'⟩
      exact nonzero n e n' e' reads reads'
    rw [decide_eq_true_iff]
    constructor
    · intro same
      exact ⟨not_exists.mpr number, not_exists.mpr number', .inl same⟩
    · rintro ⟨-, -, same | zeros⟩
      · exact same
      · exact absurd zeros apart

theorem equal_symm (h : equal a b = true) : equal b a = true := by
  obtain ⟨ha, hb, same⟩ := equal_iff.mp h
  exact equal_iff.mpr ⟨hb, ha, same.imp Eq.symm And.symm⟩

theorem equal_trans (h : equal a b = true) (h' : equal b c = true) : equal a c = true := by
  obtain ⟨ha, -, same⟩ := equal_iff.mp h
  obtain ⟨-, hc, same'⟩ := equal_iff.mp h'
  refine equal_iff.mpr ⟨ha, hc, ?_⟩
  rcases same with rfl | ⟨za, zb⟩
  · exact same'
  · rcases same' with rfl | ⟨-, zc⟩
    · exact .inr ⟨za, zb⟩
    · exact .inr ⟨za, zc⟩

theorem equal_self_iff : equal a a = true ↔ ¬ IsNaN a := by
  rw [equal_iff]
  exact ⟨And.left, fun number => ⟨number, number, .inl rfl⟩⟩

end Number

namespace Value

open Document

variable {a b c v w : Value} {fields others : List (String × Value)} {items values : List Value}
  {code code' : String}

/-! ## Induction on values -/

theorem sizeOf_field_lt {field : String × Value} (mem : field ∈ fields) : sizeOf field.2 < sizeOf fields := by
  have whole := List.sizeOf_lt_of_mem mem
  obtain ⟨name, v⟩ := field
  rw [Prod.mk.sizeOf_spec] at whole
  show sizeOf v < sizeOf fields
  omega

/-- What holds of a value if it holds of the values right below it holds of every value. The scope of code
counts as a document below the code. -/
theorem induction {motive : Value → Prop}
    (document : ∀ fields, (∀ field ∈ fields, motive field.2) → motive (document fields))
    (array : ∀ items, (∀ item ∈ items, motive item) → motive (array items))
    (scopedCode : ∀ code scope, motive (.document scope) → motive (javaScriptWithScope code scope))
    (flat : ∀ v, v.Flat → motive v) (v : Value) : motive v := by
  cases v with
  | document fields =>
    exact document fields fun field mem => induction document array scopedCode flat field.2
  | array items => exact array items fun item mem => induction document array scopedCode flat item
  | javaScriptWithScope code scope =>
    exact scopedCode code scope
      (document scope fun field mem => induction document array scopedCode flat field.2)
  | _ => exact flat _ trivial
termination_by sizeOf v
decreasing_by
  · rw [Value.document.sizeOf_spec]
    have := sizeOf_field_lt mem
    omega
  · rw [Value.array.sizeOf_spec]
    have := List.sizeOf_lt_of_mem mem
    omega
  · rw [Value.javaScriptWithScope.sizeOf_spec]
    have := sizeOf_field_lt mem
    omega

/-! ## What makes values equal -/

theorem fieldsWithin_iff : fieldsWithin fields others = true ↔
    ∀ field ∈ fields, ∃ w, others.lookup field.1 = some w ∧ (field.2 == w) = true := by
  induction fields with
  | nil => simp [fieldsWithin]
  | cons field rest ih =>
    obtain ⟨name, v⟩ := field
    rw [fieldsWithin, Bool.and_eq_true, ih, List.forall_mem_cons]
    apply and_congr_left
    intro _
    cases others.lookup name with
    | none => exact ⟨nofun, nofun⟩
    | some w => exact ⟨fun h => ⟨w, rfl, h⟩, fun ⟨_, same, h⟩ => Option.some.inj same ▸ h⟩

/-- Documents with unique names are equal iff they have the same names, and equal values under each of
them. -/
theorem beq_document_iff (unique : (fields.map Prod.fst).Nodup) (unique' : (others.map Prod.fst).Nodup) :
    (document fields == document others) = true ↔
      (∀ name, name ∈ fields.map Prod.fst ↔ name ∈ others.map Prod.fst) ∧
        ∀ name v w, fields.lookup name = some v → others.lookup name = some w → (v == w) = true := by
  have compared : (document fields == document others) =
      (decide (fields.length = others.length) && fieldsWithin fields others) := by
    show beq _ _ = _
    rw [beq]
  rw [compared, Bool.and_eq_true, decide_eq_true_iff, fieldsWithin_iff]
  constructor
  · rintro ⟨size, within⟩
    have sub : fields.map Prod.fst ⊆ others.map Prod.fst := by
      intro name named
      obtain ⟨field, mem, rfl⟩ := List.mem_map.mp named
      obtain ⟨w, found, -⟩ := within field mem
      exact mem_names_iff_lookup.mpr ⟨w, found⟩
    -- unique names among others that are no more are all of them
    have all : (fields.map Prod.fst).Perm (others.map Prod.fst) :=
      (List.subperm_of_subset unique sub).perm_of_length_le (by simp [size])
    refine ⟨fun name => all.mem_iff, fun name v w found found' => ?_⟩
    obtain ⟨w', there, equal⟩ := within (name, v) (mem_of_lookup found)
    rw [found', Option.some.injEq] at there
    rwa [there]
  · rintro ⟨names, values⟩
    have all : (fields.map Prod.fst).Perm (others.map Prod.fst) :=
      (List.perm_ext_iff_of_nodup unique unique').mpr names
    refine ⟨by simpa using all.length_eq, fun field mem => ?_⟩
    obtain ⟨w, found⟩ := mem_names_iff_lookup.mp ((names field.1).mp (List.mem_map_of_mem mem))
    exact ⟨w, found, values _ _ w (lookup_of_mem unique mem) found⟩

theorem itemsEqual_iff : itemsEqual items values = true ↔ items.length = values.length ∧
    ∀ (i : Nat) (v w : Value), items[i]? = some v → values[i]? = some w → (v == w) = true := by
  induction items generalizing values with
  | nil => cases values <;> simp [itemsEqual]
  | cons item items ih =>
    cases values with
    | nil => simp [itemsEqual]
    | cons value values =>
      rw [itemsEqual, Bool.and_eq_true, List.length_cons, List.length_cons]
      constructor
      · rintro ⟨here, behind⟩
        obtain ⟨size, behind⟩ := ih.mp behind
        refine ⟨by omega, fun i v w found found' => ?_⟩
        cases i with
        | zero =>
          cases found
          cases found'
          exact here
        | succ i => exact behind i v w found found'
      · rintro ⟨size, all⟩
        exact ⟨all 0 _ _ rfl rfl, ih.mpr ⟨by omega, fun i => all (i + 1)⟩⟩

/-- Arrays are equal iff they are as long as each other and equal place by place. -/
theorem beq_array_iff : (array items == array values) = true ↔ items.length = values.length ∧
    ∀ (i : Nat) (v w : Value), items[i]? = some v → values[i]? = some w → (v == w) = true := by
  have compared : (array items == array values) = itemsEqual items values := by
    show beq _ _ = _
    rw [beq]
  rw [compared, itemsEqual_iff]

theorem beq_scopedCode_iff : (javaScriptWithScope code fields == javaScriptWithScope code' others) = true ↔
    code = code' ∧ (document fields == document others) = true := by
  show beq _ _ = true ↔ _ ∧ beq _ _ = true
  rw [beq, beq, Bool.and_eq_true, decide_eq_true_iff]

theorem beq_double_iff {x y : UInt64} : (double x == double y) = true ↔ Number.equal x y = true := by
  show beq _ _ = true ↔ _
  rw [beq]

/-- Equal values are of one kind. -/
theorem kind_eq_of_beq (h : (v == w) = true) : v.kind = w.kind := by
  replace h : beq v w = true := h
  unfold beq at h
  split at h
  all_goals first | rfl | cases h

/-- A value of another kind that holds no values is equal to itself only. -/
theorem beq_flat_iff (flat : v.Flat) (exact : v.kind ≠ .double) : (v == w) = true ↔ v = w := by
  show beq v w = true ↔ _
  constructor
  · intro h
    unfold beq at h
    split at h
    all_goals simp_all [Flat, kind]
  · rintro rfl
    cases v <;> simp_all [Flat, kind, beq]

/-! ## Alike values -/

/-- Values that differ at most in the order of fields and the sign of zeros, at any depth. -/
inductive Alike : Value → Value → Prop
  | document {fields others : List (String × Value)}
      (names : ∀ name, name ∈ fields.map Prod.fst ↔ name ∈ others.map Prod.fst)
      (values : ∀ name v w, fields.lookup name = some v → others.lookup name = some w → Alike v w) :
      Alike (document fields) (document others)
  | array {items others : List Value} (size : items.length = others.length)
      (values : ∀ (i : Nat) (v w : Value), items[i]? = some v → others[i]? = some w → Alike v w) :
      Alike (array items) (array others)
  | scopedCode {code : String} {scope others : List (String × Value)}
      (scopes : Alike (.document scope) (.document others)) :
      Alike (javaScriptWithScope code scope) (javaScriptWithScope code others)
  | double {x y : UInt64} (equal : Number.equal x y = true) : Alike (double x) (double y)
  | same {v : Value} (flat : v.Flat) (exact : v.kind ≠ .double) : Alike v v

theorem Alike.symm (h : Alike a b) : Alike b a := by
  induction h with
  | document names _ ih =>
    exact .document (fun name => (names name).symm) fun name v w hv hw => ih name w v hw hv
  | array size _ ih => exact .array size.symm fun i v w hv hw => ih i w v hw hv
  | scopedCode _ ih => exact .scopedCode ih
  | double equal => exact .double (Number.equal_symm equal)
  | same flat exact => exact .same flat exact

theorem Alike.trans (h : Alike a b) (h' : Alike b c) : Alike a c := by
  induction h generalizing c with
  | document names _ ih =>
    cases h' with
    | document names' values' =>
      refine .document (fun name => (names name).trans (names' name)) fun name v u hv hu => ?_
      obtain ⟨w, hw⟩ := mem_names_iff_lookup.mp ((names name).mp (mem_names_iff_lookup.mpr ⟨v, hv⟩))
      exact ih name v w hv hw (values' name w u hw hu)
    | same flat => exact flat.elim
  | array size _ ih =>
    cases h' with
    | array size' values' =>
      refine .array (size.trans size') fun i v u hv hu => ?_
      obtain ⟨inside, -⟩ := List.getElem?_eq_some_iff.mp hv
      have middle := List.getElem?_eq_getElem (size ▸ inside)
      exact ih i v _ hv middle (values' i _ u middle hu)
    | same flat => exact flat.elim
  | scopedCode _ ih =>
    cases h' with
    | scopedCode scopes => exact .scopedCode (ih scopes)
    | same flat => exact flat.elim
  | double equal =>
    cases h' with
    | double equal' => exact .double (Number.equal_trans equal equal')
    | same _ exact => exact absurd rfl exact
  | same _ _ => exact h'

theorem Alike.kind_eq (h : Alike v w) : v.kind = w.kind := by
  cases h <;> rfl

theorem alike_document_iff : Alike (document fields) (document others) ↔
    (∀ name, name ∈ fields.map Prod.fst ↔ name ∈ others.map Prod.fst) ∧
      ∀ name v w, fields.lookup name = some v → others.lookup name = some w → Alike v w := by
  constructor
  · intro h
    cases h with
    | document names values => exact ⟨names, values⟩
    | same flat => exact flat.elim
  · rintro ⟨names, values⟩
    exact .document names values

theorem alike_array_iff : Alike (array items) (array values) ↔ items.length = values.length ∧
    ∀ (i : Nat) (v w : Value), items[i]? = some v → values[i]? = some w → Alike v w := by
  constructor
  · intro h
    cases h with
    | array size places => exact ⟨size, places⟩
    | same flat => exact flat.elim
  · rintro ⟨size, places⟩
    exact .array size places

theorem alike_scopedCode_iff : Alike (javaScriptWithScope code fields) (javaScriptWithScope code' others) ↔
    code = code' ∧ Alike (document fields) (document others) := by
  constructor
  · intro h
    cases h with
    | scopedCode scopes => exact ⟨rfl, scopes⟩
    | same flat => exact flat.elim
  · rintro ⟨rfl, scopes⟩
    exact .scopedCode scopes

theorem alike_double_iff {x y : UInt64} : Alike (double x) (double y) ↔ Number.equal x y = true := by
  constructor
  · intro h
    cases h with
    | double equal => exact equal
    | same _ exact => exact absurd rfl exact
  · exact .double

theorem alike_flat_iff (flat : v.Flat) (exact : v.kind ≠ .double) : Alike v w ↔ v = w := by
  constructor
  · intro h
    cases h with
    | same => rfl
    | double => exact absurd rfl exact
    | _ => exact flat.elim
  · rintro rfl
    exact .same flat exact

/-! ## Equal values are alike -/

/-- Values of different kinds are neither equal nor alike. -/
theorem beq_iff_alike_of_kind (h : v.kind = w.kind → ((v == w) = true ↔ Alike v w)) :
    (v == w) = true ↔ Alike v w :=
  ⟨fun equal => (h (kind_eq_of_beq equal)).mp equal, fun alike => (h alike.kind_eq).mpr alike⟩

/-- Values with unique names are equal iff they are alike. -/
theorem beq_iff_alike (ha : a.NamesUnique) (hb : b.NamesUnique) : (a == b) = true ↔ Alike a b := by
  induction a using induction generalizing b with
  | document fields ih =>
    refine beq_iff_alike_of_kind fun same => ?_
    obtain ⟨others, rfl⟩ : ∃ others, b = document others :=
      match b, same with | .document others, _ => ⟨others, rfl⟩
    have inner := fieldsNamesUnique_iff.mp ha.2
    have inner' := fieldsNamesUnique_iff.mp hb.2
    rw [beq_document_iff ha.1 hb.1, alike_document_iff]
    refine and_congr_right fun _ => forall_congr' fun name => forall₂_congr fun v w => ?_
    refine forall₂_congr fun found found' => ?_
    have mem := mem_of_lookup found
    exact ih _ mem (inner _ mem) (inner' _ (mem_of_lookup found'))
  | array items ih =>
    refine beq_iff_alike_of_kind fun same => ?_
    obtain ⟨values, rfl⟩ : ∃ values, b = array values :=
      match b, same with | .array values, _ => ⟨values, rfl⟩
    have inner := itemsNamesUnique_iff.mp ha
    have inner' := itemsNamesUnique_iff.mp hb
    rw [beq_array_iff, alike_array_iff]
    refine and_congr_right fun _ => forall_congr' fun i => forall₂_congr fun v w => ?_
    refine forall₂_congr fun found found' => ?_
    have mem := List.mem_of_getElem? found
    exact ih v mem (inner v mem) (inner' w (List.mem_of_getElem? found'))
  | scopedCode code scope ih =>
    refine beq_iff_alike_of_kind fun same => ?_
    obtain ⟨code', scope', rfl⟩ : ∃ code' scope', b = javaScriptWithScope code' scope' :=
      match b, same with | .javaScriptWithScope code' scope', _ => ⟨code', scope', rfl⟩
    rw [beq_scopedCode_iff, alike_scopedCode_iff, ih (b := .document scope') ha hb]
  | flat v flat =>
    by_cases number : v.kind = .double
    · refine beq_iff_alike_of_kind fun same => ?_
      obtain ⟨x, rfl⟩ : ∃ x, v = double x := match v, number with | .double x, _ => ⟨x, rfl⟩
      obtain ⟨y, rfl⟩ : ∃ y, b = double y := match b, same with | .double y, _ => ⟨y, rfl⟩
      rw [beq_double_iff, alike_double_iff]
    · rw [beq_flat_iff flat number, alike_flat_iff flat number]

/-! ## What is alike itself -/

/-- Some double in the value, at any depth, is no number. -/
def HoldsNaN (v : Value) : Prop :=
  ∃ bits, (double bits).IsPart v ∧ Number.IsNaN bits

/-- What is alike itself has parts that are. -/
theorem Alike.part (part : v.IsPart a) (unique : a.NamesUnique) (self : Alike a a) : Alike v v := by
  induction part with
  | whole => exact self
  | field mem _ ih =>
    have found := lookup_of_mem unique.1 mem
    exact ih (fieldsNamesUnique_iff.mp unique.2 _ mem) ((alike_document_iff.mp self).2 _ _ _ found found)
  | item mem _ ih =>
    obtain ⟨i, found⟩ := List.mem_iff_getElem?.mp mem
    exact ih (itemsNamesUnique_iff.mp unique _ mem) ((alike_array_iff.mp self).2 i _ _ found found)
  | scope _ ih => exact ih unique (alike_scopedCode_iff.mp self).2

theorem alike_self_of_numbers (numbers : ¬ a.HoldsNaN) : Alike a a := by
  induction a using induction with
  | document fields ih =>
    refine .document (fun name => Iff.rfl) fun name v w found found' => ?_
    obtain rfl := Option.some.inj (found.symm.trans found')
    have mem := mem_of_lookup found
    exact ih _ mem fun ⟨bits, part, nan⟩ => numbers ⟨bits, .field mem part, nan⟩
  | array items ih =>
    refine .array rfl fun i v w found found' => ?_
    obtain rfl := Option.some.inj (found.symm.trans found')
    have mem := List.mem_of_getElem? found
    exact ih v mem fun ⟨bits, part, nan⟩ => numbers ⟨bits, .item mem part, nan⟩
  | scopedCode code scope ih =>
    exact .scopedCode (ih fun ⟨bits, part, nan⟩ => numbers ⟨bits, .scope part, nan⟩)
  | flat v flat =>
    by_cases number : v.kind = .double
    · obtain ⟨x, rfl⟩ : ∃ x, v = double x := match v, number with | .double x, _ => ⟨x, rfl⟩
      exact .double (Number.equal_self_iff.mpr fun nan => numbers ⟨x, .whole _, nan⟩)
    · exact .same flat number

theorem alike_self_iff (unique : a.NamesUnique) : Alike a a ↔ ¬ a.HoldsNaN := by
  constructor
  · rintro self ⟨bits, part, nan⟩
    exact Number.equal_self_iff.mp (alike_double_iff.mp (self.part part unique)) nan
  · exact alike_self_of_numbers

end Value

/-! ## The laws of equality -/

namespace Document

open Value

/-- Documents are equal iff they have the same names and equal values under each of them. Equality of values
with unique names sees neither the order of fields, at any depth, nor anything across kinds; it is symmetric
and transitive, and reflexive but for doubles that are no numbers. -/
theorem beq_laws :
    (∀ a b : Document, a.names.Nodup → b.names.Nodup → ((a == b) = true ↔
      (∀ name, name ∈ a.names ↔ name ∈ b.names) ∧
        ∀ name v w, a.get? name = some v → b.get? name = some w → (v == w) = true)) ∧
    (∀ a b : Document, (a == b) = (a.toValue == b.toValue)) ∧
    ∀ a b c : Value, a.NamesUnique → b.NamesUnique → c.NamesUnique →
      ((a == b) = true ↔ a.Alike b) ∧
      ((a == b) = true → a.kind = b.kind) ∧
      ((a == b) = true → (b == a) = true) ∧
      ((a == b) = true → (b == c) = true → (a == c) = true) ∧
      ((a == a) = true ↔ ¬ a.HoldsNaN) := by
  refine ⟨fun a b ha hb => beq_document_iff ha hb, fun a b => rfl, fun a b c ha hb hc => ?_⟩
  have ab := beq_iff_alike ha hb
  refine ⟨ab, kind_eq_of_beq, fun h => ?_, fun h h' => ?_, ?_⟩
  · exact (beq_iff_alike hb ha).mpr (ab.mp h).symm
  · exact (beq_iff_alike ha hc).mpr ((ab.mp h).trans ((beq_iff_alike hb hc).mp h'))
  · rw [beq_iff_alike ha ha, alike_self_iff ha]

example : ((⟨[("score", .double 0x7ff8000000000000)]⟩ : Document) ==
    ⟨[("score", .double 0x7ff8000000000000)]⟩) = false := by
  cbv

/-- Two documents that differ in the order of fields at two depths and in the sign of a zero. -/
theorem beq_laws_reordered :
    let a : Document := ⟨[("score", .double 0),
      ("book", .document [("title", .null), ("pages", .int32 730)])]⟩
    let b : Document := ⟨[("book", .document [("pages", .int32 730), ("title", .null)]),
      ("score", .double 0x8000000000000000)]⟩
    (a.NamesUnique ∧ b.NamesUnique) ∧ (a == b) = true ∧
      (∀ name, name ∈ a.names ↔ name ∈ b.names) ∧ a.toValue.Alike b.toValue ∧ (b == a) = true ∧
      ¬ a.toValue.HoldsNaN := by
  intro a b
  have ha : a.NamesUnique := by simp [a, NamesUnique, Value.NamesUnique, FieldsNamesUnique]
  have hb : b.NamesUnique := by simp [b, NamesUnique, Value.NamesUnique, FieldsNamesUnique]
  have equal : (a == b) = true := by cbv
  have self : (a == a) = true := by cbv
  obtain ⟨alike, -, turned, -, numbers⟩ := beq_laws.2.2 a.toValue b.toValue b.toValue ha hb hb
  exact ⟨⟨ha, hb⟩, equal, ((beq_laws.1 a b ha.1 hb.1).mp equal).1, alike.mp equal, turned equal,
    numbers.mp self⟩

end Document

end DocumentClient
