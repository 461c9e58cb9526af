import DocumentClient.Proofs.Document.Map
import DocumentClient.Proofs.Wire.Lookup
import DocumentClient.Proofs.Wire.RoundTrip
import DocumentClient.Query.Sort

/-!
# Documents as ordered maps

A name takes its place where it first comes, and which value it has is another question: putting fields one
after another keeps the last value of a name, putting only those whose name is not there keeps the first. The
names come out the same. A document with unique names is told by its names in order and by what is under each
of them (`Document.eq_of_get?`), so every law below is shown in these two parts.

Results:
1. `Document.nodup_run`, `Document.namesUnique_run`: no sequence of edits makes a name come twice, and none
   does so at any depth if the values that are put have unique names themselves.
2. `Document.lists_ofList`, `Document.lists_extendAbsent`: what is listed of fields in which names repeat.
3. `Document.merge_eq_ofList`, `Document.merge_assoc`: merging is putting one list behind the other.
4. `SortBy.lists_run`: an order of results lists its keys in the same way.
5. `Document.isOrderedMap`: all of these together.
-/

namespace DocumentClient

open Grammar

namespace Document

variable {doc other a b c : Document} {name key : String} {value : Value}
  {fields others values : List (String × Value)}

/-! ## First occurrences -/

/-- A name behind others is kept if it is new. -/
theorem eraseDups_concat (names : List String) (name : String) :
    (names ++ [name]).eraseDups =
      if name ∈ names then names.eraseDups else names.eraseDups ++ [name] := by
  rw [List.eraseDups_append]
  by_cases known : name ∈ names
  · simp [List.removeAll, known]
  · simp [List.removeAll, known, List.eraseDups_cons]

theorem nodup_eraseDups (names : List String) : names.eraseDups.Nodup := by
  induction names using List.reverseRecOn with
  | nil => exact List.nodup_nil
  | append_singleton names name ih =>
    rw [eraseDups_concat]
    split
    · exact ih
    · next fresh =>
      refine List.nodup_append.mpr ⟨ih, List.nodup_singleton name, fun other mem last one => ?_⟩
      rw [List.mem_singleton.mp one]
      rintro rfl
      exact fresh (List.mem_eraseDups.mp mem)

theorem eraseDups_of_nodup {names : List String} (unique : names.Nodup) : names.eraseDups = names := by
  induction names using List.reverseRecOn with
  | nil => rfl
  | append_singleton names name ih =>
    obtain ⟨unique, -, apart⟩ := List.nodup_append.mp unique
    have fresh : name ∉ names := fun mem => apart name mem name (List.mem_singleton_self name) rfl
    rw [eraseDups_concat, if_neg fresh, ih unique]

/-- Dropping names commutes with keeping the first of equal ones. -/
theorem eraseDups_filter (p : String → Bool) (names : List String) :
    (names.filter p).eraseDups = names.eraseDups.filter p := by
  induction names using List.reverseRecOn with
  | nil => rfl
  | append_singleton names name ih =>
    rw [List.filter_append, eraseDups_concat]
    by_cases kept : p name
    · have mem : name ∈ names.filter p ↔ name ∈ names := by simp [kept]
      rw [List.filter_singleton, kept, Bool.cond_true, eraseDups_concat, ih]
      simp only [mem]
      split <;> simp [kept]
    · rw [List.filter_singleton, Bool.eq_false_iff.mpr kept, Bool.cond_false, List.append_nil, ih]
      split <;> simp [kept]

theorem eraseDups_eraseDups_append (names more : List String) :
    (names.eraseDups ++ more).eraseDups = (names ++ more).eraseDups := by
  rw [List.eraseDups_append, List.eraseDups_append, eraseDups_of_nodup (nodup_eraseDups names)]
  simp [List.removeAll]

theorem eraseDups_append_eraseDups (names more : List String) :
    (names ++ more.eraseDups).eraseDups = (names ++ more).eraseDups := by
  rw [List.eraseDups_append, List.eraseDups_append, List.removeAll, List.removeAll, eraseDups_filter,
    eraseDups_filter, eraseDups_of_nodup (nodup_eraseDups more)]

/-! ## Names and values tell a document -/

/-- Fields with unique names are told by their names and by what is under each. -/
theorem fields_eq_of_lookup (unique : (fields.map Prod.fst).Nodup)
    (names : fields.map Prod.fst = others.map Prod.fst)
    (same : ∀ name, fields.lookup name = others.lookup name) : fields = others := by
  induction fields generalizing others with
  | nil => exact (List.map_eq_nil_iff.mp names.symm).symm
  | cons field rest ih =>
    obtain ⟨k, v⟩ := field
    obtain ⟨⟨k', v'⟩, rest', rfl⟩ := List.exists_cons_of_ne_nil (l := others) (by rintro rfl; cases names)
    obtain ⟨fresh, unique⟩ := List.nodup_cons.mp unique
    obtain ⟨rfl, behind⟩ := List.cons.inj names
    have here := same k
    rw [lookup_field, lookup_field, if_pos rfl, if_pos rfl] at here
    cases here
    congr 1
    refine ih unique behind fun name => ?_
    by_cases first : name = k
    · subst first
      rw [lookup_eq_none_iff.mpr fresh, lookup_eq_none_iff.mpr (behind ▸ fresh)]
    · have later := same name
      rwa [lookup_field, lookup_field, if_neg first, if_neg first] at later

theorem eq_of_get? (unique : doc.names.Nodup) (names : doc.names = other.names)
    (same : ∀ name, doc.get? name = other.get? name) : doc = other := by
  obtain ⟨fields⟩ := doc
  obtain ⟨others⟩ := other
  exact congrArg Document.mk (fields_eq_of_lookup unique names same)

/-- The document has the names of the fields in the order in which they first come, and under each name what
the values have under it. -/
structure Lists (doc : Document) (fields values : List (String × Value)) : Prop where
  names : doc.names = (fields.map Prod.fst).eraseDups
  value : ∀ name, doc.get? name = values.lookup name

theorem Lists.nodup (lists : doc.Lists fields values) : doc.names.Nodup := by
  rw [lists.names]
  exact nodup_eraseDups _

theorem Lists.unique (lists : doc.Lists fields values) (lists' : other.Lists fields values) : doc = other :=
  eq_of_get? lists.nodup (lists.names.trans lists'.names.symm)
    fun name => (lists.value name).trans (lists'.value name).symm

/-! ## Single edits -/

theorem names_insertIfAbsent (doc : Document) (name : String) (value : Value) :
    (doc.insertIfAbsent name value).names =
      if name ∈ doc.names then doc.names else doc.names ++ [name] := by
  unfold insertIfAbsent
  simp only [contains_iff]
  split
  · rfl
  · simp [names]

theorem names_replace (doc : Document) (name : String) (value : Value) :
    (doc.replace name value).names = doc.names := by
  unfold replace
  split
  · next known => rw [names_insert, if_pos ((contains_iff doc name).mp known)]
  · rfl

theorem names_erase (doc : Document) (name : String) :
    (doc.erase name).names = doc.names.filter fun other => other ≠ name := by
  unfold erase names
  rw [List.filter_map]
  rfl

theorem get?_erase (doc : Document) (key name : String) :
    (doc.erase key).get? name = if name = key then none else doc.get? name := by
  by_cases same : name = key
  · refine (lookup_eq_none_iff.mpr ?_).trans (if_pos same).symm
    rw [← names, names_erase]
    simp [same]
  · rw [if_neg same]
    exact lookup_filter_ne same

/-! ## Sequences of edits -/

/-- The ways to change a document. -/
inductive Edit where
  | insert (name : String) (value : Value)
  | insertIfAbsent (name : String) (value : Value)
  /-- Sets the value of a name that is there. -/
  | replace (name : String) (value : Value)
  | erase (name : String)
  | merge (other : Document)
  | extend (fields : List (String × Value))
  | clear

/-- The fields that an edit puts, or may put. -/
def Edit.puts : Edit → List (String × Value)
  | insert name value => [(name, value)]
  | insertIfAbsent name value => [(name, value)]
  | replace name value => [(name, value)]
  | erase _ => []
  | merge other => other.fields
  | extend fields => fields
  | clear => []

/-- The document after an edit. -/
def edited (doc : Document) : Edit → Document
  | .insert name value => doc.insert name value
  | .insertIfAbsent name value => doc.insertIfAbsent name value
  | .replace name value => doc.replace name value
  | .erase name => doc.erase name
  | .merge other => doc.merge other
  | .extend fields => doc.extend fields
  | .clear => empty

/-- The document after one edit after another. -/
def run (doc : Document) (edits : List Edit) : Document :=
  edits.foldl edited doc

/-- Putting fields one after another lists the names as they first come, in whichever way one field is put. -/
theorem names_foldl {put : Document → String × Value → Document}
    (step : ∀ doc field, (put doc field).names =
      if field.1 ∈ doc.names then doc.names else doc.names ++ [field.1])
    (unique : doc.names.Nodup) (fields : List (String × Value)) :
    (fields.foldl put doc).names = (doc.names ++ fields.map Prod.fst).eraseDups := by
  induction fields generalizing doc with
  | nil => simp [eraseDups_of_nodup unique]
  | cons field rest ih =>
    have here : (put doc field).names = (doc.names ++ [field.1]).eraseDups := by
      rw [step, eraseDups_concat, eraseDups_of_nodup unique]
    have next : (put doc field).names.Nodup := here ▸ nodup_eraseDups _
    rw [List.foldl_cons, ih next, here, eraseDups_eraseDups_append, List.append_assoc]
    rfl

theorem names_extend (unique : doc.names.Nodup) (fields : List (String × Value)) :
    (doc.extend fields).names = (doc.names ++ fields.map Prod.fst).eraseDups :=
  names_foldl (fun doc field => names_insert doc field.1 field.2) unique fields

theorem names_extendAbsent (unique : doc.names.Nodup) (fields : List (String × Value)) :
    (doc.extendAbsent fields).names = (doc.names ++ fields.map Prod.fst).eraseDups :=
  names_foldl (fun doc field => names_insertIfAbsent doc field.1 field.2) unique fields

theorem nodup_empty : empty.names.Nodup := List.nodup_nil

theorem nodup_extend (unique : doc.names.Nodup) (fields : List (String × Value)) :
    (doc.extend fields).names.Nodup := by
  rw [names_extend unique]
  exact nodup_eraseDups _

theorem nodup_erase (unique : doc.names.Nodup) (name : String) : (doc.erase name).names.Nodup := by
  rw [names_erase]
  exact unique.filter _

/-- No edit makes a name come twice. -/
theorem nodup_edited (unique : doc.names.Nodup) (edit : Edit) : (doc.edited edit).names.Nodup := by
  cases edit with
  | insert name value => exact nodup_extend unique [(name, value)]
  | insertIfAbsent name value =>
    have names := names_extendAbsent unique [(name, value)]
    exact names ▸ nodup_eraseDups _
  | replace name value => exact (names_replace doc name value).symm ▸ unique
  | erase name => exact nodup_erase unique name
  | merge other => exact nodup_extend unique other.fields
  | extend fields => exact nodup_extend unique fields
  | clear => exact nodup_empty

theorem nodup_run (unique : doc.names.Nodup) (edits : List Edit) : (doc.run edits).names.Nodup := by
  induction edits generalizing doc with
  | nil => exact unique
  | cons edit edits ih => exact ih (nodup_edited unique edit)

theorem mem_insertField {field : String × Value} (mem : field ∈ insertField name value fields) :
    field ∈ fields ∨ field = (name, value) := by
  induction fields with
  | nil => exact .inr (List.mem_singleton.mp mem)
  | cons head rest ih =>
    obtain ⟨k, v⟩ := head
    rw [insertField] at mem
    split at mem
    · next same =>
      subst same
      rcases List.mem_cons.mp mem with put | behind
      · exact .inr put
      · exact .inl (List.mem_cons_of_mem _ behind)
    · rcases List.mem_cons.mp mem with first | behind
      · exact .inl (first ▸ List.mem_cons_self)
      · exact (ih behind).imp_left (List.mem_cons_of_mem _)

theorem mem_extend (doc : Document) (fields : List (String × Value)) {field : String × Value}
    (mem : field ∈ (doc.extend fields).fields) : field ∈ doc.fields ∨ field ∈ fields := by
  induction fields generalizing doc with
  | nil => exact .inl mem
  | cons head rest ih =>
    rcases ih (doc.insert head.1 head.2) mem with before | behind
    · refine (mem_insertField before).imp_right fun same => ?_
      rw [same]
      exact List.mem_cons_self
    · exact .inr (List.mem_cons_of_mem _ behind)

/-- A field after an edit was there before, or the edit has put it. -/
theorem mem_edited {field : String × Value} {edit : Edit} (mem : field ∈ (doc.edited edit).fields) :
    field ∈ doc.fields ∨ field ∈ edit.puts := by
  cases edit with
  | insert name value => exact mem_extend doc [(name, value)] mem
  | insertIfAbsent name value =>
    rw [edited, insertIfAbsent] at mem
    split at mem
    · exact .inl mem
    · exact List.mem_append.mp mem
  | replace name value =>
    rw [edited, replace] at mem
    split at mem
    · exact mem_extend doc [(name, value)] mem
    · exact .inl mem
  | erase name => exact .inl (List.mem_of_mem_filter mem)
  | merge other => exact mem_extend doc other.fields mem
  | extend fields => exact mem_extend doc fields mem
  | clear => cases mem

theorem mem_run (doc : Document) (edits : List Edit) {field : String × Value}
    (mem : field ∈ (doc.run edits).fields) : field ∈ doc.fields ∨ ∃ edit ∈ edits, field ∈ edit.puts := by
  induction edits generalizing doc with
  | nil => exact .inl mem
  | cons edit edits ih =>
    rcases ih (doc.edited edit) mem with before | ⟨later, among, put⟩
    · exact (mem_edited before).imp_right fun put => ⟨edit, List.mem_cons_self, put⟩
    · exact .inr ⟨later, List.mem_cons_of_mem _ among, put⟩

/-- Names stay unique at every depth if they are in the values that are put. -/
theorem namesUnique_run {edits : List Edit} (unique : doc.NamesUnique)
    (put : ∀ edit ∈ edits, ∀ field ∈ edit.puts, field.2.NamesUnique) : (doc.run edits).NamesUnique := by
  obtain ⟨here, inner⟩ := unique
  refine ⟨nodup_run here edits, Value.fieldsNamesUnique_iff.mpr fun field mem => ?_⟩
  rcases mem_run doc edits mem with before | ⟨edit, among, added⟩
  · exact Value.fieldsNamesUnique_iff.mp inner field before
  · exact put edit among field added

/-- Erasing a name keeps the others in order, and what is under them. -/
theorem erased (unique : doc.names.Nodup) (key : String) :
    (doc.erase key).names = doc.names.erase key ∧
      ∀ name, (doc.erase key).get? name = if name = key then none else doc.get? name := by
  refine ⟨?_, get?_erase doc key⟩
  rw [names_erase, unique.erase_eq_filter]
  apply List.filter_congr
  intro name _
  by_cases same : name = key <;> simp [same]

/-! ## Lists of fields -/

/-- Putting fields one after another keeps the last value of each name. -/
theorem lists_ofList (fields : List (String × Value)) : (ofList fields).Lists fields fields.reverse where
  names := names_extend nodup_empty fields
  value := get?_ofList fields

/-- Putting those fields whose name is not there, as decoding does, keeps the first value of each name. -/
theorem lists_extendAbsent (fields : List (String × Value)) :
    (empty.extendAbsent fields).Lists fields fields where
  names := names_extendAbsent nodup_empty fields
  value name := by rw [get?, fields_extendAbsent_empty, lookup_firstOfEach]

/-- A document is the document of its fields. -/
theorem ofList_fields (unique : doc.names.Nodup) : ofList doc.fields = doc := by
  have lists : doc.Lists doc.fields doc.fields.reverse :=
    ⟨(eraseDups_of_nodup unique).symm, fun name => (lookup_reverse unique name).symm⟩
  exact (lists_ofList doc.fields).unique lists

theorem ofList_append (fields more : List (String × Value)) :
    ofList (fields ++ more) = (ofList fields).extend more := by
  unfold ofList extend
  exact List.foldl_append

/-- Merging puts the fields of one document behind those of the other. -/
theorem merge_eq_ofList (unique : a.names.Nodup) (b : Document) :
    a.merge b = ofList (a.fields ++ b.fields) := by
  rw [ofList_append, ofList_fields unique, merge]

/-- Of fields that come last only those matter that are kept of them. -/
theorem ofList_append_ofList (fields more : List (String × Value)) :
    ofList (fields ++ (ofList more).fields) = ofList (fields ++ more) := by
  have lists := lists_ofList (fields ++ (ofList more).fields)
  have inner := lists_ofList more
  refine Lists.unique ⟨lists.names.trans ?_, fun name => (lists.value name).trans ?_⟩
    (lists_ofList (fields ++ more))
  · have names : (ofList more).fields.map Prod.fst = (more.map Prod.fst).eraseDups := inner.names
    rw [List.map_append, List.map_append, names, eraseDups_append_eraseDups]
  · have last : (ofList more).fields.reverse.lookup name = more.reverse.lookup name :=
      (lookup_reverse inner.nodup name).trans (inner.value name)
    rw [List.reverse_append, List.reverse_append, List.lookup_append, List.lookup_append, last]

theorem merge_assoc (ha : a.names.Nodup) (hb : b.names.Nodup) (c : Document) :
    (a.merge b).merge c = a.merge (b.merge c) := by
  calc (a.merge b).merge c
      = (ofList (a.fields ++ b.fields)).extend c.fields := by rw [merge_eq_ofList ha, merge]
    _ = ofList (a.fields ++ (b.fields ++ c.fields)) := by rw [← ofList_append, List.append_assoc]
    _ = ofList (a.fields ++ (b.merge c).fields) := by rw [merge_eq_ofList hb, ofList_append_ofList]
    _ = a.merge (b.merge c) := (merge_eq_ofList ha _).symm

theorem empty_merge (unique : a.names.Nodup) : empty.merge a = a :=
  ofList_fields unique

theorem merge_empty (a : Document) : a.merge empty = a := rfl

end Document

/-! ## Orders of results -/

namespace SortBy

/-- The ways to go on with an order. -/
inductive Step where
  | ascending (keys : List String)
  | descending (keys : List String)
  | textScore (key : String)

/-- The order after a step. -/
def next (sort : SortBy) : Step → SortBy
  | .ascending keys => sort.ascending keys
  | .descending keys => sort.descending keys
  | .textScore key => sort.textScore key

/-- The order after one step after another. -/
def run (sort : SortBy) (steps : List Step) : SortBy :=
  steps.foldl next sort

/-- The keys that a step mentions, each with what it says of them. -/
def Step.mentions : Step → List (String × Value)
  | .ascending keys => keys.map (·, .int32 1)
  | .descending keys => keys.map (·, .int32 (-1))
  | .textScore key => [(key, .document [("$meta", .string "textScore")])]

theorem document_next (sort : SortBy) (step : Step) :
    (sort.next step).document = sort.document.extend step.mentions := by
  have keyed (direction : Direction) (keys : List String) : (sort.add direction keys).document =
      sort.document.extend (keys.map (·, .int32 direction.number)) := by
    rw [add, Document.extend, List.foldl_map]
  cases step with
  | ascending keys => exact keyed .ascending keys
  | descending keys => exact keyed .descending keys
  | textScore key => rfl

theorem document_run (sort : SortBy) (steps : List Step) :
    (sort.run steps).document = sort.document.extend (steps.flatMap Step.mentions) := by
  induction steps generalizing sort with
  | nil => rfl
  | cons step steps ih =>
    have first : sort.run (step :: steps) = (sort.next step).run steps := rfl
    rw [first, ih, document_next, List.flatMap_cons, Document.extend, Document.extend, Document.extend,
      List.foldl_append]

/-- An order lists its keys as they are first mentioned, each with what is said of it last. -/
theorem lists_run (steps : List Step) : (run {} steps).document.Lists (steps.flatMap Step.mentions)
    (steps.flatMap Step.mentions).reverse := by
  rw [document_run]
  exact Document.lists_ofList _

end SortBy

/-! ## All together -/

namespace Document

/-- Documents are ordered maps, and those with unique names are a monoid under merging. -/
theorem isOrderedMap :
    (∀ (doc : Document) (edits : List Edit), doc.names.Nodup →
      (doc.run edits).names.Nodup ∧
      (doc.NamesUnique → (∀ edit ∈ edits, ∀ field ∈ edit.puts, field.2.NamesUnique) →
        (doc.run edits).NamesUnique) ∧
      ∀ key, ((doc.run edits).erase key).names = (doc.run edits).names.erase key ∧
        ∀ name, ((doc.run edits).erase key).get? name =
          if name = key then none else (doc.run edits).get? name) ∧
    (∀ fields, (ofList fields).Lists fields fields.reverse ∧
      (empty.extendAbsent fields).Lists fields fields) ∧
    (∀ a b c : Document, a.names.Nodup → b.names.Nodup →
      a.merge b = ofList (a.fields ++ b.fields) ∧ (a.merge b).merge c = a.merge (b.merge c) ∧
      empty.merge a = a ∧ a.merge empty = a) ∧
    ∀ steps, (SortBy.run {} steps).document.Lists (steps.flatMap SortBy.Step.mentions)
      (steps.flatMap SortBy.Step.mentions).reverse :=
  ⟨fun _ edits unique =>
      ⟨nodup_run unique edits, namesUnique_run, erased (nodup_run unique edits)⟩,
    fun fields => ⟨lists_ofList fields, lists_extendAbsent fields⟩,
    fun a b c ha hb => ⟨merge_eq_ofList ha b, merge_assoc ha hb c, empty_merge ha, merge_empty a⟩,
    SortBy.lists_run⟩

/-- The law of merging and the uniqueness of names, where one document has a name of the other. -/
theorem isOrderedMap_review :
    let review : Document := ⟨[("title", .string "Ulysses"), ("stars", .int32 4)]⟩
    let change : Document := ⟨[("stars", .int32 5), ("pages", .int32 730)]⟩
    review.names.Nodup ∧ change.names.Nodup ∧ review.NamesUnique ∧
      (review.run [.insert "stars" (.int32 3), .erase "title", .insert "title" .null]).NamesUnique ∧
      review.merge change = ofList (review.fields ++ change.fields) ∧
      (review.merge change).names = ["title", "stars", "pages"] := by
  intro review change
  have here : review.names.Nodup := by decide
  have there : change.names.Nodup := by decide
  have deep : review.NamesUnique := ⟨here, trivial, trivial, trivial⟩
  have put : ∀ edit ∈ [Edit.insert "stars" (.int32 3), .erase "title", .insert "title" .null],
      ∀ field ∈ edit.puts, field.2.NamesUnique := by
    simp [Edit.puts, Value.NamesUnique]
  exact ⟨here, there, deep, (isOrderedMap.1 review _ here).2.1 deep put,
    (isOrderedMap.2.2.1 review change empty here there).1, rfl⟩

end Document

end DocumentClient
