import DocumentClient.Document.Basic
import Mathlib

/-!
# Documents as maps

What is under a name after fields have been put into a document. The value that was put last is there; in a
list whose names are all different that is the only one.

Results:
1. `Document.mem_names_iff_lookup`, `Document.lookup_of_mem`: which names have a value, and which.
2. `Document.get?_insert`, `Document.get?_extend`, `Document.get?_ofList`: what is under a name afterwards.
3. `Document.lookup_reverse`: the last value of a name, where no name comes twice.
-/

namespace DocumentClient.Document

variable {fields rest : List (String × Value)} {name key : String} {value : Value}

theorem lookup_field : ((key, value) :: rest).lookup name =
    if name = key then some value else rest.lookup name := by
  rw [List.lookup_cons]
  by_cases same : name = key
  · rw [beq_iff_eq.mpr same, if_pos same]
  · rw [beq_eq_false_iff_ne.mpr same, if_neg same]

theorem lookup_eq_none_iff : fields.lookup name = none ↔ name ∉ fields.map Prod.fst := by
  rw [List.lookup_eq_none_iff]
  constructor
  · intro apart named
    obtain ⟨field, mem, rfl⟩ := List.mem_map.mp named
    exact bne_iff_ne.mp (apart field mem) rfl
  · intro fresh field mem
    exact bne_iff_ne.mpr fun same => fresh (List.mem_map.mpr ⟨field, mem, same.symm⟩)

theorem mem_names_iff_lookup : name ∈ fields.map Prod.fst ↔ ∃ value, fields.lookup name = some value := by
  rw [← Option.ne_none_iff_exists', ne_eq, lookup_eq_none_iff, not_not]

theorem mem_of_lookup (found : fields.lookup name = some value) : (name, value) ∈ fields := by
  obtain ⟨before, behind, rfl, -⟩ := List.lookup_eq_some_iff.mp found
  exact List.mem_append_right _ List.mem_cons_self

/-- Where no name comes twice the value of a field is what is under its name. -/
theorem lookup_of_mem {field : String × Value} (unique : (fields.map Prod.fst).Nodup) (mem : field ∈ fields) :
    fields.lookup field.1 = some field.2 := by
  obtain ⟨v, found⟩ := mem_names_iff_lookup.mp (List.mem_map_of_mem mem)
  have same := List.inj_on_of_nodup_map unique mem (mem_of_lookup found) rfl
  rw [found, same]

theorem lookup_insertField : (insertField key value fields).lookup name =
    if name = key then some value else fields.lookup name := by
  induction fields with
  | nil => exact lookup_field
  | cons field rest ih =>
    obtain ⟨k, v⟩ := field
    by_cases here : k = key
    · subst here
      rw [insertField, if_pos rfl, lookup_field, lookup_field]
      by_cases same : name = k
      · rw [if_pos same, if_pos same]
      · rw [if_neg same, if_neg same, if_neg same]
    · rw [insertField, if_neg here, lookup_field, lookup_field, ih]
      by_cases first : name = k
      · rw [if_pos first, if_neg (first ▸ here), if_pos first]
      · rw [if_neg first, if_neg first]

/-- The value that was put is under its name, and the other names have what they had. -/
theorem get?_insert (doc : Document) (key : String) (value : Value) (name : String) :
    (doc.insert key value).get? name = if name = key then some value else doc.get? name :=
  lookup_insertField

/-- The last value of a name among the fields is there, and what was there if they do not have it. -/
theorem get?_extend (doc : Document) (fields : List (String × Value)) (name : String) :
    (doc.extend fields).get? name = (fields.reverse.lookup name).or (doc.get? name) := by
  induction fields generalizing doc with
  | nil => rfl
  | cons field rest ih =>
    obtain ⟨k, v⟩ := field
    have step : doc.extend ((k, v) :: rest) = (doc.insert k v).extend rest := rfl
    rw [step, ih, get?_insert, List.reverse_cons, List.lookup_append, lookup_field, List.lookup_nil,
      Option.or_assoc]
    by_cases same : name = k
    · rw [if_pos same, if_pos same, Option.some_or]
    · rw [if_neg same, if_neg same, Option.none_or]

theorem get?_ofList (fields : List (String × Value)) (name : String) :
    (ofList fields).get? name = fields.reverse.lookup name := by
  rw [ofList, get?_extend]
  exact Option.or_none

/-- Where no name comes twice the last value of a name is the first. -/
theorem lookup_reverse (unique : (fields.map Prod.fst).Nodup) (name : String) :
    fields.reverse.lookup name = fields.lookup name := by
  induction fields with
  | nil => rfl
  | cons field rest ih =>
    obtain ⟨k, v⟩ := field
    obtain ⟨fresh, unique⟩ := List.nodup_cons.mp unique
    rw [List.reverse_cons, List.lookup_append, ih unique, lookup_field, lookup_field, List.lookup_nil]
    by_cases same : name = k
    · have absent : rest.lookup name = none := lookup_eq_none_iff.mpr (same ▸ fresh)
      rw [absent, if_pos same, Option.none_or]
    · rw [if_neg same, if_neg same, Option.or_none]

end DocumentClient.Document
