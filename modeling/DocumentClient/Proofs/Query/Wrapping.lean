import DocumentClient.Proofs.Document.Map
import DocumentClient.Query.Plan

/-!
# What a query tells the server

A filter that is sent with an order, with options or with a read preference is wrapped: a document names each
of them. The names of options are free, and options are put in behind the filter and the order, before the
read preference. So an option may take the place of the filter or of the order, by their names; it never
takes the place of the read preference.

Results:
1. `Plan.wrapping_eq_nil_iff`: when nothing besides the filter is told.
2. `Plan.get?_queryDocument`: what is under each name of a wrapped filter.
3. `Plan.told_of_queryDocument`: the filter, the order, the options and the read preference are told, as long
   as no option has a name that is taken.
-/

namespace DocumentClient.Plan

variable {shape : Shape} {plan : Plan shape} {server : Server}

/-- Nothing besides the filter is told if there is no order, no option and no read preference to hand on. -/
theorem wrapping_eq_nil_iff : plan.wrapping server = [] ↔
    plan.sort.isEmpty = true ∧ plan.options.isEmpty = true ∧ plan.forwardsPreference server = false := by
  unfold wrapping
  rw [List.append_eq_nil_iff, List.append_eq_nil_iff, and_assoc, Document.isEmpty, List.isEmpty_iff]
  cases plan.sort.isEmpty <;> cases plan.forwardsPreference server <;> simp

theorem queryDocument_of_wrapping (more : plan.wrapping server ≠ []) :
    plan.queryDocument server = .ofList (("$query", plan.filter.toValue) :: plan.wrapping server) := by
  unfold queryDocument
  split
  · next none => exact absurd none more
  · rfl

/-- What is under a name of a wrapped filter: the read preference, else the option, else the order, else the
filter. -/
theorem get?_queryDocument (unique : plan.options.names.Nodup) (more : plan.wrapping server ≠ [])
    (name : String) : (plan.queryDocument server).get? name =
      if plan.forwardsPreference server = true ∧ name = "$readPreference" then
        some plan.preference.toDocument.toValue
      else (plan.options.get? name).or
        (if plan.sort.isEmpty = false ∧ name = "$orderby" then some plan.sort.document.toValue
        else if name = "$query" then some plan.filter.toValue else none) := by
  have preference : (if plan.forwardsPreference server then
      [("$readPreference", plan.preference.toDocument.toValue)] else []).reverse.lookup name =
      if plan.forwardsPreference server = true ∧ name = "$readPreference" then
        some plan.preference.toDocument.toValue
      else none := by
    cases plan.forwardsPreference server <;> simp [Document.lookup_field]
  have options : plan.options.fields.reverse.lookup name = plan.options.get? name :=
    Document.lookup_reverse unique name
  have order : (if plan.sort.isEmpty then [] else
      [("$orderby", plan.sort.document.toValue)]).reverse.lookup name =
      if plan.sort.isEmpty = false ∧ name = "$orderby" then some plan.sort.document.toValue else none := by
    cases plan.sort.isEmpty <;> simp [Document.lookup_field]
  rw [queryDocument_of_wrapping more, Document.get?_ofList, wrapping, List.reverse_cons, List.reverse_append,
    List.reverse_append, List.lookup_append, List.lookup_append, List.lookup_append, preference, options,
    order, Document.lookup_field, List.lookup_nil, Option.or_assoc, Option.or_assoc]
  split_ifs <;> simp

/-- The filter is sent as it is if there is nothing else to tell. Otherwise it is under `$query`, unless an
option has that name, and an order is under `$orderby`, unless an option has that name. Each option is told,
but for one under the name of a read preference that is handed on; the read preference is. -/
theorem told_of_queryDocument (plan : Plan shape) (server : Server) (unique : plan.options.names.Nodup) :
    (plan.sort.isEmpty = true ∧ plan.options.isEmpty = true ∧ plan.forwardsPreference server = false →
      plan.queryDocument server = plan.filter) ∧
    (¬(plan.sort.isEmpty = true ∧ plan.options.isEmpty = true ∧ plan.forwardsPreference server = false) →
      let told := plan.queryDocument server
      (plan.options.contains "$query" = false → told.get? "$query" = some plan.filter.toValue) ∧
      (plan.sort.isEmpty = false → plan.options.contains "$orderby" = false →
        told.get? "$orderby" = some plan.sort.document.toValue) ∧
      (∀ name v, name ≠ "$readPreference" → plan.options.get? name = some v → told.get? name = some v) ∧
      (plan.preference.isPrimary = false → server.isRouter = true →
        told.get? "$readPreference" = some plan.preference.toDocument.toValue) ∧
      ∀ name v, told.get? name = some v →
        name = "$query" ∨ name = "$orderby" ∨ name = "$readPreference" ∨ plan.options.get? name = some v) := by
  refine ⟨fun alone => ?_, fun more => ?_⟩
  · unfold queryDocument
    rw [wrapping_eq_nil_iff.mpr alone]
  · have found := get?_queryDocument unique (mt wrapping_eq_nil_iff.mp more)
    have absent {name : String} (free : plan.options.contains name = false) :
        plan.options.get? name = none := by
      rwa [Document.contains, Option.isSome_eq_false_iff, Option.isNone_iff_eq_none] at free
    refine ⟨fun free => ?_, fun ordered free => ?_, fun name v other option => ?_, fun secondary router => ?_,
      fun name v here => ?_⟩
    · rw [found, absent free]
      simp
    · rw [found, absent free]
      simp [ordered]
    · rw [found, option]
      simp [other]
    · rw [found]
      simp [forwardsPreference, secondary, router]
    · rw [found] at here
      by_cases query : name = "$query"
      · exact .inl query
      by_cases order : name = "$orderby"
      · exact .inr (.inl order)
      by_cases preference : name = "$readPreference"
      · exact .inr (.inr (.inl preference))
      · simp only [query, order, preference, and_false, if_false, Option.or_none] at here
        exact .inr (.inr (.inr here))

/-- A query with an order and an option, for secondary members. -/
def orderedQuery : Query .document where
  collection := some ⟨"shop", "reviews", by cbv⟩
  filter := some ⟨[("stars", .int32 5)]⟩
  sort := ⟨⟨[("name", .int32 1)]⟩⟩
  options := ⟨[("$hint", .string "by_name")]⟩
  preference := .ofMode .secondary
  codec := some .document

theorem told_of_queryDocument_ordered :
    ∃ plan, orderedQuery.validate = .ok plan ∧ plan.options.names.Nodup ∧
      let told := plan.queryDocument ⟨"localhost:27017", .router⟩
      told.get? "$query" = some (.document [("stars", .int32 5)]) ∧
      told.get? "$orderby" = some (.document [("name", .int32 1)]) ∧
      told.get? "$hint" = some (.string "by_name") ∧
      told.get? "$readPreference" = some (.document [("mode", .string "secondary")]) := by
  obtain ⟨plan, valid, filter, sort, options, preference⟩ : ∃ plan, orderedQuery.validate = .ok plan ∧
      plan.filter = ⟨[("stars", .int32 5)]⟩ ∧ plan.sort = ⟨⟨[("name", .int32 1)]⟩⟩ ∧
      plan.options = ⟨[("$hint", .string "by_name")]⟩ ∧ plan.preference = .ofMode .secondary :=
    ⟨_, rfl, rfl, rfl, rfl, rfl⟩
  have unique : plan.options.names.Nodup := options ▸ List.nodup_singleton _
  obtain ⟨query, order, option, secondary, -⟩ :=
    (told_of_queryDocument plan ⟨"localhost:27017", .router⟩ unique).2 (by rw [sort]; exact nofun)
  rw [filter, options] at query
  rw [sort, options] at order
  rw [options] at option
  rw [preference] at secondary
  exact ⟨plan, valid, unique, query rfl, order rfl rfl, option "$hint" _ (by decide) rfl, secondary rfl rfl⟩

/-- A query with an option that has the name of the filter. -/
def renamedQuery : Query .document where
  collection := some ⟨"shop", "reviews", by cbv⟩
  filter := some ⟨[("stars", .int32 5)]⟩
  options := ⟨[("$query", .document [])]⟩
  preference := .ofMode .primary
  codec := some .document

/-- The option takes the place of the filter, and all documents are asked for. -/
theorem queryDocument_renamed :
    ∃ plan, renamedQuery.validate = .ok plan ∧ plan.options.names.Nodup ∧
      plan.filter = ⟨[("stars", .int32 5)]⟩ ∧
      plan.queryDocument ⟨"localhost:27017", .standalone⟩ = ⟨[("$query", .document [])]⟩ := by
  exact ⟨_, rfl, List.nodup_singleton _, rfl, rfl⟩

end DocumentClient.Plan
