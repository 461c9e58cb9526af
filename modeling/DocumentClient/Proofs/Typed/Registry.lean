import DocumentClient.Proofs.Outcome
import DocumentClient.Typed.Coding

/-!
# What a registry knows

A registry answers for a shape if a codec for it has been built or is registered. Asking may build a codec,
but takes none away, so whatever a registry knew it still knows afterwards.

Results:
1. `Registry.lookup_eq_ok_iff`: the two ways in which a registry answers.
2. `Registry.covers_of_lookup`: asking takes nothing away.
3. `Coder.atPlace_eq_ok_iff`, `Coder.codec_eq_ok_iff`: what a step on the reader or the writer leaves of the
   registry, and the other way round.
-/

namespace DocumentClient

open Outcome

namespace Registry

variable {r r' : Registry} {shape other : Shape}

/-! ## Asking -/

@[simp] theorem built?_keep_self (made : Sigma Instance) : (r.keep shape made).built? shape = some made := by
  simp [built?, keep]

theorem built?_keep_of_ne (made : Sigma Instance) (ne : other ≠ shape) :
    (r.keep shape made).built? other = r.built? other := by
  have differ : (other == shape) = false := beq_eq_false_iff_ne.mpr ne
  simp [built?, keep, List.lookup_cons, differ]

/-- An instance is the answer if it is one for the shape. -/
theorem answer_eq_ok_iff {found : Sigma Instance} {made : Instance shape} :
    answer shape found r = .ok made r' ↔ found = ⟨shape, made⟩ ∧ r' = r := by
  obtain ⟨own, found⟩ := found
  unfold answer
  by_cases same : own = shape
  · subst same
    simp [eq_comm]
  · have differ : (⟨own, found⟩ : Sigma Instance) ≠ ⟨shape, made⟩ := fun h => same (congrArg Sigma.fst h)
    simp [same, differ]

/-- A registry answers with the instance that it keeps, or with a new one of the registered codec, which it
keeps from then on. -/
theorem lookup_eq_ok_iff {made : Instance shape} :
    lookup shape r = .ok made r' ↔
      (r.built? shape = some ⟨shape, made⟩ ∧ r' = r) ∨
      (r.built? shape = none ∧ r.registrations.find? shape = some ⟨shape, made.codec⟩ ∧
        made.number = r.builds ∧ r' = r.keep shape ⟨shape, made⟩) := by
  obtain ⟨codec, number⟩ := made
  unfold lookup
  cases r.built? shape with
  | some found => simp [answer_eq_ok_iff]
  | none =>
    cases r.registrations.find? shape with
    | none => simp
    | some registered =>
      obtain ⟨own, registered⟩ := registered
      refine answer_eq_ok_iff.trans ?_
      constructor
      · rintro ⟨same, rfl⟩
        cases same
        exact .inr ⟨rfl, rfl, rfl, rfl⟩
      · rintro (⟨absent, -⟩ | ⟨-, same, rfl, rfl⟩)
        · cases absent
        · cases same
          exact ⟨rfl, rfl⟩

/-! ## Knowing -/

/-- The registry answers for the shape. -/
def Knows (r : Registry) (shape : Shape) : Prop :=
  ∃ found r', lookup shape r = .ok found r'

/-- The registry answers for every shape that another one answers for. -/
def Covers (r other : Registry) : Prop :=
  ∀ shape, other.Knows shape → r.Knows shape

theorem Covers.refl (r : Registry) : r.Covers r :=
  fun _ known => known

/-- What a registry keeps for a shape is the answer for it. -/
theorem knows_of_built? {made : Instance shape} (kept : r.built? shape = some ⟨shape, made⟩) : r.Knows shape :=
  ⟨made, r, lookup_eq_ok_iff.mpr (.inl ⟨kept, rfl⟩)⟩

/-- What is kept for one shape does not change the answer for another. -/
theorem Knows.keep {made : Sigma Instance} (known : r.Knows other) (ne : other ≠ shape) :
    (r.keep shape made).Knows other := by
  obtain ⟨found, r', asked⟩ := known
  rcases lookup_eq_ok_iff.mp asked with ⟨kept, -⟩ | ⟨absent, registered, -, -⟩
  · exact knows_of_built? ((built?_keep_of_ne made ne).trans kept)
  · exact ⟨⟨found.codec, (r.keep shape made).builds⟩, _,
      lookup_eq_ok_iff.mpr (.inr ⟨(built?_keep_of_ne made ne).trans absent, registered, rfl, rfl⟩)⟩

/-- Asking takes nothing away. -/
theorem covers_of_lookup {found : Instance shape} (h : lookup shape r = .ok found r') : r'.Covers r := by
  rcases lookup_eq_ok_iff.mp h with ⟨-, rfl⟩ | ⟨-, -, -, rfl⟩
  · exact .refl r'
  · intro other known
    by_cases same : other = shape
    · subst same
      exact knows_of_built? (built?_keep_self _)
    · exact known.keep same

end Registry

namespace Coder

variable {σ α : Type}

/-- A step on the place leaves the registry as it is. -/
theorem atPlace_eq_ok_iff {act : EStateM Fault σ α} {c c' : Coder σ} {a : α} :
    atPlace act c = .ok a c' ↔ act c.place = .ok a c'.place ∧ c'.registry = c.registry := by
  obtain ⟨place, registry⟩ := c
  obtain ⟨place', registry'⟩ := c'
  unfold atPlace
  cases act place with
  | ok b s => simp [and_assoc, eq_comm]
  | error fault s => simp

/-- Asking for a codec leaves the place as it is. -/
theorem codec_eq_ok_iff {shape : Shape} {c c' : Coder σ} {found : Codec shape} :
    codec shape c = .ok found c' ↔ c'.place = c.place ∧ ∃ made : Instance shape,
      made.codec = found ∧ Registry.lookup shape c.registry = .ok made c'.registry := by
  obtain ⟨place, registry⟩ := c
  obtain ⟨place', registry'⟩ := c'
  unfold codec
  rw [bind_eq_ok_iff]
  simp only [pure_eq_ok_iff, atRegistry]
  cases Registry.lookup shape registry with
  | ok made s =>
    constructor
    · rintro ⟨_, _, h, rfl, rfl⟩
      cases h
      exact ⟨rfl, made, rfl, rfl⟩
    · rintro ⟨rfl, _, rfl, h⟩
      cases h
      exact ⟨_, _, rfl, rfl, rfl⟩
  | error fault s => simp

end Coder

end DocumentClient
