import Mathlib

/-!
# When a stateful step succeeds

Reading, writing and talking to a server are state monads whose failures keep the state. Proofs about
them ask one question again and again: what does it mean that a sequence of steps succeeded?

Results:
1. `bind_eq_ok_iff`, `bind_of_ok`, `bind_eq_error_iff`, `bind_eq_bind`: how a sequence ends, by how its parts
   end.
2. `pure_eq_ok_iff`, `get_eq_ok_iff`, `set_eq_ok_iff`, `modify_eq_ok_iff`, `throw_eq_ok_iff`: the steps with
   no parts.
3. `get_bind`, `set_bind`: looking at the state and setting it never fail.
4. `guard_eq_ok_iff`, `guard_eq_error_iff`: how a step behind a check ends.
5. `Fails.bind`, `Fails.behind`: a fault ends a sequence, wherever in it the fault comes up.
6. `left_of_ok`, `left_of_error`, `left_bind_of_ok`, `left_bind_of_error`: what a step or a sequence leaves,
   however it ends.
7. `FailsOnly.bind`, `FailsOnly.guard`: a sequence fails in no other ways than its parts do.
8. `Simulates.bind`, `simulates_guard`: a sequence does on images of states what another does on the states, if
   its parts do.
9. `exceptBind_eq_ok_iff`, `exceptBind_eq_error_iff`, `exceptGuard_eq_ok_iff`: the same of steps that have no
   state.
-/

namespace DocumentClient.Outcome

variable {ε σ α β : Type}

/-- A sequence succeeds iff its parts succeed one after the other. -/
theorem bind_eq_ok_iff {x : EStateM ε σ α} {f : α → EStateM ε σ β} {s t : σ} {b : β} :
    (x >>= f) s = .ok b t ↔ ∃ a m, x s = .ok a m ∧ f a m = .ok b t := by
  show EStateM.bind x f s = .ok b t ↔ _
  unfold EStateM.bind
  constructor
  · intro h
    split at h
    · next a m hx => exact ⟨a, m, hx, h⟩
    · exact absurd h (by simp)
  · rintro ⟨a, m, hx, hf⟩
    rw [hx]
    exact hf

/-- A sequence fails iff its first part fails, or succeeds and the rest fails. -/
theorem bind_eq_error_iff {x : EStateM ε σ α} {f : α → EStateM ε σ β} {s t : σ} {e : ε} :
    (x >>= f) s = .error e t ↔
      x s = .error e t ∨ ∃ a m, x s = .ok a m ∧ f a m = .error e t := by
  show EStateM.bind x f s = .error e t ↔ _
  unfold EStateM.bind
  cases x s with
  | ok a m =>
    constructor
    · exact fun h => .inr ⟨a, m, rfl, h⟩
    · rintro (h | ⟨a, m, h, hf⟩)
      · cases h
      · cases h
        exact hf
  | error e t => simp

/-- A sequence whose first part succeeds goes on with the second. -/
theorem bind_of_ok {x : EStateM ε σ α} {f : α → EStateM ε σ β} {s t : σ} {a : α}
    (h : x s = .ok a t) : (x >>= f) s = f a t := by
  show EStateM.bind x f s = _
  unfold EStateM.bind
  rw [h]

/-- First parts that end alike go on alike. -/
theorem bind_eq_bind {x y : EStateM ε σ α} {f : α → EStateM ε σ β} {s t : σ} (h : x s = y t) :
    (x >>= f) s = (y >>= f) t := by
  show EStateM.bind x f s = EStateM.bind y f t
  unfold EStateM.bind
  rw [h]

theorem pure_eq_ok_iff {a b : α} {s t : σ} :
    (pure a : EStateM ε σ α) s = .ok b t ↔ a = b ∧ s = t := by
  show EStateM.Result.ok a s = .ok b t ↔ _
  simp

theorem throw_eq_ok_iff {e : ε} {b : α} {s t : σ} :
    (throw e : EStateM ε σ α) s = .ok b t ↔ False := by
  show EStateM.Result.error e s = .ok b t ↔ _
  simp

theorem get_eq_ok_iff {a s t : σ} :
    (get : EStateM ε σ σ) s = .ok a t ↔ s = a ∧ s = t := by
  show EStateM.Result.ok s s = .ok a t ↔ _
  simp

theorem set_eq_ok_iff {f s t : σ} {u : PUnit} :
    (set f : EStateM ε σ PUnit) s = .ok u t ↔ f = t := by
  show EStateM.Result.ok PUnit.unit f = .ok u t ↔ _
  simp

theorem modify_eq_ok_iff {f : σ → σ} {u : PUnit} {s t : σ} :
    (modify f : EStateM ε σ PUnit) s = .ok u t ↔ f s = t := by
  show EStateM.Result.ok PUnit.unit (f s) = .ok u t ↔ _
  simp

theorem get_bind {f : σ → EStateM ε σ α} {s : σ} : (get >>= f) s = f s s := rfl

theorem set_bind {f : PUnit → EStateM ε σ α} {s t : σ} : (set t >>= f) s = f ⟨⟩ t := rfl

/-- A step behind a check that throws succeeds iff the check lets it through. -/
theorem guard_eq_ok_iff {c : Prop} [Decidable c] {e : ε} {f : PUnit → EStateM ε σ α}
    {g : EStateM ε σ α} {s t : σ} {a : α} :
    (if c then throw e >>= f else g) s = .ok a t ↔ ¬ c ∧ g s = .ok a t := by
  by_cases h : c
  · simp [h, bind_eq_ok_iff, throw_eq_ok_iff]
  · simp [h]

/-- A step behind a check fails iff the check does not let it through, or fails itself. -/
theorem guard_eq_error_iff {c : Prop} [Decidable c] {e e' : ε} {f : PUnit → EStateM ε σ α}
    {g : EStateM ε σ α} {s t : σ} :
    (if c then throw e >>= f else g) s = .error e' t ↔
      (c ∧ e = e' ∧ s = t) ∨ (¬ c ∧ g s = .error e' t) := by
  by_cases h : c
  · have thrown : (throw e >>= f : EStateM ε σ α) s = .error e s := rfl
    simp [h, thrown]
  · simp [h]

/-- The step fails; what it leaves does not matter. -/
def Fails (x : EStateM ε σ α) (s : σ) (e : ε) : Prop :=
  ∃ t, x s = .error e t

theorem Fails.bind {x : EStateM ε σ α} {f : α → EStateM ε σ β} {s : σ} {e : ε} (h : Fails x s e) :
    Fails (x >>= f) s e := by
  obtain ⟨t, h⟩ := h
  exact ⟨t, bind_eq_error_iff.mpr (.inl h)⟩

theorem Fails.behind {x : EStateM ε σ α} {f : α → EStateM ε σ β} {s t : σ} {a : α} {e : ε}
    (h : Fails (f a) t e) (first : x s = .ok a t) : Fails (x >>= f) s e := by
  obtain ⟨u, h⟩ := h
  exact ⟨u, bind_eq_error_iff.mpr (.inr ⟨a, t, first, h⟩)⟩

/-- The state that a step leaves, whether it succeeds or fails. -/
def left (x : EStateM ε σ α) (s : σ) : σ :=
  match x s with
  | .ok _ t => t
  | .error _ t => t

theorem left_of_ok {x : EStateM ε σ α} {s t : σ} {a : α} (h : x s = .ok a t) : left x s = t := by
  rw [left, h]

theorem left_of_error {x : EStateM ε σ α} {s t : σ} {e : ε} (h : x s = .error e t) : left x s = t := by
  rw [left, h]

theorem left_bind_of_ok {x : EStateM ε σ α} {f : α → EStateM ε σ β} {s t : σ} {a : α}
    (h : x s = .ok a t) : left (x >>= f) s = left (f a) t := by
  rw [left, bind_of_ok h, left]

theorem left_bind_of_error {x : EStateM ε σ α} {f : α → EStateM ε σ β} {s t : σ} {e : ε}
    (h : x s = .error e t) : left (x >>= f) s = t :=
  left_of_error (bind_eq_error_iff.mpr (.inl h))

/-- Whatever fault the step ends with, it is an allowed one. -/
def FailsOnly (allowed : ε → Prop) (x : EStateM ε σ α) (s : σ) : Prop :=
  ∀ e t, x s = .error e t → allowed e

section

variable {allowed : ε → Prop} {x : EStateM ε σ α} {f : α → EStateM ε σ β} {s : σ}

theorem failsOnly_of_ok {a : α} {t : σ} (h : x s = .ok a t) : FailsOnly allowed x s := by
  intro e u failed
  rw [h] at failed
  cases failed

theorem failsOnly_throw {e : ε} (h : allowed e) : FailsOnly allowed (throw e : EStateM ε σ α) s := by
  rintro _ _ ⟨⟩
  exact h

/-- A sequence fails in no other ways than its parts do; the second need only be looked at where the first
has come to. -/
theorem FailsOnly.bind (first : FailsOnly allowed x s)
    (next : ∀ a t, x s = .ok a t → FailsOnly allowed (f a) t) : FailsOnly allowed (x >>= f) s := by
  intro e u failed
  rcases bind_eq_error_iff.mp failed with h | ⟨a, t, h, rest⟩
  · exact first e u h
  · exact next a t h e u rest

theorem FailsOnly.guard {c : Prop} [Decidable c] {e : ε} {g : PUnit → EStateM ε σ α}
    (thrown : allowed e) (pass : ¬ c → FailsOnly allowed x s) : FailsOnly allowed (if c then throw e >>= g else x) s := by
  intro e' t failed
  rcases guard_eq_error_iff.mp failed with ⟨-, rfl, -⟩ | ⟨clear, failed⟩
  · exact thrown
  · exact pass clear e' t failed

end

section

variable {τ : Type} {f : σ → τ}

/-- The same end of a step, seen through a map of states. -/
def mapState (f : σ → τ) : EStateM.Result ε σ α → EStateM.Result ε τ α
  | .ok a s => .ok a (f s)
  | .error e s => .error e (f s)

/-- On the images of states, `y` does what `x` does on the states. -/
def Simulates (f : σ → τ) (y : EStateM ε τ α) (x : EStateM ε σ α) : Prop :=
  ∀ s, y (f s) = mapState f (x s)

theorem simulates_pure (a : α) : Simulates f (pure a : EStateM ε τ α) (pure a) := fun _ => rfl

theorem simulates_throw (e : ε) : Simulates f (throw e : EStateM ε τ α) (throw e) := fun _ => rfl

theorem Simulates.bind {y : EStateM ε τ α} {x : EStateM ε σ α} {next' : α → EStateM ε τ β}
    {next : α → EStateM ε σ β} (first : Simulates f y x)
    (rest : ∀ a, Simulates f (next' a) (next a)) : Simulates f (y >>= next') (x >>= next) := by
  intro s
  have image := first s
  cases h : x s with
  | ok a t =>
    rw [h] at image
    rw [bind_of_ok image, bind_of_ok h]
    exact rest a t
  | error e t =>
    rw [h] at image
    rw [bind_eq_error_iff.mpr (.inl image), bind_eq_error_iff.mpr (.inl h)]
    rfl

/-- A check that comes to the same on both sides. -/
theorem simulates_guard {c : Prop} [Decidable c] {e : ε} {g' : PUnit → EStateM ε τ α}
    {g : PUnit → EStateM ε σ α} {y : EStateM ε τ α} {x : EStateM ε σ α} {s : σ} {t : τ}
    (image : t = f s) (pass : y t = mapState f (x s)) :
    (if c then throw e >>= g' else y) t = mapState f ((if c then throw e >>= g else x) s) := by
  by_cases stop : c
  · rw [if_pos stop, if_pos stop, image]
    rfl
  · rw [if_neg stop, if_neg stop]
    exact pass

theorem Simulates.left {y : EStateM ε τ α} {x : EStateM ε σ α} (h : Simulates f y x) (s : σ) :
    left y (f s) = f (left x s) := by
  unfold Outcome.left
  rw [h s]
  cases x s <;> rfl

theorem Simulates.eq_ok_iff {y : EStateM ε τ α} {x : EStateM ε σ α} (h : Simulates f y x) {s : σ}
    {a : α} {t' : τ} : y (f s) = .ok a t' ↔ ∃ t, x s = .ok a t ∧ f t = t' := by
  rw [h s]
  cases x s with
  | ok b t => simp [mapState]
  | error e t => simp [mapState]

end

/-- A sequence of steps that have no state succeeds iff its parts do. -/
theorem exceptBind_eq_ok_iff {x : Except ε α} {f : α → Except ε β} {b : β} :
    (x >>= f) = .ok b ↔ ∃ a, x = .ok a ∧ f a = .ok b := by
  cases x with
  | error e =>
    show Except.error e = .ok b ↔ _
    simp
  | ok a =>
    show f a = .ok b ↔ _
    simp

theorem exceptBind_eq_error_iff {x : Except ε α} {f : α → Except ε β} {e : ε} :
    (x >>= f) = .error e ↔ x = .error e ∨ ∃ a, x = .ok a ∧ f a = .error e := by
  cases x with
  | error found =>
    show Except.error found = .error e ↔ _
    simp
  | ok a =>
    show f a = .error e ↔ _
    simp

/-- A step behind a check succeeds iff the check lets it through. -/
theorem exceptGuard_eq_ok_iff {c : Prop} [Decidable c] {e : ε} {f : PUnit → Except ε α}
    {g : Except ε α} {a : α} : (if c then throw e >>= f else g) = .ok a ↔ ¬ c ∧ g = .ok a := by
  by_cases h : c
  · have thrown : (throw e >>= f : Except ε α) = .error e := rfl
    simp [h, thrown]
  · simp [h]

end DocumentClient.Outcome
