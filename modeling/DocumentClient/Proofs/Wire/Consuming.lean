import DocumentClient.Proofs.Wire.Bounds
import DocumentClient.Proofs.Wire.Skipping

/-!
# Reading one value by hand

Whoever reads a value by hand opens its container, goes through its elements and closes it again. If each
element is read or passed over as one value, so is the whole: the reader comes to the place to which passing
over the value leads. The elements need not be well formed for that. One that has been passed over has only
been measured, and a document that holds such elements may be none.

* `Read.Consumes p`: where the step succeeds before a value, it comes to where passing over the value comes
  to.
* `Read.Finishes inner`: where the step succeeds inside a container, it comes behind the terminator.

Results:
1. `consumes_of_acceptsValue`, `consumes_skipValue`, `consumes_value`, `consumes_document`: single calls.
2. `Consumes.bind`: what does not move the reader may follow.
3. `finishes_foldElements`: a loop whose step consumes finishes; induction on its bound.
4. `consumes_container`: who enters a container, finishes and leaves it has consumed a value.
-/

namespace DocumentClient

open Outcome Grammar Bytes

namespace Reader

/-- What is left of a container when its inside has been read. -/
theorem left_closed_entered {r : Reader} {container : Container} {n k : Nat} (total : 4 + k = n)
    (inside : r.frames ≠ []) (label : String) :
    (((r.entered container n).closed container k).named label).left = (r.passed n).named label := by
  subst total
  unfold Reader.left Reader.named Reader.closed Reader.entered Reader.passed Reader.advance
  simp [Nat.add_assoc, inside]

end Reader

namespace Read

variable {α β σ : Type} {p : Read α} {f : α → Read β} {r s m : Reader} {kind : Kind} {container : Container}

/-- Where the step succeeds before a value, it comes to where passing over the value comes to, up to the name
in store. -/
def Consumes (p : Read α) : Prop :=
  ∀ ⦃r s : Reader⦄ ⦃a : α⦄, r.phase = .value → r.frames ≠ [] → r.Ahead [] → p r = .ok a s →
    ∃ bs label, r.Ahead bs ∧ skipValue r = .ok () (r.passed bs.length) ∧
      s = (r.passed bs.length).named label

/-- Where the step succeeds inside a container, it comes behind the terminator of the container, up to the
name in store. -/
def Finishes (inner : Read α) : Prop :=
  ∀ ⦃m s : Reader⦄ ⦃f : Frame⦄ ⦃outer : List Frame⦄ ⦃a : α⦄, m.frames = f :: outer → inner m = .ok a s →
    ∃ k label, m.pos + k = f.stop ∧ f.stop ≤ m.data.size ∧ s = (m.closed f.container k).named label

/-! ## Single calls -/

theorem consumes_throw (fault : Fault) : Consumes (throw fault : Read α) := by
  intro r s a _ _ _ h
  cases h

/-- A value of one kind is measured as it is read. -/
theorem consumes_of_acceptsValue {v : α → Value}
    (accepts : AcceptsValue kind p fun bs a => Scalar bs (v a)) (sort : ∀ a, (v a).kind = kind) :
    Consumes p := by
  intro r s a phase _ room read
  obtain ⟨-, here, bs, scalar, ahead, rfl⟩ := (accepts r s a room).mp read
  rw [← sort a] at here
  have derives : Derives r.depth bs (v a) := .scalar scalar
  exact ⟨bs, r.name, ahead, skipValue_of_derives phase here ahead derives, rfl⟩

/-- Passing over a value moves over bytes of the innermost container. -/
theorem exists_ahead_of_skipValue (room : r.Ahead []) (skipped : skipValue r = .ok () s) :
    ∃ bs, r.Ahead bs ∧ s = r.passed bs.length := by
  unfold skipValue at skipped
  obtain ⟨kind, m, here, rest⟩ := bind_eq_ok_iff.mp skipped
  obtain ⟨-, rfl⟩ := peek_eq_ok_iff.mp here
  rw [get_bind, guard_eq_ok_iff, not_not] at rest
  obtain ⟨-, rest⟩ := rest
  obtain ⟨n, m, sized, rest⟩ := bind_eq_ok_iff.mp rest
  obtain ⟨_, m', dropped, rest⟩ := bind_eq_ok_iff.mp rest
  obtain ⟨k, first, -⟩ := Moves.valueSize kind _ room.inside
  obtain rfl := (left_of_ok sized).symm.trans first
  obtain ⟨bytes, _, taken, last⟩ := bind_eq_ok_iff.mp (show (take n >>= fun _ => pure ()) _ = _ from dropped)
  obtain ⟨-, rfl⟩ := pure_eq_ok_iff.mp last
  obtain ⟨present, inside, -, rfl⟩ := take_eq_ok_iff.mp taken
  rw [Reader.advance_pos, Nat.add_assoc] at present inside
  obtain ⟨bs, len, ahead⟩ := Reader.Ahead.exists_of_room (k + n) inside present
  rw [endValue_eq_ok_iff.mp rest, Reader.advance_advance, ← len]
  exact ⟨bs, ahead, rfl⟩

theorem consumes_skipValue : Consumes skipValue := by
  intro r s _ _ _ room skipped
  obtain ⟨bs, ahead, rfl⟩ := exists_ahead_of_skipValue room skipped
  exact ⟨bs, r.name, ahead, skipped, rfl⟩

theorem consumes_value : Consumes value := by
  intro r s v phase inside room read
  obtain ⟨bs, label, derives, here, ahead, rfl⟩ := (sound _).1 phase inside room read
  exact ⟨bs, label, ahead, skipValue_of_derives phase here ahead derives, rfl⟩

theorem consumes_document : Consumes document := by
  intro r s doc phase inside room read
  obtain ⟨expects, bs, label, derives, ahead, rfl⟩ := documentOf_sound (sound _).2.1 read
  have here : r.kind = some .document := by
    rcases expects with ⟨front, -⟩ | ⟨-, here⟩
    · cases phase.symm.trans front
    · exact here
  refine ⟨bs, label, ahead, skipValue_of_derives (v := .document doc.fields) phase here ahead derives, ?_⟩
  unfold Reader.behind Reader.passed
  rw [if_neg (by simpa using inside)]

/-- What does not move the reader may follow. -/
theorem Consumes.bind (h : Consumes p) (still : ∀ a r b s, f a r = .ok b s → s = r) :
    Consumes (p >>= f) := by
  intro r s b phase inside room read
  obtain ⟨a, m, first, rest⟩ := bind_eq_ok_iff.mp read
  obtain rfl := still a m b s rest
  exact h phase inside room first

theorem Consumes.map {g : α → β} (h : Consumes p) : Consumes (p >>= fun a => pure (g a)) :=
  h.bind fun _ _ _ _ last => (pure_eq_ok_iff.mp last).2.symm

theorem Consumes.ite {c : Prop} [Decidable c] {q : Read α} (hp : Consumes p) (hq : Consumes q) :
    Consumes (if c then p else q) := by
  split
  · exact hp
  · exact hq

/-! ## The inside of a container -/

/-- What comes next in a container is its end or the value of an element, which may be of any length. -/
theorem readType_cases {f : Frame} {outer : List Frame} {next : Option Kind} (frames : m.frames = f :: outer)
    (read : readType m = .ok next r) :
    (next = none ∧ m.pos + 1 = f.stop ∧ f.stop ≤ m.data.size ∧ r = m.closed f.container 1) ∨
      ∃ kind n name, next = some kind ∧ r = m.atValue n kind name ∧ r.Ahead [] := by
  have phase := (readType_stands read).1
  rcases (readType_eq_ok_iff phase frames).mp read with ⟨rfl, ahead, stop, rfl⟩ | ⟨kind, name, rfl, -, ahead, rfl⟩
  · exact .inl ⟨rfl, stop, stop ▸ ahead.present, rfl⟩
  · exact .inr ⟨kind, _, name, rfl, rfl, ahead.rest.transfer rfl rfl ahead.inside⟩

/-- An element that has been consumed is inside the container. -/
theorem Finishes.behind {inner : Read α} (h : Finishes inner) {f : Frame} {outer : List Frame} {n k : Nat}
    {name label : String} {a : α} (frames : m.frames = f :: outer)
    (read : inner (((m.atValue n kind name).passed k).named label) = .ok a s) :
    ∃ k label, m.pos + k = f.stop ∧ f.stop ≤ m.data.size ∧ s = (m.closed f.container k).named label := by
  obtain ⟨l, label', stop, present, rfl⟩ := h (by exact frames) read
  refine ⟨n + k + l, label', ?_, present, ?_⟩
  · rw [← stop]
    show m.pos + (n + k + l) = m.pos + n + k + l
    omega
  · unfold Reader.named Reader.closed Reader.passed Reader.atValue Reader.advance
    simp [Nat.add_assoc]

/-- A loop whose step consumes comes to the end of the container. -/
theorem finishes_foldWithin {step : σ → String → Read σ} (consumes : ∀ s name, Consumes (step s name))
    (fuel : Nat) (start : σ) : Finishes (foldWithin step fuel start) := by
  induction fuel generalizing start with
  | zero =>
    intro m s f outer a _ h
    rw [foldWithin, throw_eq_ok_iff] at h
    exact h.elim
  | succ fuel ih =>
    intro m s f outer a frames h
    rw [foldWithin] at h
    obtain ⟨next, r, read, rest⟩ := bind_eq_ok_iff.mp h
    rcases readType_cases frames read with ⟨rfl, stop, present, rfl⟩ | ⟨kind, n, name, rfl, rfl, room⟩
    · obtain ⟨rfl, rfl⟩ := pure_eq_ok_iff.mp rest
      exact ⟨1, m.name, stop, present, rfl⟩
    · dsimp only at rest
      rw [get_bind] at rest
      obtain ⟨state, t, stepped, rest⟩ := bind_eq_ok_iff.mp rest
      have inside : m.frames ≠ [] := by simp [frames]
      obtain ⟨bs, label, -, -, rfl⟩ := consumes start name (r := m.atValue n kind name) rfl inside room stepped
      exact (ih state).behind frames rest

theorem finishes_foldElements {step : σ → String → Read σ} (consumes : ∀ s name, Consumes (step s name))
    (start : σ) : Finishes (foldElements step start) :=
  fun m _ _ _ _ frames h => finishes_foldWithin consumes (m.data.size + 1) start frames h

/-- Who enters a container, comes to its end and leaves it has consumed a value. -/
theorem consumes_container {inner : Read α} (finishes : Finishes inner) {leave : Read Unit}
    (leaves : ∀ m s, leave m = .ok () s → s = m.left) (still : ∀ a r b s, f a r = .ok b s → s = r) :
    Consumes (do
      startContainer container
      let a ← inner
      leave
      f a) := by
  intro r s b phase inside _ read
  obtain ⟨_, m, entered, read⟩ := bind_eq_ok_iff.mp read
  obtain ⟨a, t, passed, read⟩ := bind_eq_ok_iff.mp read
  obtain ⟨_, u, left, last⟩ := bind_eq_ok_iff.mp read
  obtain ⟨expects, -, size, n, isSize, least, -, front, room, rfl⟩ := startContainer_eq_ok_iff.mp entered
  obtain ⟨k, label, stop, present, rfl⟩ := finishes (m := r.entered container n) rfl passed
  -- the container ends where its length says, and so far the bytes have been there
  have total : 4 + k = n := by
    have stop : r.pos + 4 + k = r.pos + n := stop
    omega
  have present : r.pos + n ≤ r.data.size := present
  have framed : container.kind.IsFramed := by
    cases container with
    | document => exact .inl rfl
    | array => exact .inr (.inl rfl)
  have here : r.kind = some container.kind := by
    rcases expects with ⟨early, -⟩ | ⟨-, here⟩
    · cases phase.symm.trans early
    · exact here
  have peeked : peekLength r = .ok n r := by
    have four := isSize.length_eq
    refine peekLength_eq_ok_iff.mpr ⟨⟨size, isSize, four ▸ front.present, ?_⟩, rfl⟩
    rw [← four]
    exact front.matching
  obtain ⟨bs, rfl, ahead⟩ := Reader.Ahead.exists_of_room n room present
  refine ⟨bs, label, ahead, ?_, ?_⟩
  · exact (skipValue_framed_iff phase here framed).mpr ⟨_, peeked, room, present, rfl⟩
  · rw [still a u b s last, leaves _ _ left]
    exact Reader.left_closed_entered total inside label

end Read

end DocumentClient
