import DocumentClient.Proofs.Wire.Decoding

/-!
# Reading stays inside the open containers

A reader may stand anywhere, and what it is asked may have no meaning there or fail after some bytes. It
never leaves a container that it has not been asked to leave, and the open containers lie inside each other.

* `Reader.Sound`: what holds of a reader all the time.
* `Reader.Within r s`: `s` is sound, and got from `r` without leaving a container that was open there.

Results:
1. `Moves`, `Stops`, `Stays`: the step has only moved inside the innermost container; it has if it fails; it
   has left no open container. Each is closed under sequence and gives the next.
2. `stays_container`: whoever reads the inside of a container and stays may read the container.
3. `stays`: values, fields and items of any nesting; induction on the bound of the recursion, all three at
   once.
4. `stays_ofKind`, `stays_value`, `stays_skipValue`, `stays_findElement`: so do the calls made from them.
5. `takes_ofKind`, `takes_value`: a value that is given out is derived from bytes of the innermost container.
-/

namespace DocumentClient

open Outcome Grammar

namespace Reader

/-! ## Sound readers -/

/-- What holds of a reader, whatever it has been asked. The containers are counted from the inside. -/
structure Sound (r : Reader) : Prop where
  inside : r.pos ≤ r.limit
  nested : r.frames.Pairwise fun inner outer => inner.stop ≤ outer.stop
  present : ∀ f ∈ r.frames, f.stop ≤ r.data.size
  shallow : r.depth ≤ maxNesting
  outside : r.frames = [] ↔ r.phase = .initial ∨ r.phase = .done
  known : r.phase = .value → r.kind ≠ none
  ended : ∀ container, r.phase = container.endPhase →
    ∃ f outer, r.frames = f :: outer ∧ f.container = container ∧ r.pos = f.stop

/-- The second reader is sound and got from the first over the same bytes, forwards, without leaving a
container that was open there. -/
structure Within (r s : Reader) : Prop where
  sound : s.Sound
  data : s.data = r.data
  around : s.outerDepth = r.outerDepth
  forward : r.pos ≤ s.pos
  kept : r.frames <:+ s.frames

variable {r s t : Reader} {n : Nat} {container : Container}

namespace Sound

/-- A reader before the first byte, inside containers that are not its own. -/
theorem front (data : ByteArray) {depth : Nat} (level : depth ≤ maxNesting) :
    Sound { data := data, outerDepth := depth } where
  inside := Nat.zero_le _
  nested := .nil
  present := List.forall_mem_nil _
  shallow := level
  outside := iff_of_true rfl (.inl rfl)
  known := nofun
  ended container h := by cases container <;> cases h

theorem limit_le (h : r.Sound) : r.limit ≤ r.data.size := by
  cases frames : r.frames with
  | nil => exact (limit_of_nil frames).le
  | cons f outer => exact limit_of_cons frames ▸ h.present f (frames ▸ List.mem_cons_self)

/-- An outer container ends where an inner one ends or behind it. -/
theorem limit_le_limit (h : s.Sound) (data : s.data = r.data) (kept : r.frames <:+ s.frames) :
    s.limit ≤ r.limit := by
  cases frames : r.frames with
  | nil =>
    rw [limit_of_nil frames, ← data]
    exact h.limit_le
  | cons f outer =>
    obtain ⟨front, split⟩ := frames ▸ kept
    rw [limit_of_cons frames]
    cases front with
    | nil => exact (limit_of_cons split.symm).le
    | cons g front =>
      have nested := split ▸ h.nested
      rw [limit_of_cons split.symm]
      exact List.rel_of_pairwise_cons nested (List.mem_append_right _ List.mem_cons_self)

theorem ahead (h : r.Sound) : r.Ahead [] := by
  obtain ⟨bs, len, ahead⟩ := Ahead.exists_of_room 0 h.inside (h.inside.trans h.limit_le)
  rwa [List.eq_nil_of_length_eq_zero len] at ahead

/-- Behind its terminator no bytes are left in a container. -/
theorem advance (h : r.Sound) (room : r.pos + n ≤ r.limit) : (r.advance n).Sound where
  inside := room
  nested := h.nested
  present := h.present
  shallow := h.shallow
  outside := h.outside
  known := h.known
  ended container phase := by
    obtain ⟨f, outer, frames, same, ends⟩ := h.ended container phase
    have stop := limit_of_cons frames
    refine ⟨f, outer, frames, same, ?_⟩
    rw [advance_pos]
    omega

theorem named (h : r.Sound) (name : String) : (r.named name).Sound :=
  ⟨h.inside, h.nested, h.present, h.shallow, h.outside, h.known, h.ended⟩

/-- Elements and values are met only inside a container. -/
theorem frames_ne_nil (h : r.Sound) (phase : r.phase = .type ∨ r.phase = .value) : r.frames ≠ [] := by
  intro none
  rcases h.outside.mp none with outside | outside <;> simp [outside] at phase

/-- A reader in a container may stand before the next element. -/
theorem atType (h : r.Sound) (inner : r.frames ≠ []) :
    Sound { r with kind := none, phase := .type } where
  inside := h.inside
  nested := h.nested
  present := h.present
  shallow := h.shallow
  outside := iff_of_false inner (by simp)
  known := nofun
  ended container phase := by cases container <;> cases phase

theorem passed (h : r.Sound) (inner : r.frames ≠ []) (room : r.pos + n ≤ r.limit) :
    (r.passed n).Sound :=
  (h.advance room).atType inner

theorem atValue (h : r.Sound) (inner : r.frames ≠ []) (room : r.pos + n ≤ r.limit) (kind : Kind)
    (name : String) : (r.atValue n kind name).Sound where
  inside := room
  nested := h.nested
  present := h.present
  shallow := h.shallow
  outside := iff_of_false inner (by simp [Reader.atValue])
  known _ := nofun
  ended container phase := by cases container <;> cases phase

theorem closed (h : r.Sound) {f : Frame} {outer : List Frame} (frames : r.frames = f :: outer)
    (ends : r.pos + n = f.stop) : (r.closed f.container n).Sound := by
  have stop := limit_of_cons frames
  have room := h.advance (show r.pos + n ≤ r.limit by omega)
  refine ⟨room.inside, h.nested, h.present, h.shallow, ?_, ?_, fun container phase => ?_⟩
  · refine iff_of_false (by simp [Reader.closed, frames]) ?_
    cases sort : f.container <;> simp [Reader.closed, Container.endPhase]
  · cases sort : f.container <;> simp [Reader.closed, Container.endPhase]
  · refine ⟨f, outer, frames, ?_, ends⟩
    have same : f.container.endPhase = container.endPhase := phase
    cases container <;> cases sort : f.container <;> rw [sort] at same <;> first | rfl | cases same

theorem entered (h : r.Sound) (below : r.depth < maxNesting) (least : minDocumentSize ≤ n)
    (room : r.pos + n ≤ r.limit) : (r.entered container n).Sound where
  inside := by
    show r.pos + 4 ≤ r.pos + n
    unfold minDocumentSize at least
    omega
  nested := by
    refine List.pairwise_cons.mpr ⟨fun f mem => ?_, h.nested⟩
    cases frames : r.frames with
    | nil => exact absurd (frames ▸ mem) List.not_mem_nil
    | cons g outer =>
      have nested := frames ▸ h.nested
      have room := limit_of_cons frames ▸ room
      rcases List.mem_cons.mp (frames ▸ mem) with rfl | mem
      · exact room
      · exact room.trans (List.rel_of_pairwise_cons nested mem)
  present := List.forall_mem_cons.mpr ⟨room.trans h.limit_le, h.present⟩
  shallow := below
  outside := iff_of_false (List.cons_ne_nil _ _) (by simp [Reader.entered])
  known := nofun
  ended container phase := by cases container <;> cases phase

/-- A container is left where it ends, which is inside the container around it. -/
theorem left (h : r.Sound) (phase : r.phase = container.endPhase) : r.left.Sound := by
  obtain ⟨f, outer, frames, -, ends⟩ := h.ended container phase
  have tail : r.frames.tail = outer := by rw [frames, List.tail_cons]
  have nested := frames ▸ h.nested
  have present := frames ▸ h.present
  have level := h.shallow
  rw [depth, frames, List.length_cons] at level
  have inner : r.left.frames = outer := tail
  refine ⟨?_, ?_, ?_, ?_, ?_, ?_, fun other phase => ?_⟩
  · show r.pos ≤ r.left.limit
    rw [ends]
    cases outer with
    | nil => exact limit_of_nil inner ▸ present f List.mem_cons_self
    | cons g outer =>
      exact limit_of_cons inner ▸ List.rel_of_pairwise_cons nested List.mem_cons_self
  · exact inner ▸ nested.tail
  · exact inner ▸ fun g mem => present g (List.mem_cons_of_mem f mem)
  · rw [depth, inner]
    exact (Nat.le_succ _).trans level
  · rw [inner]
    cases outer with
    | nil => exact iff_of_true rfl (.inr (by simp [Reader.left, tail]))
    | cons g outer => exact iff_of_false (List.cons_ne_nil _ _) (by simp [Reader.left, tail])
  · cases outer <;> simp [Reader.left, tail]
  · cases outer <;> cases other <;> simp [Reader.left, tail, Container.endPhase] at phase

end Sound

namespace Within

theorem refl (h : r.Sound) : Within r r :=
  ⟨h, rfl, rfl, Nat.le_refl _, List.suffix_refl _⟩

theorem trans (h : Within r s) (next : Within s t) : Within r t :=
  ⟨next.sound, next.data.trans h.data, next.around.trans h.around, h.forward.trans next.forward,
    h.kept.trans next.kept⟩

/-- The reader stays inside the container in which it started. -/
theorem pos_le (h : Within r s) : s.pos ≤ r.limit :=
  h.sound.inside.trans (h.sound.limit_le_limit h.data h.kept)

/-- The containers are the same. -/
theorem of_frames (sound : s.Sound) (data : s.data = r.data) (around : s.outerDepth = r.outerDepth)
    (forward : r.pos ≤ s.pos) (frames : s.frames = r.frames) : Within r s :=
  ⟨sound, data, around, forward, frames ▸ List.suffix_refl _⟩

theorem advance (h : r.Sound) (room : r.pos + n ≤ r.limit) : Within r (r.advance n) :=
  of_frames (h.advance room) rfl rfl (Nat.le_add_right _ _) rfl

theorem passed (h : r.Sound) (inner : r.frames ≠ []) (room : r.pos + n ≤ r.limit) :
    Within r (r.passed n) :=
  of_frames (h.passed inner room) rfl rfl (Nat.le_add_right _ _) rfl

theorem named (h : Within r s) (name : String) : Within r (s.named name) :=
  ⟨h.sound.named name, h.data, h.around, h.forward, h.kept⟩

end Within

end Reader

namespace Read

open Reader

variable {α β : Type} {p : Read α} {f : α → Read β} {r r' : Reader} {kind : Kind}

/-! ## Steps that move over bytes -/

/-- However it ends, the step has only moved over bytes of the innermost container. -/
def Moves (p : Read α) : Prop :=
  ∀ r, r.pos ≤ r.limit → ∃ n, left p r = r.advance n ∧ r.pos + n ≤ r.limit

/-- If it fails, the step has only moved over bytes of the innermost container. -/
def Stops (p : Read α) : Prop :=
  ∀ r fault s, r.pos ≤ r.limit → p r = .error fault s → ∃ n, s = r.advance n ∧ r.pos + n ≤ r.limit

/-- However it ends, the step has left none of the open containers. -/
def Stays (p : Read α) : Prop :=
  ∀ r, r.Sound → Within r (left p r)

namespace Moves

theorem of_same (h : ∀ r, left p r = r) : Moves p :=
  fun r inside => ⟨0, h r, inside⟩

theorem pure (a : α) : Moves (Pure.pure a) :=
  of_same fun _ => rfl

theorem get : Moves (MonadState.get : Read Reader) :=
  of_same fun _ => rfl

theorem throw (fault : Fault) : Moves (MonadExcept.throw fault : Read α) :=
  of_same fun _ => rfl

theorem peek (look : Reader → Except Fault α) : Moves (peek look) :=
  of_same fun r => by
    unfold Read.peek
    cases h : look r with
    | ok a => exact left_of_ok (by rw [h])
    | error fault => exact left_of_error (by rw [h])

theorem bind (hp : Moves p) (hf : ∀ a, Moves (f a)) : Moves (p >>= f) := by
  intro r inside
  obtain ⟨n, same, room⟩ := hp r inside
  cases h : p r with
  | ok a m =>
    rw [left_of_ok h] at same
    subst same
    obtain ⟨k, next, behind⟩ := hf a (r.advance n) room
    rw [left_bind_of_ok h, next, advance_advance]
    exact ⟨n + k, rfl, (Nat.add_assoc _ _ _).symm.trans_le behind⟩
  | error fault m =>
    rw [left_of_error h] at same
    exact ⟨n, (left_bind_of_error h).trans same, room⟩

theorem ite {c : Prop} [Decidable c] {q : Read α} (hp : Moves p) (hq : Moves q) :
    Moves (if c then p else q) := by
  split
  · exact hp
  · exact hq

/-- A check in front of a step. -/
theorem guard {c : Prop} [Decidable c] {fault : Fault} {next : PUnit → Read α} (h : Moves p) :
    Moves (if c then MonadExcept.throw fault >>= next else p) :=
  .ite (of_same fun _ => rfl) h

theorem take (n : Nat) : Moves (take n) := by
  intro r inside
  cases h : Read.take n r with
  | ok bytes m =>
    obtain ⟨-, room, -, rfl⟩ := take_eq_ok_iff.mp h
    exact ⟨n, left_of_ok h, room⟩
  | error fault m =>
    have same : m = r := by
      unfold Read.take at h
      dsimp only at h
      split at h
      · cases h
        rfl
      · split at h <;> cases h
        rfl
    exact ⟨0, (left_of_error h).trans same, inside⟩

theorem zeroEnded : Moves zeroEnded := by
  intro r inside
  cases h : Read.zeroEnded r with
  | ok text m =>
    obtain ⟨found, le, room, -, -, -, -, rfl⟩ := zeroEnded_eq_ok_iff.mp h
    exact ⟨found + 1 - r.pos, left_of_ok h, by omega⟩
  | error fault m =>
    have same : m = r := by
      unfold Read.zeroEnded at h
      dsimp only at h
      split at h
      · cases h
        rfl
      · split at h
        · cases h
          rfl
        · split at h <;> cases h
          rfl
    exact ⟨0, (left_of_error h).trans same, inside⟩

theorem byte : Moves byte :=
  .bind (.take 1) fun _ => .pure _

theorem length (least : Nat) : Moves (length least) :=
  .bind (.take 4) fun _ => .guard (.pure _)

theorem text : Moves text := by
  refine .bind (.length 1) fun n => .bind (.take n) fun bytes => .guard ?_
  split
  · exact .pure _
  · exact .throw _

theorem beginValue (kind : Kind) : Moves (beginValue kind) :=
  .bind .get fun _ => .guard (.peek _)

theorem discard (h : Moves p) : Moves (discard p : Read Unit) :=
  show Moves (p >>= fun _ => Pure.pure ()) from .bind h fun _ => .pure _

theorem valueSize (kind : Kind) : Moves (valueSize kind) := by
  unfold Read.valueSize
  cases kind.fixedSize? with
  | some n => exact .pure n
  | none =>
    cases kind with
    | document | array | javaScriptWithScope => exact .peek _
    | regularExpression =>
      exact .bind (.discard .zeroEnded) fun _ => .bind (.discard .zeroEnded) fun _ => .pure _
    | _ => exact .bind (.peek _) fun _ => .pure _

end Moves

namespace Stops

theorem of_moves (h : Moves p) : Stops p := by
  intro r fault s inside fails
  obtain ⟨n, same, room⟩ := h r inside
  exact ⟨n, (left_of_error fails).symm.trans same, room⟩

/-- A step that never fails. -/
theorem of_ok (h : ∀ r, ∃ a s, p r = .ok a s) : Stops p := by
  intro r fault s _ fails
  obtain ⟨a, t, ok⟩ := h r
  rw [ok] at fails
  cases fails

theorem endValue (a : α) : Stops (endValue >>= fun _ => pure a) :=
  of_ok fun _ => ⟨_, _, rfl⟩

theorem bind (hp : Moves p) (hf : ∀ a, Stops (f a)) : Stops (p >>= f) := by
  intro r fault s inside fails
  obtain ⟨n, same, room⟩ := hp r inside
  rcases bind_eq_error_iff.mp fails with fails | ⟨a, m, ok, fails⟩
  · exact ⟨n, (left_of_error fails).symm.trans same, room⟩
  · rw [left_of_ok ok] at same
    subst same
    obtain ⟨k, rfl, behind⟩ := hf a (r.advance n) fault s room fails
    rw [advance_advance]
    exact ⟨n + k, rfl, (Nat.add_assoc _ _ _).symm.trans_le behind⟩

theorem ite {c : Prop} [Decidable c] {q : Read α} (hp : Stops p) (hq : Stops q) :
    Stops (if c then p else q) := by
  split
  · exact hp
  · exact hq

/-- A check in front of a step. -/
theorem guard {c : Prop} [Decidable c] {fault : Fault} {next : PUnit → Read α} (h : Stops p) :
    Stops (if c then throw fault >>= next else p) :=
  .ite (.of_moves (.of_same fun _ => rfl)) h

end Stops

/-! ## Elements and containers -/

theorem stops_readType : Stops readType := by
  refine .bind .get fun _ => .guard (.bind (.peek _) fun f => .bind .byte fun marker => .bind .get fun _ => ?_)
  refine .ite (.guard (.of_ok fun _ => ⟨_, _, rfl⟩)) ?_
  cases Kind.ofTag? marker with
  | none => exact .of_moves (.throw _)
  | some kind => exact .bind .zeroEnded fun _ => .of_ok fun _ => ⟨_, _, rfl⟩

theorem stops_startContainer (container : Container) : Stops (startContainer container) := by
  have enters (s : Reader) : Stops (do
      if maxNesting ≤ s.depth then throw Fault.nestingTooDeep
      let size ← length minDocumentSize
      if maxDocumentSize < size then throw Fault.documentTooLarge
      if s.limit < s.pos + size then
        throw (Fault.malformed (.containerLength container.kind s.pos size (s.limit - s.pos)))
      modify fun t =>
        { t with frames := ⟨container, s.pos + size⟩ :: t.frames, kind := none, phase := .type } :
      Read Unit) :=
    .guard (.bind (.length _) fun _ => .guard (.guard (.of_ok fun _ => ⟨_, _, rfl⟩)))
  refine .bind .get fun s => ?_
  cases s.phase with
  | initial => exact .guard (enters s)
  | value => exact .bind (.peek _) fun _ => enters s
  | type | endOfDocument | endOfArray | done => exact .of_moves (.of_same fun _ => rfl)

namespace Stays

theorem of_moves (h : Moves p) : Stays p := by
  intro r sound
  obtain ⟨n, same, room⟩ := h r sound.inside
  rw [same]
  exact .advance sound room

theorem bind (hp : Stays p) (hf : ∀ a, Stays (f a)) : Stays (p >>= f) := by
  intro r sound
  have first := hp r sound
  cases h : p r with
  | ok a m =>
    rw [left_of_ok h] at first
    rw [left_bind_of_ok h]
    exact first.trans (hf a m first.sound)
  | error fault m =>
    rw [left_of_error h] at first
    rwa [left_bind_of_error h]

/-- A step that stays inside where it succeeds and has only moved where it fails. -/
theorem of_stops (hs : Stops p) (ok : ∀ r a s, r.Sound → p r = .ok a s → Within r s) : Stays p := by
  intro r sound
  cases h : p r with
  | ok a s => exact left_of_ok h ▸ ok r a s sound h
  | error fault s =>
    obtain ⟨n, rfl, room⟩ := hs r fault s sound.inside h
    exact left_of_error h ▸ .advance sound room

theorem of_accepts {rule : List UInt8 → α → Prop} (ha : AcceptsValue kind p rule) (hs : Stops p) :
    Stays p := by
  refine of_stops hs fun r a s sound h => ?_
  obtain ⟨phase, -, bs, -, ahead, rfl⟩ := (ha r s a sound.ahead).mp h
  exact .passed sound (sound.frames_ne_nil (.inr phase)) ahead.inside

end Stays

theorem Stays.pure (a : α) : Stays (pure a) :=
  .of_moves (.pure a)

theorem stays_readType : Stays readType := by
  refine .of_stops stops_readType fun r next s sound h => ?_
  have phase : r.phase = .type := by
    unfold readType at h
    rw [get_bind, guard_eq_ok_iff] at h
    exact not_not.mp h.1
  have inner := sound.frames_ne_nil (.inl phase)
  obtain ⟨f, outer, frames⟩ := List.exists_cons_of_ne_nil inner
  rcases (readType_eq_ok_iff phase frames).mp h with
    ⟨-, -, ends, rfl⟩ | ⟨kind, name, -, -, ahead, rfl⟩
  · exact .of_frames (sound.closed frames ends) rfl rfl (Nat.le_add_right _ _) rfl
  · exact .of_frames (sound.atValue inner ahead.inside kind name) rfl rfl (Nat.le_add_right _ _) rfl

theorem stays_startContainer (container : Container) : Stays (startContainer container) := by
  refine .of_stops (stops_startContainer container) fun r u s sound h => ?_
  obtain ⟨-, below, -, n, -, least, -, -, room, rfl⟩ := startContainer_eq_ok_iff.mp h
  exact ⟨sound.entered below least room, rfl, rfl, Nat.le_add_right _ _, List.suffix_cons _ _⟩

/-- A container is left behind its terminator, and otherwise nothing happens. -/
def Leaves (container : Container) (finish : Read Unit) : Prop :=
  ∀ r, (r.phase = container.endPhase ∧ finish r = .ok () r.left) ∨ ∃ fault, finish r = .error fault r

theorem leaves_endDocument : Leaves .document endDocument := by
  intro r
  by_cases phase : r.phase = .endOfDocument
  · exact .inl ⟨phase, endDocument_eq_ok_iff.mpr ⟨phase, rfl⟩⟩
  · exact .inr ⟨_, guard_eq_error_iff.mpr (.inl ⟨phase, rfl, rfl⟩)⟩

theorem leaves_endArray : Leaves .array endArray := by
  intro r
  by_cases phase : r.phase = .endOfArray
  · exact .inl ⟨phase, endArray_eq_ok_iff.mpr ⟨phase, rfl⟩⟩
  · exact .inr ⟨_, guard_eq_error_iff.mpr (.inl ⟨phase, rfl, rfl⟩)⟩

/-- A whole container is read without leaving those around it. -/
theorem stays_container {container : Container} {inner : Read α} {finish : Read Unit} {result : α → β}
    (hi : Stays inner) (leaves : Leaves container finish)
    (keeps : ∀ {m m' a}, m.phase = .type → m.frames ≠ [] → inner m = .ok a m' → m'.frames = m.frames) :
    Stays (do
      startContainer container
      let a ← inner
      finish
      return result a) := by
  intro r sound
  have start := stays_startContainer container r sound
  cases hs : startContainer container r with
  | error fault s =>
    rw [left_of_error hs] at start
    rwa [left_bind_of_error hs]
  | ok u m =>
    rw [left_of_ok hs] at start
    rw [left_bind_of_ok hs]
    have next := hi m start.sound
    cases hm : inner m with
    | error fault s =>
      rw [left_of_error hm] at next
      rw [left_bind_of_error hm]
      exact start.trans next
    | ok a m' =>
      rw [left_of_ok hm] at next
      rw [left_bind_of_ok hm]
      rcases leaves m' with ⟨phase, hf⟩ | ⟨fault, hf⟩
      · obtain ⟨-, -, -, n, -, -, -, -, -, rfl⟩ := startContainer_eq_ok_iff.mp hs
        have frames := keeps rfl (List.cons_ne_nil _ _) hm
        rw [left_bind_of_ok hf]
        refine .of_frames (next.sound.left phase) next.data next.around (start.trans next).forward ?_
        exact (congrArg List.tail frames).trans (List.tail_cons)
      · rw [left_bind_of_error hf]
        exact start.trans next

/-! ## Values -/

theorem stays_fixed {size : Nat} {decode : ByteArray → α} {rule : List UInt8 → α → Prop}
    (ha : AcceptsValue kind (fixed kind size decode) rule) : Stays (fixed kind size decode) :=
  .of_accepts ha (.bind (.beginValue kind) fun _ => .bind (.take size) fun _ => .endValue _)

theorem stays_unit {rule : List UInt8 → Unit → Prop} (ha : AcceptsValue kind (unit kind) rule) :
    Stays (unit kind) :=
  .of_accepts ha (.bind (.beginValue kind) fun _ => .of_ok fun _ => ⟨_, _, rfl⟩)

theorem stays_textOf {rule : List UInt8 → String → Prop} (ha : AcceptsValue kind (textOf kind) rule) :
    Stays (textOf kind) :=
  .of_accepts ha (.bind (.beginValue kind) fun _ => .bind .text fun _ => .endValue _)

theorem stays_binary : Stays binary := by
  refine .of_accepts acceptsValue_binary (.bind (.beginValue _) fun _ => .bind (.length 0) fun _ =>
    .bind .byte fun _ => .ite (.bind (.length 0) fun _ => .guard ?_) ?_)
  · exact .bind (.take _) fun _ => .endValue _
  · exact .bind (.take _) fun _ => .endValue _

theorem stays_boolean : Stays boolean :=
  .of_accepts acceptsValue_boolean (.bind (.beginValue _) fun _ => .bind .byte fun _ =>
    .ite (.endValue _) (.ite (.endValue _) (.of_moves (.throw _))))

theorem stays_regularExpression : Stays regularExpression :=
  .of_accepts acceptsValue_regularExpression (.bind (.beginValue _) fun _ =>
    .bind .zeroEnded fun _ => .bind .zeroEnded fun _ => .endValue _)

theorem stays_dbPointer : Stays dbPointer :=
  .of_accepts acceptsValue_dbPointer (.bind (.beginValue _) fun _ =>
    .bind .text fun _ => .bind (.take 12) fun _ => .endValue _)

theorem stops_scopedCodeOf (fields : Document → Read Document) : Stops (scopedCodeOf fields) := by
  refine .bind (.beginValue _) fun _ => .bind .get fun _ => .bind (.length 4) fun _ =>
    .bind .text fun _ => .bind (.peek _) fun n => .bind (.take n) fun bytes => .bind .get fun r => ?_
  cases documentOf fields { data := bytes, outerDepth := r.depth } with
  | error fault => exact .of_moves (.throw fault)
  | ok scope => exact .guard (.endValue _)

theorem stays_scopedCodeOf (fuel : Nat) : Stays (scopedCodeOf (fieldsWithin fuel)) := by
  refine .of_stops (stops_scopedCodeOf _) fun r pair s sound h => ?_
  obtain ⟨phase, -, bs, -, ahead, rfl⟩ := scopedCodeOf_sound (Read.sound fuel).2.1 h
  exact .passed sound (sound.frames_ne_nil (.inr phase)) ahead.inside

theorem stays_documentOf {fuel : Nat} (fields : ∀ doc, Stays (fieldsWithin fuel doc)) :
    Stays (documentOf (fieldsWithin fuel)) := by
  refine stays_container (fields _) leaves_endDocument fun phase inner h => ?_
  obtain ⟨f, outer, frames⟩ := List.exists_cons_of_ne_nil inner
  obtain ⟨elements, name, -, -, rfl⟩ := (Read.sound fuel).2.1 phase frames h
  rfl

theorem stays_arrayOf {fuel : Nat} (items : ∀ values, Stays (itemsWithin fuel values)) :
    Stays (arrayOf (itemsWithin fuel)) := by
  refine stays_container (items _) leaves_endArray fun phase inner h => ?_
  obtain ⟨f, outer, frames⟩ := List.exists_cons_of_ne_nil inner
  obtain ⟨elements, name, -, -, rfl⟩ := (Read.sound fuel).2.2 phase frames h
  rfl

theorem stays_scalar (kind : Kind) : Stays (scalar kind) := by
  cases kind with
  | double => exact .bind (stays_fixed acceptsValue_double) fun _ => .pure _
  | string => exact .bind (stays_textOf acceptsValue_string) fun _ => .pure _
  | binary => exact .bind stays_binary fun _ => .pure _
  | undefined => exact .bind (stays_unit acceptsValue_undefined) fun _ => .pure _
  | objectId => exact .bind (stays_fixed acceptsValue_objectId) fun _ => .pure _
  | boolean => exact .bind stays_boolean fun _ => .pure _
  | dateTime => exact .bind (stays_fixed acceptsValue_dateTime) fun _ => .pure _
  | null => exact .bind (stays_unit acceptsValue_null) fun _ => .pure _
  | regularExpression => exact .bind stays_regularExpression fun _ => .pure _
  | dbPointer => exact .bind stays_dbPointer fun _ => .pure _
  | javaScript => exact .bind (stays_textOf acceptsValue_javaScript) fun _ => .pure _
  | symbol => exact .bind (stays_textOf acceptsValue_symbol) fun _ => .pure _
  | int32 => exact .bind (stays_fixed acceptsValue_int32) fun _ => .pure _
  | timestamp => exact .bind (stays_fixed acceptsValue_timestamp) fun _ => .pure _
  | int64 => exact .bind (stays_fixed acceptsValue_int64) fun _ => .pure _
  | decimal128 => exact .bind (stays_fixed acceptsValue_decimal128) fun _ => .pure _
  | minKey => exact .bind (stays_unit acceptsValue_minKey) fun _ => .pure _
  | maxKey => exact .bind (stays_unit acceptsValue_maxKey) fun _ => .pure _
  | document | array | javaScriptWithScope => exact .of_moves (.throw _)

theorem stays_takeName : Stays takeName :=
  fun _ sound => (Within.refl sound).named ""

theorem stays_valueWithin_succ {fuel : Nat} (fields : ∀ doc, Stays (fieldsWithin fuel doc))
    (items : ∀ values, Stays (itemsWithin fuel values)) : Stays (valueWithin (fuel + 1)) := by
  rw [valueWithin_eq]
  refine .bind (.of_moves (.peek _)) fun kind => ?_
  cases kind with
  | document => exact .bind (stays_documentOf fields) fun _ => .pure _
  | array => exact .bind (stays_arrayOf items) fun _ => .pure _
  | javaScriptWithScope => exact .bind (stays_scopedCodeOf fuel) fun _ => .pure _
  | _ => exact stays_scalar _

/-- Reading what is nested stays inside the open containers. -/
theorem stays (fuel : Nat) : Stays (valueWithin fuel) ∧ (∀ doc, Stays (fieldsWithin fuel doc)) ∧
    ∀ values, Stays (itemsWithin fuel values) := by
  induction fuel with
  | zero =>
    refine ⟨?_, fun doc => ?_, fun values => ?_⟩
    · rw [valueWithin]
      exact .of_moves (.throw _)
    · rw [fieldsWithin]
      exact .of_moves (.throw _)
    · rw [itemsWithin]
      exact .of_moves (.throw _)
  | succ fuel ih =>
    obtain ⟨value, fields, items⟩ := ih
    refine ⟨stays_valueWithin_succ fields items, fun doc => ?_, fun values => ?_⟩
    · rw [fieldsWithin]
      refine .bind stays_readType fun next => ?_
      cases next with
      | none => exact .pure _
      | some kind => exact .bind stays_takeName fun _ => .bind value fun _ => fields _
    · rw [itemsWithin]
      refine .bind stays_readType fun next => ?_
      cases next with
      | none => exact .pure _
      | some kind => exact .bind value fun _ => items _

/-! ## Passing over values -/

theorem stops_skipValue : Stops skipValue :=
  .bind (.peek _) fun kind => .bind .get fun _ => .guard (.bind (.valueSize kind) fun n =>
    .bind (.discard (.take n)) fun _ => .of_ok fun _ => ⟨_, _, rfl⟩)

theorem stays_skipValue : Stays skipValue := by
  refine .of_stops stops_skipValue fun r u s sound h => ?_
  unfold skipValue at h
  obtain ⟨kind, m, here, rest⟩ := bind_eq_ok_iff.mp h
  obtain ⟨-, rfl⟩ := peek_eq_ok_iff.mp here
  rw [get_bind, guard_eq_ok_iff, not_not] at rest
  obtain ⟨phase, rest⟩ := rest
  obtain ⟨n, m, sized, rest⟩ := bind_eq_ok_iff.mp rest
  obtain ⟨⟨⟩, m', passed, rest⟩ := bind_eq_ok_iff.mp rest
  obtain ⟨k, first, room⟩ := Moves.valueSize kind _ sound.inside
  obtain rfl := (left_of_ok sized).symm.trans first
  obtain ⟨l, second, room⟩ := (Moves.take n).discard (m.advance k) room
  obtain rfl := (left_of_ok passed).symm.trans second
  rw [endValue_eq_ok_iff.mp rest, advance_advance]
  exact .passed sound (sound.frames_ne_nil (.inr phase)) ((Nat.add_assoc _ _ _).symm.trans_le room)

theorem stays_findWithin (name : String) (fuel : Nat) : Stays (findWithin name fuel) := by
  induction fuel with
  | zero => exact .of_moves (.throw _)
  | succ fuel ih =>
    refine .bind stays_readType fun next => ?_
    cases next with
    | none => exact .pure _
    | some kind =>
      refine .bind (.of_moves .get) fun r => ?_
      split
      · exact .pure _
      · exact .bind stays_skipValue fun _ => ih

/-! ## What a value takes -/

/-- The next value, if it has this kind. -/
def ofKind : Kind → Read Value
  | .document => return .document (← document).fields
  | .array => return .array (← array)
  | .javaScriptWithScope => do
    let (code, scope) ← javaScriptWithScope
    return .javaScriptWithScope code scope.fields
  | kind => scalar kind

/-- A recursion whose bound is told by the reader. -/
theorem Stays.bounded (bound : Reader → Nat) (q : Nat → Read α) (h : ∀ n, Stays (q n)) :
    Stays fun r => q (bound r) r :=
  fun r => h (bound r) r

theorem stays_value : Stays value :=
  .bounded fuelFor valueWithin fun n => (stays n).1

theorem stays_document : Stays document :=
  .bounded fuelFor (fun n => documentOf (fieldsWithin n)) fun n => stays_documentOf (stays n).2.1

theorem stays_array : Stays array :=
  .bounded fuelFor (fun n => arrayOf (itemsWithin n)) fun n => stays_arrayOf (stays n).2.2

theorem stays_javaScriptWithScope : Stays javaScriptWithScope :=
  .bounded fuelFor (fun n => scopedCodeOf (fieldsWithin n)) stays_scopedCodeOf

theorem stays_findElement (name : String) : Stays (findElement name) :=
  .bounded (fun r => r.data.size + 1) (findWithin name) (stays_findWithin name)

theorem stays_ofKind (kind : Kind) : Stays (ofKind kind) := by
  cases kind with
  | document => exact .bind stays_document fun _ => .pure _
  | array => exact .bind stays_array fun _ => .pure _
  | javaScriptWithScope => exact .bind stays_javaScriptWithScope fun _ => .pure _
  | _ =>
    unfold ofKind
    exact stays_scalar _

/-- What the step gives out has been derived from the bytes that it has taken, all of them inside the
innermost container. -/
def Takes (p : Read Value) : Prop :=
  ∀ r s v, r.Sound → p r = .ok v s →
    ∃ bs, Derives r.depth bs v ∧ r.Ahead bs ∧ s.pos = r.pos + bs.length

theorem takes_document {fuel : Nat} {s : Reader} {doc : Document}
    (read : documentOf (fieldsWithin fuel) r = .ok doc s) :
    ∃ bs, Derives r.depth bs (.document doc.fields) ∧ r.Ahead bs ∧ s.pos = r.pos + bs.length := by
  obtain ⟨-, bs, name, derives, ahead, rfl⟩ := documentOf_sound (Read.sound fuel).2.1 read
  exact ⟨bs, derives, ahead, rfl⟩

theorem takes_ofKind (kind : Kind) : Takes (ofKind kind) := by
  intro r s v sound h
  have flat (other : kind ≠ .document ∧ kind ≠ .array ∧ kind ≠ .javaScriptWithScope)
      (h : scalar kind r = .ok v s) :
      ∃ bs, Derives r.depth bs v ∧ r.Ahead bs ∧ s.pos = r.pos + bs.length := by
    obtain ⟨-, -, bs, ⟨scalar, -⟩, ahead, rfl⟩ := (acceptsValue_scalar other r s v sound.ahead).mp h
    exact ⟨bs, .scalar scalar, ahead, rfl⟩
  cases kind with
  | document =>
    obtain ⟨doc, m, read, h⟩ := bind_eq_ok_iff.mp h
    obtain ⟨rfl, rfl⟩ := pure_eq_ok_iff.mp h
    exact takes_document read
  | array =>
    obtain ⟨values, m, read, h⟩ := bind_eq_ok_iff.mp h
    obtain ⟨rfl, rfl⟩ := pure_eq_ok_iff.mp h
    obtain ⟨-, bs, name, derives, ahead, rfl⟩ := arrayOf_sound (Read.sound _).2.2 read
    exact ⟨bs, derives, ahead, rfl⟩
  | javaScriptWithScope =>
    obtain ⟨⟨code, scope⟩, m, read, h⟩ := bind_eq_ok_iff.mp h
    obtain ⟨rfl, rfl⟩ := pure_eq_ok_iff.mp h
    obtain ⟨-, -, bs, derives, ahead, rfl⟩ := scopedCodeOf_sound (Read.sound _).2.1 read
    exact ⟨bs, derives, ahead, rfl⟩
  | _ => exact flat (by decide) h

theorem takes_value : Takes value := by
  intro r s v sound h
  by_cases phase : r.phase = .value
  · obtain ⟨bs, name, derives, -, ahead, rfl⟩ :=
      (Read.sound _).1 phase (sound.frames_ne_nil (.inr phase)) sound.ahead h
    exact ⟨bs, derives, ahead, rfl⟩
  · -- only a whole document may be read elsewhere
    unfold value fuelFor at h
    rw [valueWithin_eq] at h
    obtain ⟨kind, m, here, h⟩ := bind_eq_ok_iff.mp h
    obtain ⟨found, rfl⟩ := peek_eq_ok_iff.mp here
    unfold Reader.currentKind at found
    split at found
    · cases found
      obtain ⟨doc, m, read, h⟩ := bind_eq_ok_iff.mp h
      obtain ⟨rfl, rfl⟩ := pure_eq_ok_iff.mp h
      exact takes_document read
    · next value => exact absurd value phase
    · cases found

end Read

end DocumentClient
