import DocumentClient.Proofs.Wire.Access
import DocumentClient.Proofs.Wire.Bounds

/-!
# Calls in any order

A reader may be asked anything at any time: calls that have no meaning where it stands, calls after a
failure that has taken some bytes, and returns to places where it stood before.

* `Reader.Call`, `Reader.Move`: what a reader can be asked, and what can be done with one.
* `Reader.Use.play`: a reader after any number of moves.

Results:
1. `Reader.Sound.call`: one call of any kind leaves a sound reader, no further than the innermost container.
2. `Reader.Use.Sound.apply`, `Reader.Use.Sound.play`: so does one move, and any number of moves.
3. `Reader.confined_of_play`: what follows for the bytes that a reader takes and looks at.
-/

namespace DocumentClient

open Outcome Grammar

namespace Reader

/-- What a reader may be asked. -/
inductive Call where
  | position
  | isDone
  | currentKind
  | currentName
  | readType
  | startDocument
  | endDocument
  | startArray
  | endArray
  /-- The next value, if it has this kind. -/
  | ofKind (kind : Kind)
  /-- The next value. -/
  | value
  | skipValue
  | findElement (name : String)

/-- What a reader answers. -/
inductive Answer where
  | done
  | position (offset : Nat)
  | truth (b : Bool)
  | kind (kind : Option Kind)
  | name (text : String)
  | value (v : Value)

/-- The call to a reader. -/
def Call.run : Call → Read Answer
  | .position => return .position (← get).pos
  | .isDone => return .truth (← get).isDone
  | .currentKind => return .kind (some (← Read.currentKind))
  | .currentName => return .name (← Read.currentName)
  | .readType => return .kind (← Read.readType)
  | .startDocument => do Read.startDocument; return .done
  | .endDocument => do Read.endDocument; return .done
  | .startArray => do Read.startArray; return .done
  | .endArray => do Read.endArray; return .done
  | .ofKind kind => return .value (← Read.ofKind kind)
  | .value => return .value (← Read.value)
  | .skipValue => do Read.skipValue; return .done
  | .findElement name => return .truth (← Read.findElement name)

/-- What a user does with a reader: calls, which may fail, and bookmarks, taken and gone back to. A
bookmark is told by its place among those taken so far, the last one first. -/
inductive Move where
  | call (asked : Call)
  | bookmark
  | returnTo (index : Nat)

/-- A reader in use, with the bookmarks taken from it. -/
structure Use where
  reader : Reader
  marks : List Bookmark := []

/-- The move, after which the use goes on even if the reader has failed. -/
def Move.apply (u : Use) : Move → Use
  | .call asked => { u with reader := Outcome.left asked.run u.reader }
  | .bookmark =>
    match Read.bookmark u.reader with
    | .ok mark r => ⟨r, mark :: u.marks⟩
    | .error _ r => { u with reader := r }
  | .returnTo index =>
    match u.marks[index]? with
    | some mark => { u with reader := Outcome.left (Read.returnTo mark) u.reader }
    | none => u

/-- The moves one after another. -/
def Use.play (u : Use) (moves : List Move) : Use :=
  moves.foldl Move.apply u

/-- The reader is sound, and would be at each of its bookmarks. -/
structure Use.Sound (bytes : ByteArray) (depth : Nat) (u : Use) : Prop where
  reader : u.reader.Sound
  data : u.reader.data = bytes
  around : u.reader.outerDepth = depth
  marks : ∀ mark ∈ u.marks, Reader.Sound { toBookmark := mark, data := bytes, outerDepth := depth }

/-- A reader over bytes at this depth, before its first byte. -/
def Use.over (bytes : ByteArray) (depth : Nat) : Use :=
  { reader := { data := bytes, outerDepth := depth } }

/-- The second reader is sound and stands behind the first, over the same bytes, no further than the
innermost container of the first goes. -/
structure Follows (r s : Reader) : Prop where
  sound : s.Sound
  data : s.data = r.data
  around : s.outerDepth = r.outerDepth
  forward : r.pos ≤ s.pos
  confined : s.pos ≤ r.limit

variable {r s : Reader} {bytes : ByteArray} {depth : Nat} {u : Use} {asked : Call} {v : Value}

theorem Within.follows (h : Within r s) : r.Follows s :=
  ⟨h.sound, h.data, h.around, h.forward, h.pos_le⟩

/-- A call that leaves no container. -/
theorem Call.stays (asked : Call) (other : asked ≠ .endDocument ∧ asked ≠ .endArray) :
    Read.Stays asked.run := by
  cases asked with
  | position | isDone => exact .bind (.of_moves .get) fun _ => .pure _
  | currentKind | currentName => exact .bind (.of_moves (.peek _)) fun _ => .pure _
  | readType => exact .bind Read.stays_readType fun _ => .pure _
  | startDocument | startArray => exact .bind (Read.stays_startContainer _) fun _ => .pure _
  | endDocument => exact absurd rfl other.1
  | endArray => exact absurd rfl other.2
  | ofKind kind => exact .bind (Read.stays_ofKind kind) fun _ => .pure _
  | value => exact .bind Read.stays_value fun _ => .pure _
  | skipValue => exact .bind Read.stays_skipValue fun _ => .pure _
  | findElement name => exact .bind (Read.stays_findElement name) fun _ => .pure _

/-- A call that may leave a container. -/
theorem Sound.leave (h : r.Sound) {container : Container} {finish : Read Unit}
    (leaves : Read.Leaves container finish) (answer : Answer) :
    r.Follows (Outcome.left (finish >>= fun _ => pure answer) r) := by
  rcases leaves r with ⟨phase, hf⟩ | ⟨fault, hf⟩
  · rw [left_bind_of_ok hf]
    exact ⟨h.left phase, rfl, rfl, Nat.le_refl _, h.inside⟩
  · rw [left_bind_of_error hf]
    exact (Within.refl h).follows

/-- One call, however it ends. -/
theorem Sound.call (h : r.Sound) (asked : Call) : r.Follows (Outcome.left asked.run r) := by
  by_cases leaving : asked ≠ .endDocument ∧ asked ≠ .endArray
  · exact (asked.stays leaving r h).follows
  · cases asked with
    | endDocument => exact h.leave Read.leaves_endDocument .done
    | endArray => exact h.leave Read.leaves_endArray .done
    | _ => exact absurd ⟨nofun, nofun⟩ leaving

/-- A value that is given out is derived from bytes of the innermost container. -/
theorem Sound.answer (h : r.Sound) (run : asked.run r = .ok (.value v) s) :
    ∃ bs, Derives r.depth bs v ∧ r.Ahead bs ∧ s.pos = r.pos + bs.length := by
  have given {p : Read Value} (takes : Read.Takes p)
      (run : (p >>= fun v => pure (Answer.value v)) r = .ok (.value v) s) :
      ∃ bs, Derives r.depth bs v ∧ r.Ahead bs ∧ s.pos = r.pos + bs.length := by
    obtain ⟨w, m, read, last⟩ := bind_eq_ok_iff.mp run
    obtain ⟨same, rfl⟩ := pure_eq_ok_iff.mp last
    cases same
    exact takes r m v h read
  cases asked with
  | ofKind kind => exact given (Read.takes_ofKind kind) run
  | value => exact given Read.takes_value run
  | _ =>
    -- the other calls answer something else
    obtain ⟨_, _, _, last⟩ := bind_eq_ok_iff.mp run
    cases (pure_eq_ok_iff.mp last).1

theorem Use.Sound.apply (h : u.Sound bytes depth) (move : Move) : (move.apply u).Sound bytes depth := by
  cases move with
  | call asked =>
    have step := h.reader.call asked
    exact ⟨step.sound, step.data.trans h.data, step.around.trans h.around, h.marks⟩
  | bookmark =>
    have here : Reader.Sound { toBookmark := u.reader.toBookmark, data := bytes, outerDepth := depth } := by
      rw [← h.data, ← h.around]
      exact h.reader
    exact ⟨h.reader, h.data, h.around, List.forall_mem_cons.mpr ⟨here, h.marks⟩⟩
  | returnTo index =>
    cases chosen : u.marks[index]? with
    | none => simpa only [Move.apply, chosen] using h
    | some mark =>
      have there := h.marks mark (List.mem_of_getElem? chosen)
      rw [← h.data, ← h.around] at there
      simp only [Move.apply, chosen]
      exact ⟨there, h.data, h.around, h.marks⟩

/-- Any number of moves. -/
theorem Use.Sound.play (h : u.Sound bytes depth) (moves : List Move) :
    (u.play moves).Sound bytes depth := by
  induction moves generalizing u with
  | nil => exact h
  | cons move rest ih => exact ih (h.apply move)

theorem Use.sound_over (bytes : ByteArray) (level : depth ≤ maxNesting) :
    (Use.over bytes depth).Sound bytes depth :=
  ⟨.front bytes level, rfl, rfl, List.forall_mem_nil _⟩

/-- Whatever a reader has been asked, it is sound, one more call takes it no further than its innermost
container goes, and a value that it gives out is derived from bytes of that container. No step of a reader
looks beyond the bytes. A reader in the scope of code starts at the depth of the code, others at zero. -/
theorem confined_of_play (bytes : ByteArray) (level : depth ≤ maxNesting) (moves : List Move) :
    let r := ((Use.over bytes depth).play moves).reader
    (r.Sound ∧ r.data = bytes ∧ r.outerDepth = depth) ∧
      (∀ asked : Call, r.Follows (Outcome.left asked.run r)) ∧
      (∀ (asked : Call) (v : Value) (s : Reader), asked.run r = .ok (.value v) s →
        ∃ bs, Derives r.depth bs v ∧ r.Ahead bs ∧ s.pos = r.pos + bs.length) ∧
      ∀ beyond : Beyond, beyond.IsUnseen := by
  intro r
  have played := (Use.sound_over bytes level).play moves
  exact ⟨⟨played.reader, played.data, played.around⟩, played.reader.call,
    fun asked v s run => played.reader.answer run, Beyond.isUnseen⟩

/-- A document with one field. -/
def oneField : ByteArray :=
  ⟨#[12, 0, 0, 0, 16, 97, 0, 1, 0, 0, 0, 0]⟩

/-- Calls out of place, a value of the wrong kind and a return. -/
def astray : List Move :=
  [.call .endArray, .call .startDocument, .call .readType, .bookmark, .call (.ofKind .string), .call .value,
    .call .value, .call .readType, .call .endArray, .call .endDocument, .returnTo 0, .returnTo 3]

theorem confined_of_play_astray :
    1 ≤ maxNesting ∧
      let r := ((Use.over oneField 1).play astray).reader
      (r.pos = 7 ∧ r.frames = [⟨.document, 12⟩] ∧ r.phase = .value) ∧ r.Sound ∧
        (∀ asked : Call, r.Follows (Outcome.left asked.run r)) ∧
        ∃ s bs, Call.value.run r = .ok (.value (.int32 1)) s ∧ Derives 2 bs (.int32 1) ∧ r.Ahead bs ∧
          s.pos = 7 + bs.length := by
  have level : 1 ≤ maxNesting := by
    decide
  obtain ⟨⟨sound, -, -⟩, calls, values, -⟩ := confined_of_play oneField level astray
  have read : ∃ s, Call.value.run ((Use.over oneField 1).play astray).reader =
      .ok (.value (.int32 1)) s := by
    refine ⟨Outcome.left Call.value.run ((Use.over oneField 1).play astray).reader, ?_⟩
    cbv
  obtain ⟨s, read⟩ := read
  obtain ⟨bs, derives, ahead, behind⟩ := values .value _ s read
  refine ⟨level, ⟨?_, ?_, ?_⟩, sound, calls, s, bs, read, ?_, ahead, ?_⟩
  · cbv
  · cbv
  · cbv
  · exact derives
  · exact behind

end Reader

end DocumentClient
