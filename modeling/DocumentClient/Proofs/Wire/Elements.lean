import DocumentClient.Proofs.Wire.Lookup

/-!
# Reading a document as its decoded form says

A document may be read by hand: entered, gone through element by element with a step that reads or passes over
each value, and left. If its bytes are a document, each value in it is known, and so is how each step ends:
with a result, or with a failure. The whole then ends as a fold over the decoded fields does that has no
reader at all.

Decoding keeps the first value of each name only, whereas a reader meets them all. The two agree if the step
passes over a value whose name has been met before.

* `Read.Ends (p r) s result`: from one reader the step comes to the other with the result, or fails if there is
  none.
* `Read.Settles p v result`: so it does wherever an element with the value comes next.
* `Read.Mirrors step act`: the step through the elements settles as the act on the fields says.
* `Document.FirstCounts act known`: the act does nothing for a name that it knows.

Results:
1. `Ends.bind`, `Settles.bind`: how a sequence ends.
2. `settles_skipValue`, `settles_string`: a value is passed over, a text is read if the value is one.
3. `Document.FirstCounts.foldlM_firstOfEach`: an act to which the first value counts does not see the others.
4. `foldWithin_of_holds`: going through the elements is folding over the fields; induction on the elements.
5. `ends_folded`, `settles_folded`: so is reading a document, which fails before any other value.
-/

namespace DocumentClient

open Outcome Grammar

/-! ## The first value of each name -/

namespace Document

variable {σ : Type} {act : σ → String × Value → Option σ} {known : σ → String → Prop} {s t : σ}

/-- The act takes each name in once: a name that it has taken in stays known, and for one that it knows it
does nothing. -/
structure FirstCounts (act : σ → String × Value → Option σ) (known : σ → String → Prop) : Prop where
  told : ∀ {s t : σ} {field : String × Value}, act s field = some t → known t field.1
  kept : ∀ {s t : σ} {field : String × Value} {name : String},
    act s field = some t → known s name → known t name
  passed : ∀ {s : σ} {field : String × Value}, known s field.1 → act s field = some s

/-- A known name may be left out. -/
theorem FirstCounts.foldlM_filter (first : FirstCounts act known) {name : String} (knows : known s name)
    (fields : List (String × Value)) :
    (fields.filter fun field => field.1 ≠ name).foldlM act s = fields.foldlM act s := by
  induction fields generalizing s with
  | nil => rfl
  | cons field rest ih =>
    by_cases same : field.1 = name
    · rw [List.filter_cons_of_neg (by simpa using same), List.foldlM_cons, first.passed (same ▸ knows),
        ih knows]
      rfl
    · rw [List.filter_cons_of_pos (by simpa using same), List.foldlM_cons, List.foldlM_cons]
      cases taken : act s field with
      | none => rfl
      | some t => exact ih (first.kept taken knows)

/-- Only the first value of each name is seen. -/
theorem FirstCounts.foldlM_firstOfEach (first : FirstCounts act known) (fields : List (String × Value)) :
    (firstOfEach fields).foldlM act s = fields.foldlM act s := by
  induction fields generalizing s with
  | nil => rfl
  | cons field rest ih =>
    rw [firstOfEach, List.foldlM_cons, List.foldlM_cons]
    cases taken : act s field with
    | none => rfl
    | some t => exact (first.foldlM_filter (first.told taken) _).trans ih

end Document

namespace Read

variable {α β σ : Type} {p : Read α} {f : α → Read β} {x : Option α} {g : α → Option β} {r s t : Reader}
  {v : Value} {bs : List UInt8}

/-! ## How a step ends -/

/-- A step that ended so has come to the reader, up to the name in store, with the result; it has failed if
there is none. -/
def Ends (ended : EStateM.Result Fault Reader α) (s : Reader) : Option α → Prop
  | some a => ∃ label, ended = .ok a (s.named label)
  | none => ∀ a t, ended ≠ .ok a t

/-- The name in store does not matter. -/
theorem ends_named_iff {ended : EStateM.Result Fault Reader α} (label : String) :
    Ends ended (s.named label) x ↔ Ends ended s x := by
  cases x <;> rfl

theorem ends_pure (a : α) (r : Reader) : Ends ((pure a : Read α) r) r (some a) :=
  ⟨r.name, rfl⟩

theorem ends_throw (fault : Fault) (r s : Reader) : Ends ((throw fault : Read α) r) s none :=
  nofun

/-- A sequence that fails at once. -/
theorem Ends.bind_none (first : Ends (p r) s none) : Ends ((p >>= f) r) t none := by
  intro b u whole
  obtain ⟨a, m, read, -⟩ := bind_eq_ok_iff.mp whole
  exact first a m read

/-- A sequence ends as its parts do, one after the other. -/
theorem Ends.bind (first : Ends (p r) s x) (next : ∀ a label, Ends (f a (s.named label)) t (g a)) :
    Ends ((p >>= f) r) t (x.bind g) := by
  cases x with
  | some a =>
    obtain ⟨label, read⟩ := first
    rw [bind_of_ok read, Option.bind_some]
    exact next a label
  | none => exact first.bind_none

/-- A check in front of a step. -/
theorem Ends.guard {c : Prop} [Decidable c] {fault : Fault} {other : PUnit → Read α}
    (pass : ¬ c → Ends (p r) s x) :
    Ends ((if c then throw fault >>= other else p) r) s (if c then none else x) := by
  by_cases h : c
  · rw [if_pos h, if_pos h]
    exact (ends_throw fault r r).bind_none
  · rw [if_neg h, if_neg h]
    exact pass h

/-! ## Steps over one value -/

/-- Wherever an element with the value comes next, the step comes behind it with the result, or fails. -/
def Settles (p : Read α) (v : Value) (result : Option α) : Prop :=
  ∀ ⦃r : Reader⦄ ⦃e : Element⦄, Before r e → e.value = v → Ends (p r) (r.passed e.payload.length) result

/-- Whatever does not move the reader may follow. -/
theorem Settles.bind (first : Settles p v x) (next : ∀ a r, Ends (f a r) r (g a)) :
    Settles (p >>= f) v (x.bind g) := by
  intro r e before same
  exact (first before same).bind fun a label => (ends_named_iff label).mp (next a _)

theorem Settles.map {f : α → β} (first : Settles p v x) :
    Settles (p >>= fun a => pure (f a)) v (x.map f) := by
  rw [Option.map_eq_bind]
  exact first.bind fun a r => ends_pure (f a) r

theorem settles_skipValue (v : Value) : Settles skipValue v (some ()) := by
  rintro r e before -
  exact ⟨r.name, skipValue_of_derives before.phase before.kind before.ahead before.value⟩

/-- A text is read if the value is one. -/
theorem settles_string (v : Value) : Settles string v v.asString? := by
  rintro r ⟨name, payload, value⟩ ⟨phase, kind, inside, derives, ahead⟩ rfl
  dsimp only at kind derives ahead
  have accepts (text : String) (t : Reader) := acceptsValue_string r t text ahead.nil
  cases value with
  | string text =>
    cases derives with
    | scalar scalar => exact ⟨r.name, (accepts text _).mpr ⟨phase, kind, payload, scalar, ahead, rfl⟩⟩
  | _ =>
    -- a value of another kind
    intro text t read
    have here := ((accepts text t).mp read).2.1
    rw [kind] at here
    cases here

/-! ## Steps through all elements -/

variable {step : σ → String → Read σ} {act : σ → String × Value → Option σ} {known : σ → String → Prop}
  {m : Reader} {k : σ → Read α} {h : σ → Option α}

/-- The step with the name of an element settles as the act on its field says. -/
def Mirrors (step : σ → String → Read σ) (act : σ → String × Value → Option σ) : Prop :=
  ∀ s name v, Settles (step s name) v (act s (name, v))

/-- Going through the elements of a container is folding over what they say. -/
theorem foldWithin_of_holds (mirrors : Mirrors step act) {f : Frame} {outer : List Frame}
    {elements : List Element} {fuel : Nat} {s : σ} (enough : elements.length < fuel)
    (phase : m.phase = .type) (frames : m.frames = f :: outer) (holds : m.Holds elements) :
    Ends (foldWithin step fuel s m) (m.closed f.container (content elements).length)
      ((elements.map Element.field).foldlM act s) := by
  induction elements generalizing m fuel s with
  | nil =>
    obtain ⟨fuel, rfl⟩ := Nat.exists_eq_add_of_lt enough
    obtain ⟨ahead, ends⟩ := Reader.holds_nil_iff.mp holds
    have stops := ends.trans (Reader.limit_of_cons frames)
    have last := (readType_eq_ok_iff phase frames).mpr (.inl ⟨rfl, ahead, stops, rfl⟩)
    refine ⟨m.name, ?_⟩
    rw [foldWithin, bind_of_ok last]
    rfl
  | cons e elements ih =>
    obtain ⟨fuel, rfl⟩ : ∃ k, fuel = k + 1 := ⟨fuel - 1, by omega⟩
    obtain ⟨next, -⟩ := (Reader.holds_cons_iff "").mp holds
    obtain ⟨r, read, named, before, -, behind⟩ := readType_of_hasNext phase frames next
    rw [foldWithin, bind_of_ok read]
    dsimp only
    rw [get_bind, named, List.map_cons, List.foldlM_cons]
    refine (mirrors s e.name e.value before rfl).bind fun s label => ?_
    rw [behind]
    obtain ⟨-, rest⟩ := (Reader.holds_cons_iff label).mp holds
    have others := ih (m := (m.after e).named label) (s := s) (by simpa using enough) rfl frames rest
    rw [← ends_named_iff label, Reader.closed_after, ends_named_iff label] at others
    exact others

/-- Reading a document by hand is folding over the fields that decoding keeps, if only the first value of each
name counts. -/
theorem ends_folded (mirrors : Mirrors step act) (first : Document.FirstCounts act known)
    (next : ∀ s r, Ends (k s r) r (h s)) {start : σ} {fields : List (String × Value)}
    (expects : r.Expects .document) (ahead : r.Ahead bs) (derives : Derives r.depth bs (.document fields)) :
    Ends ((do
        startDocument
        let found ← foldElements step start
        endDocument
        k found) r) (r.behind bs.length) ((fields.foldlM act start).bind h) := by
  cases derives with
  | scalar h => cases h
  | @document _ _ elements shallow block names values =>
    obtain ⟨entered, holds⟩ := container_iff.mpr ⟨expects, shallow, bs, block, ahead, names, values, rfl⟩
    have few := length_lt_length_content elements
    have total := length_block block
    have present := ahead.present
    have folded := foldWithin_of_holds (s := start) mirrors (show _ < r.data.size + 1 by omega) rfl rfl holds
    rw [first.foldlM_firstOfEach, startDocument, bind_of_ok entered]
    refine Ends.bind (p := foldElements step start) folded fun found label => ?_
    have ended : endDocument
        (((r.entered .document bs.length).closed .document (content elements).length).named label) =
        .ok () ((r.behind bs.length).named label) :=
      endDocument_eq_ok_iff.mpr ⟨rfl, (left_closed block label).symm⟩
    rw [bind_of_ok ended]
    exact (ends_named_iff label).mp (next found _)

/-- A document inside a container is read by hand, and no other value is. -/
theorem settles_folded (mirrors : Mirrors step act) (first : Document.FirstCounts act known)
    (next : ∀ s r, Ends (k s r) r (h s)) (start : σ) (v : Value) :
    Settles (do
        startDocument
        let found ← foldElements step start
        endDocument
        k found) v (v.asDocument?.bind fun doc => (doc.fields.foldlM act start).bind h) := by
  rintro r ⟨name, payload, value⟩ ⟨phase, kind, inside, derives, ahead⟩ rfl
  dsimp only at kind derives ahead
  have behind : r.behind payload.length = r.passed payload.length := by
    unfold Reader.behind Reader.passed
    rw [if_neg (by simpa using inside)]
  cases value with
  | document fields => exact behind ▸ ends_folded mirrors first next (.inr ⟨phase, kind⟩) ahead derives
  | _ =>
    -- nothing is entered before a value of another kind
    have shut (m : Reader) : startDocument r ≠ .ok () m := by
      intro entered
      rcases (startContainer_eq_ok_iff.mp entered).1 with ⟨front, -⟩ | ⟨-, here⟩
      · rw [phase] at front
        cases front
      · rw [kind] at here
        cases here
    exact Ends.bind_none (s := r) fun _ m => shut m

end Read

end DocumentClient
