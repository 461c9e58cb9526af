import DocumentClient.Proofs.Message.Replies
import DocumentClient.Proofs.Session.Lifecycle

/-!
# Where results come from

A channel may deliver any bytes. What a cursor hands out nevertheless comes from replies alone that answer
the request sent directly before, report success and are as long and as full as they say; whatever else is
delivered is a failure, which leaves the cursor with what it had.

Results:
1. `Reply.accepted_iff`: which bytes are accepted as the reply to a request.
2. `Codec.readsAll_iff`: the documents of a reply are read one after another, each as a whole.
3. `Talk.exchange_of_ask`: a request that is answered is an exchange over the channel.
4. `Session.Run.arrived_of_output`, `Session.Run.output_of_failed`: what a run hands out, and what becomes of a
   fetch that fails.
5. `Query.execute_sourced`: from the query to any result of any run of its cursor.
-/

namespace DocumentClient

open Outcome

variable {shape : Shape}

/-! ## Replies that are accepted -/

/-- The bytes are a reply to the request with a number: it reports success, it is as long as it says, and
as many slices as it says tile what follows its fixed part. -/
structure Reply.Acceptable (bytes : ByteArray) (id : Int32) (slices : List ByteArray) : Prop where
  length : (wordAt bytes 0).toInt = bytes.size
  opcode : wordAt bytes 12 = Opcode.reply.number
  answers : wordAt bytes 8 = id
  found : Flags.contains ⟨wordAt bytes 16⟩ .cursorNotFound = false
  succeeded : Flags.contains ⟨wordAt bytes 16⟩ .queryFailure = false
  tiles : Tiles bytes (headerSize + fixedSize) slices
  counted : (wordAt bytes 32).toInt = slices.length

namespace Reply

theorem check_eq_ok_iff {reply : Reply} {id : Int32} :
    reply.check id = .ok () ↔ reply.header.responseTo = id ∧
      reply.flags.contains .cursorNotFound = false ∧ reply.flags.contains .queryFailure = false := by
  unfold check
  rw [exceptGuard_eq_ok_iff, exceptGuard_eq_ok_iff, Decidable.not_not, Bool.not_eq_true]
  refine and_congr_right fun _ => and_congr_right fun _ => ?_
  cases reply.flags.contains .queryFailure with
  | false => exact iff_of_true rfl rfl
  | true =>
    -- whether the reason can be read or not, the reply is refused
    refine iff_of_false (fun h => ?_) Bool.noConfusion
    obtain ⟨reason, -, h⟩ := exceptBind_eq_ok_iff.mp h
    cases h

/-- Which bytes are accepted as the reply to a request. -/
theorem accepted_iff {bytes : ByteArray} {id : Int32} {reply : Reply} :
    decode bytes = .ok reply ∧ reply.check id = .ok () ↔ ∃ header slices,
      Header.ofBytes bytes = .ok header ∧ Acceptable bytes id slices ∧
        reply = assembled header bytes slices := by
  rw [decode_eq_ok_iff, check_eq_ok_iff]
  constructor
  · rintro ⟨⟨-, header, slices, read, kind, tiles, counted, rfl⟩, answers, found, succeeded⟩
    obtain ⟨-, sized, -, -, responseTo, opcode⟩ := Header.ofBytes_eq_ok_iff.mp read
    refine ⟨header, slices, read, ⟨sized, ?_, ?_, found, succeeded, tiles, counted⟩, rfl⟩
    · rw [← opcode, kind]
    · rw [← responseTo, ← answers]
      rfl
  · rintro ⟨header, slices, read, acceptable, rfl⟩
    obtain ⟨-, -, -, -, responseTo, opcode⟩ := Header.ofBytes_eq_ok_iff.mp read
    have kind : header.opcode = .reply :=
      Opcode.number_injective (opcode.trans acceptable.opcode)
    have whole := acceptable.tiles.length_le
    refine ⟨⟨by omega, header, slices, read, kind, acceptable.tiles, acceptable.counted, rfl⟩, ?_⟩
    exact ⟨responseTo.trans acceptable.answers, acceptable.found, acceptable.succeeded⟩

end Reply

/-! ## Documents that are read -/

/-- The values are read from the slices one after another, each from the whole of its slice. -/
inductive Codec.ReadsAll (codec : Codec shape) :
    Registry → List ByteArray → List shape.Carrier → Prop where
  | nil {registry : Registry} : ReadsAll codec registry [] []
  | cons {registry registry' : Registry} {raw : ByteArray} {r : Reader} {a : shape.Carrier}
      {slices : List ByteArray} {values : List shape.Carrier} :
      codec.decode ⟨.ofBytes raw, registry⟩ = .ok a ⟨r, registry'⟩ → r.isDone = true →
      r.pos = raw.size → ReadsAll codec registry' slices values →
      ReadsAll codec registry (raw :: slices) (a :: values)

theorem Codec.decodeDocument_eq_ok_iff {codec : Codec shape} {raw : ByteArray} {a : shape.Carrier}
    {registry registry' : Registry} :
    codec.decodeDocument raw registry = .ok a registry' ↔ ∃ r,
      codec.decode ⟨.ofBytes raw, registry⟩ = .ok a ⟨r, registry'⟩ ∧ r.isDone = true ∧
        r.pos = raw.size := by
  unfold decodeDocument
  constructor
  · intro h
    split at h
    · cases h
    · next found r left read =>
      split at h
      · next done =>
        cases h
        exact ⟨r, read, done⟩
      · cases h
  · rintro ⟨r, read, done⟩
    rw [read]
    exact if_pos done

theorem Codec.readsAll_iff {codec : Codec shape} {registry : Registry} {slices : List ByteArray}
    {values : List shape.Carrier} :
    (∃ registry', slices.mapM codec.decodeDocument registry = .ok values registry') ↔
      codec.ReadsAll registry slices values := by
  constructor
  · rintro ⟨registry', h⟩
    induction slices generalizing registry values with
    | nil =>
      rw [List.mapM_nil] at h
      obtain ⟨rfl, -⟩ := pure_eq_ok_iff.mp h
      exact .nil
    | cons raw slices ih =>
      rw [List.mapM_cons] at h
      obtain ⟨a, between, first, h⟩ := bind_eq_ok_iff.mp h
      obtain ⟨rest, last, behind, h⟩ := bind_eq_ok_iff.mp h
      obtain ⟨rfl, rfl⟩ := pure_eq_ok_iff.mp h
      obtain ⟨r, read, done, whole⟩ := decodeDocument_eq_ok_iff.mp first
      exact .cons read done whole (ih behind)
  · intro h
    induction h with
    | nil => exact ⟨_, rfl⟩
    | cons read done whole _ ih =>
      obtain ⟨last, behind⟩ := ih
      refine ⟨last, ?_⟩
      rw [List.mapM_cons, bind_of_ok (decodeDocument_eq_ok_iff.mpr ⟨_, read, done, whole⟩),
        bind_of_ok behind]
      rfl

/-! ## Requests that are answered -/

/-- The next delivery answers a request with the next number by these bytes. -/
def Conversation.Delivers (c : Conversation) (bytes : ByteArray) : Prop :=
  ∃ channel delivery rest, c.channel = some channel ∧ channel.deliveries = delivery :: rest ∧
    delivery.answer c.nextId = .ok bytes

theorem Conversation.Delivers.unique {c : Conversation} {bytes bytes' : ByteArray} (h : c.Delivers bytes)
    (h' : c.Delivers bytes') : bytes = bytes' := by
  obtain ⟨channel, delivery, rest, held, split, answer⟩ := h
  obtain ⟨channel', delivery', rest', held', split', answer'⟩ := h'
  cases held.symm.trans held'
  cases split.symm.trans split'
  cases answer.symm.trans answer'
  rfl

/-- The values that a conversation gets between two moments: a request is sent, directly afterwards bytes
are delivered for its number, they are accepted as the reply to it, and its slices are read. -/
structure Exchange (request : Int32 → Request) (timeout : Option UInt64) (codec : Codec shape)
    (registry : Registry) (c c' : Conversation) (bytes : ByteArray) (values : List shape.Carrier) :
    Prop where
  sent : ∃ message, (request c.nextId).encode = .ok message ∧
    c'.events = .receive c.nextId timeout :: @Event.send .caller message timeout :: c.events
  delivered : c.Delivers bytes
  accepted : ∃ slices, Reply.Acceptable bytes c.nextId slices ∧ codec.ReadsAll registry slices values

namespace Talk

variable {timeout : Option UInt64} {c c' : Conversation}

theorem values_eq_ok_iff {reply : Reply} {codec : Codec shape} {registry : Registry}
    {values : List shape.Carrier} : Talk.values reply codec registry c = .ok values c' ↔
      codec.ReadsAll registry reply.documents values ∧ c = c' := by
  rw [← Codec.readsAll_iff]
  unfold Talk.values Reply.values
  cases reply.documents.mapM codec.decodeDocument registry with
  | ok found registry' =>
    rw [pure_eq_ok_iff]
    simp
  | error fault registry' =>
    rw [throw_eq_ok_iff]
    simp

/-- Asking with the next number and reading the reply is an exchange. -/
theorem exchange_of_ask (c : Conversation) (request : Int32 → Request) {codec : Codec shape}
    {registry : Registry} {m m' : Conversation} {reply : Reply} {values : List shape.Carrier}
    (channel : m.channel = c.channel) (events : m.events = c.events)
    (asked : ask (request c.nextId) c.nextId timeout m = .ok reply m')
    (read : Talk.values reply codec registry m' = .ok values c') :
    ∃ bytes, Exchange request timeout codec registry c c' bytes values := by
  obtain ⟨message, channel', delivery, rest, bytes, encoded, held, split, answer, decoded, checked,
    rfl⟩ := of_ask_eq_ok asked
  obtain ⟨header, slices, -, acceptable, rfl⟩ := Reply.accepted_iff.mp ⟨decoded, checked⟩
  obtain ⟨reads, rfl⟩ := values_eq_ok_iff.mp read
  rw [channel] at held
  refine ⟨bytes, ⟨message, encoded, ?_⟩, ⟨channel', delivery, rest, held, split, answer⟩, slices,
    acceptable, reads⟩
  rw [← events]
  rfl

end Talk

/-- A first request that is answered is an exchange. -/
theorem Plan.exchange_of_firstAnswer {plan : Plan shape} {server : Server} {c c' : Conversation}
    {reply : Reply} {values : List shape.Carrier}
    (h : plan.firstAnswer server c = .ok (reply, values) c') :
    ∃ bytes, Exchange (fun id => .query (plan.request server id)) plan.timeout plan.codec plan.registry
      c c' bytes values := by
  obtain ⟨⟨⟩, m, proceeds, h⟩ := bind_eq_ok_iff.mp h
  obtain ⟨-, rfl⟩ := Talk.proceed_eq_ok_iff.mp proceeds
  obtain ⟨id, m₁, numbers, h⟩ := bind_eq_ok_iff.mp h
  cases numbers
  obtain ⟨⟨⟩, m₂, notes, h⟩ := bind_eq_ok_iff.mp h
  cases notes
  obtain ⟨reply', m₃, asked, h⟩ := bind_eq_ok_iff.mp h
  obtain ⟨values', m₄, read, h⟩ := bind_eq_ok_iff.mp h
  obtain ⟨same, rfl⟩ := pure_eq_ok_iff.mp h
  cases same
  refine Talk.exchange_of_ask c (fun id => .query (plan.request server id)) ?_ ?_ asked read
  all_goals rfl

/-- So is a request for more. -/
theorem Cursor.exchange_of_answer {cursor : Cursor shape} {c c' : Conversation} {reply : Reply}
    {values : List shape.Carrier} (h : cursor.answer c = .ok (reply, values) c') :
    ∃ bytes, Exchange (fun id => .more (cursor.moreRequest id)) cursor.timeout cursor.codec
      cursor.registry c c' bytes values := by
  obtain ⟨⟨⟩, m, proceeds, h⟩ := bind_eq_ok_iff.mp h
  obtain ⟨-, rfl⟩ := Talk.proceed_eq_ok_iff.mp proceeds
  obtain ⟨⟨⟩, m₁, holds, h⟩ := bind_eq_ok_iff.mp h
  obtain ⟨id, m₂, numbers, h⟩ := bind_eq_ok_iff.mp h
  cases numbers
  obtain ⟨reply', m₃, asked, h⟩ := bind_eq_ok_iff.mp h
  obtain ⟨values', m₄, read, h⟩ := bind_eq_ok_iff.mp h
  obtain ⟨same, rfl⟩ := pure_eq_ok_iff.mp h
  cases same
  obtain ⟨channel, m₅, holding, h⟩ := bind_eq_ok_iff.mp holds
  obtain ⟨-, rfl⟩ := Talk.held_eq_ok_iff.mp holding
  obtain ⟨-, rfl⟩ := pure_eq_ok_iff.mp h
  refine Talk.exchange_of_ask c (fun id => .more (cursor.moreRequest id)) ?_ ?_ asked read
  all_goals rfl

/-! ## Runs -/

/-- The cursor reads results with this codec and this registry. -/
structure Cursor.Reads (codec : Codec shape) (registry : Registry) (cursor : Cursor shape) : Prop where
  codec_eq : cursor.codec = codec
  registry_eq : cursor.registry = registry

namespace Session

theorem forall_fetch_append {P : Session shape → Prop} {acts : List (Act shape)} {s : Session shape}
    (h : ∀ t, .fetch t ∈ acts → P t) (here : P s) : ∀ t, .fetch t ∈ acts ++ [.fetch s] → P t := by
  intro t mem
  rcases List.mem_append.mp mem with mem | mem
  · exact h t mem
  · cases List.mem_singleton.mp mem
    exact here

/-- How results are read never changes. -/
theorem invariant_reads (codec : Codec shape) (registry : Registry) :
    Invariant fun acts (s : Session shape) =>
      (∀ t, .fetch t ∈ acts → t.cursor.Reads codec registry) ∧ s.cursor.Reads codec registry where
  close h := ⟨fun t mem => h.1 t (by simpa using mem), h.2.codec_eq, h.2.registry_eq⟩
  cancel h := h
  taken h _ _ := ⟨h.1, h.2.codec_eq, h.2.registry_eq⟩
  failed h _ _ _ _ := ⟨forall_fetch_append h.1 h.2, h.2.codec_eq, h.2.registry_eq⟩
  fetched h _ _ _ fetched := by
    refine ⟨forall_fetch_append h.1 h.2, ?_⟩
    obtain ⟨reply, values, m, -, rfl, -⟩ := Cursor.fetch_eq_ok_iff.mp fetched
    exact ⟨h.2.codec_eq, h.2.registry_eq⟩

/-- What a round hands out or leaves was there before or has arrived in a reply that was accepted. -/
theorem Round.arrived {s s' : Session shape} {acts : List (Act shape)} {o : Output shape}
    (round : Round s acts o s') :
    (∀ a, o = some (.ok a) → a ∈ s.cursor.batch ++ Act.arrived acts) ∧
      ∀ a ∈ s'.cursor.batch, a ∈ s.cursor.batch ++ Act.arrived acts := by
  induction round with
  | limit reached => exact ⟨nofun, nofun⟩
  | last short here reached =>
    refine ⟨fun b same => ?_, nofun⟩
    cases same
    rw [here]
    exact List.mem_append_left _ List.mem_cons_self
  | item short here more =>
    refine ⟨fun b same => ?_, fun b mem => ?_⟩
    · cases same
      rw [here]
      exact List.mem_append_left _ List.mem_cons_self
    · rw [here]
      exact List.mem_append_left _ (List.mem_cons_of_mem _ mem)
  | ended short empty closed => exact ⟨nofun, fun b mem => List.mem_append_left _ mem⟩
  | failed short empty live h => exact ⟨nofun, fun b mem => List.mem_append_left _ mem⟩
  | @fetched s cursor c acts o s' short empty live h rest ih =>
    obtain ⟨reply, values, m, answered, rfl, -⟩ := Cursor.fetch_eq_ok_iff.mp h
    have all : (s.cursor.extended reply values).batch ++ Act.arrived acts =
        s.cursor.batch ++ Act.arrived (.fetch s :: acts) := by
      show s.cursor.batch ++ values ++ Act.arrived acts = _
      unfold Act.arrived
      rw [List.filterMap_cons_some (Act.answered_fetch answered), List.flatMap_cons, List.append_assoc]
    rw [← all]
    exact ih

/-- Whatever a run hands out was there before or has arrived in a reply that was accepted. -/
theorem Run.arrived_of_output {s s' : Session shape} {calls : List Call} {acts : List (Act shape)}
    {outputs : List (Output shape)} (run : Run s calls acts outputs s') {a : shape.Carrier}
    (mem : some (.ok a) ∈ outputs) : a ∈ s.cursor.batch ++ Act.arrived acts := by
  have split (acts more : List (Act shape)) :
      Act.arrived (acts ++ more) = Act.arrived acts ++ Act.arrived more := by
    simp [Act.arrived]
  induction run with
  | done => cases mem
  | next round rest ih =>
    obtain ⟨handed, left⟩ := round.arrived
    rw [split, ← List.append_assoc]
    rcases List.mem_cons.mp mem with here | later
    · exact List.mem_append_left _ (handed a here.symm)
    · rcases List.mem_append.mp (ih later) with mem | mem
      · exact List.mem_append_left _ (left a mem)
      · exact List.mem_append_right _ mem
  | @close s s' calls acts outputs rest ih =>
    -- closing drops what is there
    have dropped : s.close.cursor.batch = [] := rfl
    have arrived := ih mem
    rw [dropped, List.nil_append] at arrived
    exact List.mem_append_right _ arrived
  | cancel rest ih => exact ih mem

/-- A fetch that fails ends its round, which gives the failure. -/
theorem Round.of_failed {s s' t : Session shape} {acts : List (Act shape)} {o : Output shape}
    {failure : Failure} {c : Conversation} (round : Round s acts o s') (mem : .fetch t ∈ acts)
    (failed : t.cursor.fetch t.talk = .error failure c) :
    o = some (.error failure) ∧ s' = t.fail failure c := by
  induction round with
  | limit reached => simp at mem
  | last short here reached => simp at mem
  | item short here more => cases mem
  | ended short empty closed => cases mem
  | failed short empty live h =>
    cases List.mem_singleton.mp mem
    rw [h] at failed
    cases failed
    exact ⟨rfl, rfl⟩
  | fetched short empty live h rest ih =>
    rcases List.mem_cons.mp mem with here | later
    · cases here
      rw [h] at failed
      cases failed
    · exact ih later

/-- A fetch that fails is the end of one use of `next`, which gives the failure. -/
theorem Run.output_of_failed {s s' t : Session shape} {calls : List Call} {acts : List (Act shape)}
    {outputs : List (Output shape)} {failure : Failure} {c : Conversation}
    (run : Run s calls acts outputs s') (mem : .fetch t ∈ acts)
    (failed : t.cursor.fetch t.talk = .error failure c) :
    ∃ before after given, calls = before ++ .next :: after ∧
      s.play (before ++ [.next]) = (given ++ [some (.error failure)], t.fail failure c) := by
  induction run with
  | done => cases mem
  | @next s m s' calls acts more o os round rest ih =>
    have used : s.next = (o, m) := exists_round_iff.mp ⟨_, round⟩
    rcases List.mem_append.mp mem with here | later
    · obtain ⟨rfl, rfl⟩ := round.of_failed here failed
      refine ⟨[], calls, [], rfl, ?_⟩
      simp [play, used]
    · obtain ⟨before, after, given, rfl, played⟩ := ih later
      refine ⟨.next :: before, after, o :: given, rfl, ?_⟩
      simp [play, used, played]
  | close rest ih =>
    obtain ⟨before, after, given, rfl, played⟩ := ih (by simpa using mem)
    exact ⟨.close :: before, after, given, rfl, played⟩
  | cancel rest ih =>
    obtain ⟨before, after, given, rfl, played⟩ := ih mem
    exact ⟨.cancel :: before, after, given, rfl, played⟩

end Session

/-- No slices of the bytes are a reply to the request with this number whose documents can be read. -/
def Reply.Unusable (codec : Codec shape) (registry : Registry) (id : Int32) (bytes : ByteArray) : Prop :=
  ∀ slices values, Acceptable bytes id slices → ¬ codec.ReadsAll registry slices values

theorem Exchange.not_unusable {request : Int32 → Request} {timeout : Option UInt64} {codec : Codec shape}
    {registry : Registry} {c c' : Conversation} {bytes bytes' : ByteArray} {values : List shape.Carrier}
    (h : Exchange request timeout codec registry c c' bytes values) (delivers : c.Delivers bytes') :
    ¬ Reply.Unusable codec registry c.nextId bytes' := by
  intro unusable
  obtain ⟨slices, acceptable, reads⟩ := h.accepted
  rw [h.delivered.unique delivers] at acceptable
  exact unusable slices values acceptable reads

namespace Query

variable {q : Query shape} {selection : Selection} {start : Conversation}

/-- The query can be run, and this is the conversation once a server is found for it. -/
def Starts (q : Query shape) (selection : Selection) (start : Conversation) (plan : Plan shape)
    (c : Conversation) : Prop :=
  q.validate = .ok plan ∧ q.resultCodec = .ok (plan.codec, plan.registry) ∧
    Talk.select selection plan.preference.mode plan.timeout start = .ok () c

/-- What is handed out in a run of a cursor came in the first reply or in one to a request for more, and
a request for more whose reply cannot be used gives a failure and leaves the cursor with what it had. -/
structure SourcedRun (plan : Plan shape) (first : List shape.Carrier) (s : Session shape)
    (calls : List Call) (acts : List (Act shape)) (outputs : List (Session.Output shape)) : Prop where
  sourced : ∀ a, some (.ok a) ∈ outputs → a ∈ first ∨ ∃ t c bytes values, .fetch t ∈ acts ∧
    Exchange (fun id => .more (t.cursor.moreRequest id)) t.cursor.timeout plan.codec plan.registry
      t.talk c bytes values ∧ a ∈ values
  refused : ∀ t bytes, .fetch t ∈ acts → t.talk.Delivers bytes →
    Reply.Unusable plan.codec plan.registry t.talk.nextId bytes →
      ∃ failure before after given s', calls = before ++ .next :: after ∧
        s.play (before ++ [.next]) = (given ++ [some (.error failure)], s') ∧
        s'.cursor = { t.cursor with closed := true }

theorem codec_of_validate {plan : Plan shape} (h : q.validate = .ok plan) :
    q.resultCodec = .ok (plan.codec, plan.registry) := by
  unfold validate at h
  dsimp only at h
  split at h
  · split at h
    · obtain ⟨collection, -, h⟩ := exceptBind_eq_ok_iff.mp h
      obtain ⟨filter, -, h⟩ := exceptBind_eq_ok_iff.mp h
      obtain ⟨found, codec, h⟩ := exceptBind_eq_ok_iff.mp h
      cases h
      exact codec
    · cases h
  · cases h

theorem sourcedRun_of_run {plan : Plan shape} {cursor : Cursor shape} {c : Conversation}
    {s : Session shape} {calls : List Call} {acts : List (Act shape)}
    {outputs : List (Session.Output shape)} (reads : cursor.Reads plan.codec plan.registry)
    (run : Session.Run ⟨cursor, c⟩ calls acts outputs s) :
    SourcedRun plan cursor.batch ⟨cursor, c⟩ calls acts outputs := by
  have unfetched (t : Session shape) (mem : .fetch t ∈ ([] : List (Act shape))) :
      t.cursor.Reads plan.codec plan.registry := absurd mem List.not_mem_nil
  obtain ⟨fetches, -⟩ := (Session.invariant_reads plan.codec plan.registry).run ⟨unfetched, reads⟩ run
  rw [List.nil_append] at fetches
  have exchanged {t : Session shape} {reply : Reply} {values : List shape.Carrier} {m : Conversation}
      (mem : .fetch t ∈ acts) (answered : t.cursor.answer t.talk = .ok (reply, values) m) :
      ∃ bytes, Exchange (fun id => .more (t.cursor.moreRequest id)) t.cursor.timeout plan.codec
        plan.registry t.talk m bytes values := by
    obtain ⟨codec, registry⟩ := fetches t mem
    rw [← codec, ← registry]
    exact Cursor.exchange_of_answer answered
  constructor
  · intro a mem
    rcases List.mem_append.mp (run.arrived_of_output mem) with first | later
    · exact .inl first
    · obtain ⟨⟨reply, values⟩, accepted, inside⟩ := List.mem_flatMap.mp later
      obtain ⟨act, done, brings⟩ := List.mem_filterMap.mp accepted
      cases act with
      | close t => cases brings
      | fetch t =>
        unfold Act.answered at brings
        dsimp only at brings
        split at brings
        · next p m answered =>
          cases brings
          obtain ⟨bytes, exchange⟩ := exchanged done answered
          exact .inr ⟨t, m, bytes, values, done, exchange, inside⟩
        · cases brings
  · intro t bytes mem delivers unusable
    cases fetched : t.cursor.fetch t.talk with
    | ok cursor' m =>
      obtain ⟨reply, values, m', answered, -, -⟩ := Cursor.fetch_eq_ok_iff.mp fetched
      obtain ⟨bytes', exchange⟩ := exchanged mem answered
      exact absurd unusable (exchange.not_unusable delivers)
    | error failure m =>
      obtain ⟨before, after, given, split, played⟩ := run.output_of_failed mem fetched
      exact ⟨failure, before, after, given, _, split, played, rfl⟩

/-- Every result of every run of the cursor of a query came in a reply that answers the request sent
directly before, reports success and is as long and as full as it says. Whatever else is delivered makes
the query or the call fail, and leaves the cursor with what it had. -/
theorem execute_sourced (q : Query shape) (selection : Selection) (start : Conversation) :
    (∀ plan m bytes, q.Starts selection start plan m → m.Delivers bytes →
      Reply.Unusable plan.codec plan.registry m.nextId bytes →
        ∃ failure c, q.execute selection start = .error failure c) ∧
    ∀ cursor c, q.execute selection start = .ok cursor c →
      ∃ plan m m' bytes values, q.Starts selection start plan m ∧
        Exchange (fun id => .query (plan.request selection.channel.server id)) plan.timeout plan.codec
          plan.registry m m' bytes values ∧
        cursor.batch = values ∧
        ∀ calls, ∃ acts outputs s, Session.play calls ⟨cursor, c⟩ = (outputs, s) ∧
          Session.Run ⟨cursor, c⟩ calls acts outputs s ∧
            SourcedRun plan values ⟨cursor, c⟩ calls acts outputs := by
  constructor
  · rintro plan m bytes ⟨valid, -, selected⟩ delivers unusable
    cases h : q.execute selection start with
    | error failure c => exact ⟨failure, c, rfl⟩
    | ok cursor c =>
      obtain ⟨plan', m', reply, values, m'', valid', selected', answered, -, -⟩ := execute_eq_ok_iff.mp h
      cases valid.symm.trans valid'
      cases selected.symm.trans selected'
      obtain ⟨bytes', exchange⟩ := Plan.exchange_of_firstAnswer answered
      exact absurd unusable (exchange.not_unusable delivers)
  · intro cursor c h
    obtain ⟨plan, m, reply, values, m', valid, selected, answered, rfl, rfl⟩ := execute_eq_ok_iff.mp h
    obtain ⟨bytes, exchange⟩ := Plan.exchange_of_firstAnswer answered
    refine ⟨plan, m, m', bytes, values, ⟨valid, codec_of_validate valid, selected⟩, exchange, rfl,
      fun calls => ?_⟩
    obtain ⟨acts, run⟩ := Session.exists_run_play calls ⟨plan.opened reply values, Plan.started reply m'⟩
    exact ⟨acts, _, _, rfl, run, sourcedRun_of_run ⟨rfl, rfl⟩ run⟩

/-- A query for documents. -/
def sourcedQuery : Query .document where
  collection := some ⟨"app", "orders", by cbv⟩
  filter := some .empty
  codec := some .document

/-- A reply to the request with the number 7: one document, which is empty. -/
def sourcedBytes : ByteArray :=
  ⟨#[41, 0, 0, 0, 3, 0, 0, 0, 7, 0, 0, 0, 1, 0, 0, 0,
    0, 0, 0, 0, 5, 0, 0, 0, 0, 0, 0, 0, 0, 0, 0, 0, 1, 0, 0, 0,
    5, 0, 0, 0, 0]⟩

/-- A channel that delivers this reply twice, whatever it is asked. -/
def sourcedSelection : Selection where
  channel :=
    { server := ⟨"localhost:27017", .standalone⟩
      deliveries := [{ answer := fun _ => .ok sourcedBytes }, { answer := fun _ => .ok sourcedBytes }]
      silence := .reported .connection "connection reset" }

theorem execute_sourced_sample :
    (∃ plan m, sourcedQuery.Starts sourcedSelection {} plan m ∧ m.Delivers sourcedBytes ∧
      Reply.Unusable plan.codec plan.registry m.nextId sourcedBytes ∧
      ∃ failure c, sourcedQuery.execute sourcedSelection {} = .error failure c) ∧
    ∃ cursor c, sourcedQuery.execute sourcedSelection { nextId := 7 } = .ok cursor c ∧
      ∃ plan m acts outputs s, sourcedQuery.Starts sourcedSelection { nextId := 7 } plan m ∧
        Session.play [.next, .next, .next] ⟨cursor, c⟩ = (outputs, s) ∧
        SourcedRun plan cursor.batch ⟨cursor, c⟩ [.next, .next, .next] acts outputs := by
  constructor
  · obtain ⟨plan, m, starts, number, delivers⟩ : ∃ plan m, sourcedQuery.Starts sourcedSelection {} plan m ∧
        m.nextId = 1 ∧ m.Delivers sourcedBytes :=
      ⟨_, _, ⟨rfl, rfl, rfl⟩, rfl, _, _, _, rfl, rfl, rfl⟩
    have unusable : Reply.Unusable plan.codec plan.registry m.nextId sourcedBytes := by
      intro slices values acceptable
      have answers := acceptable.answers
      rw [number] at answers
      exact absurd answers (by decide)
    exact ⟨plan, m, starts, delivers, unusable,
      (execute_sourced sourcedQuery sourcedSelection {}).1 plan m _ starts delivers unusable⟩
  · cases h : sourcedQuery.execute sourcedSelection { nextId := 7 } with
    | error failure c =>
      have opens : (sourcedQuery.execute sourcedSelection { nextId := 7 } matches .ok ..) = true := by cbv
      rw [h] at opens
      cases opens
    | ok cursor c =>
      obtain ⟨plan, m, m', bytes, values, starts, exchange, first, runs⟩ :=
        (execute_sourced sourcedQuery sourcedSelection { nextId := 7 }).2 cursor c h
      obtain ⟨acts, outputs, s, played, -, sourced⟩ := runs [.next, .next, .next]
      rw [← first] at sourced
      exact ⟨cursor, c, rfl, plan, m, acts, outputs, s, starts, played, sourced⟩

end Query

end DocumentClient
