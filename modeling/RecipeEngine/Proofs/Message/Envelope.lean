import RecipeEngine.Message.Envelope
import RecipeEngine.Proofs.Message.Encoding
import RecipeEngine.Proofs.Timestamp.Read
import RecipeEngine.Proofs.Worker.Input

/-!
# Output read back

The members of an envelope and those of its event share one object, in which each goes to where it
belongs (`Envelope.read_eq_ok_iff`).  What is written of envelopes, cut into lines, is one line for
each of them, and each line is read as the envelope that it was written for, apart from binary64
numbers that do not read back as themselves (`Envelope.readLine_written`).
-/

namespace RecipeEngine

open Decode Json Text

/-! ## Events -/

namespace Event

theorem untagged (e : Event) : ∀ m ∈ e.parts.2, m.1 ≠ Tagged.tagName := by
  cases e <;> simp [parts, Tagged.tagName]

/-- An event is decoded if its parts are what its members stand for. -/
theorem decode_of_fits (style : Tagged.TagStyle) {e : Event} {α : Type} (a : α) {tag name : String}
    {record : Record α} {make : α → Event}
    (named : tagged.named e.parts.1 = .ok (variant tag name record make).decode)
    (fits : record.Fits e.parts.2 a) (made : make a = e) :
    tagged.decode style e.toJson = .ok e := by
  refine Tagged.decode_taggedMembers style e.untagged named ?_
  simp only [variant, Record.ofContent, Record.ofMembers_eq_ok_iff.2 fits, map_ok, made]

theorem decodeItems_ofTexts (keys : List String) :
    decodeItems decodeText (.ofTexts keys) = .ok keys := by
  refine mapM_eq_ok_iff.2 ?_
  rw [List.forall₂_map_left_iff, List.forall₂_same]
  exact fun _ _ => rfl

theorem decodeOptional_ofTextOrNull (text : Option String) :
    decodeOptional decodeText (.ofTextOrNull text) = .ok text := by
  cases text <;> rfl

/-- An event is decoded from its own JSON value. -/
theorem decode_toJson (style : Tagged.TagStyle) {e : Event}
    (canonical : ∀ value, e = .finalResult value → value.Canonical) :
    Event.tagged.decode style e.toJson = .ok e := by
  cases e with
  | ready keys =>
    exact decode_of_fits style (keys, ()) rfl ⟨.once (decodeItems_ofTexts keys), trivial⟩ rfl
  | bringUpFailed reason => exact decode_of_fits style (reason, ()) rfl ⟨.once rfl, trivial⟩ rfl
  | notReady message => exact decode_of_fits style (message, ()) rfl ⟨.once rfl, trivial⟩ rfl
  | progress identifier current total =>
    exact decode_of_fits style (identifier, current, total, ()) rfl
      ⟨.once (decodeOptional_ofTextOrNull identifier), .once (decodeCount_ofCount current),
        .once (decodeCount_ofCount total), trivial⟩ rfl
  | finalResult value =>
    have same : decodeAny value = .ok value := by rw [decodeAny, canonical_eq (canonical _ rfl)]
    exact decode_of_fits style (value, ()) rfl ⟨.once same, trivial⟩ rfl
  | executionFailed message =>
    exact decode_of_fits style (message, ()) rfl ⟨.once rfl, trivial⟩ rfl
  | timing elapsed => exact decode_of_fits style (elapsed, ()) rfl ⟨.once rfl, trivial⟩ rfl
  | diagnostic message => exact decode_of_fits style (message, ()) rfl ⟨.once rfl, trivial⟩ rfl

theorem nesting_le_of_mem_members {e : Event} {levels : Nat} (positive : 1 ≤ levels)
    (flat : ∀ value, e = .finalResult value → value.nesting ≤ levels) :
    ∀ m ∈ e.members, m.2.nesting ≤ levels := by
  intro m member
  obtain rfl | isPart := List.mem_cons.1 member
  · exact Nat.zero_le _
  cases e with
  | ready keys =>
    cases List.mem_singleton.1 isPart
    have noContainer : ∀ j ∈ keys.map Json.string, j.nesting ≤ 0 := by simp [nesting]
    exact Nat.le_trans (nesting_array_le_succ.2 noContainer) positive
  | finalResult value =>
    cases List.mem_singleton.1 isPart
    exact flat value rfl
  | progress identifier current total =>
    simp only [parts, List.mem_cons, List.not_mem_nil, or_false] at isPart
    obtain rfl | rfl | rfl := isPart
    · cases identifier <;> exact Nat.zero_le _
    · exact Nat.zero_le _
    · exact Nat.zero_le _
  | bringUpFailed | notReady | executionFailed | timing | diagnostic =>
    cases List.mem_singleton.1 isPart
    exact Nat.zero_le _

/-! ## What an event is read back as -/

/-- The binary64 numbers in an event. -/
def floats : Event → List Number.Binary64
  | .finalResult value => value.floats
  | .timing elapsed => [elapsed]
  | _ => []

/-- An event with each of its binary64 numbers read back. -/
def reread : Event → Event
  | .finalResult value => .finalResult value.reread
  | .timing elapsed => .timing elapsed.reread
  | e => e

theorem reread_eq_self {e : Event} (same : ∀ x ∈ e.floats, x.reread = x) : e.reread = e := by
  cases e with
  | finalResult value => rw [reread, Json.reread_eq_self same]
  | timing elapsed => rw [reread, same elapsed (List.mem_singleton_self _)]
  | ready | bringUpFailed | notReady | progress | executionFailed | diagnostic => rfl

theorem rereadMembers_members (e : Event) : rereadMembers e.members = e.reread.members := by
  cases e with
  | ready keys =>
    have texts : (Json.ofTexts keys).reread = .ofTexts keys := by
      rw [Json.ofTexts, Json.reread, rereadItems_eq_map, List.map_map]
      rfl
    simp [reread, members, parts, taggedMembers, rereadMembers, Json.reread, texts]
  | progress identifier => cases identifier <;> rfl
  | finalResult | timing | bringUpFailed | notReady | executionFailed | diagnostic => rfl

theorem canonical_of_reread {e : Event}
    (canonical : ∀ value, e = .finalResult value → value.Canonical) :
    ∀ value, e.reread = .finalResult value → value.Canonical := by
  intro value isResult
  cases e with
  | finalResult original =>
    cases isResult
    exact canonical_reread (canonical original rfl)
  | ready | bringUpFailed | notReady | progress | executionFailed | timing | diagnostic =>
    cases isResult

end Event

namespace Envelope

/-! ## Reading -/

theorem takesScalars_record : record.TakesScalars := by
  refine ⟨fun j _ decoded => ?_, fun j _ decoded => ?_, trivial⟩
  · cases j <;> first | rfl | cases decoded
  · cases j <;> first | rfl | cases decoded

/-- What becomes of an envelope in the making when one more member comes up. -/
def gather (g : Gathered) (m : String × Json) : Except ShapeError Gathered :=
  match record.accept m.1 g.slots with
  | none => .ok { g with others := m :: g.others }
  | some (.error e) => .error e
  | some (.ok put) => (put m.2).map fun slots => { g with slots := slots }

/-- The envelope that the members of an object stand for. -/
def StandsFor (members : List (String × Json)) (e : Envelope) : Prop :=
  record.Fits members (e.correlation, e.emittedAt, ()) ∧
    Event.tagged.decode .nameOrPlace (.object (without record.names members)) = .ok e.event

/-- The envelope's own members fill its slots, and the others are kept for the event. -/
theorem foldlM_gather_eq_ok_iff {members : List (String × Json)} {g g' : Gathered} :
    members.foldlM gather g = .ok g' ↔
      members.foldlM record.addMember g.slots = .ok g'.slots ∧
        g'.others = (without record.names members).reverse ++ g.others := by
  induction members generalizing g with
  | nil =>
    obtain ⟨slots, others⟩ := g
    obtain ⟨slots', others'⟩ := g'
    simp [pure, Except.pure, eq_comm]
  | cons m members ih =>
    rw [List.foldlM_cons, List.foldlM_cons]
    cases accepted : record.accept m.1 g.slots with
    | none =>
      simp only [gather, Record.addMember, accepted, ok_bind, ih,
        without_cons_of_not_mem (Record.accept_eq_none_iff.1 accepted), List.reverse_cons,
        List.append_assoc, List.cons_append, List.nil_append]
    | some outcome =>
      have own : m.1 ∈ record.names := by
        by_contra other
        rw [Record.accept_eq_none_iff.2 other] at accepted
        cases accepted
      rw [without_cons_of_mem own]
      cases outcome with
      | error e => simp [gather, Record.addMember, accepted]
      | ok put =>
        simp only [gather, Record.addMember, accepted]
        cases put m.2 with
        | error e => simp [bind_eq_ok_iff, map_eq_ok_iff]
        | ok slots => simp only [map_ok, ok_bind, ih]

section

variable {budget levels : Nat} {cs rest : List Char}

/-- Reading a member is reading its value and then looking at what it is. -/
theorem readMember_eq_ok_iff {g g' : Gathered} {name : String} :
    readMember budget levels g name cs = .ok (g', rest) ↔
      ∃ j, ReadsAfterColon (readValue budget levels) cs j rest ∧ gather g (name, j) = .ok g' := by
  cases accepted : record.accept name g.slots with
  | none =>
    simp only [readMember, gather, accepted, bind_eq_ok_iff, Prod.exists, gatherMember_eq_ok_iff]
    constructor
    · rintro ⟨_, _, ⟨j, read, rfl⟩, same⟩
      cases same
      exact ⟨j, read, rfl⟩
    · rintro ⟨j, read, same⟩
      cases same
      exact ⟨_, rest, ⟨j, read, rfl⟩, rfl⟩
  | some outcome =>
    cases outcome with
    | error e =>
      simp only [readMember, gather, accepted]
      refine iff_of_false failUnplaced_ne_ok ?_
      rintro ⟨_, _, same⟩
      cases same
    | ok put =>
      have scalar {j : Json} {slots : record.Slots} (decoded : put j = .ok slots) :
          j.nesting = 0 := Record.nesting_of_accept takesScalars_record accepted decoded
      have into {after after' : List Char} {slots : record.Slots} :
          Record.readInto budget put after = .ok (slots, after') ↔
            ∃ j, readValue budget levels after = .ok (j, after') ∧ put j = .ok slots :=
        readInto_eq_ok_iff levels (fun _ decoded => by cases scalar decoded)
          fun _ decoded => by cases scalar decoded
      simp only [readMember, gather, accepted, bind_eq_ok_iff, Prod.exists, map_eq_ok_iff, into]
      constructor
      · rintro ⟨_, after, colon, slots, _, ⟨j, read, decoded⟩, same⟩
        cases same
        exact ⟨j, ⟨after, colon, read⟩, slots, decoded, rfl⟩
      · rintro ⟨j, ⟨after, colon, read⟩, slots, decoded, rfl⟩
        exact ⟨(), after, colon, slots, rest, ⟨j, read, decoded⟩, rfl⟩

theorem finish_eq_ok_iff {g : Gathered} {e : Envelope} :
    finish g = .ok e ↔
      record.finish g.slots = .ok (e.correlation, e.emittedAt, ()) ∧
        Event.tagged.decode .nameOrPlace (.object g.others.reverse) = .ok e.event := by
  simp only [finish, bind_eq_ok_iff, Prod.exists]
  constructor
  · rintro ⟨correlation, emittedAt, _, finished, event, decoded, same⟩
    cases same
    exact ⟨finished, decoded⟩
  · rintro ⟨finished, decoded⟩
    exact ⟨e.correlation, e.emittedAt, (), finished, e.event, decoded, rfl⟩

theorem readMembers_eq_ok_iff {e : Envelope} :
    readMembers budget levels cs = .ok (e, rest) ↔
      ∃ members : List (String × Json),
        foldMembers (gatherMember (readValue budget levels)) budget budget true [] cs =
          .ok (members.reverse, rest) ∧ StandsFor members e := by
  have walk {g : Gathered} {after : List Char} :
      foldMembers (readMember budget levels) budget budget true ⟨record.empty, []⟩ cs =
          .ok (g, after) ↔
        ∃ members : List (String × Json),
          foldMembers (gatherMember (readValue budget levels)) budget budget true [] cs =
            .ok (members.reverse ++ [], after) ∧
          members.foldlM gather ⟨record.empty, []⟩ = .ok g := by
    refine foldMembers_eq_ok_iff (readsOnly_readValue budget levels) ?_ []
    exact fun _ _ _ _ _ => readMember_eq_ok_iff
  simp only [List.append_nil, foldlM_gather_eq_ok_iff] at walk
  simp only [readMembers, StandsFor, ← Record.exists_slots_iff_fits, bind_eq_ok_iff, Prod.exists,
    walk]
  constructor
  · rintro ⟨g, _, ⟨members, read, folded, isOthers⟩, same⟩
    split at same
    next finished =>
      cases same
      obtain ⟨finished, decoded⟩ := finish_eq_ok_iff.1 finished
      rw [isOthers, List.reverse_reverse] at decoded
      exact ⟨members, read, ⟨g.slots, folded, finished⟩, decoded⟩
    next => cases failUnplaced_ne_ok same
  · rintro ⟨members, read, ⟨slots, folded, finished⟩, decoded⟩
    have done : finish ⟨slots, (without record.names members).reverse⟩ = .ok e :=
      finish_eq_ok_iff.2 ⟨finished, by rwa [List.reverse_reverse]⟩
    exact ⟨_, rest, ⟨members, read, folded, rfl⟩, by rw [done]⟩

/-- Reading an envelope is reading an object and then looking at its members. -/
theorem read_eq_ok_iff {e : Envelope} :
    read budget levels cs = .ok (e, rest) ↔
      ∃ members, readValue budget levels cs = .ok (.object members, rest) ∧
        StandsFor members e := by
  constructor
  · intro read
    obtain ⟨blanks, tail, blank, rfl, ⟨_, -, array⟩ | ⟨cs, rfl, object⟩ | ⟨_, -, scalar⟩⟩ :=
      exists_of_readByKind read
    · cases failShape_ne_ok array
    · cases levels with
      | zero => cases failPeeking_ne_ok object
      | succ levels =>
        obtain ⟨after, read, close⟩ := readObject_eq_ok_iff.1 object
        obtain ⟨members, inside, stands⟩ := readMembers_eq_ok_iff.1 read
        exact ⟨members, readValue_eq_ok_iff.2 (.object blank inside close), stands⟩
    · cases scalar
  · rintro ⟨members, read, stands⟩
    cases readValue_eq_ok_iff.1 read with
    | object blank inside close =>
      rw [Envelope.read, readByKind_object blank]
      exact readObject_eq_ok_iff.2
        ⟨_, readMembers_eq_ok_iff.2 ⟨members, inside, stands⟩, close⟩
    | scalar _ scalar =>
      obtain ⟨_, -, flat, -⟩ := exists_of_readScalar scalar
      cases flat

end

theorem ofText_eq_ok_iff {text : String} {e : Envelope} :
    ofText text = .ok e ↔
      ∃ members, IsAcceptable (.object members) text.toList ∧ StandsFor members e := by
  simp only [ofText, Decode.fromText_eq_ok_iff, read_eq_ok_iff, ← valueOfText_eq_ok_iff,
    valueOfText]
  constructor
  · rintro ⟨rest, ⟨members, read, stands⟩, blank⟩
    exact ⟨members, ⟨rest, read, blank⟩, stands⟩
  · rintro ⟨members, ⟨rest, read, blank⟩, stands⟩
    exact ⟨rest, ⟨members, read, stands⟩, blank⟩

/-! ## Writing -/

theorem decodeTimestamp_render (t : Timestamp) :
    decodeTimestamp (.string (String.ofList t.render)) = .ok t := by
  rw [decodeTimestamp, String.toList_ofList, Timestamp.read_render]
  rfl

/-- No member of an event goes by a name of the envelope's own members. -/
theorem apart_members (e : Event) : ∀ m ∈ e.members, m.1 ∉ record.names := by
  have isNames : record.names = ["correlationId", "emittedAt"] := rfl
  rw [isNames]
  cases e <;> simp [Event.members, Event.parts, taggedMembers, Tagged.tagName]

/-- An envelope is what its own members stand for. -/
theorem standsFor_membersAt {time : Json} {correlation : Option String} {emittedAt : Timestamp}
    {event : Event} (read : decodeTimestamp time = .ok emittedAt)
    (canonical : ∀ value, event = .finalResult value → value.Canonical) :
    StandsFor (membersAt time correlation event) ⟨correlation, emittedAt, event⟩ := by
  have decoded := Event.decode_toJson .nameOrPlace canonical
  have apart := apart_members event
  rw [Event.toJson] at decoded
  rw [membersAt]
  generalize event.members = members at apart decoded
  have noTime : valuesOf [emittedAtName] members = [] := valuesOf_eq_nil fun m member named =>
    apart m member (List.mem_append_right _ named)
  -- What follows the id is the time, which is no id, and then the event.
  have noId : ∀ m ∈ (emittedAtName, time) :: members, m.1 ∉ [HostMessage.correlationName] := by
    refine List.forall_mem_cons.2 ⟨by simp [emittedAtName, HostMessage.correlationName], ?_⟩
    exact fun m member named => apart m member (List.mem_append_left _ named)
  have isTime : (emittedAtName, time).1 ∈ [emittedAtName] := List.mem_singleton.2 rfl
  have ownTime : (emittedAtName, time).1 ∈ record.names := List.mem_append_right _ isTime
  have onlyTime : valuesOf [emittedAtName] ((emittedAtName, time) :: members) = [time] := by
    rw [valuesOf_cons_of_mem isTime, noTime]
  have onlyEvent : without record.names ((emittedAtName, time) :: members) = members := by
    rw [without_cons_of_mem ownTime, without_eq_self apart]
  cases correlation with
  | none =>
    rw [HostMessage.correlationMembers, List.nil_append]
    refine ⟨⟨?_, ?_, trivial⟩, by rwa [onlyEvent]⟩
    · show Member.Given _ (valuesOf [HostMessage.correlationName] _) _
      rw [valuesOf_eq_nil noId]
      exact .absent rfl
    · show Member.Given _ (valuesOf [emittedAtName] (without [HostMessage.correlationName] _)) _
      rw [without_eq_self noId, onlyTime]
      exact .once read
  | some id =>
    have isId : (HostMessage.correlationName, Json.string id).1 ∈ [HostMessage.correlationName] :=
      List.mem_singleton.2 rfl
    have ownId : (HostMessage.correlationName, Json.string id).1 ∈ record.names :=
      List.mem_append_left _ isId
    rw [HostMessage.correlationMembers, List.singleton_append]
    refine ⟨⟨?_, ?_, trivial⟩, by rwa [without_cons_of_mem ownId, onlyEvent]⟩
    · show Member.Given _ (valuesOf [HostMessage.correlationName] _) _
      rw [valuesOf_cons_of_mem isId, valuesOf_eq_nil noId]
      exact .once rfl
    · show Member.Given _ (valuesOf [emittedAtName] (without [HostMessage.correlationName] _)) _
      rw [without_cons_of_mem isId, without_eq_self noId, onlyTime]
      exact .once read

/-- Apart from a final result an envelope holds nothing that is nested deep. -/
theorem nesting_toJson_le {e : Envelope}
    (flat : ∀ value, e.event = .finalResult value → value.nesting ≤ 126) :
    e.toJson.nesting ≤ 127 := by
  refine nesting_object_le_succ.2 fun m member => ?_
  obtain isId | isTime | isEvent : m ∈ HostMessage.correlationMembers e.correlation ∨
      m = (emittedAtName, .string (String.ofList e.emittedAt.render)) ∨ m ∈ e.event.members := by
    simpa [membersAt] using member
  · cases correlation : e.correlation with
    | none => simp [correlation, HostMessage.correlationMembers] at isId
    | some id =>
      rw [correlation] at isId
      cases List.mem_singleton.1 isId
      exact Nat.zero_le _
  · rw [isTime]
    exact Nat.zero_le _
  · exact Event.nesting_le_of_mem_members (by decide) flat m isEvent

/-! ## Reading back -/

/-- The binary64 numbers in an envelope. -/
def floats (e : Envelope) : List Number.Binary64 := e.event.floats

/-- An envelope with each of its binary64 numbers read back. -/
def reread (e : Envelope) : Envelope := { e with event := e.event.reread }

theorem reread_eq_self {e : Envelope} (same : ∀ x ∈ e.floats, x.reread = x) : e.reread = e := by
  rw [reread, Event.reread_eq_self same]

theorem reread_toJson (e : Envelope) : e.toJson.reread = e.reread.toJson := by
  obtain ⟨correlation, emittedAt, event⟩ := e
  cases correlation <;>
    simp [toJson, membersAt, HostMessage.correlationMembers, Json.reread, rereadMembers,
      Event.rereadMembers_members, reread]

/-- What is written of an envelope is read as what it is read back as. -/
theorem ofText_compact {e : Envelope} (flat : e.toJson.nesting ≤ 127)
    (canonical : ∀ value, e.event = .finalResult value → value.Canonical) :
    ofText e.toJson.compact = .ok e.reread := by
  refine ofText_eq_ok_iff.2 ⟨_, isAcceptable_compact_iff.2 ⟨(reread_toJson e).symm, flat⟩, ?_⟩
  exact standsFor_membersAt (decodeTimestamp_render e.emittedAt)
    (Event.canonical_of_reread canonical)

/-! ## Lines of output -/

/-- The octets of output for a row of envelopes. -/
def written (es : List Envelope) : List UInt8 := octets (es.flatMap line)

/-- What one line of output, without its newline, is read as. -/
def readLine (bytes : List UInt8) : Option (Except Failure Envelope) :=
  (ofOctets? bytes).map fun cs => ofText (String.ofList cs)

/-- Envelopes are written on a line each. -/
theorem split_written (es : List Envelope) :
    Input.split (written es) = es.map fun e => octets e.toJson.render := by
  have isLines : es.flatMap line = (es.map fun e => e.toJson.render).flatMap (· ++ ['\n']) := by
    rw [List.flatMap_map]
    rfl
  rw [written, isLines, Input.split_lines, List.map_map]
  · rfl
  · intro l member
    obtain ⟨e, -, rfl⟩ := List.mem_map.1 member
    exact newline_not_mem_render e.toJson

theorem readLine_octets {e : Envelope} (flat : e.toJson.nesting ≤ 127)
    (canonical : ∀ value, e.event = .finalResult value → value.Canonical) :
    readLine (octets e.toJson.render) = some (.ok e.reread) := by
  rw [readLine, ofOctets?_octets]
  exact congrArg some (ofText_compact flat canonical)

/-- Cutting the output for a row of envelopes into lines and reading each of them gives the same
row, as long as in no envelope more than 127 containers lie inside one another and the binary64
numbers in them are read back as themselves; else these come out as what they are read as. -/
theorem readLine_written {es : List Envelope} (flat : ∀ e ∈ es, e.toJson.nesting ≤ 127)
    (canonical : ∀ e ∈ es, ∀ value, e.event = .finalResult value → value.Canonical) :
    (Input.split (written es)).map readLine = es.map (fun e => some (.ok e.reread)) ∧
      ((∀ e ∈ es, ∀ x ∈ e.floats, x.reread = x) →
        (Input.split (written es)).map readLine = es.map fun e => some (.ok e)) := by
  have readBack : (Input.split (written es)).map readLine =
      es.map fun e => some (.ok e.reread) := by
    rw [split_written, List.map_map]
    exact List.map_congr_left fun e member => readLine_octets (flat e member) (canonical e member)
  refine ⟨readBack, fun same => readBack.trans (List.map_congr_left fun e member => ?_)⟩
  rw [reread_eq_self (same e member)]

/-- A final result with a newline in it, a report of two and a half milliseconds, and a reset
without an id. -/
def briefRun : List Envelope :=
  [⟨some "id", .epoch, .finalResult (.object [("\n", .array [.string "\n"])])⟩,
    ⟨some "id", .epoch, .timing ⟨false, ⟨4612811918334230528, by decide⟩⟩⟩,
    ⟨none, .epoch, .reset⟩]

theorem readLine_written_result :
    (Input.split (written briefRun)).map readLine = briefRun.map fun e => some (.ok e) := by
  have canonical : ∀ e ∈ briefRun, ∀ value, e.event = .finalResult value → value.Canonical := by
    intro e member value isResult
    obtain rfl | rfl | rfl : e = _ ∨ e = _ ∨ e = _ := by simpa [briefRun] using member
    · cases isResult
      simp [Canonical, CanonicalMembers, CanonicalItems, Text.Entries.Sorted]
    · cases isResult
    · cases isResult
  exact (readLine_written (by decide +kernel) canonical).2 (by decide +kernel)

end Envelope

end RecipeEngine
