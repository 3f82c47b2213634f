import RecipeEngine.Message.Host
import RecipeEngine.Proofs.Recipe.Codec

/-!
# Which lines are messages

A line is a message exactly if it is one acceptable JSON text that stands for one
(`HostMessage.StandsFor`): an object, whose members may come in any order, or an array, whose last
items may be left out (`HostMessage.ofLine_eq_iff`).  A line that is no message is an invalid one,
which carries an id if the line is at least an acceptable JSON object that names one
(`HostMessage.ofLine_cases`).
-/

namespace RecipeEngine

open Decode Json

namespace HostMessage

/-! ## What a JSON value says -/

/-- The initial value that a request gives: null if it gives none. -/
inductive IsInitialValue : List Json → Json → Prop
  | absent : IsInitialValue [] .null
  | given {j : Json} : IsInitialValue [j] j.canonical

/-- The correlation id that a request gives, which may be null. -/
inductive IsCorrelation : List Json → Option String → Prop
  | absent : IsCorrelation [] none
  | null : IsCorrelation [.null] none
  | given {id : String} : IsCorrelation [.string id] (some id)

/-- The program whose instructions the values are, one by one. -/
def AreInstructions (items : List Json) (program : Program) : Prop :=
  List.Forall₂ (fun j i => Instruction.tagged.decode .nameOrPlace j = .ok i) items program

def prepareTags : List String := ["init", "initialize"]

def runTags : List String := ["bakeRecipe", "runRecipe"]

/-- The messages that JSON values stand for. -/
inductive StandsFor : Json → HostMessage → Prop
  | prepareObject {members : List (String × Json)} {tag : String} :
      valuesOf ["type"] members = [.string tag] → tag ∈ prepareTags →
      StandsFor (.object members) .prepare
  | prepareArray {tag : String} : tag ∈ prepareTags → StandsFor (.array [.string tag]) .prepare
  | runObject {members : List (String × Json)} {tag : String} {items : List Json}
      {program : Program} {initialValue : Json} {correlation : Option String} :
      valuesOf ["type"] members = [.string tag] → tag ∈ runTags →
      valuesOf ["program", "recipe"] members = [.array items] → AreInstructions items program →
      IsInitialValue (valuesOf ["initialValue", "input"] members) initialValue →
      IsCorrelation (valuesOf ["correlationId"] members) correlation →
      StandsFor (.object members) (.run ⟨program, initialValue, correlation⟩)
  /-- The id may only be given after an initial value. -/
  | runArray {tag : String} {items given ids : List Json} {program : Program}
      {initialValue : Json} {correlation : Option String} :
      tag ∈ runTags → AreInstructions items program → IsInitialValue given initialValue →
      IsCorrelation ids correlation → (given = [] → ids = []) →
      StandsFor (.array (.string tag :: .array items :: (given ++ ids)))
        (.run ⟨program, initialValue, correlation⟩)

def isValid : HostMessage → Bool
  | .invalid _ _ => false
  | _ => true

theorem StandsFor.isValid_eq_true {j : Json} {message : HostMessage}
    (stands : StandsFor j message) : message.isValid = true := by
  cases stands <;> rfl

/-! ## The members of a request -/

theorem isCorrelation_of_decode {j : Json} {id : Option String}
    (decoded : correlationMember.decode j = .ok id) : IsCorrelation [j] id := by
  cases j with
  | null =>
    cases decoded
    exact .null
  | string s =>
    cases decoded
    exact .given
  | boolean => cases decoded
  | number => cases decoded
  | array => cases decoded
  | object => cases decoded

theorem given_programMember_iff {values : List Json} {program : Program} :
    programMember.Given values program ↔
      ∃ items, values = [.array items] ∧ AreInstructions items program := by
  constructor
  · intro given
    cases given with
    | absent default => cases default
    | once decoded =>
      obtain ⟨items, rfl, instructions⟩ := Program.decode_eq_ok_iff.1 decoded
      exact ⟨items, rfl, instructions⟩
  · rintro ⟨items, rfl, instructions⟩
    exact .once (Program.decode_eq_ok_iff.2 ⟨items, rfl, instructions⟩)

theorem given_initialValueMember_iff {values : List Json} {v : Json} :
    initialValueMember.Given values v ↔ IsInitialValue values v := by
  constructor
  · intro given
    cases given with
    | absent default =>
      cases default
      exact .absent
    | once decoded =>
      cases decoded
      exact .given
  · intro isValue
    cases isValue with
    | absent => exact .absent rfl
    | given => exact .once rfl

theorem given_correlationMember_iff {values : List Json} {id : Option String} :
    correlationMember.Given values id ↔ IsCorrelation values id := by
  constructor
  · intro given
    cases given with
    | absent default =>
      cases default
      exact .absent
    | once decoded => exact isCorrelation_of_decode decoded
  · intro isId
    cases isId with
    | absent => exact .absent rfl
    | null => exact .once rfl
    | given => exact .once rfl

theorem fits_runRecord_iff {members : List (String × Json)} {program : Program} {v : Json}
    {id : Option String} :
    runRecord.Fits (without [Tagged.tagName] members) (program, v, id, ()) ↔
      (∃ items, valuesOf ["program", "recipe"] members = [.array items] ∧
        AreInstructions items program) ∧
      IsInitialValue (valuesOf ["initialValue", "input"] members) v ∧
      IsCorrelation (valuesOf ["correlationId"] members) id := by
  simp only [runRecord, Record.Fits, and_true, given_programMember_iff,
    given_initialValueMember_iff, given_correlationMember_iff]
  simp (disch := decide) only [Member.names, programMember, initialValueMember, correlationMember,
    correlationName, valuesOf_without]

theorem fills_runRecord_iff {values : List Json} {program : Program} {v : Json}
    {id : Option String} :
    runRecord.Fills values (program, v, id, ()) ↔
      ∃ items given ids, values = .array items :: (given ++ ids) ∧
        AreInstructions items program ∧ IsInitialValue given v ∧ IsCorrelation ids id ∧
        (given = [] → ids = []) := by
  constructor
  · intro fills
    obtain _ | ⟨j, _ | ⟨v', _ | ⟨id', _ | ⟨_, _⟩⟩⟩⟩ := values
    · cases fills.1
    · obtain ⟨items, rfl, instructions⟩ := Program.decode_eq_ok_iff.1 fills.1
      cases fills.2.1
      cases fills.2.2.1
      exact ⟨items, [], [], rfl, instructions, .absent, .absent, fun _ => rfl⟩
    · obtain ⟨items, rfl, instructions⟩ := Program.decode_eq_ok_iff.1 fills.1
      cases fills.2.1
      cases fills.2.2.1
      exact ⟨items, [v'], [], rfl, instructions, .given, .absent, nofun⟩
    · obtain ⟨items, rfl, instructions⟩ := Program.decode_eq_ok_iff.1 fills.1
      cases fills.2.1
      exact ⟨items, [v'], [id'], rfl, instructions, .given,
        isCorrelation_of_decode fills.2.2.1, nofun⟩
    · cases fills.2.2.2
  · rintro ⟨items, given, ids, rfl, instructions, isValue, isId, order⟩
    refine ⟨Program.decode_eq_ok_iff.2 ⟨items, rfl, instructions⟩, ?_⟩
    cases isValue with
    | absent =>
      rw [order rfl] at isId ⊢
      cases isId
      exact ⟨rfl, rfl, rfl⟩
    | given =>
      refine ⟨rfl, ?_⟩
      cases isId with
      | absent => exact ⟨rfl, rfl⟩
      | null => exact ⟨rfl, rfl⟩
      | given => exact ⟨rfl, rfl⟩

/-! ## Decoding -/

/-- The decoder of a request. -/
def decodeRun : ContentDecoder HostMessage := fun content =>
  (runRecord.ofContent "struct variant HostMessage::RunRecipe" content).map
    fun (program, initialValue, correlation, ()) => .run ⟨program, initialValue, correlation⟩

theorem named_eq_ok_iff {name : String} {decode : ContentDecoder HostMessage} :
    tagged.named name = .ok decode ↔
      (name ∈ prepareTags ∧ decodeBare .prepare = decode) ∨
        (name ∈ runTags ∧ decodeRun = decode) := by
  -- The first variant that goes by the name is the only one.
  have disjoint : ∀ name ∈ prepareTags, name ∉ runTags := by decide
  simp only [Tagged.named, tagged, List.find?_cons]
  by_cases prepares : name ∈ prepareTags
  · have found : ["init", "initialize"].contains name = true := List.contains_iff_mem.2 prepares
    simp only [found, prepares, disjoint name prepares, Except.ok.injEq, true_and, false_and,
      or_false]
  · have notFound : ["init", "initialize"].contains name = false := by
      rw [← Bool.not_eq_true, List.contains_iff_mem]
      exact prepares
    by_cases runs : name ∈ runTags
    · have found : ["bakeRecipe", "runRecipe"].contains name = true := List.contains_iff_mem.2 runs
      simp only [notFound, found, prepares, runs, Except.ok.injEq, true_and, false_and, false_or]
      rfl
    · have notFound' : ["bakeRecipe", "runRecipe"].contains name = false := by
        rw [← Bool.not_eq_true, List.contains_iff_mem]
        exact runs
      simp only [notFound, notFound', prepares, runs, List.find?_nil, reduceCtorEq, false_and,
        or_self]

theorem decodeRun_eq_ok_iff {content : Content} {message : HostMessage} :
    decodeRun content = .ok message ↔
      ∃ program v id, message = .run ⟨program, v, id⟩ ∧
        match content with
        | .members members => runRecord.Fits members (program, v, id, ())
        | .items items => runRecord.Fills items (program, v, id, ()) := by
  simp only [decodeRun, map_eq_ok_iff]
  cases content with
  | members members =>
    simp only [Record.ofContent, Record.ofMembers_eq_ok_iff]
    constructor
    · rintro ⟨⟨program, v, id, ⟨⟩⟩, fits, rfl⟩
      exact ⟨program, v, id, rfl, fits⟩
    · rintro ⟨program, v, id, rfl, fits⟩
      exact ⟨_, fits, rfl⟩
  | items items =>
    simp only [Record.ofContent, Record.ofItems_eq_ok_iff]
    constructor
    · rintro ⟨⟨program, v, id, ⟨⟩⟩, fills, rfl⟩
      exact ⟨program, v, id, rfl, fills⟩
    · rintro ⟨program, v, id, rfl, fills⟩
      exact ⟨_, fills, rfl⟩

/-- The decoder accepts just the values that stand for a message, and gives that message. -/
theorem decode_eq_ok_iff {j : Json} {message : HostMessage} :
    tagged.decode .name j = .ok message ↔ StandsFor j message := by
  rw [Tagged.decode_eq_ok_iff]
  constructor
  · rintro ⟨tag, content, decode, isTagged, named, decoded⟩
    obtain ⟨name, rfl, named⟩ := Tagged.ofTag_name_eq_ok_iff.1 named
    obtain ⟨prepares, rfl⟩ | ⟨runs, rfl⟩ := named_eq_ok_iff.1 named
    · cases isTagged with
      | object single =>
        cases decoded
        exact .prepareObject single prepares
      | @array _ items =>
        cases items with
        | nil =>
          cases decoded
          exact .prepareArray prepares
        | cons => cases decoded
    · obtain ⟨program, v, id, rfl, accepted⟩ := decodeRun_eq_ok_iff.1 decoded
      cases isTagged with
      | object single =>
        obtain ⟨⟨items, given, instructions⟩, isValue, isId⟩ := fits_runRecord_iff.1 accepted
        exact .runObject single runs given instructions isValue isId
      | array =>
        obtain ⟨items, given, ids, rfl, instructions, isValue, isId, order⟩ :=
          fills_runRecord_iff.1 accepted
        exact .runArray runs instructions isValue isId order
  · have prepareTag {name : String} (prepares : name ∈ prepareTags) :
        tagged.ofTag .name (.string name) = .ok (decodeBare .prepare) :=
      Tagged.ofTag_name_eq_ok_iff.2 ⟨name, rfl, named_eq_ok_iff.2 (.inl ⟨prepares, rfl⟩)⟩
    have runTag {name : String} (runs : name ∈ runTags) :
        tagged.ofTag .name (.string name) = .ok decodeRun :=
      Tagged.ofTag_name_eq_ok_iff.2 ⟨name, rfl, named_eq_ok_iff.2 (.inr ⟨runs, rfl⟩)⟩
    intro stands
    cases stands with
    | prepareObject single prepares =>
      exact ⟨_, _, _, .object single, prepareTag prepares, rfl⟩
    | prepareArray prepares => exact ⟨_, _, _, .array, prepareTag prepares, rfl⟩
    | runObject single runs given instructions isValue isId =>
      exact ⟨_, _, _, .object single, runTag runs, decodeRun_eq_ok_iff.2
        ⟨_, _, _, rfl, fits_runRecord_iff.2 ⟨⟨_, given, instructions⟩, isValue, isId⟩⟩⟩
    | runArray runs instructions isValue isId order =>
      exact ⟨_, _, _, .array, runTag runs, decodeRun_eq_ok_iff.2 ⟨_, _, _, rfl,
        fills_runRecord_iff.2 ⟨_, _, _, rfl, instructions, isValue, isId, order⟩⟩⟩

/-! ## Lines -/

theorem ofText_eq_ok_iff {text : String} {message : HostMessage} :
    ofText text = .ok message ↔ ∃ j, IsAcceptable j text.toList ∧ StandsFor j message := by
  simp only [ofText, Tagged.fromText_eq_ok_iff, decode_eq_ok_iff]

/-- An invalid line carries the id that its last member for it names, if it is an acceptable JSON
object; that member may be given more than once. -/
theorem carriedCorrelation_eq_some_iff {text id : String} :
    carriedCorrelation text = some id ↔
      ∃ members, IsAcceptable (.object members) text.toList ∧
        (valuesOf ["correlationId"] members).getLast? = some (.string id) := by
  simp only [← valueOfText_eq_ok_iff]
  unfold carriedCorrelation
  cases valueOfText text with
  | error e => simp
  | ok j =>
    simp only [Option.bind_eq_some_iff]
    constructor
    · rintro ⟨found, member, isText⟩
      cases j with
      | object members =>
        cases found with
        | string s =>
          cases isText
          exact ⟨members, rfl, by rw [← member?_object]; exact member⟩
        | null => cases isText
        | boolean => cases isText
        | number => cases isText
        | array => cases isText
        | object => cases isText
      | null => cases member
      | boolean => cases member
      | number => cases member
      | string => cases member
      | array => cases member
    · rintro ⟨members, same, last⟩
      cases same
      exact ⟨.string id, by rw [member?_object]; exact last, rfl⟩

theorem ofLine_eq_iff {line : String} {message : HostMessage} :
    (ofLine line = message ∧ message.isValid = true) ↔
      ∃ j, IsAcceptable j line.toList ∧ StandsFor j message := by
  rw [← ofText_eq_ok_iff, ofLine]
  cases read : ofText line with
  | error reason =>
    simp only [reduceCtorEq, iff_false, not_and]
    rintro rfl
    exact Bool.false_ne_true
  | ok found =>
    obtain ⟨j, -, stands⟩ := ofText_eq_ok_iff.1 read
    simp only [Except.ok.injEq, and_iff_left_iff_imp]
    rintro rfl
    exact stands.isValid_eq_true

/-- A line that is no message is an invalid one, with the reason for which it could not be read
and the id that it carries. -/
theorem ofLine_cases (line : String) :
    (∃ j message, IsAcceptable j line.toList ∧ StandsFor j message) ∨
      ∃ reason correlation, ofLine line = .invalid reason correlation ∧
        ofText line = .error reason ∧
        ∀ id, correlation = some id ↔
          ∃ members, IsAcceptable (.object members) line.toList ∧
            (valuesOf ["correlationId"] members).getLast? = some (.string id) := by
  cases read : ofText line with
  | ok found =>
    obtain ⟨j, acceptable, stands⟩ := ofText_eq_ok_iff.1 read
    exact .inl ⟨j, found, acceptable, stands⟩
  | error reason =>
    refine .inr ⟨reason, carriedCorrelation line, ?_, rfl, fun id => ?_⟩
    · rw [ofLine, read]
    · exact carriedCorrelation_eq_some_iff

/-- Exactly the acceptable JSON texts that stand for a message are valid messages, and each is the
message that it stands for; any other line is an invalid message. -/
theorem ofLine_accepts_grammar (line : String) :
    (∀ message, (ofLine line = message ∧ message.isValid = true) ↔
      ∃ j, IsAcceptable j line.toList ∧ StandsFor j message) ∧
    ((∃ j message, IsAcceptable j line.toList ∧ StandsFor j message) ∨
      ∃ reason correlation, ofLine line = .invalid reason correlation ∧
        ofText line = .error reason ∧
        ∀ id, correlation = some id ↔
          ∃ members, IsAcceptable (.object members) line.toList ∧
            (valuesOf ["correlationId"] members).getLast? = some (.string id)) :=
  ⟨fun _ => ofLine_eq_iff, ofLine_cases line⟩

end HostMessage

end RecipeEngine
