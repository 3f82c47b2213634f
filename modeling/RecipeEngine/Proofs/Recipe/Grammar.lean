import RecipeEngine.Proofs.Recipe.Codec

/-!
# Which values are instructions

An instruction is an object with a tag and further members in any order, or an array of the tag and
what the members would hold.  `Instruction.Describes` says what the tag asks for besides itself, and
`Instruction.StandsFor` which JSON values are instructions.  The decoder accepts just these
(`Instruction.decode_eq_ok_iff`), and so does the reader of texts
(`Instruction.ofText_accepts_grammar`).  A program is an array of them, read item by item
(`Program.ofText_eq_ok_iff`).

A tag that is not known makes an instruction of any object, but only of an array that holds nothing
else.
-/

namespace RecipeEngine

open Decode Json

/-! ## Texts and counts -/

theorem decodeText_eq_ok_iff {j : Json} {s : String} : decodeText j = .ok s ↔ j = .string s := by
  cases j <;> simp [decodeText, wrongKind]

theorem decodeCount_eq_ok_iff {j : Json} {count : UInt32} :
    decodeCount j = .ok count ↔ j = .ofCount count := by
  constructor
  · intro decoded
    cases j with
    | number n =>
      cases n with
      | integer n =>
        obtain ⟨value, low, high⟩ := n
        cases value with
        | ofNat k =>
          simp only [decodeCount] at decoded
          split at decoded
          next fits =>
            cases decoded
            simp only [ofCount, UInt32.toNat_ofNat_of_lt' fits]
            rfl
          next => cases decoded
        | negSucc k => cases decoded
      | floating x => cases decoded
    | null => cases decoded
    | boolean => cases decoded
    | string => cases decoded
    | array => cases decoded
    | object => cases decoded
  · rintro rfl
    exact decodeCount_ofCount count

/-- The count that values give: a whole number of 32 bits, or one if there is no value. -/
inductive IsCount : List Json → UInt32 → Prop
  | absent : IsCount [] 1
  | given {count : UInt32} : IsCount [.ofCount count] count

section

variable {α : Type} {name : String} {aliases : List String} {others : Record α}
  {values : List Json} {s : String} {count : UInt32} {a : α}

theorem given_textMember_iff :
    (textMember name aliases).Given values s ↔ values = [.string s] := by
  constructor
  · intro given
    cases given with
    | absent default => cases default
    | once decoded => rw [decodeText_eq_ok_iff.1 decoded]
  · rintro rfl
    exact .once rfl

theorem given_countMember_iff :
    (countMember name aliases).Given values count ↔ IsCount values count := by
  constructor
  · intro given
    cases given with
    | absent default =>
      cases default
      exact .absent
    | once decoded =>
      rw [decodeCount_eq_ok_iff.1 decoded]
      exact .given
  · intro isCount
    cases isCount with
    | absent => exact .absent rfl
    | given => exact .once (decodeCount_ofCount count)

theorem fills_text_iff :
    (Record.cons (textMember name aliases) others).Fills values (s, a) ↔
      ∃ rest, values = .string s :: rest ∧ others.Fills rest a := by
  cases values with
  | nil => simp [Record.Fills, textMember]
  | cons j rest =>
    constructor
    · rintro ⟨decoded, fills⟩
      exact ⟨rest, by rw [decodeText_eq_ok_iff.1 decoded], fills⟩
    · rintro ⟨_, same, fills⟩
      cases same
      exact ⟨rfl, fills⟩

theorem fills_count_iff :
    (Record.cons (countMember name aliases) .nil).Fills values (count, ()) ↔
      IsCount values count := by
  cases values with
  | nil =>
    constructor
    · rintro ⟨default, -⟩
      cases default
      exact .absent
    · intro isCount
      cases isCount
      exact ⟨rfl, rfl⟩
  | cons j rest =>
    constructor
    · rintro ⟨decoded, rfl⟩
      rw [decodeCount_eq_ok_iff.1 decoded]
      exact .given
    · intro isCount
      cases isCount
      exact ⟨decodeCount_ofCount count, rfl⟩

end

namespace Instruction

/-! ## What a JSON value says -/

def stepTags : List String := ["process", "step"]

def knownTags : List String := stepTags ++ ["loopStart", "loopEnd"]

/-- The instruction that a tag makes of what stands besides it.  The tag itself may be among the
members. -/
inductive Describes : String → Content → Instruction → Prop
  | stepMembers {tag name key : String} {members : List (String × Json)} {count : UInt32} :
      tag ∈ stepTags → valuesOf ["name"] members = [.string name] →
      valuesOf ["functionKey", "funcKey"] members = [.string key] →
      IsCount (valuesOf ["repeatCount", "opIterations"] members) count →
      Describes tag (.members members) (.step ⟨name, key, count⟩)
  | stepItems {tag name key : String} {counts : List Json} {count : UInt32} :
      tag ∈ stepTags → IsCount counts count →
      Describes tag (.items (.string name :: .string key :: counts)) (.step ⟨name, key, count⟩)
  | loopStartMembers {tag identifier : String} {members : List (String × Json)} {count : UInt32} :
      tag = "loopStart" → valuesOf ["identifier"] members = [.string identifier] →
      IsCount (valuesOf ["iterations", "loopIterations"] members) count →
      Describes tag (.members members) (.loopStart identifier count)
  | loopStartItems {tag identifier : String} {counts : List Json} {count : UInt32} :
      tag = "loopStart" → IsCount counts count →
      Describes tag (.items (.string identifier :: counts)) (.loopStart identifier count)
  | loopEndMembers {tag identifier : String} {members : List (String × Json)} :
      tag = "loopEnd" → valuesOf ["identifier"] members = [.string identifier] →
      Describes tag (.members members) (.loopEnd identifier)
  | loopEndItems {tag identifier : String} :
      tag = "loopEnd" → Describes tag (.items [.string identifier]) (.loopEnd identifier)
  | otherMembers {tag : String} {members : List (String × Json)} :
      tag ∉ knownTags → Describes tag (.members members) .unsupported
  | otherItems {tag : String} : tag ∉ knownTags → Describes tag (.items []) .unsupported

/-- The instructions that JSON values stand for. -/
inductive StandsFor : Json → Instruction → Prop
  | object {tag : String} {members : List (String × Json)} {i : Instruction} :
      valuesOf ["type"] members = [.string tag] → Describes tag (.members members) i →
      StandsFor (.object members) i
  | array {tag : String} {items : List Json} {i : Instruction} :
      Describes tag (.items items) i → StandsFor (.array (.string tag :: items)) i

/-- An instruction depends on what its members are, the tag apart, and not on how they are
ordered. -/
theorem Describes.of_same_values {tag : String} {members members' : List (String × Json)}
    {i : Instruction} (describes : Describes tag (.members members) i)
    (same : ∀ names, Tagged.tagName ∉ names → valuesOf names members = valuesOf names members') :
    Describes tag (.members members') i := by
  cases describes with
  | stepMembers isStep isName isKey isCount =>
    rw [same _ (by decide)] at isName isKey isCount
    exact .stepMembers isStep isName isKey isCount
  | loopStartMembers isStart isId isCount =>
    rw [same _ (by decide)] at isId isCount
    exact .loopStartMembers isStart isId isCount
  | loopEndMembers isEnd isId =>
    rw [same _ (by decide)] at isId
    exact .loopEndMembers isEnd isId
  | otherMembers unknown => exact .otherMembers unknown

/-- It makes no difference whether the tag is among the members. -/
theorem describes_without {tag : String} {members : List (String × Json)} {i : Instruction} :
    Describes tag (.members (without [Tagged.tagName] members)) i ↔
      Describes tag (.members members) i := by
  have same : ∀ names, Tagged.tagName ∉ names →
      valuesOf names (without [Tagged.tagName] members) = valuesOf names members :=
    fun names other => valuesOf_without fun name member isTag =>
      other (List.mem_singleton.1 isTag ▸ member)
  exact ⟨fun describes => describes.of_same_values same,
    fun describes => describes.of_same_values fun names other => (same names other).symm⟩

/-! ## The kinds of instruction -/

theorem fits_step_iff {members : List (String × Json)} {name key : String} {count : UInt32} :
    Step.record.Fits members (name, key, count, ()) ↔
      valuesOf ["name"] members = [.string name] ∧
      valuesOf ["functionKey", "funcKey"] members = [.string key] ∧
      IsCount (valuesOf ["repeatCount", "opIterations"] members) count := by
  simp only [Step.record, Record.Fits, and_true, given_textMember_iff, given_countMember_iff]
  simp (disch := decide) only [Member.names, textMember, countMember, valuesOf_without]

theorem fits_loopStart_iff {members : List (String × Json)} {identifier : String}
    {count : UInt32} :
    loopStartRecord.Fits members (identifier, count, ()) ↔
      valuesOf ["identifier"] members = [.string identifier] ∧
      IsCount (valuesOf ["iterations", "loopIterations"] members) count := by
  simp only [loopStartRecord, Record.Fits, and_true, given_textMember_iff, given_countMember_iff]
  simp (disch := decide) only [Member.names, textMember, countMember, valuesOf_without]

theorem fits_loopEnd_iff {members : List (String × Json)} {identifier : String} :
    loopEndRecord.Fits members (identifier, ()) ↔
      valuesOf ["identifier"] members = [.string identifier] := by
  simp only [loopEndRecord, Record.Fits, and_true, given_textMember_iff]
  rfl

theorem decodeStep_eq_ok_iff {tag : String} (isStep : tag ∈ stepTags) {content : Content}
    {i : Instruction} :
    (Step.record.ofContent Step.title content).map (fun parts => step (Step.ofParts parts)) =
      .ok i ↔ Describes tag content i := by
  rw [map_eq_ok_iff]
  constructor
  · rintro ⟨⟨name, key, count, ⟨⟩⟩, decoded, rfl⟩
    cases content with
    | members members =>
      obtain ⟨isName, isKey, isCount⟩ := fits_step_iff.1 (Record.ofMembers_eq_ok_iff.1 decoded)
      exact .stepMembers isStep isName isKey isCount
    | items items =>
      have fills := Record.ofItems_eq_ok_iff.1 decoded
      simp only [Step.record, fills_text_iff, fills_count_iff] at fills
      obtain ⟨_, rfl, counts, rfl, isCount⟩ := fills
      exact .stepItems isStep isCount
  · intro describes
    cases describes with
    | stepMembers _ isName isKey isCount =>
      exact ⟨_, Record.ofMembers_eq_ok_iff.2 (fits_step_iff.2 ⟨isName, isKey, isCount⟩), rfl⟩
    | @stepItems name key counts count _ isCount =>
      refine ⟨(name, key, count, ()), Record.ofItems_eq_ok_iff.2 ?_, rfl⟩
      simp only [Step.record, fills_text_iff, fills_count_iff]
      exact ⟨_, rfl, counts, rfl, isCount⟩
    | otherMembers unknown => exact absurd (List.mem_append_left _ isStep) unknown
    | otherItems unknown => exact absurd (List.mem_append_left _ isStep) unknown
    | loopStartMembers isTag => exact absurd (isTag ▸ isStep) (by decide)
    | loopStartItems isTag => exact absurd (isTag ▸ isStep) (by decide)
    | loopEndMembers isTag => exact absurd (isTag ▸ isStep) (by decide)
    | loopEndItems isTag => exact absurd (isTag ▸ isStep) (by decide)

theorem decodeLoopStart_eq_ok_iff {title : String} {content : Content} {i : Instruction} :
    (loopStartRecord.ofContent title content).map
        (fun (identifier, iterations, ()) => loopStart identifier iterations) = .ok i ↔
      Describes "loopStart" content i := by
  rw [map_eq_ok_iff]
  constructor
  · rintro ⟨⟨identifier, count, ⟨⟩⟩, decoded, rfl⟩
    cases content with
    | members members =>
      obtain ⟨isId, isCount⟩ := fits_loopStart_iff.1 (Record.ofMembers_eq_ok_iff.1 decoded)
      exact .loopStartMembers rfl isId isCount
    | items items =>
      have fills := Record.ofItems_eq_ok_iff.1 decoded
      simp only [loopStartRecord, fills_text_iff, fills_count_iff] at fills
      obtain ⟨counts, rfl, isCount⟩ := fills
      exact .loopStartItems rfl isCount
  · intro describes
    cases describes with
    | loopStartMembers _ isId isCount =>
      exact ⟨_, Record.ofMembers_eq_ok_iff.2 (fits_loopStart_iff.2 ⟨isId, isCount⟩), rfl⟩
    | @loopStartItems identifier counts count _ isCount =>
      refine ⟨(identifier, count, ()), Record.ofItems_eq_ok_iff.2 ?_, rfl⟩
      simp only [loopStartRecord, fills_text_iff, fills_count_iff]
      exact ⟨counts, rfl, isCount⟩
    | loopEndMembers isEnd => exact absurd isEnd (by decide)
    | loopEndItems isEnd => exact absurd isEnd (by decide)
    | stepMembers isStep => exact absurd isStep (by decide)
    | stepItems isStep => exact absurd isStep (by decide)
    | otherMembers unknown => exact absurd (by decide) unknown
    | otherItems unknown => exact absurd (by decide) unknown

theorem decodeLoopEnd_eq_ok_iff {title : String} {content : Content} {i : Instruction} :
    (loopEndRecord.ofContent title content).map (fun (identifier, ()) => loopEnd identifier) =
      .ok i ↔ Describes "loopEnd" content i := by
  rw [map_eq_ok_iff]
  constructor
  · rintro ⟨⟨identifier, ⟨⟩⟩, decoded, rfl⟩
    cases content with
    | members members =>
      exact .loopEndMembers rfl (fits_loopEnd_iff.1 (Record.ofMembers_eq_ok_iff.1 decoded))
    | items items =>
      have fills := Record.ofItems_eq_ok_iff.1 decoded
      simp only [loopEndRecord, fills_text_iff, Record.Fills] at fills
      obtain ⟨_, rfl, rfl⟩ := fills
      exact .loopEndItems rfl
  · intro describes
    cases describes with
    | loopEndMembers _ isId =>
      exact ⟨_, Record.ofMembers_eq_ok_iff.2 (fits_loopEnd_iff.2 isId), rfl⟩
    | @loopEndItems identifier =>
      exact ⟨(identifier, ()), Record.ofItems_eq_ok_iff.2 ⟨rfl, rfl⟩, rfl⟩
    | loopStartMembers isStart => exact absurd isStart (by decide)
    | loopStartItems isStart => exact absurd isStart (by decide)
    | stepMembers isStep => exact absurd isStep (by decide)
    | stepItems isStep => exact absurd isStep (by decide)
    | otherMembers unknown => exact absurd (by decide) unknown
    | otherItems unknown => exact absurd (by decide) unknown

theorem decodeBare_eq_ok_iff {tag : String} (unknown : tag ∉ knownTags) {content : Content}
    {i : Instruction} : decodeBare .unsupported content = .ok i ↔ Describes tag content i := by
  constructor
  · intro decoded
    cases content with
    | members members =>
      cases decoded
      exact .otherMembers unknown
    | items items =>
      cases items with
      | nil =>
        cases decoded
        exact .otherItems unknown
      | cons => cases decoded
  · intro describes
    cases describes with
    | otherMembers => rfl
    | otherItems => rfl
    | stepMembers isStep => exact absurd (List.mem_append_left _ isStep) unknown
    | stepItems isStep => exact absurd (List.mem_append_left _ isStep) unknown
    | loopStartMembers isTag => exact absurd (isTag ▸ by decide) unknown
    | loopStartItems isTag => exact absurd (isTag ▸ by decide) unknown
    | loopEndMembers isTag => exact absurd (isTag ▸ by decide) unknown
    | loopEndItems isTag => exact absurd (isTag ▸ by decide) unknown

/-! ## Decoding -/

theorem named_of_not_mem {tag : String} (unknown : tag ∉ knownTags) :
    tagged.named tag = .ok (decodeBare .unsupported) := by
  have none : tagged.variants.find? (·.names.contains tag) = none := by
    rw [List.find?_eq_none]
    simpa [tagged, knownTags, stepTags, and_assoc] using unknown
  rw [Tagged.named, none]
  rfl

/-- Every tag asks for a decoder, which accepts just what the tag makes an instruction of. -/
theorem exists_named (tag : String) :
    ∃ decode, tagged.named tag = .ok decode ∧
      ∀ content i, decode content = .ok i ↔ Describes tag content i := by
  by_cases known : tag ∈ knownTags
  · simp only [knownTags, List.mem_append, List.mem_cons, List.not_mem_nil, or_false] at known
    obtain isStep | rfl | rfl := known
    -- A step has two tags; every other known kind has one, and looking that up computes.
    · refine ⟨_, ?_, fun _ _ => decodeStep_eq_ok_iff isStep⟩
      have found : ["process", "step"].contains tag = true := List.contains_iff_mem.2 isStep
      simp only [Tagged.named, tagged, List.find?_cons, found]
    · exact ⟨_, rfl, fun _ _ => decodeLoopStart_eq_ok_iff⟩
    · exact ⟨_, rfl, fun _ _ => decodeLoopEnd_eq_ok_iff⟩
  · exact ⟨_, named_of_not_mem known, fun _ _ => decodeBare_eq_ok_iff known⟩

theorem named_decodes_iff {tag : String} {content : Content} {i : Instruction} :
    (∃ decode, tagged.named tag = .ok decode ∧ decode content = .ok i) ↔
      Describes tag content i := by
  obtain ⟨decode, named, decodes⟩ := exists_named tag
  simp only [named, Except.ok.injEq, exists_eq_left', decodes]

/-- The decoder accepts just the values that stand for an instruction, and gives that
instruction. -/
theorem decode_eq_ok_iff {j : Json} {i : Instruction} :
    tagged.decode .name j = .ok i ↔ StandsFor j i := by
  rw [Tagged.decode_eq_ok_iff]
  constructor
  · rintro ⟨_, content, decode, isTagged, named, accepted⟩
    obtain ⟨tag, rfl, named⟩ := Tagged.ofTag_name_eq_ok_iff.1 named
    have describes := named_decodes_iff.1 ⟨decode, named, accepted⟩
    cases isTagged with
    | object single => exact .object single (describes_without.1 describes)
    | array => exact .array describes
  · intro stands
    cases stands with
    | object single describes =>
      obtain ⟨decode, named, accepted⟩ := named_decodes_iff.2 (describes_without.2 describes)
      exact ⟨_, _, decode, .object single, Tagged.ofTag_name_eq_ok_iff.2 ⟨_, rfl, named⟩, accepted⟩
    | array describes =>
      obtain ⟨decode, named, accepted⟩ := named_decodes_iff.2 describes
      exact ⟨_, _, decode, .array, Tagged.ofTag_name_eq_ok_iff.2 ⟨_, rfl, named⟩, accepted⟩

/-! ## Texts -/

theorem ofText_eq_ok_iff {text : String} {i : Instruction} :
    ofText text = .ok i ↔ ∃ j, IsAcceptable j text.toList ∧ StandsFor j i := by
  simp only [ofText, Tagged.fromText_eq_ok_iff, decode_eq_ok_iff]

/-- An acceptable JSON text is read as an instruction exactly if its value stands for one, and as
that one; no other text is read as an instruction. -/
theorem ofText_accepts_grammar (text : String) :
    (∀ j, IsAcceptable j text.toList → ∀ i, ofText text = .ok i ↔ StandsFor j i) ∧
    ((∀ j, ¬ IsAcceptable j text.toList) → ∀ i, ofText text ≠ .ok i) := by
  constructor
  · intro j acceptable i
    rw [ofText_eq_ok_iff, exists_isAcceptable_iff acceptable]
  · intro never i read
    obtain ⟨j, acceptable, -⟩ := ofText_eq_ok_iff.1 read
    exact never j acceptable

/-- A step with its older names, and a member that means nothing to it. -/
def legacyStep : String :=
  "\x7b\"funcKey\":\"k\",\"x\":[-0],\"name\":\"n\",\"opIterations\":4294967295,\"type\":\"process\"\x7d"

/-- A loop start with a count that is not a whole number. -/
def signedZeroStart : String := "[\"loopStart\",\"a\",-0]"

theorem ofText_accepts_grammar_legacyStep :
    ofText legacyStep = .ok (.step ⟨"n", "k", 4294967295⟩) ∧
      ∀ i, ofText signedZeroStart ≠ .ok i := by
  have step : IsAcceptable (.object [("funcKey", .string "k"),
      ("x", .array [.number (.floating Number.Binary64.negativeZero)]), ("name", .string "n"),
      ("opIterations", .ofCount 4294967295), ("type", .string "process")]) legacyStep.toList :=
    valueOfText_eq_ok_iff.1 (by decide +kernel)
  have start : IsAcceptable (.array [.string "loopStart", .string "a",
      .number (.floating Number.Binary64.negativeZero)]) signedZeroStart.toList :=
    valueOfText_eq_ok_iff.1 (by decide +kernel)
  refine ⟨((ofText_accepts_grammar legacyStep).1 _ step _).2 ?_, fun i read => ?_⟩
  · exact .object rfl (.stepMembers (by decide) rfl rfl .given)
  · cases ((ofText_accepts_grammar signedZeroStart).1 _ start i).1 read with
    | array describes =>
      cases describes with
      | loopStartItems _ isCount => cases isCount

end Instruction

/-! ## Programs -/

namespace Program

/-- The programs that JSON values stand for. -/
inductive StandsFor : Json → Program → Prop
  | intro {items : List Json} {p : Program} :
      List.Forall₂ Instruction.StandsFor items p → StandsFor (.array items) p

theorem decode_name_eq_ok_iff {j : Json} {p : Program} :
    Program.decode .name j = .ok p ↔ StandsFor j p := by
  simp only [decode_eq_ok_iff, Instruction.decode_eq_ok_iff]
  constructor
  · rintro ⟨items, rfl, each⟩
    exact .intro each
  · rintro ⟨each⟩
    exact ⟨_, rfl, each⟩

/-- Reading a program is reading it as JSON and decoding what was read. -/
theorem read_eq_ok_iff {budget levels : Nat} {cs rest : List Char} (few : cs.length < budget)
    {p : Program} :
    Program.read budget levels cs = .ok (p, rest) ↔
      ∃ j, readValue budget levels cs = .ok (j, rest) ∧ Program.decode .name j = .ok p := by
  have items {levels : Nat} {cs rest : List Char} (few : cs.length < budget) :
      readItems (Instruction.tagged.read budget levels) budget true cs = .ok (p, rest) ↔
        ∃ items, readItems (readValue budget levels) budget true cs = .ok (items, rest) ∧
          List.Forall₂ (fun j i => Instruction.tagged.decode .name j = .ok i) items p :=
    readItems_eq_ok_iff_taken (readsOnly_readValue budget levels)
      (fun _ _ _ short => Tagged.read_eq_ok_iff (Nat.lt_of_le_of_lt short few)) (Nat.le_refl _)
  constructor
  · intro read
    obtain ⟨blanks, tail, blank, rfl, ⟨cs, rfl, array⟩ | ⟨cs, -, object⟩ | ⟨j, -, scalar⟩⟩ :=
      exists_of_readByKind read
    · cases levels with
      | zero => cases failPeeking_ne_ok array
      | succ levels =>
        obtain ⟨after, read, close⟩ := readArray_eq_ok_iff.1 array
        simp only [List.length_append, List.length_cons] at few
        obtain ⟨js, inside, instructions⟩ :=
          (items (by simp only [List.drop_one, List.tail_cons]; omega)).1 read
        exact ⟨_, readValue_eq_ok_iff.2 (.array blank inside close),
          decode_eq_ok_iff.2 ⟨js, rfl, instructions⟩⟩
    · cases failShape_ne_ok object
    · cases scalar
  · rintro ⟨j, read, decoded⟩
    obtain ⟨js, rfl, instructions⟩ := decode_eq_ok_iff.1 decoded
    cases readValue_eq_ok_iff.1 read with
    | array blank inside close =>
      simp only [List.length_append, List.length_cons] at few
      rw [Program.read, readByKind_array blank]
      exact readArray_eq_ok_iff.2 ⟨_, (items
        (by simp only [List.drop_one, List.tail_cons]; omega)).2 ⟨js, inside, instructions⟩, close⟩
    | scalar blank scalar =>
      obtain ⟨_, -, flat, -⟩ := exists_of_readScalar scalar
      cases flat

theorem ofText_eq_ok_iff {text : String} {p : Program} :
    ofText text = .ok p ↔ ∃ j, IsAcceptable j text.toList ∧ StandsFor j p := by
  have few : text.toList.length < budgetFor text.toList := by simp only [budgetFor]; omega
  rw [ofText, fromText_eq_ok_iff_taken (fun budget => Program.read budget maxNesting)
    (fun j p => Program.decode .name j = .ok p) fun _ => read_eq_ok_iff few]
  simp only [decode_name_eq_ok_iff]

end Program

end RecipeEngine
