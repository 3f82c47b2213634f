import RecipeEngine.Proofs.Json.Render
import RecipeEngine.Proofs.Message.Host
import RecipeEngine.Proofs.Recipe.Grammar

/-!
# A program on its own and inside a request

The same text may be read as a program by itself, or stand in the line that asks to run it
(`HostMessage.runLine`).  By itself its instructions are read straight, and their tags must be
names.  Inside the request the whole line is kept first, and then a tag may also be a place: the
number of a kind of instruction.

Nothing else comes of the difference (`HostMessage.runLine_agrees_ofText`), since a tag by place
asks for what the name at that place asks for (`Instruction.decode_spelled`) and reading straight
accepts names only (`Instruction.StandsFor.not_isNumbered`).
-/

namespace RecipeEngine

open Decode Json

/-! ## Tags by place -/

namespace Instruction

/-- The name of the tag at a place; past the known ones it is some tag that is not known. -/
def tagAt (unknown : String) : Nat → String
  | 0 => "step"
  | 1 => "loopStart"
  | 2 => "loopEnd"
  | _ + 3 => unknown

/-- A tag, by name if it was by place. -/
def spelledTag (unknown : String) : Json → Json
  | .number (.integer n) =>
      if 0 ≤ n.value then .string (tagAt unknown n.value.toNat) else .number (.integer n)
  | tag => tag

def spelledMember (unknown : String) (m : String × Json) : String × Json :=
  if m.1 = Tagged.tagName then (m.1, spelledTag unknown m.2) else m

/-- An instruction with its tag by name. -/
def spelled (unknown : String) : Json → Json
  | .object members => .object (members.map (spelledMember unknown))
  | .array (tag :: items) => .array (spelledTag unknown tag :: items)
  | j => j

/-- An instruction has its tag by place. -/
inductive IsNumbered : Json → Prop
  | object {members : List (String × Json)} {n : Integer} :
      .number (.integer n) ∈ valuesOf ["type"] members → 0 ≤ n.value → IsNumbered (.object members)
  | array {items : List Json} {n : Integer} :
      0 ≤ n.value → IsNumbered (.array (.number (.integer n) :: items))

/-- What stands for an instruction has its tag by name. -/
theorem StandsFor.not_isNumbered {j : Json} {i : Instruction} (stands : StandsFor j i) :
    ¬ IsNumbered j := by
  intro numbered
  cases numbered with
  | object isTag =>
    cases stands with
    | object single =>
      rw [single, List.mem_singleton] at isTag
      cases isTag
  | array => cases stands

theorem spelledTag_eq_self {unknown : String} {tag : Json}
    (named : ∀ n : Integer, 0 ≤ n.value → tag ≠ .number (.integer n)) :
    spelledTag unknown tag = tag := by
  unfold spelledTag
  split
  next n => exact if_neg fun isPlace => named n isPlace rfl
  next => rfl

theorem spelled_eq_self {unknown : String} {j : Json} (named : ¬ IsNumbered j) :
    spelled unknown j = j := by
  cases j with
  | object members =>
    have kept : ∀ m ∈ members, spelledMember unknown m = m := by
      rintro ⟨name, tag⟩ member
      unfold spelledMember
      split
      next isTag =>
        have listed : tag ∈ valuesOf ["type"] members :=
          List.mem_map.2 ⟨(name, tag), List.mem_filter.2
            ⟨member, List.contains_iff_mem.2 (List.mem_singleton.2 isTag)⟩, rfl⟩
        have notPlace : ∀ n : Integer, 0 ≤ n.value → tag ≠ .number (.integer n) := by
          rintro n isPlace rfl
          exact named (.object listed isPlace)
        rw [spelledTag_eq_self notPlace]
      next => rfl
    rw [spelled, List.map_congr_left kept, List.map_id']
  | array items =>
    cases items with
    | nil => rfl
    | cons tag items =>
      have notPlace : ∀ n : Integer, 0 ≤ n.value → tag ≠ .number (.integer n) := by
        rintro n isPlace rfl
        exact named (.array isPlace)
      rw [spelled, spelledTag_eq_self notPlace]
  | null => rfl
  | boolean => rfl
  | number => rfl
  | string => rfl

section

variable {unknown : String} (isUnknown : unknown ∉ knownTags)

include isUnknown

theorem numbered_eq_named (place : Nat) :
    tagged.numbered place = tagged.named (tagAt unknown place) := by
  match place with
  | 0 => rfl
  | 1 => rfl
  | 2 => rfl
  | _ + 3 =>
    rw [tagAt, named_of_not_mem isUnknown]
    rfl

theorem ofTag_spelledTag (tag : Json) :
    tagged.ofTag .nameOrPlace tag = tagged.ofTag .name (spelledTag unknown tag) := by
  cases tag with
  | number n =>
    cases n with
    | integer n =>
      by_cases isPlace : 0 ≤ n.value
      · simp only [spelledTag, Tagged.ofTag, isPlace, reduceIte, numbered_eq_named isUnknown]
      · simp only [spelledTag, Tagged.ofTag, isPlace, reduceIte]
    | floating x => rfl
  | null => rfl
  | boolean => rfl
  | string => rfl
  | array => rfl
  | object => rfl

theorem gather_spelledMember (g : Tagged.Gathered Instruction) (m : String × Json) :
    tagged.gather .nameOrPlace g m = tagged.gather .name g (spelledMember unknown m) := by
  unfold spelledMember
  split
  next isTag => simp only [Tagged.gather, isTag, reduceIte, ofTag_spelledTag isUnknown]
  next other => simp only [Tagged.gather, other, reduceIte]

/-- Where a tag may be by place, an instruction is decoded like the one with its tag by name. -/
theorem decode_spelled (j : Json) :
    tagged.decode .nameOrPlace j = tagged.decode .name (spelled unknown j) := by
  cases j with
  | object members =>
    have gathers := funext₂ (gather_spelledMember isUnknown)
    simp only [spelled, Tagged.decode, List.foldlM_map, gathers]
  | array items =>
    cases items with
    | nil => rfl
    | cons tag items => simp only [spelled, Tagged.decode, ofTag_spelledTag isUnknown]
  | null => rfl
  | boolean => rfl
  | number => rfl
  | string => rfl

end

end Instruction

namespace Program

/-- A program with all tags by name. -/
def spelled (unknown : String) : Json → Json
  | .array items => .array (items.map (Instruction.spelled unknown))
  | j => j

/-- Some instruction of a program has its tag by place. -/
inductive IsNumbered : Json → Prop
  | intro {items : List Json} {item : Json} :
      item ∈ items → Instruction.IsNumbered item → IsNumbered (.array items)

theorem StandsFor.not_isNumbered {j : Json} {p : Program} (stands : StandsFor j p) :
    ¬ IsNumbered j := by
  intro numbered
  cases numbered with
  | @intro items item member isNumbered =>
    cases stands with
    | intro each =>
      have named : ∀ item ∈ items, ¬ Instruction.IsNumbered item :=
        ((List.forall₂_and_left items p).1
          (each.imp fun _ _ stands => ⟨stands.not_isNumbered, stands⟩)).1
      exact named item member isNumbered

theorem spelled_eq_self {unknown : String} {j : Json} (named : ¬ IsNumbered j) :
    spelled unknown j = j := by
  cases j with
  | array items =>
    have kept : items.map (Instruction.spelled unknown) = items.map id :=
      List.map_congr_left fun item member =>
        Instruction.spelled_eq_self fun numbered => named (.intro member numbered)
    rw [spelled, kept, List.map_id]
  | null => rfl
  | boolean => rfl
  | number => rfl
  | string => rfl
  | object => rfl

theorem decode_spelled {unknown : String} (isUnknown : unknown ∉ Instruction.knownTags) (j : Json) :
    Program.decode .nameOrPlace j = Program.decode .name (spelled unknown j) := by
  have decodes := funext (Instruction.decode_spelled isUnknown)
  cases j with
  | array items =>
    rw [Program.decode, spelled, decodeItems, decodes, Program.decode, decodeItems, List.mapM_map]
    rfl
  | null => rfl
  | boolean => rfl
  | number => rfl
  | string => rfl
  | object => rfl

end Program

/-! ## The request -/

namespace HostMessage

/-- The line that asks to run the program of a text and says nothing else. -/
def runLine (program : String) : String :=
  "\x7b\"type\":\"runRecipe\",\"program\":" ++ program ++ "\x7d"

/-- What the line says, given what the text of the program says. -/
def runMembers (program : Json) : List (String × Json) :=
  [("type", .string "runRecipe"), ("program", program)]

theorem toList_runLine (text : String) :
    (runLine text).toList = '\x7b' :: (renderString "type" ++ ':' :: (renderString "runRecipe" ++
      ',' :: (renderString "program" ++ ':' :: (text.toList ++ ['\x7d'])))) := by
  have front : "\x7b\"type\":\"runRecipe\",\"program\":".toList = '\x7b' ::
      (renderString "type" ++ ':' :: (renderString "runRecipe" ++
        ',' :: (renderString "program" ++ [':']))) := by decide
  have back : "\x7d".toList = ['\x7d'] := by decide
  -- The literals are evaluated apart from the text, whose characters are not known.
  have parts (first last : String) :
      (first ++ text ++ last).toList = first.toList ++ (text.toList ++ last.toList) := by
    simp only [String.toList_append, List.append_assoc]
  refine (parts _ _).trans ?_
  simp only [front, back, List.cons_append, List.append_assoc, List.nil_append]

theorem isAcceptable_runLine {text : String} {j : Json} (acceptable : IsAcceptable j text.toList)
    (flat : j.nesting ≤ 126) : IsAcceptable (.object (runMembers j)) (runLine text).toList := by
  have deep : (Json.object (runMembers j)).nesting ≤ 127 := by
    rw [nesting_object_le_succ]
    simp [runMembers, nesting, flat]
  rw [toList_runLine, runMembers]
  generalize text.toList = t at acceptable
  cases acceptable with
  | @intro before inner after blank isText blank' =>
    -- The blanks around the program's own text are blanks of the member that it becomes.
    have tag := IsMember.intro (isStringText_renderString "type") areBlank_nil areBlank_nil
      (IsText.string (isStringText_renderString "runRecipe"))
    have program :=
      IsMember.intro (isStringText_renderString "program") areBlank_nil blank isText
    have row := Row.cons (.first areBlank_nil) tag
      (.cons (.later areBlank_nil areBlank_nil) program (.nil blank'))
    have line := IsAcceptable.intro areBlank_nil (.object row) areBlank_nil deep
    simpa only [List.nil_append, List.append_nil, List.cons_append, List.append_assoc] using line

/-- The line asks to run just what its program is decoded as. -/
theorem ofLine_runLine_eq_iff {text : String} {j : Json} (acceptable : IsAcceptable j text.toList)
    (flat : j.nesting ≤ 126) {p : Program} :
    ofLine (runLine text) = .run ⟨p, .null, none⟩ ↔ Program.decode .nameOrPlace j = .ok p := by
  have means : ofLine (runLine text) = .run ⟨p, .null, none⟩ ↔
      StandsFor (.object (runMembers j)) (.run ⟨p, .null, none⟩) := by
    have valid : (HostMessage.run ⟨p, .null, none⟩).isValid = true := rfl
    rw [← and_iff_left valid (a := ofLine (runLine text) = _), ofLine_eq_iff]
    exact exists_isAcceptable_iff (isAcceptable_runLine acceptable flat)
  rw [means, Program.decode_eq_ok_iff]
  constructor
  · intro stands
    cases stands with
    | runObject _ _ given instructions =>
      obtain ⟨rfl, -⟩ := List.cons.inj given
      exact ⟨_, rfl, instructions⟩
  · rintro ⟨items, rfl, instructions⟩
    exact .runObject rfl (by decide) rfl instructions .absent .absent

/-- Consider the text of a JSON value that is nested no deeper than the request allows.  If all tags
are by name, it is the text of a program exactly if the line around it asks to run that program,
with no initial value and no id.  If some tag is by place, it is the text of no program, but the
line asks to run what the value stands for once these tags are by name. -/
theorem runLine_agrees_ofText {unknown : String} (isUnknown : unknown ∉ Instruction.knownTags)
    {text : String} {j : Json} (acceptable : IsAcceptable j text.toList) (flat : j.nesting ≤ 126) :
    (¬ Program.IsNumbered j → ∀ p,
      Program.ofText text = .ok p ↔ ofLine (runLine text) = .run ⟨p, .null, none⟩) ∧
    (Program.IsNumbered j → ∀ p, Program.ofText text ≠ .ok p) ∧
    ∀ p, ofLine (runLine text) = .run ⟨p, .null, none⟩ ↔
      Program.StandsFor (Program.spelled unknown j) p := by
  have direct : ∀ p, Program.ofText text = .ok p ↔ Program.StandsFor j p := by
    intro p
    rw [Program.ofText_eq_ok_iff, exists_isAcceptable_iff acceptable]
  have requested : ∀ p, ofLine (runLine text) = .run ⟨p, .null, none⟩ ↔
      Program.StandsFor (Program.spelled unknown j) p := by
    intro p
    rw [ofLine_runLine_eq_iff acceptable flat, Program.decode_spelled isUnknown,
      Program.decode_name_eq_ok_iff]
  refine ⟨fun named p => ?_, fun numbered p read => ?_, requested⟩
  · rw [direct, requested, Program.spelled_eq_self named]
  · exact ((direct p).1 read).not_isNumbered numbered

/-- A loop around nothing, with its tags by place, and an instruction that is not supported. -/
def numberedLoop : String := "[[1,\"a\"],\x7b\"identifier\":\"a\",\"type\":2\x7d,[9]]"

/-- The same loop with its tags by name. -/
def namedLoop : String :=
  "[[\"loopStart\",\"a\"],\x7b\"identifier\":\"a\",\"type\":\"loopEnd\"\x7d,[\"?\"]]"

theorem runLine_agrees_ofText_numberedLoop :
    (∀ p, Program.ofText numberedLoop ≠ .ok p) ∧
      ofLine (runLine numberedLoop) =
        .run ⟨[.loopStart "a" 1, .loopEnd "a", .unsupported], .null, none⟩ ∧
      Program.ofText namedLoop = .ok [.loopStart "a" 1, .loopEnd "a", .unsupported] := by
  have numbered : IsAcceptable (.array [.array [.ofCount 1, .string "a"],
      .object [("identifier", .string "a"), ("type", .ofCount 2)], .array [.ofCount 9]])
      numberedLoop.toList := valueOfText_eq_ok_iff.1 (by decide +kernel)
  have named : IsAcceptable (.array [.array [.string "loopStart", .string "a"],
      .object [("identifier", .string "a"), ("type", .string "loopEnd")], .array [.string "?"]])
      namedLoop.toList := valueOfText_eq_ok_iff.1 (by decide +kernel)
  have isUnknown : "?" ∉ Instruction.knownTags := by decide
  have stands : Program.StandsFor
      (.array [.array [.string "loopStart", .string "a"],
        .object [("identifier", .string "a"), ("type", .string "loopEnd")], .array [.string "?"]])
      [.loopStart "a" 1, .loopEnd "a", .unsupported] :=
    .intro (.cons (.array (.loopStartItems rfl .absent))
      (.cons (.object rfl (.loopEndMembers rfl rfl)) (.cons (.array (.otherItems isUnknown)) .nil)))
  obtain ⟨-, notDirect, requested⟩ := runLine_agrees_ofText isUnknown numbered (by decide)
  obtain ⟨agree, -, requested'⟩ := runLine_agrees_ofText isUnknown named (by decide)
  exact ⟨notDirect (.intro List.mem_cons_self (.array (by decide))), (requested _).2 stands,
    (agree stands.not_isNumbered _).2 ((requested' _).2 stands)⟩

end HostMessage

end RecipeEngine
