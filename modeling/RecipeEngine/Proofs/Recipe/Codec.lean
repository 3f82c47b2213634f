import RecipeEngine.Proofs.Decode.Tagged
import RecipeEngine.Recipe.Codec

/-!
# Recipes read back

The JSON value of an instruction, and so that of a program, is decoded as the same instruction
again, however tags may be written.
-/

namespace RecipeEngine

open Decode Json

/-! ## Parts -/

theorem decodeCount_ofCount (n : UInt32) : decodeCount (Json.ofCount n) = .ok n := by
  have fits : n.toNat < UInt32.size := n.toNat_lt
  show (if n.toNat < UInt32.size then _ else _) = _
  rw [if_pos fits, UInt32.ofNat_toNat]

/-- A tag in front of members is the tag of the whole, and the members are the others. -/
theorem Decode.Tagged.decode_taggedMembers {α : Type} {t : Tagged α} (style : TagStyle)
    {tag : String} {members : List (String × Json)} {decode : ContentDecoder α} {a : α}
    (untagged : ∀ m ∈ members, m.1 ≠ Tagged.tagName) (named : t.named tag = .ok decode)
    (decoded : decode (.members members) = .ok a) :
    t.decode style (.object (taggedMembers tag members)) = .ok a := by
  have apart : ∀ m ∈ members, m.1 ∉ [tagName] := fun m member isTag =>
    untagged m member (List.mem_singleton.1 isTag)
  have isTag : (tagName, Json.string tag).1 ∈ [tagName] := List.mem_singleton.2 rfl
  rw [decode_object_eq_ok_iff, taggedMembers, valuesOf_cons_of_mem isTag,
    without_cons_of_mem isTag, valuesOf_eq_nil apart, without_eq_self apart]
  refine ⟨.string tag, decode, rfl, ?_, decoded⟩
  cases style <;> exact named

/-! ## Instructions -/

theorem Step.ofMembers_members (s : Step) :
    Step.record.ofMembers s.members = .ok (s.name, s.functionKey, s.repeatCount, ()) :=
  Record.ofMembers_eq_ok_iff.2
    ⟨.once rfl, .once rfl, .once (decodeCount_ofCount s.repeatCount), trivial⟩

/-- An instruction is decoded from its own JSON value. -/
theorem Instruction.decode_toJson (style : Tagged.TagStyle) (i : Instruction) :
    Instruction.tagged.decode style i.toJson = .ok i := by
  cases i with
  | step s =>
    refine Tagged.decode_taggedMembers style (by simp [Step.members, Tagged.tagName]) rfl ?_
    simp only [Record.ofContent, Step.ofMembers_members, map_ok, Step.ofParts]
  | loopStart identifier iterations =>
    refine Tagged.decode_taggedMembers style (by simp [Tagged.tagName]) rfl ?_
    have read : loopStartRecord.ofMembers
        [("identifier", .string identifier), ("iterations", .ofCount iterations)] =
        .ok (identifier, iterations, ()) :=
      Record.ofMembers_eq_ok_iff.2 ⟨.once rfl, .once (decodeCount_ofCount iterations), trivial⟩
    simp only [Record.ofContent, read, map_ok]
  | loopEnd identifier =>
    refine Tagged.decode_taggedMembers style (by simp [Tagged.tagName]) rfl ?_
    have read : loopEndRecord.ofMembers [("identifier", .string identifier)] =
        .ok (identifier, ()) := Record.ofMembers_eq_ok_iff.2 ⟨.once rfl, trivial⟩
    simp only [Record.ofContent, read, map_ok]
  | unsupported => exact Tagged.decode_taggedMembers style (List.forall_mem_nil _) rfl rfl

/-- A program is decoded from an array, item by item. -/
theorem Program.decode_eq_ok_iff {style : Tagged.TagStyle} {j : Json} {p : Program} :
    Program.decode style j = .ok p ↔
      ∃ items, j = .array items ∧
        List.Forall₂ (fun j i => Instruction.tagged.decode style j = .ok i) items p := by
  constructor
  · intro decoded
    cases j with
    | array items => exact ⟨items, rfl, mapM_eq_ok_iff.1 decoded⟩
    | null => cases decoded
    | boolean => cases decoded
    | number => cases decoded
    | string => cases decoded
    | object => cases decoded
  · rintro ⟨items, rfl, instructions⟩
    exact mapM_eq_ok_iff.2 instructions

/-- The instructions of a program are decoded one by one from its JSON value. -/
theorem Program.forall₂_toJson (style : Tagged.TagStyle) (p : Program) :
    List.Forall₂ (fun j i => Instruction.tagged.decode style j = .ok i)
      (p.map Instruction.toJson) p := by
  rw [List.forall₂_map_left_iff, List.forall₂_same]
  exact fun i _ => Instruction.decode_toJson style i

end RecipeEngine
