import RecipeEngine.Proofs.Function.Base64
import RecipeEngine.Proofs.Function.Builtin
import RecipeEngine.Proofs.Run.Outcome
import RecipeEngine.Proofs.Text.Octets

/-!
# Encoding and decoding texts

The Base64 form of a text is a text again, so it can be encoded once more.  A recipe that encodes a
text any number of times and then decodes it as many times gives the text back
(`Builtin.decodes_what_it_encodes`).
-/

namespace RecipeEngine.Builtin

open Text

/-! ## One text -/

theorem octets_base64OfText (s : String) :
    octets (base64OfText s).toList = Base64.encode (octets s.toList) := by
  rw [base64OfText, String.toList_ofList]
  exact octets_singles (Base64.forall_mem_encode Base64.toNat_symbol_lt (by decide) _)

/-- A text is the text that its Base64 form stands for. -/
theorem textOfBase64_base64OfText (s : String) : textOfBase64 (base64OfText s) = .ok s := by
  rw [textOfBase64, octets_base64OfText, Base64.decode_encode]
  simp only [ofOctetsLenient_octets, String.ofList_toList]

theorem encodeText_string (s : String) : encodeText (.string s) = .value (.string (base64OfText s)) :=
  rfl

theorem decodeText_encoded (s : String) :
    decodeText (.string (base64OfText s)) = .value (.string s) := by
  rw [decodeText, onText, textOfBase64_base64OfText]

/-! ## Many times over -/

/-- A text that has been encoded a number of times. -/
def encoded (s : String) (count : Nat) : Json := .string (base64OfText^[count] s)

theorem encodeText_encoded (s : String) (count : Nat) :
    encodeText (encoded s count) = .value (encoded s (count + 1)) := by
  rw [encoded, encodeText_string, encoded, Function.iterate_succ_apply']

theorem decodeText_encoded_succ (s : String) (count : Nat) :
    decodeText (encoded s (count + 1)) = .value (encoded s count) := by
  rw [encoded, Function.iterate_succ_apply', decodeText_encoded, encoded]

theorem lookup_encodeKey : registry.lookup encodeKey = some encodeText := rfl

theorem lookup_decodeKey : registry.lookup decodeKey = some decodeText := rfl

/-- Encoding a text a number of times and decoding it as many times gives the text back, whatever
the text is. -/
theorem decodes_what_it_encodes (s : String) (count : UInt32) (encoder decoder : String) :
    (∃ t, encodeText (.string s) = .value t ∧ decodeText t = .value (.string s)) ∧
      (Execution.ofProgram registry
        [.step ⟨encoder, encodeKey, count⟩, .step ⟨decoder, decodeKey, count⟩] (.string s)).result =
        .ok (.string s) := by
  refine ⟨⟨_, encodeText_string s, decodeText_encoded s⟩, ?_⟩
  have encodes := feed_step (s := ⟨encoder, encodeKey, count⟩) lookup_encodeKey none (encoded s)
    fun k _ => encodeText_encoded s k
  -- The decoder goes back along the row that the encoder has come.
  have decodes := feed_step (s := ⟨decoder, decodeKey, count⟩) lookup_decodeKey none
    (fun k => encoded s (times count - k)) fun k (below : k < times count) => by
      rw [show times count - k = times count - (k + 1) + 1 by omega]
      exact decodeText_encoded_succ s _
  simp only [Step.repetitions, Nat.sub_zero, Nat.sub_self] at encodes decodes
  have fed : feed registry (applicationSequence
      [.single ⟨encoder, encodeKey, count⟩, .single ⟨decoder, decodeKey, count⟩]) (.string s) =
        some (.string s) := by
    rw [applicationSequence, plan_cons, plan_cons, plan_nil, List.append_nil,
      List.filterMap_append, feed_append]
    exact (congrArg (Option.bind · _) encodes).trans decodes
  have ends := (Execution.result_ofBlocks_eq_ok_iff isUsable_registry).2 fed
  exact ends

end RecipeEngine.Builtin
