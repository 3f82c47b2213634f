import RecipeEngine.Proofs.Text.Octets
import RecipeEngine.Worker.Input

/-!
# Lines of text

A newline is one octet, which is part of no other character, so cutting the octets of a text into
lines is cutting the text.  Lines that were ended by a newline each are cut apart again
(`Input.split_lines`), and a text means a message for each of its lines that is not blank
(`Input.messages_octets`).
-/

namespace RecipeEngine.Input

open Text

/-! ## Cutting octets -/

/-- Octets that are no newlines belong to the current line. -/
theorem splitFrom_append {bytes : List UInt8} (noNewline : newline ∉ bytes)
    (line rest : List UInt8) :
    splitFrom line (bytes ++ rest) = splitFrom (bytes.reverse ++ line) rest := by
  induction bytes generalizing line with
  | nil => rfl
  | cons octet bytes ih =>
    have other : octet ≠ newline := fun same => noNewline (same ▸ List.mem_cons_self ..)
    have later : newline ∉ bytes := fun member => noNewline (List.mem_cons_of_mem _ member)
    rw [List.cons_append, splitFrom, if_neg other, ih later, List.reverse_cons, List.append_assoc]
    rfl

theorem splitFrom_newline (line rest : List UInt8) :
    splitFrom line (newline :: rest) = line.reverse :: split rest := by
  rw [splitFrom, if_pos rfl, split]

/-! ## Cutting texts -/

theorem newline_not_mem_octets {cs : List Char} (noNewline : '\n' ∉ cs) :
    newline ∉ octets cs := by
  intro member
  exact noNewline (mem_of_mem_octets member (by decide))

theorem utf8EncodeChar_newline : String.utf8EncodeChar '\n' = [newline] := by decide

/-- Lines that a newline ends are what is found when they are cut apart. -/
theorem split_lines {ls : List (List Char)} (noNewline : ∀ l ∈ ls, '\n' ∉ l) :
    split (octets (ls.flatMap (· ++ ['\n']))) = ls.map octets := by
  induction ls with
  | nil => rfl
  | cons l ls ih =>
    have here := newline_not_mem_octets (noNewline l (List.mem_cons_self ..))
    rw [List.flatMap_cons, octets_append, octets_append, octets_cons, octets_nil,
      utf8EncodeChar_newline,
      List.append_nil, List.append_assoc, split, splitFrom_append here, List.append_nil,
      List.cons_append, List.nil_append, splitFrom_newline, List.reverse_reverse,
      ih fun l later => noNewline l (List.mem_cons_of_mem _ later), List.map_cons]

/-! ## Messages -/

/-- What stands on the lines of a text, trimmed, apart from the blank ones. -/
def lines (cs : List Char) : List (List Char) := ((cs.splitOn '\n').map trim).filter (· ≠ [])

theorem texts_ofOctets (cs : List Char) (rest : List Line) :
    texts (Line.ofOctets (octets cs) :: rest) =
      ([cs].map trim |>.filter (· ≠ [])).map String.ofList ++ texts rest := by
  rw [Line.ofOctets, ofOctets?_octets]
  cases trimmed : trim cs with
  | nil => simp [trimmed, texts]
  | cons c cs => simp [trimmed, texts]

/-- Cutting the octets of a text and reading the lines is cutting the text, `line` being the
characters of the current line, the last one first. -/
theorem texts_splitFrom (cs line : List Char) :
    texts ((splitFrom (octets line.reverse).reverse (octets cs)).map Line.ofOctets) =
      (((cs.splitOnPPrepend (· == '\n') line).map trim).filter (· ≠ [])).map String.ofList := by
  induction cs generalizing line with
  | nil =>
    rw [octets_nil, List.splitOnPPrepend_nil, splitFrom]
    by_cases empty : line.reverse = []
    · rw [empty]
      rfl
    · have hasOctets : octets line.reverse ≠ [] := fun none => empty (octets_eq_nil_iff.1 none)
      rw [if_neg (by simpa using hasOctets), List.reverse_reverse, List.map_cons, texts_ofOctets]
      exact List.append_nil _
  | cons c cs ih =>
    by_cases isNewline : c = '\n'
    · have later : texts ((splitFrom [] (octets cs)).map Line.ofOctets) = _ := ih []
      rw [isNewline, octets_cons, utf8EncodeChar_newline, List.cons_append, List.nil_append,
        splitFrom_newline, List.reverse_reverse, List.splitOnPPrepend_cons_pos rfl, List.map_cons,
        texts_ofOctets, split, later, ← List.map_append, ← List.filter_append, ← List.map_append]
      rfl
    · have inLine : newline ∉ octets [c] :=
        newline_not_mem_octets fun member => isNewline (List.mem_singleton.1 member).symm
      have longer : (octets [c]).reverse ++ (octets line.reverse).reverse =
          (octets (c :: line).reverse).reverse := by
        rw [← List.reverse_append, ← octets_append, List.reverse_cons]
      rw [← List.singleton_append, octets_append, splitFrom_append inLine, longer, ih,
        List.singleton_append, List.splitOnPPrepend_cons_neg (by simpa using isNewline)]

theorem messages_octets (cs : List Char) :
    messages (octets cs) = (lines cs).map (HostMessage.ofLine ∘ String.ofList) := by
  have texts := texts_splitFrom cs []
  rw [List.splitOnPPrepend_nil_right] at texts
  rw [messages, split, lines, ← List.map_map]
  exact congrArg _ texts

end RecipeEngine.Input
