import RecipeEngine.Proofs.Message.Host
import RecipeEngine.Proofs.Worker.Live

/-!
# Correlation ids

A line that is an object is read in one of two ways: as a message, or, if it is none, only for the
id that it carries.  Both ways find the same id, that of the last member for it
(`HostMessage.correlation_ofLine`), and every event that answers the line carries that id
(`Live.keeps_correlation`).  Only a request to get ready is answered without an id.
-/

namespace RecipeEngine

open Decode Json

namespace HostMessage

/-- The id that the last member for it gives, if that is a string. -/
def lastCorrelation (members : List (String × Json)) : Option String :=
  (valuesOf [correlationName] members).getLast?.bind Json.text?

variable {line : String} {members : List (String × Json)}

theorem carriedCorrelation_eq (acceptable : IsAcceptable (.object members) line.toList) :
    carriedCorrelation line = lastCorrelation members := by
  rw [carriedCorrelation, valueOfText_eq_ok_iff.2 acceptable]
  exact congrArg (·.bind Json.text?) member?_object

/-- A request that gives an id gives it once. -/
theorem IsCorrelation.eq_lastCorrelation {correlation : Option String}
    (given : IsCorrelation (valuesOf ["correlationId"] members) correlation) :
    correlation = lastCorrelation members := by
  rw [lastCorrelation, correlationName]
  generalize valuesOf ["correlationId"] members = values at given ⊢
  cases given <;> rfl

theorem correlation_of_run (acceptable : IsAcceptable (.object members) line.toList)
    {request : RunRequest} (read : ofLine line = .run request) :
    request.correlation = lastCorrelation members := by
  obtain ⟨j, acceptable', stands⟩ := ofLine_eq_iff.1 ⟨read, rfl⟩
  -- A text stands for one value only.
  cases eq_of_isAcceptable acceptable acceptable'
  cases stands with
  | runObject _ _ _ _ _ given => exact given.eq_lastCorrelation

theorem correlation_of_invalid {reason : Failure} {correlation : Option String}
    (read : ofLine line = .invalid reason correlation) :
    correlation = carriedCorrelation line := by
  rw [ofLine] at read
  cases decoded : ofText line with
  | error e =>
    rw [decoded] at read
    cases read
    rfl
  | ok message =>
    obtain ⟨j, -, stands⟩ := ofText_eq_ok_iff.1 decoded
    rw [decoded] at read
    cases read
    cases stands.isValid_eq_true

/-- Whichever way an object is read, the id is that of its last member for it, unless the object is
a request to get ready. -/
theorem correlation_ofLine (acceptable : IsAcceptable (.object members) line.toList) :
    (ofLine line).correlation =
      if ofLine line = .prepare then none else lastCorrelation members := by
  cases read : ofLine line with
  | prepare => rfl
  | run request => exact correlation_of_run acceptable read
  | invalid reason correlation =>
    exact (correlation_of_invalid read).trans (carriedCorrelation_eq acceptable)

end HostMessage

namespace Live

/-- Every event that answers an object carries the id that the last member for it gives, or none if
that is no string or the object is a request to get ready.  It makes no difference in which state
the worker is, how its module and its functions fare, and whether the object is a message at all:
the id of a request is the one that an invalid message with the same text would carry. -/
theorem keeps_correlation {line : String} {members : List (String × Json)}
    (acceptable : IsAcceptable (.object members) line.toList) (logs : Bool) (m : Measurement)
    (w : Worker) (outside : Outside) :
    let message := HostMessage.ofLine line
    let sent := (w.receive message).block m
    outside.Gains (handle logs m w message outside).2 (w.receive message).applications sent ∧
      (∀ e ∈ sent, e.correlation =
        if message = .prepare then none else HostMessage.lastCorrelation members) ∧
      ∀ request, message = .run request →
        request.correlation = HostMessage.carriedCorrelation line := by
  intro message sent
  refine ⟨gains_handle logs m w message outside, fun e member => ?_, fun request read => ?_⟩
  · rw [Worker.correlation_of_mem_block member]
    exact HostMessage.correlation_ofLine acceptable
  · rw [HostMessage.correlation_of_run acceptable read,
      HostMessage.carriedCorrelation_eq acceptable]

/-- An object that gives an id twice and is therefore no message. -/
def ambiguous : String :=
  "\x7b\"type\":\"runRecipe\",\"program\":[],\"correlationId\":null,\"correlationId\":\"a\"\x7d"

theorem keeps_correlation_ambiguous :
    IsAcceptable (.object [("type", .string "runRecipe"), ("program", .array []),
        ("correlationId", .null), ("correlationId", .string "a")]) ambiguous.toList ∧
      (HostMessage.ofLine ambiguous).isValid = false ∧
      ∀ e ∈ ((Worker.new .builtin (.ofSeconds 1) true).receive
        (HostMessage.ofLine ambiguous)).block ⟨.ofSeconds 1, "1"⟩, e.correlation = some "a" := by
  have acceptable : IsAcceptable (.object [("type", .string "runRecipe"), ("program", .array []),
      ("correlationId", .null), ("correlationId", .string "a")]) ambiguous.toList :=
    valueOfText_eq_ok_iff.1 (by decide +kernel)
  have invalid : (HostMessage.ofLine ambiguous).isValid = false := by decide +kernel
  obtain ⟨-, carried, -⟩ := keeps_correlation acceptable false ⟨.ofSeconds 1, "1"⟩
    (Worker.new .builtin (.ofSeconds 1) true) ⟨.create true, []⟩
  refine ⟨acceptable, invalid, fun e member => ?_⟩
  rw [carried e member, if_neg]
  · rfl
  · intro prepares
    rw [prepares] at invalid
    cases invalid

end Live

end RecipeEngine
