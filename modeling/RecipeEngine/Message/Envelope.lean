import RecipeEngine.Message.Emitter
import RecipeEngine.Message.Host

/-!
# Events on their way to the host
-/

namespace RecipeEngine

open Decode

structure Envelope where
  correlation : Option String
  emittedAt : Timestamp
  event : Event
  deriving DecidableEq

def TaggedEvent.sentAt (e : TaggedEvent) (emittedAt : Timestamp) : Envelope :=
  ⟨e.correlation, emittedAt, e.event⟩

namespace Envelope

def emittedAtName : String := "emittedAt"

/-- The members of an envelope, the time being written as `time`. -/
def membersAt (time : Json) (correlation : Option String) (event : Event) :
    List (String × Json) :=
  HostMessage.correlationMembers correlation ++ (emittedAtName, time) :: event.members

def toJson (e : Envelope) : Json :=
  .object (membersAt (.string (String.ofList e.emittedAt.render)) e.correlation e.event)

def line (e : Envelope) : List Char := e.toJson.render ++ ['\n']

/-! ## Reading -/

def record : Record (Option String × Timestamp × Unit) :=
  .cons HostMessage.correlationMember
    (.cons
      { name := emittedAtName
        aliases := []
        decode := decodeTimestamp
        absent := none
        unfilled := none }
      .nil)

def title : String := "struct EventEnvelope"

/-- An envelope in the making: its own members, and those for the event, the last one first. -/
structure Gathered where
  slots : record.Slots
  others : List (String × Json)

/-- Reads one more member, its name having been read.  What is not the envelope's own is kept for
the event. -/
def readMember (budget levels : Nat) (g : Gathered) (name : String) : Reader Gathered := fun cs =>
  match record.accept name g.slots with
  | none => do
      let (others, cs) ← gatherMember (readValue budget levels) g.others name cs
      .ok ({ g with others := others }, cs)
  | some (.error e) => failUnplaced e cs
  | some (.ok put) => do
      let (_, cs) ← readColon cs
      let (slots, cs) ← Record.readInto budget put cs
      .ok ({ g with slots := slots }, cs)

def finish (g : Gathered) : Except ShapeError Envelope := do
  let (correlation, emittedAt, ()) ← record.finish g.slots
  let event ← Event.tagged.decode .nameOrPlace (.object g.others.reverse)
  .ok ⟨correlation, emittedAt, event⟩

def readMembers (budget levels : Nat) : Reader Envelope := fun cs => do
  let (g, cs) ← foldMembers (readMember budget levels) budget budget true ⟨record.empty, []⟩ cs
  match finish g with
  | .ok e => .ok (e, cs)
  | .error e => failUnplaced e cs

def read (budget levels : Nat) : Reader Envelope :=
  readByKind budget
    (fun cs => failShape (.wrongKind .array title) cs)
    (Tagged.nested levels fun levels => readObject (readMembers budget levels))
    (fun j => wrongKind j title)

def ofText (text : String) : Except Failure Envelope :=
  fromText (fun budget => read budget maxNesting) text

end Envelope

end RecipeEngine
