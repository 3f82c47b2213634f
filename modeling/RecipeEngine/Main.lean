import RecipeEngine.Message.Envelope
import RecipeEngine.Worker.Service
import Std.Time.Format

/-!
# The command line

The service reads messages from standard input, one a line, and writes events to standard output,
one a line, until the input ends.  It is configured by environment variables.
-/

namespace RecipeEngine.Service

def now : IO Timestamp := do
  let instant ← Std.Time.Timestamp.now
  let t := Std.Time.DateTime.ofTimestampWithZone instant .UTC
  let date := (Date.of? t.year t.month.val.toNat t.day.val.toNat).getD Date.epoch
  return { date := date
           hour := ⟨t.hour.val.toNat % 24, by omega⟩
           minute := ⟨t.minute.val.toNat % 60, by omega⟩
           second := ⟨t.second.val.toNat % 61, by omega⟩
           nanosecond := ⟨t.nanosecond.val.toNat % 1000000000, by omega⟩ }

def write (e : TaggedEvent) : IO Unit := do
  let envelope := e.sentAt (← now)
  let out ← IO.getStdout
  out.putStr (String.ofList envelope.line)
  out.flush

def measured (run : PendingRun) : IO (Execution Json × Measurement) := do
  let before ← IO.monoNanosNow
  let x ← IO.lazyPure fun _ => run.execute
  let after ← IO.monoNanosNow
  return (x, ⟨.ofNanoseconds (after - before), "0"⟩)

def answer (w : Worker) (message : HostMessage) : IO Worker := do
  let a := w.receive message
  for e in a.emitter.sent a.events do write e
  match a.run with
  | none => pure ()
  | some run =>
      let (x, m) ← measured run
      for e in a.emitter.sent (runEvents m x) do write e
  return a.worker

/-- Answers the lines of the input; `line` is the beginning of a line that is not yet complete. -/
partial def answerAll (input : IO.FS.Stream) (w : Worker) (line : List UInt8) : IO Unit := do
  let chunk ← input.read 65536
  let bytes := line ++ chunk.toList
  let lines := Input.split bytes
  let unfinished := bytes.getLast?.any (· != Input.newline)
  let complete := if unfinished && !chunk.isEmpty then lines.dropLast else lines
  let mut w := w
  for l in complete do
    match Input.Line.ofOctets l with
    | .text text => w ← answer w (.ofLine text)
    | .blank => pure ()
    | .broken => return
  if chunk.isEmpty then return
  answerAll input w (if unfinished then lines.getLast?.getD [] else [])

def freshId : IO String := do
  let mut cs : List Char := []
  for place in List.range 32 do
    if place = 8 ∨ place = 12 ∨ place = 16 ∨ place = 20 then cs := '-' :: cs
    let n ← IO.rand 0 15
    let n := if place = 12 then 4 else if place = 16 then 8 + n % 4 else n
    cs := hexDigit n :: cs
  return String.ofList cs.reverse

def configFromEnvironment : IO Config := do
  let settings ← Config.settingNames.mapM fun name => return (name, ← IO.getEnv name)
  return .ofSettings (← freshId) fun name => (settings.lookup name).join

end RecipeEngine.Service

def main : IO UInt32 := do
  let config ← RecipeEngine.Service.configFromEnvironment
  match RecipeEngine.checkInbox config.commandBuffer with
  | .error e =>
      IO.eprintln e.message
      return RecipeEngine.Service.failedStart
  | .ok () =>
      RecipeEngine.Service.answerAll (← IO.getStdin) (RecipeEngine.Service.worker config) []
      return 0
