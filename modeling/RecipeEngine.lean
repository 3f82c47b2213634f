import RecipeEngine.Main
import RecipeEngine.Message.Channel
import RecipeEngine.Worker.Handle
import RecipeEngine.Proofs.Recipe.Balance
import RecipeEngine.Proofs.Recipe.Block
import RecipeEngine.Proofs.Recipe.Defect
import RecipeEngine.Proofs.Recipe.Plan
import RecipeEngine.Proofs.Recipe.Search
import RecipeEngine.Proofs.Run.Execution
import RecipeEngine.Proofs.Run.Plan
import RecipeEngine.Proofs.Run.Program
import RecipeEngine.Proofs.Run.Position
import RecipeEngine.Proofs.Run.Walk
import RecipeEngine.Proofs.Run.Passing
import RecipeEngine.Proofs.Run.Feed
import RecipeEngine.Proofs.Run.Outcome
import RecipeEngine.Proofs.Run.Append
import RecipeEngine.Proofs.Run.Report
import RecipeEngine.Proofs.Worker.Turn
import RecipeEngine.Proofs.Worker.Answer
import RecipeEngine.Proofs.Worker.Session
import RecipeEngine.Proofs.Recipe.Iteration
import RecipeEngine.Proofs.Run.Progress
import RecipeEngine.Proofs.Run.Inlining
import RecipeEngine.Proofs.Run.Surroundings
import RecipeEngine.Proofs.Run.Repetition
import RecipeEngine.Proofs.Run.Ending
import RecipeEngine.Proofs.Worker.BringUp
import RecipeEngine.Proofs.Run.Unready
import RecipeEngine.Proofs.Run.Live
import RecipeEngine.Proofs.Worker.Live
import RecipeEngine.Proofs.Worker.Observation
import RecipeEngine.Proofs.Worker.Correlation
import RecipeEngine.Proofs.Worker.Holding
import RecipeEngine.Proofs.Worker.Trace
import RecipeEngine.Proofs.Worker.Keeping
import RecipeEngine.Proofs.Worker.Attempt
import RecipeEngine.Proofs.Json.Basic
import RecipeEngine.Proofs.Json.Grammar
import RecipeEngine.Proofs.Decode.Reader
import RecipeEngine.Proofs.Decode.String
import RecipeEngine.Proofs.Decode.Number
import RecipeEngine.Proofs.Decode.Container
import RecipeEngine.Proofs.Decode.Value
import RecipeEngine.Proofs.Decode.Record
import RecipeEngine.Proofs.Decode.Tagged
import RecipeEngine.Proofs.Message.Host
import RecipeEngine.Proofs.Number.Digits
import RecipeEngine.Proofs.Number.Rounding
import RecipeEngine.Proofs.Number.Nearest
import RecipeEngine.Proofs.Number.Reading
import RecipeEngine.Proofs.Number.Shortest
import RecipeEngine.Proofs.Json.Canonical
import RecipeEngine.Proofs.Json.Reread
import RecipeEngine.Proofs.Json.Render
import RecipeEngine.Proofs.Message.Encoding
import RecipeEngine.Proofs.Text.Octets
import RecipeEngine.Proofs.Timestamp.Read
import RecipeEngine.Proofs.Worker.Input
import RecipeEngine.Proofs.Message.Envelope
import RecipeEngine.Proofs.Function.Builtin
import RecipeEngine.Proofs.Function.Base64
import RecipeEngine.Proofs.Function.RoundTrip
import RecipeEngine.Proofs.Function.Raw
import RecipeEngine.Proofs.Worker.Service
import RecipeEngine.Proofs.Recipe.Matching
import RecipeEngine.Proofs.Recipe.Grammar
import RecipeEngine.Proofs.Message.Program
import RecipeEngine.Proofs.Run.Renaming
import RecipeEngine.Proofs.Function.Bits
import RecipeEngine.Proofs.Function.Canonical
import RecipeEngine.Proofs.Worker.Capacity
import RecipeEngine.Proofs.Text.Order
import RecipeEngine.Proofs.Function.Registry
import RecipeEngine.Proofs.Recipe.Counting
