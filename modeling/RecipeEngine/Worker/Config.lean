import RecipeEngine.Number.Duration
import RecipeEngine.Text.Blank

/-!
# Configuration

A setting that cannot be understood counts as missing.
-/

namespace RecipeEngine

structure Config where
  workerId : String
  initTimeout : Duration
  commandBuffer : Nat
  diagnostics : Bool
  deriving DecidableEq

namespace Config

/-! ## Understanding settings -/

def maxNumber : Nat := UInt64.size - 1

/-- The number that a setting holds: decimal digits, a plus sign in front being allowed. -/
def number? (setting : String) : Option Nat :=
  let ds :=
    match setting.toList with
    | '+' :: rest => rest
    | ds => ds
  if ds ≠ [] ∧ ds.all Char.isDigit then
    let n := Number.ofDigits ds
    if n ≤ maxNumber then some n else none
  else none

def isOn (setting : String) : Bool :=
  let word := String.ofList ((Text.trim setting.toList).map Char.toLower)
  word == "1" || word == "true" || word == "yes" || word == "on"

/-! ## The settings -/

def workerIdSetting : String := "BAKE_WORKER_ID"

def initTimeoutSetting : String := "BAKE_INIT_TIMEOUT_SECS"

def commandBufferSetting : String := "BAKE_COMMAND_BUFFER"

def diagnosticsSetting : String := "BAKE_DIAGNOSTICS"

def settingNames : List String :=
  [workerIdSetting, initTimeoutSetting, commandBufferSetting, diagnosticsSetting]

/-! ## Configurations -/

def defaultTimeoutSeconds : Nat := 10

def defaultCommandBuffer : Nat := 32

def default (freshId : String) : Config :=
  ⟨freshId, .ofSeconds defaultTimeoutSeconds, defaultCommandBuffer, false⟩

/-- The configuration by settings; `freshId` names a worker that has no name of its own. -/
def ofSettings (freshId : String) (setting : String → Option String) : Config where
  workerId := (setting workerIdSetting).getD freshId
  initTimeout :=
    .ofSeconds (((setting initTimeoutSetting).bind number?).getD defaultTimeoutSeconds)
  commandBuffer :=
    (((setting commandBufferSetting).bind number?).filter (0 < ·)).getD defaultCommandBuffer
  diagnostics := ((setting diagnosticsSetting).map isOn).getD false

def withInitTimeout (c : Config) (limit : Duration) : Config := { c with initTimeout := limit }

def withDiagnostics (c : Config) (diagnostics : Bool) : Config :=
  { c with diagnostics := diagnostics }

end Config

end RecipeEngine
