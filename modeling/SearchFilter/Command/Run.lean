import SearchFilter.Command.Arguments
import SearchFilter.Config
import SearchFilter.Conversion
import SearchFilter.Filter
import SearchFilter.Query.Parser
/-!
# Running commands

A command loads its configuration, moves the threshold of the log, reads its query and converts
it. The first step that fails ends the run, and only a run without failure has output. A process
reads its command line, runs the command and ends with an exit code; failures go to the error
stream, behind the log.
-/
namespace SearchFilter.Command

/-- Why a run failed. -/
inductive Failure where
  | config (error : Config.Error)
  | io (fault : IoFault)
  | query (error : Query.ParseError)
  | output (fault : IoFault)
  | rejected (rejection : Rejection)
  deriving DecidableEq, Repr

namespace Failure

def code : Failure → String
  | config _ => "SEARCHBRIDGE_CLI_CONFIG_ERROR"
  | io _ => "SEARCHBRIDGE_CLI_IO_ERROR"
  | query _ => "SEARCHBRIDGE_CLI_INVALID_INPUT"
  | output _ => "SEARCHBRIDGE_CLI_OUTPUT_ERROR"
  | rejected _ => Rejection.code

def message : Failure → String
  | config error => error.message
  | io fault => "I/O error: " ++ fault.message
  | query error => error.message
  | output fault => "Output serialization failed: " ++ fault.message
  | rejected rejection => rejection.message

end Failure

/-- What a run writes: a JSON document or a text. -/
inductive Output where
  | json (value : Json.Value)
  | text (line : String)

namespace Output

def body : Output → String
  | json value => value.compact
  | text line => line

/-- The output as one line. -/
def line (output : Output) : String :=
  output.body.push '\n'

end Output

/-- Where a query or a configuration is read from. -/
inductive Source where
  | file (path : String)
  | standardInput
  deriving DecidableEq, Repr

def Source.ofPath? : Option String → Source
  | some path => .file path
  | none => .standardInput

/-- What is left of a run: the entries it wrote to the log, the threshold, and its output. -/
structure Execution where
  written : List Log.Entry
  threshold : Severity
  result : Except Failure Output

/-- The output of a command for a query, with the log of the conversion. -/
def output (command : Command) (settings : Settings) (query : Query) :
    List Log.Entry × Except Failure Output :=
  let traced := query.toFilter settings
  (traced.log,
    match command with
    | translate _ _ .document => (traced.result.map fun f => .json f.document).mapError .rejected
    | translate _ _ .text => (traced.result.map fun f => .text f.text).mapError .rejected
    | explain _ _ => .ok (.json (Report.ofResult query traced.result).toJson))

variable {m : Type → Type} [Monad m]

/-- The configuration of a command and the entries about it. -/
def loadConfig (fetch : Source → m (Except IoFault String)) :
    Option String → m (Except Config.Error (Config × List Log.Entry))
  | none => pure (.ok ({}, []))
  | some path => do
    let content ← fetch (.file path)
    pure ((Config.load path content).map fun config => (config, [config.loaded path]))

/-- Runs a command from a threshold. Nothing else is fetched once a step has failed. -/
def run (fetch : Source → m (Except IoFault String)) (before : Severity) (command : Command) :
    m Execution := do
  match ← loadConfig fetch command.config with
  | .error error => pure ⟨[], before, .error (.config error)⟩
  | .ok (config, entries) =>
    let loading := Log.visible before entries
    match config.severity with
    | .error cause => pure ⟨loading, before, .error (.config (.invalid cause))⟩
    | .ok threshold =>
      match ← fetch (.ofPath? command.input) with
      | .error fault => pure ⟨loading, threshold, .error (.io fault)⟩
      | .ok text =>
        match Query.parse text with
        | .error error => pure ⟨loading, threshold, .error (.query error)⟩
        | .ok query =>
          let (log, result) := command.output config.settings query
          pure ⟨loading ++ Log.visible threshold log, threshold, result⟩

def versionLine : String := "searchbridge 0.1.0\n"

/-- What takes the output of a process. -/
inductive Device where
  | working
  | failing (fault : IoFault)
  deriving DecidableEq, Repr

/-- The output that is held back until a line is complete or this many bytes have come. -/
def bufferSize : Nat := 1024

/-- The text that reaches a device. On a failing one a document fails as soon as it no longer fits
the buffer, and anything else when its line ends. -/
def Output.deliver (output : Output) : Device → Except Failure String
  | .working => .ok output.line
  | .failing fault =>
    match output with
    | .json value =>
      if bufferSize < value.compact.utf8ByteSize then .error (.output fault) else .error (.io fault)
    | .text _ => .error (.io fault)

structure Process where
  exitCode : Nat
  output : String
  errors : String
  deriving DecidableEq, Repr

namespace Process

/-- The end of a process without a command, which nobody minds not to see. Help texts are not part
of the library. -/
def ofRefusal (device : Device) (refusal : Refusal) : Process :=
  match refusal, device with
  | .version, .working => ⟨refusal.exitCode, versionLine, ""⟩
  | _, _ => ⟨refusal.exitCode, "", ""⟩

def ofExecution (device : Device) (execution : Execution) : Process :=
  let log := Log.text execution.written
  match execution.result.bind (·.deliver device) with
  | .ok text => ⟨0, text, log⟩
  | .error failure => ⟨1, "", log ++ failure.code ++ ": " ++ failure.message ++ "\n"⟩

end Process

/-- Runs a process on a command line. -/
def process (fetch : Source → m (Except IoFault String)) (device : Device)
    (arguments : List String) : m Process := do
  match parse arguments with
  | .error refusal => pure (.ofRefusal device refusal)
  | .ok command => do
    let execution ← run fetch .default command
    pure (.ofExecution device execution)

end SearchFilter.Command
