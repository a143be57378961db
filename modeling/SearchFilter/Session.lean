import SearchFilter.Config
import SearchFilter.Log
/-!
# Sessions

Calls made one after another under a threshold. Every call has a reply and writes the entries that
the threshold lets through; only one kind of call moves the threshold. The same calls are also
computations that hand entries to a logger while they go on, where the lines that open and close an
accepted conversion are only made when the logger asks for details.
-/
namespace SearchFilter

inductive Call where
  | parseLevel (text : String)
  | setLevel (severity : Severity)
  | isEnabled (severity : Severity)
  | log (entry : Log.Entry)
  | event (kind : Log.Event) (fields : List (String × String))
  | convert (settings : Settings) (query : Query)
  | loadConfig (path : String) (content : Except IoFault String)

inductive Reply where
  | level (result : Except Severity.Unknown Severity)
  | done
  | enabled (answer : Bool)
  | logged (kind : Log.Event)
  | filter (result : Except Rejection Filter)
  | config (result : Except Config.Error Config)

namespace Call

/-- The entries of a call, written or not. -/
def entries : Call → List Log.Entry
  | log entry => [entry]
  | event kind fields => [kind.entry fields]
  | convert settings query => (query.toFilter settings).log
  | loadConfig path content =>
    match Config.load path content with
    | .ok config => [config.loaded path]
    | .error _ => []
  | parseLevel _ | setLevel _ | isEnabled _ => []

def reply (threshold : Severity) : Call → Reply
  | parseLevel text => .level (Severity.parse text)
  | setLevel _ => .done
  | isEnabled severity => .enabled (threshold ≤ severity)
  | log _ => .done
  | event kind _ => .logged kind
  | convert settings query => .filter (query.toFilter settings).result
  | loadConfig path content => .config (Config.load path content)

/-- The threshold after a call. -/
def threshold (before : Severity) : Call → Severity
  | setLevel severity => severity
  | _ => before

end Call

/-- What one call gave, what it wrote, and the threshold after it. -/
structure Outcome where
  reply : Reply
  written : List Log.Entry
  threshold : Severity

def Call.run (threshold : Severity) (call : Call) : Outcome where
  reply := call.reply threshold
  written := Log.visible threshold call.entries
  threshold := call.threshold threshold

/-- Makes calls one after another. -/
def runCalls (threshold : Severity) : List Call → List Outcome
  | [] => []
  | call :: calls =>
    let outcome := call.run threshold
    outcome :: runCalls outcome.threshold calls

open Log

/-- A traced result whose entries are written one by one. -/
def Traced.emit {α : Type} (traced : Traced α) : Logged (Except Rejection α) := do
  forM traced.log Logged.write
  return traced.result

/-- Closes the log of a conversion. That there is a filter is a detail, a rejection is not. -/
def Conversion.close (query : Query) (result : Except Rejection Filter) : Logged Unit :=
  match result with
  | .ok _ => Logged.writeDetail (closing query result)
  | .error _ => Logged.write (closing query result)

def Query.convert (settings : Settings) (query : Query) : Logged (Except Rejection Filter) := do
  Logged.writeDetail (Event.translateBegin.entry [("input_kind", query.kindName)])
  let result ← (Conversion.root settings query).emit
  Conversion.close query result
  return result

/-- Tells of a configuration once it is read and known to be valid. -/
def Config.loadLogged (path : String) (content : Except IoFault String) :
    Logged (Except Error Config) := do
  match Config.load path content with
  | .ok config =>
    Logged.write (config.loaded path)
    return .ok config
  | .error error => return .error error

/-- Makes a call with a logger at hand. -/
def Call.perform : Call → Logged Reply
  | parseLevel text => return .level (Severity.parse text)
  | setLevel severity => do
    Logged.setThreshold severity
    return .done
  | isEnabled severity => return .enabled (← Logged.isEnabled severity)
  | log entry => do
    Logged.write entry
    return .done
  | event kind fields => do
    Logged.write (kind.entry fields)
    return .logged kind
  | convert settings query => return .filter (← query.convert settings)
  | loadConfig path content => return .config (← Config.loadLogged path content)

/-- Makes calls one after another with the same logger. -/
def performAll (calls : List Call) : Logged (List Reply) :=
  calls.mapM Call.perform

end SearchFilter
