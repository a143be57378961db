import SearchFilter.Text
/-!
# The log

An entry is written as one line that is a JSON object: the event, the severity, and then the fields
in ascending order of their keys; fields with equal keys keep their order. A logger drops entries
below its threshold, and who writes may also ask first whether an entry would be kept.
-/
namespace SearchFilter

inductive Severity where
  | trace
  | info
  | warn
  | error
  deriving DecidableEq, Repr

namespace Severity

def name : Severity → String
  | trace => "TRACE"
  | info => "INFO"
  | warn => "WARN"
  | error => "ERROR"

def rank : Severity → Nat
  | trace => 0
  | info => 1
  | warn => 2
  | error => 3

def all : List Severity := [trace, info, warn, error]

instance : LE Severity := ⟨fun s t => s.rank ≤ t.rank⟩

instance (s t : Severity) : Decidable (s ≤ t) :=
  inferInstanceAs (Decidable (s.rank ≤ t.rank))

/-- The level at which nothing but errors is written. -/
def default : Severity := error

/-- A name that is no level, in upper case. -/
structure Unknown where
  name : String
  deriving DecidableEq, Repr

def Unknown.message (unknown : Unknown) : String :=
  "unknown log level '" ++ unknown.name ++ "'"

/-- The level of a name, whose ASCII letters may be of either case. -/
def parse (name : String) : Except Unknown Severity :=
  let upper := String.ofList (name.toList.map Char.toUpper)
  match all.find? (·.name == upper) with
  | some severity => .ok severity
  | none => .error ⟨upper⟩

end Severity

end SearchFilter

namespace SearchFilter.Log

structure Entry where
  severity : Severity
  event : String
  fields : List (String × String)
  deriving DecidableEq, Repr

/-- Characters that would end or deface a line. -/
def isControl (c : Char) : Bool :=
  c.toNat < 0x20 || (0x7f ≤ c.toNat && c.toNat < 0xa0)

def shortEscape? : Char → Option Char
  | '"' => some '"'
  | '\\' => some '\\'
  | '\n' => some 'n'
  | '\r' => some 'r'
  | '\t' => some 't'
  | _ => none

def escapeChar (c : Char) : List Char :=
  match shortEscape? c with
  | some letter => ['\\', letter]
  | none => if isControl c then '\\' :: 'u' :: Text.fourHexDigits c.toNat else [c]

def quote (text : String) : List Char :=
  '"' :: text.toList.flatMap escapeChar ++ ['"']

/-- Puts a field behind all fields whose keys are not greater. -/
def insertField (field : String × String) : List (String × String) → List (String × String)
  | [] => [field]
  | other :: fields =>
    if field.1 < other.1 then field :: other :: fields else other :: insertField field fields

def sortFields (fields : List (String × String)) : List (String × String) :=
  fields.foldl (fun sorted field => insertField field sorted) []

namespace Entry

/-- A field with the comma in front of it. -/
def writeField (field : String × String) : List Char :=
  ',' :: quote field.1 ++ ':' :: quote field.2

def line (entry : Entry) : List Char :=
  "\x7b\"event\":".toList ++ quote entry.event ++ ",\"severity\":".toList ++
    quote entry.severity.name ++ (sortFields entry.fields).flatMap writeField ++ ['}', '\n']

end Entry

/-- The entries that a threshold lets through. -/
def visible (threshold : Severity) (entries : List Entry) : List Entry :=
  entries.filter fun entry => threshold ≤ entry.severity

/-- The lines of entries, as they are written. -/
def text (entries : List Entry) : String :=
  String.ofList (entries.flatMap Entry.line)

inductive Event where
  | configLoaded
  | translateBegin
  | translateComplete
  | translateRejected
  | rangeBoundDegraded
  deriving DecidableEq, Repr

namespace Event

def name : Event → String
  | configLoaded => "CONFIG_LOADED"
  | translateBegin => "TRANSLATE_BEGIN"
  | translateComplete => "TRANSLATE_COMPLETE"
  | translateRejected => "TRANSLATE_REJECTED"
  | rangeBoundDegraded => "RANGE_BOUND_DEGRADED"

def severity : Event → Severity
  | translateBegin | translateComplete => .trace
  | configLoaded => .info
  | translateRejected | rangeBoundDegraded => .warn

def entry (event : Event) (fields : List (String × String)) : Entry :=
  ⟨event.severity, event.name, fields⟩

end Event

structure Logger where
  threshold : Severity
  written : List Entry
  deriving DecidableEq, Repr

/-- A logger that has been handed more entries. -/
def Logger.add (logger : Logger) (entries : List Entry) : Logger :=
  { logger with written := logger.written ++ visible logger.threshold entries }

/-- Computations with a logger at hand. -/
abbrev Logged := StateM Logger

namespace Logged

def setThreshold (severity : Severity) : Logged Unit :=
  modify fun logger => { logger with threshold := severity }

def isEnabled (severity : Severity) : Logged Bool := do
  return decide ((← get).threshold ≤ severity)

def write (entry : Entry) : Logged Unit := do
  if ← isEnabled entry.severity then
    modify fun logger => { logger with written := logger.written ++ [entry] }

/-- Writes a detail, which is only made for a logger that asks for details. -/
def writeDetail (entry : Entry) : Logged Unit := do
  if ← isEnabled .trace then write entry

end Logged

end SearchFilter.Log
