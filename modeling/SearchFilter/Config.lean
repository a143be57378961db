import SearchFilter.Conversion
import SearchFilter.Json.Reader
import SearchFilter.Json.Value
import SearchFilter.Log
/-!
# Configurations

A configuration is kept as it was written: three texts. It is valid when it names a field, its
separator is one character and its log level exists. It is read from an object or from an array of
up to three texts. Keys are checked as they are read: known ones come at most once and hold text,
what is under unknown ones is passed over.
-/
namespace SearchFilter

/-- A failure of the system has a text and a number. A path with a zero character never gets that
far, and a text that is no UTF-8 is only found out later. -/
inductive IoFault where
  | system (text : String) (number : Nat)
  | zeroInPath
  | notUtf8
  deriving DecidableEq, Repr

namespace IoFault

def noSuchFile : IoFault := .system "No such file or directory" 2

def permissionDenied : IoFault := .system "Permission denied" 13

def notADirectory : IoFault := .system "Not a directory" 20

def isADirectory : IoFault := .system "Is a directory" 21

def deviceFull : IoFault := .system "No space left on device" 28

def nameTooLong : IoFault := .system "File name too long" 36

/-- The failure with a number, under its usual text if it has one. -/
def ofNumber (text : String) (number : Nat) : IoFault :=
  match number with
  | 2 => noSuchFile
  | 13 => permissionDenied
  | 20 => notADirectory
  | 21 => isADirectory
  | 28 => deviceFull
  | 36 => nameTooLong
  | _ => .system text number

def message : IoFault → String
  | system text number => text ++ " (os error " ++ toString number ++ ")"
  | zeroInPath => "file name contained an unexpected NUL byte"
  | notUtf8 => "stream did not contain valid UTF-8"

end IoFault

def decodeUtf8 (bytes : ByteArray) : Except IoFault String :=
  match String.fromUTF8? bytes with
  | some text => .ok text
  | none => .error .notUtf8

/-- A path that the system can be asked for. -/
def checkPath (path : String) : Except IoFault Unit :=
  if path.toList.contains '\x00' then .error .zeroInPath else .ok ()

structure Config where
  matchAllField : String := "_id"
  pathSeparator : String := "."
  logLevel : String := "WARN"
  deriving DecidableEq, Repr

namespace Config

inductive Key where
  | matchAllField
  | pathSeparator
  | logLevel
  deriving DecidableEq, Repr

namespace Key

def name : Key → String
  | matchAllField => "match_all_field"
  | pathSeparator => "path_separator"
  | logLevel => "log_level"

/-- All keys in the order of their declaration. -/
def all : List Key := [matchAllField, pathSeparator, logLevel]

def ofName? (name : String) : Option Key :=
  all.find? (·.name == name)

@[simp] theorem ofName?_name (key : Key) : ofName? key.name = some key := by
  cases key <;> decide

end Key

def get (config : Config) : Key → String
  | .matchAllField => config.matchAllField
  | .pathSeparator => config.pathSeparator
  | .logLevel => config.logLevel

/-- Why a configuration is not valid. -/
inductive Invalid where
  | noMatchAllField
  | badSeparator (text : String)
  | unknownLevel (unknown : Severity.Unknown)
  deriving DecidableEq, Repr

namespace Invalid

def key : Invalid → Key
  | noMatchAllField => .matchAllField
  | badSeparator _ => .pathSeparator
  | unknownLevel _ => .logLevel

def reason : Invalid → String
  | noMatchAllField => "must not be empty"
  | badSeparator text => "must be exactly one character, got '" ++ text ++ "'"
  | unknownLevel unknown => unknown.message

end Invalid

inductive Error where
  | unreadable (path : String) (fault : IoFault)
  | malformed (fault : Json.Fault) (location? : Option Json.Location)
  | invalid (cause : Invalid)
  deriving DecidableEq, Repr

def Error.message : Error → String
  | unreadable path fault => "Failed to read config " ++ path ++ ": " ++ fault.message
  | malformed fault location? =>
    "Invalid config JSON: " ++ fault.message ++ Json.Location.suffix location?
  | invalid cause => "Invalid config value for '" ++ cause.key.name ++ "': " ++ cause.reason

def severity (config : Config) : Except Invalid Severity :=
  (Severity.parse config.logLevel).mapError .unknownLevel

/-- The first character of the separator; a point if there is none. -/
def separator (config : Config) : Char :=
  config.pathSeparator.toList.headD '.'

def settings (config : Config) : Settings :=
  ⟨config.matchAllField, config.separator⟩

/-- The fields are checked in the order of their declaration. -/
def validate (config : Config) : Except Invalid Unit := do
  if config.matchAllField.isEmpty then .error .noMatchAllField
  if config.pathSeparator.toList.length ≠ 1 then .error (.badSeparator config.pathSeparator)
  let _ ← config.severity
  .ok ()

def toJson (config : Config) : Json.Value :=
  .object (Key.all.map fun key => (key.name, .text (config.get key)))

/-- The entry that tells of a configuration read from a file. -/
def loaded (config : Config) (path : String) : Log.Entry :=
  Log.Event.configLoaded.entry
    [("path", path), (Key.matchAllField.name, config.matchAllField),
      (Key.logLevel.name, config.logLevel)]

end Config

end SearchFilter

namespace SearchFilter.Config

open Json (TextFault refuse located)

/-- The fields read so far. -/
abbrev Draft := Key → Option String

namespace Draft

def empty : Draft := fun _ => none

def set (draft : Draft) (key : Key) (text : String) : Draft :=
  fun other => if other = key then some text else draft other

/-- Fields that were not read keep their defaults. -/
def finish (draft : Draft) : Config :=
  let config : Config := {}
  { matchAllField := (draft .matchAllField).getD config.matchAllField
    pathSeparator := (draft .pathSeparator).getD config.pathSeparator
    logLevel := (draft .logLevel).getD config.logLevel }

end Draft

def readField (cs : List Char) : Except TextFault (String × List Char) :=
  Json.readTextValue "a string" cs

def readMember (draft : Draft) (cs : List Char) : Except TextFault (Draft × List Char) := do
  let (name, rest) ← Json.readText cs
  match Key.ofName? name with
  | none => .ok (draft, ← Json.skipValue (← Json.readColon rest))
  | some key =>
    if (draft key).isSome then located (Json.skipBrace rest) (.error (.duplicateField name))
    else
      let (text, rest) ← readField (← Json.readColon rest)
      .ok (draft.set key text, rest)

/-- Passes over the comma between two items. -/
def readComma (cs : List Char) : Except TextFault (List Char) :=
  match Json.skipBlanks cs with
  | ',' :: rest =>
    match Json.skipBlanks rest with
    | ']' :: rest => refuse .trailingComma (']' :: rest)
    | rest => .ok rest
  | rest => refuse .noArrayEnd rest

/-- Reads the end of an array that holds all fields. -/
def readLastBracket (cs : List Char) : Except TextFault (List Char) :=
  match Json.skipBlanks cs with
  | ']' :: rest => .ok rest
  | ',' :: rest =>
    match Json.skipBlanks rest with
    | ']' :: rest => refuse .trailingComma (']' :: rest)
    | rest => refuse .trailingText rest
  | [] => refuse .cutArray []
  | rest => refuse .trailingText rest

/-- Reads the fields that are left by position. -/
def readItems (first : Bool) : List Key → Draft → List Char → Except TextFault (Draft × List Char)
  | [], draft, cs => do .ok (draft, ← readLastBracket cs)
  | key :: keys, draft, cs =>
    match Json.skipBlanks cs with
    | ']' :: rest => .ok (draft, rest)
    | [] => refuse .cutArray []
    | cs => do
      let (text, rest) ← readField (← if first then .ok cs else readComma cs)
      readItems false keys (draft.set key text) rest

def ofJson (cs : List Char) : Except TextFault Config := do
  let (draft, rest) ← Json.readBy (readItems true Key.all .empty)
    (Json.readObject true readMember .empty)
    (fun found rest =>
      located rest (.error (.wrongType (.scalar found) "struct TranslatorConfig"))) cs
  Json.readEnd rest
  .ok draft.finish

/-- Reads a valid configuration. -/
def parse (text : String) : Except Error Config := do
  let config ← (ofJson text.toList).mapError fun found =>
    .malformed found.fault (found.location? text)
  config.validate.mapError .invalid
  .ok config

/-- Reads a configuration from what the file at a path holds. -/
def load (path : String) (content : Except IoFault String) : Except Error Config := do
  parse (← content.mapError (.unreadable path))

end SearchFilter.Config
