/-!
# Command lines

A command line names a command and gives its options, each at most once, as `--name value` or as
`--name=value`. A value of its own must not look like an option. Asking for help or for the version
ends the reading of a command line as well as a mistake does.
-/
namespace SearchFilter

inductive Format where
  | document
  | text
  deriving DecidableEq, Repr

namespace Format

def name : Format → String
  | document => "document"
  | text => "text"

def ofName? (name : String) : Option Format :=
  [document, text].find? (·.name == name)

end Format

inductive Command where
  | translate (config input : Option String) (format : Format)
  | explain (config input : Option String)
  deriving DecidableEq, Repr

namespace Command

def config : Command → Option String
  | translate config _ _ => config
  | explain config _ => config

def input : Command → Option String
  | translate _ input _ => input
  | explain _ input => input

/-- Why a command line is no command. -/
inductive Refusal where
  | help
  | version
  | noCommand
  | unknownCommand
  | unknownArgument
  | repeatedOption
  | badValue
  | surplusValue
  deriving DecidableEq, Repr

namespace Refusal

def kind : Refusal → String
  | help => "DisplayHelp"
  | version => "DisplayVersion"
  | noCommand => "DisplayHelpOnMissingArgumentOrSubcommand"
  | unknownCommand => "InvalidSubcommand"
  | unknownArgument => "UnknownArgument"
  | repeatedOption => "ArgumentConflict"
  | badValue => "InvalidValue"
  | surplusValue => "TooManyValues"

def exitCode : Refusal → Nat
  | help | version => 0
  | _ => 2

end Refusal

/-- The form of one argument. Of a cluster of short options only the first one counts. -/
inductive Argument where
  | terminator
  | long (name : String) (value : Option String)
  | short (letter : Char)
  | plain (text : String)
  deriving DecidableEq, Repr

namespace Argument

/-- A long option up to its first equals sign, and what is behind it. -/
def splitLong (cs : List Char) : Argument :=
  let name := String.ofList (cs.takeWhile (· != '='))
  match cs.dropWhile (· != '=') with
  | [] => .long name none
  | _ :: value => .long name (some (String.ofList value))

def ofText (text : String) : Argument :=
  match text.toList with
  | ['-', '-'] => .terminator
  | '-' :: '-' :: cs => splitLong cs
  | '-' :: letter :: _ => .short letter
  | _ => .plain text

end Argument

inductive OptionName where
  | config
  | input
  | format
  deriving DecidableEq, Repr

def OptionName.name : OptionName → String
  | config => "config"
  | input => "input"
  | format => "format"

/-- The commands by name, with the options that they take. -/
inductive Verb where
  | translate
  | explain
  deriving DecidableEq, Repr

namespace Verb

def name : Verb → String
  | translate => "translate"
  | explain => "explain"

def ofName? (name : String) : Option Verb :=
  [translate, explain].find? (·.name == name)

def options : Verb → List OptionName
  | translate => [.config, .input, .format]
  | explain => [.config, .input]

def option? (verb : Verb) (name : String) : Option OptionName :=
  verb.options.find? (·.name == name)

end Verb

/-- The options set so far. -/
structure Draft where
  config : Option String := none
  input : Option String := none
  format : Option Format := none
  deriving DecidableEq, Repr

namespace Draft

def isSet (draft : Draft) : OptionName → Bool
  | .config => draft.config.isSome
  | .input => draft.input.isSome
  | .format => draft.format.isSome

/-- Sets an option that is not set yet to a value that it takes. -/
def set (draft : Draft) (option : OptionName) (value : String) : Except Refusal Draft :=
  if draft.isSet option then .error .repeatedOption
  else
    match option with
    | .config => if value.isEmpty then .error .badValue else .ok { draft with config := some value }
    | .input => if value.isEmpty then .error .badValue else .ok { draft with input := some value }
    | .format =>
      match Format.ofName? value with
      | some format => .ok { draft with format := some format }
      | none => .error .badValue

def finish (draft : Draft) : Verb → Command
  | .translate => .translate draft.config draft.input (draft.format.getD .document)
  | .explain => .explain draft.config draft.input

end Draft

/-- The option that was read last and its value, if that has come. It is set when the next option
begins or the command line ends. -/
inductive Pending where
  | none
  | awaiting (option : OptionName)
  | complete (option : OptionName) (value : String)
  deriving DecidableEq, Repr

def Pending.settle (draft : Draft) : Pending → Except Refusal Draft
  | none => .ok draft
  | awaiting _ => .error .badValue
  | complete option value => draft.set option value

/-- Reads the arguments behind a verb. -/
def readOptions (verb : Verb) (draft : Draft) : Pending → List String → Except Refusal Draft
  | pending, [] => pending.settle draft
  | pending, text :: rest =>
    match Argument.ofText text with
    | .terminator => if rest.isEmpty then pending.settle draft else .error .unknownArgument
    | .short letter => do
      if letter ≠ 'h' then .error .unknownArgument
      let _ ← pending.settle draft
      .error .help
    | .plain value =>
      match pending with
      | .awaiting option => readOptions verb draft (.complete option value) rest
      | _ => .error .unknownArgument
    | .long name value? =>
      match verb.option? name, value? with
      | some option, none => do readOptions verb (← pending.settle draft) (.awaiting option) rest
      | some option, some value => do
        readOptions verb (← (← pending.settle draft).set option value) .none rest
      | none, none => do
        if name ≠ "help" then .error .unknownArgument
        let _ ← pending.settle draft
        .error .help
      | none, some _ => .error (if name = "help" then .surplusValue else .unknownArgument)

def helpVerb : String := "help"

/-- Reads the verbs behind a request for help: one verb may follow, and none below it. -/
def readHelp : List String → Refusal
  | [] => .help
  | [name] => if name = helpVerb ∨ (Verb.ofName? name).isSome then .help else .unknownCommand
  | _ => .unknownCommand

def parse : List String → Except Refusal Command
  | [] => .error .noCommand
  | text :: rest =>
    match Argument.ofText text with
    | .terminator =>
      match rest with
      | [] => .error .noCommand
      | name :: _ =>
        if name = helpVerb ∨ (Verb.ofName? name).isSome then .error .unknownArgument
        else .error .unknownCommand
    | .long "help" none => .error .help
    | .long "version" none => .error .version
    | .long name (some _) =>
      .error (if name = "help" ∨ name = "version" then .surplusValue else .unknownArgument)
    | .long _ none => .error .unknownArgument
    | .short 'h' => .error .help
    | .short 'V' => .error .version
    | .short _ => .error .unknownArgument
    | .plain name =>
      match Verb.ofName? name with
      | some verb => do .ok ((← readOptions verb {} .none rest).finish verb)
      | none => .error (if name = helpVerb then readHelp rest else .unknownCommand)

end Command

end SearchFilter
