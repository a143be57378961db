import SearchFilter.Json.Reader
import SearchFilter.Query.Decoder
import SearchFilter.Text
/-!
# Queries from text

The outermost node is read before its fields are decoded. Its tag is a name and is checked as soon
as it is read; everything else in it is read as JSON first, and has no place in the text any more
when it is decoded.
-/
namespace SearchFilter

open Json (Value Fault TextFault located unlocated)

/-- What has been read of the outermost node: its tag and the entries or items beside it, the
latest first. -/
structure OuterNode (α : Type) where
  kind? : Option Kind
  parts : List α

namespace OuterNode

variable {α : Type}

def empty : OuterNode α := ⟨none, []⟩

/-- Reads the tag. -/
def readKind (node : OuterNode α) (cs : List Char) :
    Except TextFault (OuterNode α × List Char) := do
  let (name, rest) ← Json.readTextValue tagTitle cs
  .ok ({ node with kind? := some (← located rest (kindOfName name)) }, rest)

/-- Reads an item: the first one is the tag. -/
def readItem (node : OuterNode Value) (cs : List Char) :
    Except TextFault (OuterNode Value × List Char) :=
  if node.kind?.isNone then node.readKind cs
  else do
    let (value, rest) ← Json.readValue (Json.nestingLimit - 1) cs
    .ok ({ node with parts := value :: node.parts }, rest)

/-- Reads a member: the tag is under its key, and there is only one. -/
def readMember (node : OuterNode (String × Value)) (cs : List Char) :
    Except TextFault (OuterNode (String × Value) × List Char) := do
  let (key, rest) ← Json.readText cs
  if key = tagKey then
    if node.kind?.isSome then
      located (Json.skipBrace rest) (.error (.duplicateField tagKey))
    else node.readKind (← Json.readColon rest)
  else
    let (value, rest) ← Json.readValue (Json.nestingLimit - 1) (← Json.readColon rest)
    .ok ({ node with parts := (key, value) :: node.parts }, rest)

/-- The tagged node, once all its parts are there. -/
def finish (node : OuterNode α) (tagged : Kind → List α → TaggedNode) :
    Except Fault TaggedNode :=
  match node.kind? with
  | some kind => .ok (tagged kind node.parts.reverse)
  | none => .error (.missingField tagKey)

end OuterNode

def TaggedNode.read : List Char → Except TextFault (TaggedNode × List Char) :=
  Json.readBy
    (fun cs => do
      let (node, rest) ← Json.readArray true OuterNode.readItem .empty cs
      .ok (← located rest (node.finish .positional), rest))
    (fun cs => do
      let (node, rest) ← Json.readObject true OuterNode.readMember .empty cs
      .ok (← located rest (node.finish .keyed), rest))
    fun found rest => located rest (.error (.wrongType (.scalar found) nodeTitle))

namespace Query

/-- Why a text is no query. -/
inductive ParseError where
  | empty
  | invalid (fault : Fault) (location? : Option Json.Location)
  deriving DecidableEq, Repr

def ParseError.message : ParseError → String
  | empty => "Empty input"
  | invalid fault location? =>
    "Invalid query JSON: " ++ fault.message ++ Json.Location.suffix location?

def ofJson (cs : List Char) : Except TextFault Query := do
  let (node, rest) ← TaggedNode.read cs
  let query ← unlocated (node.decode (decodeField Json.nestingLimit))
  Json.readEnd rest
  .ok query

/-- Reads a query from a text that is not blank. -/
def parse (text : String) : Except ParseError Query :=
  if Text.isBlank text.toList then .error .empty
  else (ofJson text.toList).mapError fun found => .invalid found.fault (found.location? text)

end Query

/-- Reads the name that is the only key of an object whose opening brace has been read. -/
def Occurrence.readKey (cs : List Char) : Except TextFault (String × List Char) :=
  match Json.skipBlanks cs with
  | '"' :: rest => Json.readText rest
  | [] => Json.refuse .cutObject []
  | '}' :: rest => Json.refuse .noValue ('}' :: rest)
  | rest => Json.refuse .keyNotText rest

/-- Reads the null behind the name of an occurrence. -/
def Occurrence.readUnit : List Char → Except TextFault (Unit × List Char) :=
  Json.readBy (fun rest => located ('[' :: rest) (.error (.wrongType .array "unit")))
    (fun rest => located ('{' :: rest) (.error (.wrongType .object "unit")))
    fun
    | .null, rest => .ok ((), rest)
    | found, rest => located rest (.error (.wrongType (.scalar found) "unit"))

/-- Reads an occurrence from a text of its own: a name, or an object with a name as its only key
and null behind it. -/
def Occurrence.ofJson (cs : List Char) : Except TextFault Occurrence := do
  match Json.skipBlanks cs with
  | '"' :: rest =>
    let (name, rest) ← Json.readText rest
    let occurrence ← located rest (occurrenceOfName name)
    Json.readEnd rest
    .ok occurrence
  | '{' :: rest =>
    let (name, rest) ← readKey rest
    let occurrence ← located rest (occurrenceOfName name)
    let (_, rest) ← readUnit (← Json.readColon rest)
    match Json.skipBlanks rest with
    | '}' :: rest =>
      Json.readEnd rest
      .ok occurrence
    | [] => Json.refuse .cutObject []
    | rest => Json.refuseAfter 0 .noValue rest
  | [] => Json.refuse .cutValue []
  | rest => Json.refuse .noValue rest

end SearchFilter
