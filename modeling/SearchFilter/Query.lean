import SearchFilter.Encoding
import SearchFilter.Json.Value
/-!
# Search queries

A query is a leaf or a boolean combination of clauses; every clause says how its query takes part.
Boolean queries can be built clause by clause. As JSON, a node is an object that names its kind
first and then holds its fields in the order of their declaration; a missing bound is null.
-/
namespace SearchFilter

/-- How a clause takes part in a boolean query. -/
inductive Occurrence where
  | required
  | optional
  | excluded
  deriving DecidableEq, Repr

namespace Occurrence

def name : Occurrence → String
  | required => "required"
  | optional => "optional"
  | excluded => "excluded"

def all : List Occurrence := [required, optional, excluded]

def ofName? (name : String) : Option Occurrence :=
  all.find? (·.name == name)

@[simp] theorem ofName?_name (occurrence : Occurrence) :
    ofName? occurrence.name = some occurrence := by
  cases occurrence <;> decide

def isRequired : Occurrence → Bool
  | required => true
  | optional | excluded => false

end Occurrence

/-- One word of a phrase. -/
structure PhraseWord where
  field : String
  text : String
  deriving DecidableEq, Repr

structure Clause (α : Type) where
  query : α
  occurrence : Occurrence
  deriving DecidableEq, Repr

/-- A query without clauses. -/
inductive Leaf where
  | term (field text : String)
  | phrase (words : List PhraseWord)
  | wildcard (field pattern : String)
  | startsWith (field start : String)
  | regexp (field pattern : String)
  | fuzzy (field text : String) (maxEdits : UInt32)
  | numericRange (field : String) (lower upper : List UInt8)
  | textRange (field : String) (lower upper : Option String)
  | matchAll
  | foreign (kind : String)
  deriving DecidableEq, Repr

inductive Query where
  | leaf (l : Leaf)
  | boolean (clauses : List (Clause Query))

inductive Kind where
  | term
  | phrase
  | wildcard
  | startsWith
  | regexp
  | fuzzy
  | numericRange
  | textRange
  | matchAll
  | boolean
  | foreign
  deriving DecidableEq, Repr

namespace Kind

def name : Kind → String
  | term => "term"
  | phrase => "phrase"
  | wildcard => "wildcard"
  | startsWith => "prefix"
  | regexp => "regexp"
  | fuzzy => "fuzzy"
  | numericRange => "range_numeric"
  | textRange => "range_lexicographic"
  | matchAll => "match_all"
  | boolean => "boolean"
  | foreign => "opaque"

/-- All kinds in the order of their indices. -/
def all : List Kind :=
  [term, phrase, wildcard, startsWith, regexp, fuzzy, numericRange, textRange, matchAll, boolean,
    foreign]

def ofName? (name : String) : Option Kind :=
  all.find? (·.name == name)

@[simp] theorem ofName?_name (kind : Kind) : ofName? kind.name = some kind := by
  cases kind <;> decide

def ofIndex? (index : Nat) : Option Kind :=
  all[index]?

end Kind

namespace Leaf

/-- The range between two 32-bit numbers, both included. -/
def intRange (field : String) (lower upper : Int32) : Leaf :=
  .numericRange field (Sortable.encodeInt lower) (Sortable.encodeInt upper)

/-- The range between two 64-bit numbers, both included. -/
def longRange (field : String) (lower upper : Int64) : Leaf :=
  .numericRange field (Sortable.encodeLong lower) (Sortable.encodeLong upper)

def kind : Leaf → Kind
  | term .. => .term
  | phrase .. => .phrase
  | wildcard .. => .wildcard
  | startsWith .. => .startsWith
  | regexp .. => .regexp
  | fuzzy .. => .fuzzy
  | numericRange .. => .numericRange
  | textRange .. => .textRange
  | matchAll => .matchAll
  | foreign .. => .foreign

/-- The name of the kind; a foreign leaf brings its own. -/
def kindName : Leaf → String
  | foreign kind => kind
  | leaf => leaf.kind.name

end Leaf

namespace Query

def kindName : Query → String
  | leaf l => l.kindName
  | boolean _ => Kind.boolean.name

mutual

/-- How deep boolean queries nest. -/
def depth : Query → Nat
  | leaf _ => 0
  | boolean clauses => 1 + clausesDepth clauses

def clausesDepth : List (Clause Query) → Nat
  | [] => 0
  | ⟨query, _⟩ :: clauses => max (depth query) (clausesDepth clauses)

end

end Query

end SearchFilter

namespace SearchFilter.Query

structure Builder where
  clauses : List (Clause Query)

namespace Builder

def empty : Builder := ⟨[]⟩

def add (builder : Builder) (query : Query) (occurrence : Occurrence) : Builder :=
  ⟨builder.clauses ++ [⟨query, occurrence⟩]⟩

def required (builder : Builder) (query : Query) : Builder :=
  builder.add query .required

def optional (builder : Builder) (query : Query) : Builder :=
  builder.add query .optional

def excluded (builder : Builder) (query : Query) : Builder :=
  builder.add query .excluded

def build (builder : Builder) : Query :=
  .boolean builder.clauses

/-- The built query as the only clause of a new builder. -/
def wrap (builder : Builder) (occurrence : Occurrence) : Builder :=
  empty.add builder.build occurrence

end Builder

end SearchFilter.Query

namespace SearchFilter

open Json (Value)

def Occurrence.toJson (occurrence : Occurrence) : Value :=
  .text occurrence.name

def PhraseWord.toJson (word : PhraseWord) : Value :=
  .object [("field", .text word.field), ("text", .text word.text)]

def bytesToJson (bytes : List UInt8) : Value :=
  .array (bytes.map fun b => .integer b.toNat)

def boundToJson : Option String → Value
  | none => .null
  | some text => .text text

namespace Leaf

def fieldsToJson : Leaf → List (String × Value)
  | term field text => [("field", .text field), ("text", .text text)]
  | phrase words => [("terms", .array (words.map PhraseWord.toJson))]
  | wildcard field pattern => [("field", .text field), ("pattern", .text pattern)]
  | startsWith field start => [("field", .text field), ("prefix", .text start)]
  | regexp field pattern => [("field", .text field), ("pattern", .text pattern)]
  | fuzzy field text maxEdits =>
    [("field", .text field), ("text", .text text), ("max_edits", .integer maxEdits.toNat)]
  | numericRange field lower upper =>
    [("field", .text field), ("lower", bytesToJson lower), ("upper", bytesToJson upper)]
  | textRange field lower upper =>
    [("field", .text field), ("lower", boundToJson lower), ("upper", boundToJson upper)]
  | matchAll => []
  | foreign kind => [("kind", .text kind)]

def toJson (leaf : Leaf) : Value :=
  .object (("type", .text leaf.kind.name) :: leaf.fieldsToJson)

end Leaf

namespace Query

mutual

def toJson : Query → Value
  | leaf l => l.toJson
  | boolean clauses =>
    .object [("type", .text Kind.boolean.name), ("clauses", .array (clausesToJson clauses))]

def clausesToJson : List (Clause Query) → List Value
  | [] => []
  | ⟨query, occurrence⟩ :: clauses =>
    .object [("query", toJson query), ("occurrence", occurrence.toJson)] :: clausesToJson clauses

end

end Query

end SearchFilter
