import SearchFilter.Encoding
import SearchFilter.Filter
import SearchFilter.Json.Value
import SearchFilter.Log
import SearchFilter.Query
/-!
# From queries to filters

At the root every kind of query but a foreign one has a filter. A boolean query there is a
conjunction, a boolean query in a clause a disjunction; below them only terms, phrases and ranges
have filters. A term is an equation or its negation, as the occurrence that governs it says: its own
under the root, and elsewhere that of the clause that holds its boolean query.

A field of a phrase at the root may be a path of segments between separators. Trailing empty
segments do not count, but the first segment always does. A conversion is rejected at the first
query that has no counterpart in its position, and a rejection ends the log.
-/
namespace SearchFilter.Path

/-- The segments of a name: the first one and the others. -/
def segments (separator : Char) : List Char → List Char × List (List Char)
  | [] => ([], [])
  | c :: cs =>
    let (segment, others) := segments separator cs
    if c = separator then ([], segment :: others) else (c :: segment, others)

def dropTrailingEmpty (names : List (List Char)) : List (List Char) :=
  (names.reverse.dropWhile List.isEmpty).reverse

/-- The segments that count. -/
def ofField (separator : Char) (field : String) : List Char × List (List Char) :=
  let (segment, others) := segments separator field.toList
  (segment, dropTrailingEmpty others)

/-- The nested equations of a text under a path. -/
def nest (text : String) (segment : List Char) : List (List Char) → Filter
  | [] => .eq (String.ofList segment) (.text text)
  | other :: others => .eq (String.ofList segment) (.document (nest text other others))

def filter (separator : Char) (field text : String) : Filter :=
  let (segment, others) := ofField separator field
  nest text segment others

end SearchFilter.Path

namespace SearchFilter

/-- Where a query stands. -/
inductive Position where
  | topLevel
  | booleanClause
  deriving DecidableEq, Repr

def Position.name : Position → String
  | topLevel => "top-level"
  | booleanClause => "boolean clause"

/-- The kind of the query at fault and its position. -/
structure Rejection where
  kind : String
  position : Position
  deriving DecidableEq, Repr

namespace Rejection

def code : String := "SEARCHBRIDGE_UNSUPPORTED_QUERY_KIND"

def severity : String := "REJECT"

def reason (rejection : Rejection) : String :=
  "Unsupported query kind '" ++ rejection.kind ++ "' in " ++ rejection.position.name ++ " position"

def message (rejection : Rejection) : String :=
  "[" ++ severity ++ "] " ++ code ++ ": " ++ rejection.reason

end Rejection

structure Traced (α : Type) where
  log : List Log.Entry
  result : Except Rejection α

namespace Traced

variable {α β : Type}

protected def pure (value : α) : Traced α :=
  ⟨[], .ok value⟩

protected def bind (traced : Traced α) (next : α → Traced β) : Traced β :=
  match traced.result with
  | .ok value => ⟨traced.log ++ (next value).log, (next value).result⟩
  | .error rejection => ⟨traced.log, .error rejection⟩

instance : Monad Traced where
  pure := Traced.pure
  bind := Traced.bind

theorem bind_ok {log : List Log.Entry} {value : α} (next : α → Traced β) :
    (⟨log, .ok value⟩ : Traced α) >>= next = ⟨log ++ (next value).log, (next value).result⟩ :=
  rfl

/-- Logs entries. -/
def note (entries : List Log.Entry) : Traced Unit :=
  ⟨entries, .ok ()⟩

def reject (kind : String) (position : Position) : Traced α :=
  ⟨[], .error ⟨kind, position⟩⟩

end Traced

/-- What a conversion depends on besides the query. -/
structure Settings where
  matchAllField : String
  separator : Char
  deriving DecidableEq, Repr

namespace Conversion

open Sortable (Side)

/-- The note of a bound that bounds nothing because of its width. -/
def degraded (field : String) (side : Side) (bytes : List UInt8) : List Log.Entry :=
  if Sortable.hasWidth bytes then []
  else
    [Log.Event.rangeBoundDegraded.entry
      [("field", field), ("bound", side.name), ("width", Text.decimalText bytes.length)]]

def interval (field : String) (lower upper : Operand) : Filter :=
  .and [.gte field lower, .lte field upper]

/-- The number of a bound. -/
def bound (_ : Settings) (field : String) (side : Side) (bytes : List UInt8) : Traced Int64 := do
  Traced.note (degraded field side bytes)
  return side.bound bytes

def numericRange (settings : Settings) (field : String) (lower upper : List UInt8) :
    Traced Filter := do
  let least ← bound settings field .lower lower
  let greatest ← bound settings field .upper upper
  return interval field (.int least) (.int greatest)

def textRange (field : String) (lower upper : Option String) : Filter :=
  interval field (.ofBound lower) (.ofBound upper)

/-- The filter of a leaf that is the whole query. -/
def rootLeaf (settings : Settings) : Leaf → Traced Filter
  | .term field text => return .eq field (.text text)
  | .phrase words => return .all (words.map fun w => Path.filter settings.separator w.field w.text)
  | .wildcard field pattern => return .regex field (Pattern.wildcard pattern)
  | .startsWith field start => return .regex field (Pattern.startsWith start)
  | .regexp field pattern => return .regex field pattern
  | .fuzzy field text maxEdits => return .regex field (Pattern.fuzzy text maxEdits)
  | .numericRange field lower upper => numericRange settings field lower upper
  | .textRange field lower upper => return textRange field lower upper
  | .matchAll => return .present settings.matchAllField
  | .foreign kind => Traced.reject kind .topLevel

/-- A required word must be there, any other must not. -/
def wordFilter (occurrence : Occurrence) (field text : String) : Filter :=
  if occurrence.isRequired then .eq field (.text text) else .ne field (.text text)

/-- The filter of a leaf in a clause. -/
def clauseLeaf (settings : Settings) (occurrence : Occurrence) : Leaf → Traced Filter
  | .term field text => return wordFilter occurrence field text
  | .phrase words => return .and (words.map fun w => wordFilter occurrence w.field w.text)
  | .numericRange field lower upper => numericRange settings field lower upper
  | .textRange field lower upper => return textRange field lower upper
  | leaf => Traced.reject leaf.kindName .booleanClause

/-- Where a boolean query stands. -/
inductive Scope where
  | root
  | clause (occurrence : Occurrence)
  deriving DecidableEq, Repr

/-- The occurrence that governs a leaf clause of a boolean query. -/
def Scope.governing : Scope → Occurrence → Occurrence
  | root, own => own
  | clause outer, _ => outer

mutual

/-- The filter of a clause with its own occurrence. -/
def clause (settings : Settings) (scope : Scope) (own : Occurrence) : Query → Traced Filter
  | .leaf leaf => clauseLeaf settings (scope.governing own) leaf
  | .boolean inner => do return .or (← clauses settings (.clause own) inner)

def clauses (settings : Settings) (scope : Scope) : List (Clause Query) → Traced (List Filter)
  | [] => return []
  | ⟨query, own⟩ :: rest => do
    let filter ← clause settings scope own query
    let filters ← clauses settings scope rest
    return filter :: filters

end

def root (settings : Settings) : Query → Traced Filter
  | .leaf leaf => rootLeaf settings leaf
  | .boolean inner => do return .and (← clauses settings .root inner)

/-- The entry that closes the log of a conversion. -/
def closing (query : Query) : Except Rejection Filter → Log.Entry
  | .ok filter =>
    Log.Event.translateComplete.entry
      [("input_kind", query.kindName), ("filter_nodes", Text.decimalText filter.nodeCount)]
  | .error rejection =>
    Log.Event.translateRejected.entry
      [("kind", rejection.kind), ("context", rejection.position.name)]

end Conversion

/-- The filter of a query, and the whole log of the conversion. -/
def Query.toFilter (settings : Settings) (query : Query) : Traced Filter :=
  let traced := Conversion.root settings query
  { log := Log.Event.translateBegin.entry [("input_kind", query.kindName)] :: traced.log ++
      [Conversion.closing query traced.result]
    result := traced.result }

open Json (Value)

structure Report where
  inputKind : String
  inputDepth : Nat
  outcome : Except Rejection Filter

namespace Report

def ofResult (query : Query) (outcome : Except Rejection Filter) : Report :=
  ⟨query.kindName, query.depth, outcome⟩

def accepted (report : Report) : Bool :=
  report.outcome.isOk

def toJson (report : Report) : Value :=
  .object <|
    ("accepted", .boolean report.accepted) ::
    (match report.outcome with
      | .ok filter =>
        [("filter", .text filter.text), ("filter_depth", .integer filter.depth),
          ("filter_nodes", .integer filter.nodeCount)]
      | .error _ => []) ++
    [("input_depth", .integer report.inputDepth), ("input_kind", .text report.inputKind)] ++
    match report.outcome with
    | .ok _ => []
    | .error rejection =>
      [("rejection_code", .text Rejection.code), ("rejection_reason", .text rejection.reason)]

def text (report : Report) : String :=
  "=== TRANSLATION ===\nInput: " ++ report.inputKind ++ " (boolean depth " ++
    Text.decimalText report.inputDepth ++ ")\n" ++
    match report.outcome with
    | .ok filter =>
      "Status: ACCEPTED\nFilter Nodes: " ++ Text.decimalText filter.nodeCount ++ " (depth " ++
        Text.decimalText filter.depth ++ ")\nFilter: " ++ filter.text ++ "\n"
    | .error rejection =>
      "Status: REJECTED\nError Code: " ++ Rejection.code ++ "\nReason: " ++ rejection.reason ++ "\n"

end Report

end SearchFilter
