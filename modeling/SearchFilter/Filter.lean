import SearchFilter.Json.Value
import SearchFilter.Text
/-!
# Filters

A filter compares fields with operands, matches them against patterns, asks for their presence, or
combines other filters. An operand may itself be a filter: the document that a field holds.

As a document for a store, an equation is the field with its value, and every other comparison
wraps the value in an operator. The store has no operator of its own for a list that must match as
a whole, so that connective is written like a conjunction. As text, a filter is written like a
call; text operands are quoted, fields and patterns stand as they are.
-/
namespace SearchFilter

inductive Comparison where
  | eq
  | ne
  | gte
  | lte
  deriving DecidableEq, Repr

def Comparison.name : Comparison → String
  | eq => "eq"
  | ne => "ne"
  | gte => "gte"
  | lte => "lte"

inductive Connective where
  | and
  | or
  | all
  deriving DecidableEq, Repr

def Connective.name : Connective → String
  | and => "and"
  | or => "or"
  | all => "all"

mutual

inductive Filter where
  | compare (op : Comparison) (field : String) (operand : Operand)
  | regex (field pattern : String)
  | present (field : String)
  | combine (op : Connective) (children : List Filter)
  | negate (child : Filter)

inductive Operand where
  | null
  | int (value : Int64)
  | text (value : String)
  | document (filter : Filter)

end

def Operand.ofBound : Option String → Operand
  | none => .null
  | some value => .text value

namespace Filter

@[match_pattern] abbrev eq (field : String) (operand : Operand) : Filter :=
  .compare .eq field operand

@[match_pattern] abbrev ne (field : String) (operand : Operand) : Filter :=
  .compare .ne field operand

@[match_pattern] abbrev gte (field : String) (operand : Operand) : Filter :=
  .compare .gte field operand

@[match_pattern] abbrev lte (field : String) (operand : Operand) : Filter :=
  .compare .lte field operand

@[match_pattern] abbrev and (children : List Filter) : Filter := .combine .and children

@[match_pattern] abbrev or (children : List Filter) : Filter := .combine .or children

@[match_pattern] abbrev all (children : List Filter) : Filter := .combine .all children

def opName : Filter → String
  | compare op _ _ => op.name
  | regex _ _ => "regex"
  | present _ => "exists"
  | combine op _ => op.name
  | negate _ => "not"

mutual

/-- The number of filters in a filter, itself and those in operands included. -/
def nodeCount : Filter → Nat
  | compare _ _ operand => 1 + operandCount operand
  | regex _ _ => 1
  | present _ => 1
  | combine _ children => 1 + childrenCount children
  | negate child => 1 + nodeCount child

def operandCount : Operand → Nat
  | .null => 0
  | .int _ => 0
  | .text _ => 0
  | .document filter => nodeCount filter

def childrenCount : List Filter → Nat
  | [] => 0
  | child :: children => nodeCount child + childrenCount children

end

mutual

/-- How deep filters nest, in operands as well as below connectives. -/
def depth : Filter → Nat
  | compare _ _ operand => 1 + operandDepth operand
  | regex _ _ => 1
  | present _ => 1
  | combine _ children => 1 + childrenDepth children
  | negate child => 1 + depth child

def operandDepth : Operand → Nat
  | .null => 0
  | .int _ => 0
  | .text _ => 0
  | .document filter => depth filter

def childrenDepth : List Filter → Nat
  | [] => 0
  | child :: children => max (depth child) (childrenDepth children)

end

end Filter

open Json (Value)

/-- The operator of a connective. -/
def Connective.operator : Connective → String
  | and => "$and"
  | all => "$and"
  | or => "$or"

/-- The value that a comparison gives to its field. -/
def Comparison.apply : Comparison → Value → Value
  | eq, value => value
  | ne, value => .single "$ne" value
  | gte, value => .single "$gte" value
  | lte, value => .single "$lte" value

namespace Filter

mutual

def document : Filter → Value
  | compare op field operand => .single field (op.apply (operandValue operand))
  | regex field pattern => .single field (.single "$regex" (.text pattern))
  | present field => .single field (.single "$exists" (.boolean true))
  | combine op children => .single op.operator (.array (documents children))
  | negate child => .single "$nor" (.array [document child])

def operandValue : Operand → Value
  | .null => .null
  | .int value => .integer value.toInt
  | .text value => .text value
  | .document filter => document filter

def documents : List Filter → List Value
  | [] => []
  | child :: children => document child :: documents children

end

end Filter

end SearchFilter

namespace SearchFilter.Filter

mutual

def write : Filter → List Char → List Char
  | compare op field operand, rest =>
    op.name.toList ++ '(' :: field.toList ++ ',' :: ' ' :: writeOperand operand (')' :: rest)
  | regex field pattern, rest =>
    "regex(".toList ++ field.toList ++ ", /".toList ++ pattern.toList ++ '/' :: ')' :: rest
  | present field, rest => "exists(".toList ++ field.toList ++ ')' :: rest
  | combine op [], rest => op.name.toList ++ '(' :: ')' :: rest
  | combine op (child :: children), rest =>
    op.name.toList ++ '(' :: write child (writeChildren children rest)
  | negate child, rest => "not(".toList ++ write child (')' :: rest)

def writeOperand : Operand → List Char → List Char
  | .null, rest => "null".toList ++ rest
  | .int value, rest => Text.signedDecimal value.toInt ++ rest
  | .text value, rest => Text.quoted value ++ rest
  | .document filter, rest => '{' :: write filter ('}' :: rest)

/-- The children after the first, each behind a comma, and the closing parenthesis. -/
def writeChildren : List Filter → List Char → List Char
  | [], rest => ')' :: rest
  | child :: children, rest => ',' :: ' ' :: write child (writeChildren children rest)

end

def text (filter : Filter) : String :=
  String.ofList (filter.write [])

end SearchFilter.Filter
