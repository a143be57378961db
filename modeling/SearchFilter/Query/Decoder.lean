import SearchFilter.Json.Value
import SearchFilter.Query
/-!
# Queries from JSON values

A schema lists the fields of a node, a clause or a phrase word in the order of their declaration. A
row holds a value for every field, a table of slots may still lack some. A group of fields is
written with keys, in any order and among unknown ones, or by position, and every known key comes at
most once. Fields are decoded in the order in which they are written and the first fault counts;
what is missing is only found at the end.
-/
namespace SearchFilter

/-- What a field holds, or a whole value is read as. -/
inductive FieldType where
  | text
  | bound
  | bytes
  | edits
  | occurrence
  | word
  | words
  | clause
  | clauses
  | query
  deriving DecidableEq, Repr

namespace FieldType

abbrev Carrier : FieldType → Type
  | text => String
  | bound => Option String
  | bytes => List UInt8
  | edits => UInt32
  | occurrence => Occurrence
  | word => PhraseWord
  | words => List PhraseWord
  | clause => Clause Query
  | clauses => List (Clause Query)
  | query => Query

/-- The value of a field that is not given; only bounds have one. -/
def default? : (type : FieldType) → Option type.Carrier
  | bound => some none
  | _ => none

end FieldType

structure Field where
  name : String
  type : FieldType
  deriving DecidableEq, Repr

abbrev Schema := List Field

abbrev Row : Schema → Type
  | [] => Unit
  | field :: fields => field.type.Carrier × Row fields

abbrev Slots : Schema → Type
  | [] => Unit
  | field :: fields => Option field.type.Carrier × Slots fields

def Slots.empty : (schema : Schema) → Slots schema
  | [] => ()
  | _ :: fields => (none, empty fields)

/-- A group of fields and the title under which faults mention it. -/
structure Record where
  title : String
  schema : Schema

/-- The fields of a word of a phrase. -/
abbrev wordRecord : Record where
  title := "struct PhraseTerm"
  schema := [⟨"field", .text⟩, ⟨"text", .text⟩]

/-- The fields of a clause. -/
abbrev clauseRecord : Record where
  title := "struct BooleanClause"
  schema := [⟨"query", .query⟩, ⟨"occurrence", .occurrence⟩]

namespace Kind

/-- The name of the kind in faults. -/
def title : Kind → String
  | term => "Term"
  | phrase => "Phrase"
  | wildcard => "Wildcard"
  | startsWith => "Prefix"
  | regexp => "Regexp"
  | fuzzy => "Fuzzy"
  | numericRange => "RangeNumeric"
  | textRange => "RangeLexicographic"
  | matchAll => "MatchAll"
  | boolean => "Boolean"
  | foreign => "Opaque"

abbrev schema : Kind → Schema
  | term => [⟨"field", .text⟩, ⟨"text", .text⟩]
  | phrase => [⟨"terms", .words⟩]
  | wildcard => [⟨"field", .text⟩, ⟨"pattern", .text⟩]
  | startsWith => [⟨"field", .text⟩, ⟨"prefix", .text⟩]
  | regexp => [⟨"field", .text⟩, ⟨"pattern", .text⟩]
  | fuzzy => [⟨"field", .text⟩, ⟨"text", .text⟩, ⟨"max_edits", .edits⟩]
  | numericRange => [⟨"field", .text⟩, ⟨"lower", .bytes⟩, ⟨"upper", .bytes⟩]
  | textRange => [⟨"field", .text⟩, ⟨"lower", .bound⟩, ⟨"upper", .bound⟩]
  | matchAll => []
  | boolean => [⟨"clauses", .clauses⟩]
  | foreign => [⟨"kind", .text⟩]

/-- The fields of a node of this kind. -/
abbrev record (kind : Kind) : Record where
  title := "struct variant QueryNode::" ++ kind.title
  schema := kind.schema

/-- The query of this kind with these fields. -/
def build : (kind : Kind) → Row kind.schema → Query
  | term, (field, text, ()) => .leaf (.term field text)
  | phrase, (words, ()) => .leaf (.phrase words)
  | wildcard, (field, pattern, ()) => .leaf (.wildcard field pattern)
  | startsWith, (field, start, ()) => .leaf (.startsWith field start)
  | regexp, (field, pattern, ()) => .leaf (.regexp field pattern)
  | fuzzy, (field, text, maxEdits, ()) => .leaf (.fuzzy field text maxEdits)
  | numericRange, (field, lower, upper, ()) => .leaf (.numericRange field lower upper)
  | textRange, (field, lower, upper, ()) => .leaf (.textRange field lower upper)
  | matchAll, () => .leaf .matchAll
  | boolean, (clauses, ()) => .boolean clauses
  | foreign, (kind, ()) => .leaf (.foreign kind)

end Kind

open Json (Value Fault Shape)

/-- A way to decode values of every type. -/
abbrev FieldDecoder := (type : FieldType) → Value → Except Fault type.Carrier

def decodeText : Value → Except Fault String
  | .text text => .ok text
  | value => .error (.wrongType value.shape "a string")

def decodeBound : Value → Except Fault (Option String)
  | .null => .ok none
  | value => some <$> decodeText value

/-- Decodes an integer below a limit. -/
def decodeNat (limit : Nat) (wanted : String) : Value → Except Fault Nat
  | .integer value =>
    if 0 ≤ value ∧ value < limit then .ok value.toNat
    else .error (.wrongValue (.scalar (.number (.integer value))) wanted)
  | value => .error (.wrongType value.shape wanted)

def decodeByte (value : Value) : Except Fault UInt8 :=
  UInt8.ofNat <$> decodeNat UInt8.size "u8" value

def decodeEdits (value : Value) : Except Fault UInt32 :=
  UInt32.ofNat <$> decodeNat UInt32.size "u32" value

def decodeList {α : Type} (item : Value → Except Fault α) : Value → Except Fault (List α)
  | .array items => items.mapM item
  | value => .error (.wrongType value.shape "a sequence")

def occurrenceOfName (name : String) : Except Fault Occurrence :=
  match Occurrence.ofName? name with
  | some occurrence => .ok occurrence
  | none => .error (.unknownVariant name (Occurrence.all.map Occurrence.name))

/-- An occurrence is its name, or an object with that key alone and nothing behind it. -/
def decodeOccurrence : Value → Except Fault Occurrence
  | .text name => occurrenceOfName name
  | .object [(name, value)] => do
    let occurrence ← occurrenceOfName name
    match value with
    | .null | .object [] => .ok occurrence
    | _ => .error (.wrongType value.shape "unit")
  | .object _ => .error (.wrongValue .object "map with a single key")
  | value => .error (.wrongType value.shape "string or map")

/-- Decodes the value of an entry into the slot of its key. -/
def Slots.put (decode : FieldDecoder) (key : String) (value : Value) :
    (schema : Schema) → Slots schema → Except Fault (Slots schema)
  | [], slots => .ok slots
  | field :: fields, (slot, slots) =>
    if field.name = key then
      if slot.isSome then .error (.duplicateField key)
      else do .ok (some (← decode field.type value), slots)
    else do .ok (slot, ← put decode key value fields slots)

def Slots.complete : (schema : Schema) → Slots schema → Except Fault (Row schema)
  | [], () => .ok ()
  | field :: fields, (slot, slots) =>
    match slot <|> field.type.default? with
    | some value => do .ok (value, ← complete fields slots)
    | none => .error (.missingField field.name)

def countOf (n : Nat) : String :=
  Text.decimalText n ++ if n = 1 then " element" else " elements"

namespace Record

/-- Reads a row by keys. -/
def ofEntries (record : Record) (decode : FieldDecoder) (entries : List (String × Value)) :
    Except Fault (Row record.schema) := do
  let slots ← entries.foldlM (fun slots (key, value) => Slots.put decode key value _ slots)
    (Slots.empty record.schema)
  slots.complete record.schema

/-- Takes a value for every field from the front of a list. When it runs out, the length of the
whole list is at fault. -/
def takeRow (decode : FieldDecoder) (tooShort : Fault) :
    (schema : Schema) → List Value → Except Fault (Row schema × List Value)
  | [], items => .ok ((), items)
  | field :: fields, item :: items => do
    let value ← decode field.type item
    let (row, rest) ← takeRow decode tooShort fields items
    .ok ((value, row), rest)
  | field :: fields, [] =>
    match field.type.default? with
    | some value => do
      let (row, rest) ← takeRow decode tooShort fields []
      .ok ((value, row), rest)
    | none => .error tooShort

/-- Reads a row by position. -/
def ofItems (record : Record) (decode : FieldDecoder) (items : List Value) :
    Except Fault (Row record.schema) := do
  let size := countOf record.schema.length
  let (row, rest) ← takeRow decode
    (.wrongLength items.length (record.title ++ " with " ++ size)) record.schema items
  if rest.isEmpty then .ok row else .error (.wrongLength items.length (size ++ " in sequence"))

def decode (record : Record) (decode : FieldDecoder) : Value → Except Fault (Row record.schema)
  | .object entries => record.ofEntries decode entries
  | .array items => record.ofItems decode items
  | value => .error (.wrongType value.shape record.title)

end Record

def kindOfName (name : String) : Except Fault Kind :=
  match Kind.ofName? name with
  | some kind => .ok kind
  | none => .error (.unknownVariant name (Kind.all.map Kind.name))

/-- What a tag must be, in faults. -/
def tagTitle : String := "variant identifier"

/-- What a node must be, in faults. -/
def nodeTitle : String := "internally tagged enum QueryNode"

/-- The key of the tag. -/
def tagKey : String := "type"

/-- The tag of an inner node is the name or the index of its kind. -/
def decodeTag : Value → Except Fault Kind
  | .text name => kindOfName name
  | .integer index =>
    if index < 0 then .error (.wrongType (.scalar (.number (.integer index))) tagTitle)
    else
      match Kind.ofIndex? index.toNat with
      | some kind => .ok kind
      | none =>
        .error (.wrongValue (.scalar (.number (.integer index)))
          ("variant index 0 <= i < " ++ Text.decimalText Kind.all.length))
  | value => .error (.wrongType value.shape tagTitle)

/-- The tag among the entries of an inner node. -/
def findTag (entries : List (String × Value)) : Except Fault Kind :=
  match entries.filter (·.1 == tagKey) with
  | [] => .error (.missingField tagKey)
  | [(_, tag)] => decodeTag tag
  | (_, tag) :: _ => do
    let _ ← decodeTag tag
    .error (.duplicateField tagKey)

/-- A node whose kind is known and whose fields are still to be decoded. -/
inductive TaggedNode where
  | keyed (kind : Kind) (entries : List (String × Value))
  | positional (kind : Kind) (items : List Value)

namespace TaggedNode

def ofValue : Value → Except Fault TaggedNode
  | .object entries => do
    .ok (.keyed (← findTag entries) (entries.filter (·.1 != tagKey)))
  | .array [] => .error (.missingField tagKey)
  | .array (tag :: items) => do .ok (.positional (← decodeTag tag) items)
  | value => .error (.wrongType value.shape nodeTitle)

def decode (decode : FieldDecoder) : TaggedNode → Except Fault Query
  | keyed kind entries => do .ok (kind.build (← kind.record.ofEntries decode entries))
  | positional kind items => do .ok (kind.build (← kind.record.ofItems decode items))

end TaggedNode

/-- Decodes a value of any type. The fuel must exceed the nesting of the value. -/
def decodeField : Nat → FieldDecoder
  | 0, _, _ => .error (.malformed .tooDeep)
  | fuel + 1, type, value =>
    match type with
    | .text => decodeText value
    | .bound => decodeBound value
    | .bytes => decodeList decodeByte value
    | .edits => decodeEdits value
    | .occurrence => decodeOccurrence value
    | .word => do
      let (field, text, ()) ← wordRecord.decode (decodeField fuel) value
      .ok ⟨field, text⟩
    | .words => decodeList (decodeField fuel .word) value
    | .clause => do
      let (query, occurrence, ()) ← clauseRecord.decode (decodeField fuel) value
      .ok ⟨query, occurrence⟩
    | .clauses => decodeList (decodeField fuel .clause) value
    | .query => do (← TaggedNode.ofValue value).decode (decodeField fuel)

end SearchFilter
