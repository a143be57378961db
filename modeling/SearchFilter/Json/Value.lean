import SearchFilter.Number
import SearchFilter.Text
/-!
# JSON values

Numbers are integers or reals; the entries of an object keep their order and may repeat a key.
Every writer puts its text in front of a given one, so that a written value is followed by
whatever comes next, and writes no blanks. A text that is read may be malformed, or what it holds
is not what the reader wants; only its first fault is ever reported.
-/
namespace SearchFilter.Json

inductive Number where
  | integer (value : Int)
  | real (negative : Bool) (magnitude : Binary64)
  deriving DecidableEq, Repr

inductive Scalar where
  | null
  | boolean (value : Bool)
  | number (value : Number)
  | text (value : String)
  deriving DecidableEq, Repr

inductive Value where
  | scalar (value : Scalar)
  | array (items : List Value)
  | object (entries : List (String × Value))

namespace Value

@[match_pattern] abbrev null : Value := .scalar .null

@[match_pattern] abbrev boolean (value : Bool) : Value := .scalar (.boolean value)

@[match_pattern] abbrev integer (value : Int) : Value := .scalar (.number (.integer value))

@[match_pattern] abbrev text (value : String) : Value := .scalar (.text value)

/-- The object with one entry. -/
abbrev single (key : String) (value : Value) : Value := .object [(key, value)]

mutual

/-- How deep arrays and objects nest. -/
def nesting : Value → Nat
  | .scalar _ => 0
  | .array items => itemsNesting items + 1
  | .object entries => entriesNesting entries + 1

def itemsNesting : List Value → Nat
  | [] => 0
  | item :: items => max (nesting item) (itemsNesting items)

def entriesNesting : List (String × Value) → Nat
  | [] => 0
  | (_, value) :: entries => max (nesting value) (entriesNesting entries)

end

end Value

/-- The letter of a short escape. -/
def shortEscape? : Char → Option Char
  | '"' => some '"'
  | '\\' => some '\\'
  | '\x08' => some 'b'
  | '\x0c' => some 'f'
  | '\n' => some 'n'
  | '\r' => some 'r'
  | '\t' => some 't'
  | _ => none

/-- Quotes, backslashes and characters below U+0020 are escaped, all others are not. -/
def writeChar (c : Char) (rest : List Char) : List Char :=
  match shortEscape? c with
  | some letter => '\\' :: letter :: rest
  | none =>
    if c < ' ' then '\\' :: 'u' :: Text.fourHexDigits c.toNat ++ rest else c :: rest

def writeText (text : String) (rest : List Char) : List Char :=
  '"' :: text.toList.foldr writeChar ('"' :: rest)

def Number.write : Number → List Char → List Char
  | .integer value, rest => Text.signedDecimal value ++ rest
  | .real negative magnitude, rest =>
    (if negative then ['-'] else []) ++ magnitude.write ++ rest

def Scalar.write : Scalar → List Char → List Char
  | .null, rest => 'n' :: 'u' :: 'l' :: 'l' :: rest
  | .boolean true, rest => 't' :: 'r' :: 'u' :: 'e' :: rest
  | .boolean false, rest => 'f' :: 'a' :: 'l' :: 's' :: 'e' :: rest
  | .number value, rest => value.write rest
  | .text value, rest => writeText value rest

namespace Value

mutual

def write : Value → List Char → List Char
  | .scalar value, rest => value.write rest
  | .array [], rest => '[' :: ']' :: rest
  | .array (item :: items), rest => '[' :: write item (writeItems items rest)
  | .object [], rest => '{' :: '}' :: rest
  | .object ((key, value) :: entries), rest =>
    '{' :: writeText key (':' :: write value (writeEntries entries rest))

/-- The items after the first, each behind a comma, and the closing bracket. -/
def writeItems : List Value → List Char → List Char
  | [], rest => ']' :: rest
  | item :: items, rest => ',' :: write item (writeItems items rest)

/-- The entries after the first, each behind a comma, and the closing brace. -/
def writeEntries : List (String × Value) → List Char → List Char
  | [], rest => '}' :: rest
  | (key, value) :: entries, rest =>
    ',' :: writeText key (':' :: write value (writeEntries entries rest))

end

def compact (value : Value) : String :=
  String.ofList (value.write [])

end Value

inductive Malformed where
  | cutValue
  | cutObject
  | cutArray
  | cutText
  | noValue
  | badWord
  | keyNotText
  | trailingComma
  | noColon
  | noObjectEnd
  | noArrayEnd
  | trailingText
  | badNumber
  | numberOutOfRange
  | controlCharacter
  | badEscape
  | cutSurrogatePair
  | loneSurrogate
  | tooDeep
  deriving DecidableEq, Repr

def Malformed.message : Malformed → String
  | cutValue => "EOF while parsing a value"
  | cutObject => "EOF while parsing an object"
  | cutArray => "EOF while parsing a list"
  | cutText => "EOF while parsing a string"
  | noValue => "expected value"
  | badWord => "expected ident"
  | keyNotText => "key must be a string"
  | trailingComma => "trailing comma"
  | noColon => "expected `:`"
  | noObjectEnd => "expected `,` or `\x7d`"
  | noArrayEnd => "expected `,` or `]`"
  | trailingText => "trailing characters"
  | badNumber => "invalid number"
  | numberOutOfRange => "number out of range"
  | controlCharacter => "control character (\\u0000-\\u001F) found while parsing a string"
  | badEscape => "invalid escape"
  | cutSurrogatePair => "unexpected end of hex escape"
  | loneSurrogate => "lone leading surrogate in hex escape"
  | tooDeep => "recursion limit exceeded"

/-- What a value is, as far as a fault tells. -/
inductive Shape where
  | scalar (value : Scalar)
  | array
  | object
  deriving DecidableEq, Repr

def Value.shape : Value → Shape
  | .scalar value => .scalar value
  | .array _ => .array
  | .object _ => .object

def backquoted (text : List Char) : List Char :=
  '\x60' :: text ++ ['\x60']

def Shape.describe : Shape → List Char
  | .scalar .null => "null".toList
  | .scalar (.boolean value) => "boolean ".toList ++ backquoted (toString value).toList
  | .scalar (.number (.integer value)) =>
    "integer ".toList ++ backquoted (Text.signedDecimal value)
  | .scalar (.number (.real negative magnitude)) =>
    "floating point ".toList ++
      backquoted ((if negative then ['-'] else []) ++ magnitude.write)
  | .scalar (.text value) => "string ".toList ++ Text.quoted value
  | .array => "sequence".toList
  | .object => "map".toList

inductive Fault where
  | malformed (cause : Malformed)
  | wrongType (found : Shape) (wanted : String)
  | wrongValue (found : Shape) (wanted : String)
  | wrongLength (found : Nat) (wanted : String)
  | missingField (name : String)
  | duplicateField (name : String)
  | unknownVariant (name : String) (known : List String)
  deriving DecidableEq, Repr

def Fault.message : Fault → String
  | malformed cause => cause.message
  | wrongType found wanted =>
    String.ofList
      ("invalid type: ".toList ++ found.describe ++ ", expected ".toList ++ wanted.toList)
  | wrongValue found wanted =>
    String.ofList
      ("invalid value: ".toList ++ found.describe ++ ", expected ".toList ++ wanted.toList)
  | wrongLength found wanted =>
    "invalid length " ++ Text.decimalText found ++ ", expected " ++ wanted
  | missingField name => "missing field `" ++ name ++ "`"
  | duplicateField name => "duplicate field `" ++ name ++ "`"
  | unknownVariant name known =>
    "unknown variant `" ++ name ++ "`, expected one of " ++
      ", ".intercalate (known.map fun k => "`" ++ k ++ "`")

theorem bind_eq_ok {ε α β : Type} {result : Except ε α} {next : α → Except ε β} {b : β} :
    (result >>= next) = .ok b ↔ ∃ a, result = .ok a ∧ next a = .ok b := by
  cases result <;> simp [bind, Except.bind]

theorem map_eq_ok {ε α β : Type} {result : Except ε α} {f : α → β} {b : β} :
    f <$> result = .ok b ↔ ∃ a, result = .ok a ∧ f a = b := by
  cases result <;> simp [Functor.map, Except.map]

end SearchFilter.Json
