import SearchFilter.Json.Value
/-!
# Reading JSON

Values are read from the front of a text. Escaped code units outside the basic plane come in
pairs. A numeral is first read as it is spelled and then evaluated: its significand is as much of
its digits as a 64-bit word holds, and digits that do not fit only scale the value. Arrays and
objects may nest as deep as a given limit and no deeper, and what has been read of them is folded
into a state. A value nobody asked for is only checked for its form: it may nest at any depth, its
numbers may be out of range and its escaped code units need not pair up.

A fault that is found while a text is read has a place in it. Readers only know how many bytes are
behind that place, and the line and the column are found from the whole text. Characters out of
place are part of what was read; a bracket that opens what nobody asked for is not.

The fuel of a loop bounds the number of items. Every item takes a character, so the length of the
text is fuel enough, and the answer of an empty tank is the one for an empty text.
-/
namespace SearchFilter.Json

/-- A line of a text, counted from one, and the number of bytes on it in front of a place. -/
structure Location where
  line : Nat
  column : Nat
  deriving DecidableEq, Repr

namespace Location

/-- The place in a text with so many bytes behind it. -/
def ofBehind (text : String) (behind : Nat) : Location :=
  let front := text.toUTF8.toList.take (text.utf8ByteSize - behind)
  let newline := '\n'.toUInt8
  ⟨front.count newline + 1, (front.reverse.takeWhile (· ≠ newline)).length⟩

/-- The end of a message about a fault: its place, if it has one. -/
def suffix : Option Location → String
  | none => ""
  | some location =>
    " at line " ++ Text.decimalText location.line ++ " column " ++ Text.decimalText location.column

end Location

/-- A fault, and how many bytes of the text are behind its place. Only what is wrong with a value
that has been read before has no place. -/
structure TextFault where
  fault : Fault
  behind? : Option Nat
  deriving DecidableEq, Repr

def TextFault.location? (fault : TextFault) (text : String) : Option Location :=
  fault.behind?.map (Location.ofBehind text)

variable {α : Type}

def byteCount (cs : List Char) : Nat :=
  (String.ofList cs).utf8ByteSize

/-- Stops at malformed text behind so many bytes of the rest. -/
def refuseAfter (read : Nat) (cause : Malformed) (rest : List Char) : Except TextFault α :=
  .error ⟨.malformed cause, some (byteCount rest - read)⟩

/-- Stops at malformed text behind the byte that is out of place. -/
def refuse (cause : Malformed) (rest : List Char) : Except TextFault α :=
  refuseAfter 1 cause rest

/-- A fault in what was read last is in front of the rest. -/
def located (rest : List Char) (result : Except Fault α) : Except TextFault α :=
  result.mapError fun fault => ⟨fault, some (byteCount rest)⟩

def unlocated (result : Except Fault α) : Except TextFault α :=
  result.mapError fun fault => ⟨fault, none⟩

/-- What is read, or the fault without its place. -/
def withoutLocation (result : Except TextFault α) : Except Fault α :=
  result.mapError TextFault.fault

section

variable {β : Type} {a : α} {rest : List Char}

@[simp] theorem refuseAfter_ne_ok (read : Nat) (cause : Malformed) (rest : List Char) (a : α) :
    refuseAfter read cause rest ≠ .ok a :=
  nofun

@[simp] theorem refuse_ne_ok (cause : Malformed) (rest : List Char) (a : α) :
    refuse cause rest ≠ .ok a :=
  nofun

@[simp] theorem located_ok (rest : List Char) (a : α) : located rest (.ok a) = .ok a := rfl

@[simp] theorem unlocated_ok (a : α) : unlocated (.ok a) = .ok a := rfl

@[simp] theorem withoutLocation_ok (a : α) : withoutLocation (.ok a) = .ok a := rfl

@[simp] theorem located_eq_ok {result : Except Fault α} :
    located rest result = .ok a ↔ result = .ok a := by
  cases result with
  | ok b => simp
  | error fault => exact ⟨nofun, nofun⟩

@[simp] theorem unlocated_eq_ok {result : Except Fault α} :
    unlocated result = .ok a ↔ result = .ok a := by
  cases result with
  | ok b => simp
  | error fault => exact ⟨nofun, nofun⟩

@[simp] theorem withoutLocation_eq_ok {result : Except TextFault α} :
    withoutLocation result = .ok a ↔ result = .ok a := by
  cases result with
  | ok b => simp
  | error fault => exact ⟨nofun, nofun⟩

theorem withoutLocation_eq_error {result : Except TextFault α} {fault : Fault} :
    withoutLocation result = .error fault ↔ ∃ behind?, result = .error ⟨fault, behind?⟩ := by
  cases result with
  | ok a => exact ⟨nofun, nofun⟩
  | error found =>
    obtain ⟨fault', behind?⟩ := found
    change Except.error fault' = .error fault ↔ _
    simp

@[simp] theorem withoutLocation_refuseAfter (read : Nat) (cause : Malformed) (rest : List Char) :
    withoutLocation (refuseAfter read cause rest : Except TextFault α) =
      .error (.malformed cause) :=
  rfl

@[simp] theorem withoutLocation_located (rest : List Char) (result : Except Fault α) :
    withoutLocation (located rest result) = result := by
  cases result <;> rfl

theorem withoutLocation_bind (result : Except TextFault α) (next : α → Except TextFault β) :
    withoutLocation (result >>= next) =
      withoutLocation result >>= fun a => withoutLocation (next a) := by
  cases result <;> rfl

end

/-- The character that a letter behind a backslash stands for. -/
def escaped? : Char → Option Char
  | '"' => some '"'
  | '\\' => some '\\'
  | '/' => some '/'
  | 'b' => some '\x08'
  | 'f' => some '\x0c'
  | 'n' => some '\n'
  | 'r' => some '\r'
  | 't' => some '\t'
  | _ => none

/-- The code unit that four hexadecimal digits spell. -/
def codeUnit? (a b c d : Char) : Option Nat := do
  let a ← Text.hexValue? a
  let b ← Text.hexValue? b
  let c ← Text.hexValue? c
  let d ← Text.hexValue? d
  some (((a * 16 + b) * 16 + c) * 16 + d)

def isHighSurrogate (unit : Nat) : Bool :=
  0xd800 ≤ unit && unit < 0xdc00

def isLowSurrogate (unit : Nat) : Bool :=
  0xdc00 ≤ unit && unit < 0xe000

def joinSurrogates (high low : Nat) : Char :=
  Char.ofNat ((high - 0xd800) * 0x400 + (low - 0xdc00) + 0x10000)

/-- Why fewer than four characters do not make a code unit: a text with less than four bytes left
is cut off, any other holds a character that is no digit. -/
def shortUnit (rest : List Char) : Malformed :=
  if byteCount rest < 4 then .cutText else .badEscape

def prepend (c : Char) :
    Except TextFault (List Char × List Char) → Except TextFault (List Char × List Char)
  | .ok (text, rest) => .ok (c :: text, rest)
  | .error fault => .error fault

/-- Reads the characters of a string whose opening quote has been read. -/
def readChars : List Char → Except TextFault (List Char × List Char)
  | [] => refuse .cutText []
  | '"' :: rest => .ok ([], rest)
  | '\\' :: 'u' :: a :: b :: c :: d :: rest =>
    match codeUnit? a b c d with
    | none => refuseAfter 4 .badEscape (a :: b :: c :: d :: rest)
    | some unit =>
      if isLowSurrogate unit then refuseAfter 0 .loneSurrogate rest
      else if isHighSurrogate unit then
        match rest with
        | '\\' :: 'u' :: e :: f :: g :: h :: rest =>
          match codeUnit? e f g h with
          | none => refuseAfter 4 .badEscape (e :: f :: g :: h :: rest)
          | some low =>
            if isLowSurrogate low then prepend (joinSurrogates unit low) (readChars rest)
            else refuseAfter 0 .loneSurrogate rest
        | '\\' :: 'u' :: rest => refuseAfter 4 (shortUnit rest) rest
        | [] | ['\\'] => refuse .cutText []
        | '\\' :: rest | rest => refuse .cutSurrogatePair rest
      else prepend (Char.ofNat unit) (readChars rest)
  | '\\' :: 'u' :: rest => refuseAfter 4 (shortUnit rest) rest
  | ['\\'] => refuse .cutText []
  | '\\' :: letter :: rest =>
    match escaped? letter with
    | some c => prepend c (readChars rest)
    | none => refuse .badEscape (letter :: rest)
  | c :: rest =>
    if c < ' ' then refuse .controlCharacter (c :: rest) else prepend c (readChars rest)

/-- Reads a string whose opening quote has been read. -/
def readText (cs : List Char) : Except TextFault (String × List Char) := do
  let (text, rest) ← readChars cs
  .ok (String.ofList text, rest)

/-- Passes over a string whose opening quote has been read. Escaped code units need not pair up. -/
def skipChars : List Char → Except TextFault (List Char)
  | [] => refuse .cutText []
  | '"' :: rest => .ok rest
  | '\\' :: 'u' :: a :: b :: c :: d :: rest =>
    match codeUnit? a b c d with
    | none => refuseAfter 4 .badEscape (a :: b :: c :: d :: rest)
    | some _ => skipChars rest
  | '\\' :: 'u' :: rest => refuseAfter 4 (shortUnit rest) rest
  | ['\\'] => refuse .cutText []
  | '\\' :: letter :: rest =>
    match escaped? letter with
    | some _ => skipChars rest
    | none => refuse .badEscape (letter :: rest)
  | c :: rest => if c < ' ' then refuseAfter 0 .controlCharacter (c :: rest) else skipChars rest

/-- A spelled number. The fraction is empty exactly when there is no point. -/
structure Numeral where
  negative : Bool
  whole : List Char
  fraction : List Char
  exponent : Option Int
  deriving DecidableEq, Repr

/-- The digits in front of a text, and the rest. -/
def spanDigits (cs : List Char) : List Char × List Char :=
  (cs.takeWhile Text.isDigit, cs.dropWhile Text.isDigit)

def natOfDigits (digits : List Char) : Nat :=
  digits.foldl (fun n c => n * 10 + Text.digitValue c) 0

/-- Reads at least one digit. A strict reader tells a text that ends too early apart from one with
another character in that place. -/
def readDigits (strict : Bool) (cs : List Char) : Except TextFault (List Char × List Char) :=
  match spanDigits cs with
  | ([], rest) => refuse (if strict && rest.isEmpty then .cutValue else .badNumber) rest
  | found => .ok found

/-- Reads the digits before the point: a zero stands alone. -/
def readWhole (strict : Bool) (cs : List Char) : Except TextFault (List Char × List Char) := do
  let (digits, rest) ← readDigits strict cs
  match digits with
  | '0' :: _ :: _ => refuseAfter 2 .badNumber cs
  | _ => .ok (digits, rest)

def readFraction (strict : Bool) : List Char → Except TextFault (List Char × List Char)
  | '.' :: rest => readDigits strict rest
  | rest => .ok ([], rest)

/-- Reads the sign of an exponent: whether it is negative. -/
def readSign : List Char → Bool × List Char
  | '-' :: rest => (true, rest)
  | '+' :: rest => (false, rest)
  | rest => (false, rest)

def readExponent (strict : Bool) : List Char → Except TextFault (Option Int × List Char)
  | c :: rest =>
    if c = 'e' ∨ c = 'E' then do
      let (negative, rest) := readSign rest
      let (digits, rest) ← readDigits strict rest
      let magnitude : Int := natOfDigits digits
      .ok (some (if negative then -magnitude else magnitude), rest)
    else .ok (none, c :: rest)
  | [] => .ok (none, [])

def readUnsigned (strict negative : Bool) (cs : List Char) :
    Except TextFault (Numeral × List Char) := do
  let (whole, rest) ← readWhole strict cs
  let (fraction, rest) ← readFraction strict rest
  let (exponent, rest) ← readExponent strict rest
  .ok (⟨negative, whole, fraction, exponent⟩, rest)

def readNumeral (strict : Bool) : List Char → Except TextFault (Numeral × List Char)
  | '-' :: rest => readUnsigned strict true rest
  | cs => readUnsigned strict false cs

/-- Appends digits to a significand as long as it fits a 64-bit word; the digits left over. -/
def absorb (significand : Nat) : List Char → Nat × List Char
  | [] => (significand, [])
  | c :: cs =>
    let next := significand * 10 + Text.digitValue c
    if next < Nat.pow 2 64 then absorb next cs else (significand, c :: cs)

namespace Numeral

def isIntegral (n : Numeral) : Bool :=
  n.fraction.isEmpty && n.exponent.isNone

/-- An integral numeral whose value has a 64-bit form. Negative zero has none. -/
def integer? (n : Numeral) : Option Int :=
  let magnitude := natOfDigits n.whole
  if !n.isIntegral then none
  else if n.negative then
    if magnitude ≠ 0 ∧ magnitude ≤ Nat.pow 2 63 then some (-magnitude) else none
  else if magnitude < Nat.pow 2 64 then some magnitude
  else none

/-- The rounded magnitude of a numeral; `none` out of range. -/
def magnitude? (n : Numeral) : Option Binary64 :=
  let (significand, droppedWhole) := absorb 0 n.whole
  let (significand, droppedFraction) := absorb significand n.fraction
  let kept : Int := n.fraction.length - droppedFraction.length
  Binary64.ofScientific significand (n.exponent.getD 0 + droppedWhole.length - kept)

def number? (n : Numeral) : Option Number :=
  match n.integer? with
  | some value => some (.integer value)
  | none => n.magnitude?.map (Number.real n.negative)

end Numeral

/-- How many digits of an exponent are behind the one by which it exceeds 31 bits. -/
def surplusDigits (exponent : Int) : Nat :=
  (Text.decimal (exponent.toNat / Nat.pow 2 31)).length - 1

/-- Reads a number. One out of range is refused at its end, or as soon as its exponent exceeds 31
bits. -/
def readNumber (cs : List Char) : Except TextFault (Number × List Char) := do
  let (numeral, rest) ← readNumeral true cs
  match numeral.number? with
  | some number => .ok (number, rest)
  | none =>
    .error ⟨.malformed .numberOutOfRange,
      some (byteCount rest + surplusDigits (numeral.exponent.getD 0))⟩

variable {σ : Type}

def isBlank (c : Char) : Bool :=
  c == ' ' || c == '\t' || c == '\n' || c == '\r'

def skipBlanks (cs : List Char) : List Char :=
  cs.dropWhile isBlank

/-- Passes over a closing brace that comes next. -/
def skipBrace (cs : List Char) : List Char :=
  match skipBlanks cs with
  | '}' :: rest => rest
  | rest => rest

/-- Passes over the colon behind a key. -/
def readColon (cs : List Char) : Except TextFault (List Char) :=
  match skipBlanks cs with
  | ':' :: rest => .ok rest
  | [] => refuse .cutObject []
  | rest => refuse .noColon rest

/-- Reads items up to the closing bracket; one item must come. -/
def readItems (strict : Bool) (item : σ → List Char → Except TextFault (σ × List Char)) :
    Nat → σ → List Char → Except TextFault (σ × List Char)
  | 0, _, _ => refuse .cutValue []
  | fuel + 1, state, cs => do
    let (state, rest) ← item state cs
    match skipBlanks rest with
    | ']' :: rest => .ok (state, rest)
    | ',' :: rest =>
      match strict, skipBlanks rest with
      | true, ']' :: rest => refuse .trailingComma (']' :: rest)
      | _, rest => readItems strict item fuel state rest
    | [] => refuse .cutArray []
    | rest => refuse .noArrayEnd rest

/-- Reads an array whose opening bracket has been read. -/
def readArray (strict : Bool) (item : σ → List Char → Except TextFault (σ × List Char))
    (state : σ) (cs : List Char) : Except TextFault (σ × List Char) :=
  match skipBlanks cs with
  | ']' :: rest => .ok (state, rest)
  | [] => refuse .cutArray []
  | rest => readItems strict item rest.length state rest

/-- Reads members up to the closing brace. The reader of a member starts behind the opening quote
of its key. -/
def readMembers (strict : Bool) (member : σ → List Char → Except TextFault (σ × List Char)) :
    Nat → σ → List Char → Except TextFault (σ × List Char)
  | 0, _, _ => refuse .cutText []
  | fuel + 1, state, cs => do
    let (state, rest) ← member state cs
    match skipBlanks rest with
    | '}' :: rest => .ok (state, rest)
    | ',' :: rest =>
      match strict, skipBlanks rest with
      | _, '"' :: rest => readMembers strict member fuel state rest
      | true, '}' :: rest => refuse .trailingComma ('}' :: rest)
      | true, [] => refuse .cutValue []
      | false, [] => refuse .cutObject []
      | _, rest => refuse .keyNotText rest
    | [] => refuse .cutObject []
    | rest => refuse .noObjectEnd rest

/-- Reads an object whose opening brace has been read. -/
def readObject (strict : Bool) (member : σ → List Char → Except TextFault (σ × List Char))
    (state : σ) (cs : List Char) : Except TextFault (σ × List Char) :=
  match skipBlanks cs with
  | '}' :: rest => .ok (state, rest)
  | '"' :: rest => readMembers strict member rest.length state rest
  | [] => refuse .cutObject []
  | rest => refuse .keyNotText rest

/-- How deep arrays and objects of a document may nest. -/
def nestingLimit : Nat := 127

/-- Reads the rest of a word. -/
def readWord : List Char → List Char → Except TextFault (List Char)
  | [], rest => .ok rest
  | _ :: _, [] => refuse .cutValue []
  | w :: word, c :: rest => if c = w then readWord word rest else refuse .badWord (c :: rest)

/-- Reads a value that is neither an array nor an object. -/
def readScalar : List Char → Except TextFault (Scalar × List Char)
  | [] => refuse .cutValue []
  | 'n' :: rest => do .ok (.null, ← readWord ['u', 'l', 'l'] rest)
  | 't' :: rest => do .ok (.boolean true, ← readWord ['r', 'u', 'e'] rest)
  | 'f' :: rest => do .ok (.boolean false, ← readWord ['a', 'l', 's', 'e'] rest)
  | '"' :: rest => do
    let (text, rest) ← readText rest
    .ok (.text text, rest)
  | c :: rest =>
    if c = '-' || Text.isDigit c then do
      let (number, rest) ← readNumber (c :: rest)
      .ok (.number number, rest)
    else refuse .noValue (c :: rest)

/-- Reads a value by its first character: an array or an object from behind its opening bracket,
any other value as a scalar. -/
def readBy (array object : List Char → Except TextFault (α × List Char))
    (scalar : Scalar → List Char → Except TextFault (α × List Char)) (cs : List Char) :
    Except TextFault (α × List Char) :=
  match skipBlanks cs with
  | '[' :: rest => array rest
  | '{' :: rest => object rest
  | rest => do
    let (value, rest) ← readScalar rest
    scalar value rest

/-- Reads the items of an array whose opening bracket has been read. -/
def readItemList (item : List Char → Except TextFault (Value × List Char)) (cs : List Char) :
    Except TextFault (List Value × List Char) := do
  let (items, rest) ← readArray true (fun items cs => do
    let (value, rest) ← item cs
    .ok (value :: items, rest)) [] cs
  .ok (items.reverse, rest)

/-- Reads the entries of an object whose opening brace has been read. -/
def readEntryList (item : List Char → Except TextFault (Value × List Char)) (cs : List Char) :
    Except TextFault (List (String × Value) × List Char) := do
  let (entries, rest) ← readObject true (fun entries cs => do
    let (key, rest) ← readText cs
    let (value, rest) ← item (← readColon rest)
    .ok ((key, value) :: entries, rest)) [] cs
  .ok (entries.reverse, rest)

/-- Reads a value in which arrays and objects nest at most as deep as the limit. -/
def readValue : Nat → List Char → Except TextFault (Value × List Char)
  | 0 =>
    readBy (fun rest => refuseAfter 0 .tooDeep rest) (fun rest => refuseAfter 0 .tooDeep rest)
      fun value rest => .ok (.scalar value, rest)
  | limit + 1 =>
    readBy
      (fun cs => do
        let (items, rest) ← readItemList (readValue limit) cs
        .ok (.array items, rest))
      (fun cs => do
        let (entries, rest) ← readEntryList (readValue limit) cs
        .ok (.object entries, rest))
      fun value rest => .ok (.scalar value, rest)

/-- Nothing but blanks may follow the outermost value. -/
def readEnd (cs : List Char) : Except TextFault Unit :=
  match skipBlanks cs with
  | [] => .ok ()
  | rest => refuse .trailingText rest

/-- Reads a text that must be a string; an array or an object is refused unread. -/
def readTextValue (wanted : String) : List Char → Except TextFault (String × List Char) :=
  readBy (fun rest => located ('[' :: rest) (.error (.wrongType .array wanted)))
    (fun rest => located ('{' :: rest) (.error (.wrongType .object wanted)))
    fun
    | .text value, rest => .ok (value, rest)
    | found, rest => located rest (.error (.wrongType (.scalar found) wanted))

/-- Passes over a value that is neither an array nor an object. -/
def skipScalar : List Char → Except TextFault (List Char)
  | [] => refuse .cutValue []
  | 'n' :: rest => readWord ['u', 'l', 'l'] rest
  | 't' :: rest => readWord ['r', 'u', 'e'] rest
  | 'f' :: rest => readWord ['a', 'l', 's', 'e'] rest
  | '"' :: rest => skipChars rest
  | c :: rest =>
    if c = '-' || Text.isDigit c then do
      let (_, rest) ← readNumeral false (c :: rest)
      .ok rest
    else refuse .noValue (c :: rest)

/-- Passes over a value. The fuel bounds the nesting; every level takes a character, so the length
of the text is fuel enough, and an empty tank answers for an empty text. -/
def skipLevels : Nat → List Char → Except TextFault (List Char)
  | 0, _ => refuse .cutValue []
  | fuel + 1, cs =>
    match skipBlanks cs with
    | '[' :: rest => do
      let (_, rest) ← readArray false (fun _ cs => do .ok ((), ← skipLevels fuel cs)) () rest
      .ok rest
    | '{' :: rest => do
      let (_, rest) ← readObject false (fun _ cs => do
        .ok ((), ← skipLevels fuel (← readColon (← skipChars cs)))) () rest
      .ok rest
    | rest => skipScalar rest

def skipValue (cs : List Char) : Except TextFault (List Char) :=
  skipLevels cs.length cs

end SearchFilter.Json
