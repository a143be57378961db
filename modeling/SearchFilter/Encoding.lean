import SearchFilter.Text
/-!
# Sortable bytes and patterns

A signed number is stored in big-endian bytes with its sign bit turned, so that comparing bytes
compares numbers. Four bytes hold a 32-bit number, eight bytes a 64-bit one. A bound of any other
width bounds nothing.

Wildcards become regular expressions and nothing is escaped: a character that has a meaning in
regular expressions keeps it. A fuzzy text becomes an approximate match: its first characters, as
many as there may be edits, are written as classes, and the number of edits closes the pattern.
-/
namespace SearchFilter.Sortable

/-- The lowest `width` bytes of a number, most significant first. -/
def bigEndian : Nat → Nat → List UInt8
  | 0, _ => []
  | width + 1, n => UInt8.ofNat (n / Nat.pow 256 width) :: bigEndian width n

def ofBigEndian (bytes : List UInt8) : Nat :=
  bytes.foldl (fun n b => n * 256 + b.toNat) 0

def intWidth : Nat := 4

def longWidth : Nat := 8

def intSign : UInt32 := 0x80000000

def longSign : UInt64 := 0x8000000000000000

def encodeInt (value : Int32) : List UInt8 :=
  bigEndian intWidth (value.toUInt32 ^^^ intSign).toNat

def encodeLong (value : Int64) : List UInt8 :=
  bigEndian longWidth (value.toUInt64 ^^^ longSign).toNat

def decodeInt? (bytes : List UInt8) : Option Int32 :=
  if bytes.length = intWidth then some (UInt32.ofNat (ofBigEndian bytes) ^^^ intSign).toInt32
  else none

def decodeLong? (bytes : List UInt8) : Option Int64 :=
  if bytes.length = longWidth then some (UInt64.ofNat (ofBigEndian bytes) ^^^ longSign).toInt64
  else none

/-- Whether bytes of this width hold a number. -/
def hasWidth (bytes : List UInt8) : Bool :=
  bytes.length == intWidth || bytes.length == longWidth

/-- The number in bytes of either width. -/
def decode? (bytes : List UInt8) : Option Int64 :=
  (decodeLong? bytes).or ((decodeInt? bytes).map Int32.toInt64)

/-- The end of an interval that a bound stands for. -/
inductive Side where
  | lower
  | upper
  deriving DecidableEq, Repr

namespace Side

def name : Side → String
  | lower => "lower"
  | upper => "upper"

/-- The bound that every number satisfies. -/
def unbounded : Side → Int64
  | lower => Int64.minValue
  | upper => Int64.maxValue

/-- The number that bytes stand for as a bound on this side. -/
def bound (side : Side) (bytes : List UInt8) : Int64 :=
  (decode? bytes).getD side.unbounded

end Side

end SearchFilter.Sortable

namespace SearchFilter.Pattern

def wildcardChar : Char → List Char
  | '*' => ['.', '*']
  | '?' => ['.']
  | c => [c]

def wildcard (pattern : String) : String :=
  String.ofList (pattern.toList.flatMap wildcardChar)

/-- The pattern of every text with the given start, itself a wildcard pattern. -/
def startsWith (start : String) : String :=
  wildcard (start.push '*')

def charClass (c : Char) : List Char :=
  ['[', c, ']']

def fuzzyChars (text : List Char) (maxEdits : Nat) : List Char :=
  '(' :: (text.take maxEdits).flatMap charClass ++ text.drop maxEdits ++
    [')', '{', 's', '<', '='] ++ Text.decimal maxEdits ++ ['}']

def fuzzy (text : String) (maxEdits : UInt32) : String :=
  String.ofList (fuzzyChars text.toList maxEdits.toNat)

end SearchFilter.Pattern
