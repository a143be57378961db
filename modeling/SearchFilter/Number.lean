import SearchFilter.Text
/-!
# Numbers of double precision

A finite magnitude is `mantissa * 2 ^ exponent` with a mantissa below `2 ^ 53` and an exponent of
at least `-1074`. Arithmetic is exact on ratios of naturals and rounded once, to the nearest
magnitude, a tie going to the even mantissa. Magnitudes beyond the largest one do not exist.

A magnitude is written with the fewest digits that lie strictly nearer to it than to any other
magnitude, or on a half-way point that rounds to it. Of two such decimals with equally many digits
the nearer one is taken, and the even one of two equally near.
-/
namespace SearchFilter

structure Binary64 where
  mantissa : Nat
  exponent : Int
  deriving DecidableEq, Repr

namespace Binary64

def zero : Binary64 := ⟨0, -1074⟩

def isZero (x : Binary64) : Bool :=
  x.mantissa == 0

/-- The numerator of the exact value. -/
def num (x : Binary64) : Nat :=
  x.mantissa * Nat.pow 2 x.exponent.toNat

/-- The denominator of the exact value. -/
def den (x : Binary64) : Nat :=
  Nat.pow 2 (-x.exponent).toNat

/-- The quotient rounded to the nearest natural, a tie going to the even one. -/
def roundDiv (num den : Nat) : Nat :=
  let quotient := num / den
  let twice := 2 * (num % den)
  if twice < den ∨ (twice = den ∧ quotient % 2 = 0) then quotient else quotient + 1

/-- The ratio `num / (den * 2 ^ exponent)` as a ratio of naturals. -/
def unscale (num den : Nat) (exponent : Int) : Nat × Nat :=
  (num * Nat.pow 2 (-exponent).toNat, den * Nat.pow 2 exponent.toNat)

/-- The exponent that leaves 53 bits before the binary point, or the least one. -/
def exponentOfRatio (num den : Nat) : Int :=
  let guess : Int := (num.log2 : Int) - den.log2 - 53
  let (n, d) := unscale num den guess
  max (if n / d < Nat.pow 2 53 then guess else guess + 1) (-1074)

/-- The magnitude nearest to `num / den`, if there is one in range. -/
def ofRatio (num den : Nat) : Option Binary64 :=
  if num = 0 then some zero
  else
    let exponent := exponentOfRatio num den
    let (n, d) := unscale num den exponent
    let mantissa := roundDiv n d
    let rounded : Binary64 :=
      if mantissa = Nat.pow 2 53 then ⟨Nat.pow 2 52, exponent + 1⟩ else ⟨mantissa, exponent⟩
    if rounded.exponent ≤ 971 then some rounded else none

def times (x y : Binary64) : Option Binary64 :=
  ofRatio (x.num * y.num) (x.den * y.den)

def dividedBy (x y : Binary64) : Option Binary64 :=
  ofRatio (x.num * y.den) (x.den * y.num)

def tenTo (k : Nat) : Option Binary64 :=
  ofRatio (Nat.pow 10 k) 1

/-- Divides by a power of ten, in steps of at most `10 ^ 308`, each of them rounded. -/
def shrink (x : Binary64) (k : Nat) : Option Binary64 :=
  if k ≤ 308 then do x.dividedBy (← tenTo k)
  else if x.isZero then some x
  else do (← x.dividedBy (← tenTo 308)).shrink (k - 308)
termination_by k

/-- Multiplies by a power of ten, which is itself rounded first. -/
def grow (x : Binary64) (k : Nat) : Option Binary64 :=
  if k ≤ 308 then do x.times (← tenTo k)
  else if x.isZero then some x
  else none

/-- The magnitude of `significand * 10 ^ exponent`, rounded step by step; `none` out of range. -/
def ofScientific (significand : Nat) (exponent : Int) : Option Binary64 := do
  let x ← ofRatio significand 1
  match exponent with
  | .ofNat k => x.grow k
  | .negSucc k => x.shrink (k + 1)

end Binary64

/-- The decimal `digits * 10 ^ exponent`. -/
structure Decimal where
  digits : Nat
  exponent : Int
  deriving DecidableEq, Repr

namespace Decimal

/-- Drops trailing zeros; the number of digits bounds the work. -/
def strip : Nat → Decimal → Decimal
  | 0, d => d
  | fuel + 1, d =>
    if d.digits ≠ 0 ∧ d.digits % 10 = 0 then strip fuel ⟨d.digits / 10, d.exponent + 1⟩ else d

end Decimal

namespace Binary64

/-- Whether the next smaller magnitude is half as far away as the next larger one. -/
def isLeftNarrow (x : Binary64) : Bool :=
  x.mantissa == Nat.pow 2 52 && decide (-1074 < x.exponent)

/-- Whether `n / d` rounds to the magnitude. -/
def contains (x : Binary64) (n d : Nat) : Bool :=
  let point := 4 * n * x.den
  let unit := Nat.pow 2 x.exponent.toNat * d
  let low := (4 * x.mantissa - if x.isLeftNarrow then 1 else 2) * unit
  let high := (4 * x.mantissa + 2) * unit
  if x.mantissa % 2 = 0 then low ≤ point && point ≤ high else low < point && point < high

/-- The exponent of the first decimal digit. -/
def leadingExponent (x : Binary64) : Int :=
  let digits (n : Nat) : Int := (Text.decimal n).length
  let guess := digits x.num - digits x.den
  if x.den * Nat.pow 10 guess.toNat ≤ x.num * Nat.pow 10 (-guess).toNat then guess else guess - 1

/-- The decimal on the grid `10 ^ exponent` that is nearest among the two neighbours that round to
the magnitude. -/
def onGrid? (x : Binary64) (exponent : Int) : Option Decimal :=
  let up := Nat.pow 10 exponent.toNat
  let down := Nat.pow 10 (-exponent).toNat
  let n := x.num * down
  let d := x.den * up
  let below := n / d
  let above := below + 1
  let hits (c : Nat) : Bool := x.contains (c * up) down
  let toBelow := n - below * d
  let toAbove := above * d - n
  let preferBelow :=
    toBelow < toAbove || (toBelow == toAbove && below % 2 == 0)
  if hits below && (preferBelow || !hits above) then some ⟨below, exponent⟩
  else if hits above then some ⟨above, exponent⟩
  else none

/-- Tries grids of more and more digits. -/
def searchGrids (x : Binary64) (leading : Int) : List Nat → Option Decimal
  | [] => none
  | k :: ks =>
    match x.onGrid? (leading - k) with
    | some d => some d
    | none => searchGrids x leading ks

/-- Seventeen digits always suffice, so the exact fallback is never taken. -/
def shortest (x : Binary64) : Decimal :=
  if x.isZero then ⟨0, 0⟩
  else
    ((searchGrids x x.leadingExponent (List.range 17)).map (Decimal.strip 18)).getD
      ⟨x.mantissa, x.exponent⟩

/-- Positional notation from `10 ^ -5` up to `10 ^ 16`, always with a fraction; otherwise one digit
before the point and a signed exponent. -/
def write (x : Binary64) : List Char :=
  let d := x.shortest
  let digits := Text.decimal d.digits
  let leading := d.exponent + digits.length - 1
  if x.isZero then ['0', '.', '0']
  else if 0 ≤ leading ∧ leading < 16 then
    let whole := leading.toNat + 1
    let fraction := digits.drop whole
    digits.take whole ++ List.replicate (whole - digits.length) '0' ++
      '.' :: if fraction.isEmpty then ['0'] else fraction
  else if -5 ≤ leading ∧ leading < 0 then
    '0' :: '.' :: List.replicate (-leading - 1).toNat '0' ++ digits
  else
    let fraction := digits.drop 1
    digits.take 1 ++ (if fraction.isEmpty then [] else '.' :: fraction) ++
      'e' :: (if leading < 0 then '-' else '+') :: Text.decimal leading.natAbs

end Binary64

end SearchFilter
