import SearchFilter.Proofs.Conversion.Shape
import SearchFilter.Proofs.Encoding.Order
/-!
# Numeric ranges as intervals

A number lies in the interval of a converted range exactly when its own bytes stand between those of
the range. Four bytes bound the 64-bit numbers that fit them, and on their open side all others.
-/
namespace SearchFilter

namespace Sortable

theorem toInt32_toInt64_eq_iff (value : Int64) :
    value.toInt32.toInt64 = value ↔ -2 ^ 31 ≤ value.toInt ∧ value.toInt < 2 ^ 31 := by
  rw [← Int64.toInt_inj, Int32.toInt_toInt64]
  constructor
  · intro h
    rw [← h]
    exact ⟨value.toInt32.le_toInt, value.toInt32.toInt_lt⟩
  · intro h
    rw [Int64.toInt_toInt32]
    exact Int.bmod_eq_of_le (by omega) (by omega)

namespace Side

/-- Whether a value is on the open side of a bound, or the bound itself. -/
def Allows {α : Type} [LE α] : Side → α → α → Prop
  | lower, bound, value => bound ≤ value
  | upper, bound, value => value ≤ bound

/-- Whether a number lies beyond all 32-bit ones, on the open side of a bound. -/
def Exceeds : Side → Int64 → Prop
  | lower, value => Int32.maxValue.toInt64 < value
  | upper, value => value < Int32.minValue.toInt64

/-- Whether a number satisfies the bytes of a bound. They are compared with its own bytes in the
same width; a number that does not fit four bytes satisfies every bound of four bytes from beyond
and none from the other side. Bytes of other widths bound nothing. -/
def Admits (side : Side) (bound : List UInt8) (value : Int64) : Prop :=
  if bound.length = 8 then side.Allows bound (encodeLong value)
  else if bound.length = 4 then
    value.toInt32.toInt64 = value ∧ side.Allows bound (encodeInt value.toInt32) ∨
      side.Exceeds value
  else True

instance {α : Type} [LE α] [DecidableLE α] (side : Side) (bound value : α) :
    Decidable (side.Allows bound value) :=
  match side with
  | lower => inferInstanceAs (Decidable (bound ≤ value))
  | upper => inferInstanceAs (Decidable (value ≤ bound))

instance (side : Side) (value : Int64) : Decidable (side.Exceeds value) :=
  match side with
  | lower => inferInstanceAs (Decidable (_ < value))
  | upper => inferInstanceAs (Decidable (value < _))

instance (side : Side) (bound : List UInt8) (value : Int64) : Decidable (side.Admits bound value) :=
  inferInstanceAs (Decidable (ite _ _ _))

variable (side : Side)

theorem allows_toInt_iff (bound value : Int64) :
    side.Allows bound.toInt value.toInt ↔ side.Allows bound value := by
  cases side with
  | lower => exact Int64.le_iff_toInt_le.symm
  | upper => exact Int64.le_iff_toInt_le.symm

theorem allows_decode_iff {as bs : List UInt8} (h : as.length = bs.length) :
    side.Allows (decode as) (decode bs) ↔ side.Allows as bs := by
  cases side with
  | lower => rw [Allows, Allows, ← Int.not_lt, ← List.not_lt, decode_lt_decode_iff h.symm]
  | upper => rw [Allows, Allows, ← Int.not_lt, ← List.not_lt, decode_lt_decode_iff h]

theorem allows_unbounded (value : Int64) : side.Allows side.unbounded value := by
  cases side with
  | lower => exact Int64.minValue_le value
  | upper => exact Int64.le_maxValue value

/-- A number satisfies a 32-bit bound as one of 32 bits, or beyond all of these. -/
private theorem allows_iff_fits_or_exceeds {n : Int} (hlow : -2 ^ 31 ≤ n) (hhigh : n < 2 ^ 31)
    (value : Int64) :
    side.Allows n value.toInt ↔
      (-2 ^ 31 ≤ value.toInt ∧ value.toInt < 2 ^ 31) ∧ side.Allows n value.toInt ∨
        side.Exceeds value := by
  cases side with
  | lower =>
    have hmax : Int32.maxValue.toInt64.toInt = 2 ^ 31 - 1 := by decide
    rw [Exceeds, Allows, Int64.lt_iff_toInt_lt, hmax]
    omega
  | upper =>
    have hmin : Int32.minValue.toInt64.toInt = -2 ^ 31 := by decide
    rw [Exceeds, Allows, Int64.lt_iff_toInt_lt, hmin]
    omega

private theorem toInt_bound {bound : List UInt8} {width : Nat} (hlength : bound.length = width)
    (hwidth : width = intWidth ∨ width = longWidth) :
    (side.bound bound).toInt = decode bound := by
  have hrange : 0 < width ∧ bias width ≤ 2 ^ 63 := by
    rcases hwidth with rfl | rfl <;> decide
  rw [← hlength] at hrange
  have hlow := le_decode bound
  have hhigh := decode_lt hrange.1
  rw [Side.bound, decode?_of_length_eq (hlength ▸ hwidth), Option.getD_some,
    Int64.toInt_ofInt_of_le (by omega) (by omega)]

/-- The number that the bytes of a bound stand for bounds the same numbers as the bytes. -/
theorem allows_bound_iff (bound : List UInt8) (value : Int64) :
    side.Allows (side.bound bound) value ↔ side.Admits bound value := by
  rw [Admits]
  split_ifs with hlong hint
  · have hlength : bound.length = (encodeLong value).length := by
      rw [hlong, length_encodeLong, longWidth]
    rw [← allows_toInt_iff, toInt_bound side hlong (.inr rfl), ← decode_encodeLong,
      allows_decode_iff side hlength]
  · have hlength : bound.length = (encodeInt value.toInt32).length := by
      rw [hint, length_encodeInt, intWidth]
    have hbias : bias bound.length = 2 ^ 31 := by rw [hint]; decide
    have hlow := le_decode bound
    have hhigh := decode_lt (show 0 < bound.length by omega)
    rw [← allows_toInt_iff, toInt_bound side hint (.inl rfl),
      allows_iff_fits_or_exceeds side (by omega) (by omega), ← toInt32_toInt64_eq_iff]
    -- beyond 32 bits nothing is compared, so the bytes need only agree for a number that fits
    refine or_congr_left (and_congr_right fun hfits => ?_)
    have hvalue : value.toInt = decode (encodeInt value.toInt32) := by
      rw [decode_encodeInt, ← Int32.toInt_toInt64, hfits]
    rw [hvalue, allows_decode_iff side hlength]
  · rw [Side.bound, decode?_eq_none.mpr ⟨hint, hlong⟩, Option.getD_none]
    exact iff_true_intro (allows_unbounded side value)

example : Side.lower.Admits [0x80, 0, 0, 5] 0x100000000 ∧ ¬Side.lower.Admits [0x80, 0, 0, 5] (-1) ∧
    Side.upper.Admits [0x80, 0, 0, 5] (-0x100000000) ∧ Side.upper.Admits [0x80, 0, 0] 7 := by
  decide

end Side

end Sortable

open Sortable

namespace Conversion

variable {settings : Settings}

theorem degraded_of_length_eq {bytes : List UInt8}
    (h : bytes.length = intWidth ∨ bytes.length = longWidth) (field : String) (side : Side) :
    degraded field side bytes = [] := by
  rw [degraded, if_pos (by simpa [hasWidth] using h)]

theorem numericRange_encodeInt (settings : Settings) (field : String) (lower upper : Int32) :
    numericRange settings field (encodeInt lower) (encodeInt upper) =
      numericRange settings field (encodeLong lower.toInt64) (encodeLong upper.toInt64) := by
  have hint (side : Side) (value : Int32) : degraded field side (encodeInt value) = [] :=
    degraded_of_length_eq (.inl (length_encodeInt value)) field side
  have hlong (side : Side) (value : Int64) : degraded field side (encodeLong value) = [] :=
    degraded_of_length_eq (.inr (length_encodeLong value)) field side
  simp only [numericRange, bound, hint, hlong, bound_encodeInt, bound_encodeLong]

theorem at?_numericRange {settings : Settings} {query : Query} {filter : Filter}
    (h : (query.toFilter settings).result = .ok filter) {path : List Nat} {field : String}
    {lower upper : List UInt8}
    (hp : query.at? path = some (.leaf (.numericRange field lower upper))) :
    filter.at? path =
      some (interval field (.int (Side.lower.bound lower)) (.int (Side.upper.bound upper))) := by
  rw [toFilter_result] at h
  cases query with
  | leaf l =>
    cases path with
    | nil =>
      obtain rfl := Query.leaf.inj (Option.some.inj hp)
      obtain rfl := Except.ok.inj h
      rfl
    | cons i path => simp [Query.at?, Query.clauses] at hp
  | boolean inner =>
    obtain ⟨children, hchildren, rfl⟩ := root_boolean_eq_ok.mp h
    cases path with
    | nil => simp [Query.at?] at hp
    | cons i path =>
      obtain ⟨c, hc, hp⟩ := Option.bind_eq_some_iff.mp hp
      obtain ⟨child, hchild, hr⟩ := clauses_getElem? hchildren hc
      obtain ⟨_, rendering, -, hrendering, hat⟩ := (clause_mirrors c.query hr).leaf path _ hp
      rw [rendering?_numericRange, Option.some.injEq] at hrendering
      rw [Filter.at?_combine_cons, hchild, hrendering]
      exact hat

end Conversion

open Conversion

/-- The two comparisons of a converted range hold for the numbers that satisfy the bytes of both
bounds, at the root and in every clause. A range between 32-bit numbers is converted like the range
between the same numbers in 64 bits. -/
theorem Query.toFilter_numericRange_admits (settings : Settings) :
    (∀ field lower upper, ∃ filter,
      ((leaf (.numericRange field lower upper)).toFilter settings).result = .ok filter) ∧
    (∀ (query : Query) (filter : Filter), (query.toFilter settings).result = .ok filter →
      ∀ path field lower upper, query.at? path = some (leaf (.numericRange field lower upper)) →
        ∃ low high,
          filter.at? path = some (.and [.gte field (.int low), .lte field (.int high)]) ∧
          ∀ value, low ≤ value ∧ value ≤ high ↔
            Side.lower.Admits lower value ∧ Side.upper.Admits upper value) ∧
    (∀ field (lower upper : Int32),
      (leaf (.intRange field lower upper)).toFilter settings =
        (leaf (.longRange field lower.toInt64 upper.toInt64)).toFilter settings ∧
      ∀ scope own, clause settings scope own (leaf (.intRange field lower upper)) =
        clause settings scope own (leaf (.longRange field lower.toInt64 upper.toInt64))) := by
  refine ⟨fun field lower upper => ⟨_, rfl⟩, ?_, ?_⟩
  · intro query filter accepted path field lower upper placed
    refine ⟨_, _, at?_numericRange accepted placed, fun value => ?_⟩
    exact and_congr (Side.allows_bound_iff .lower lower value)
      (Side.allows_bound_iff .upper upper value)
  · intro field lower upper
    have hrange := numericRange_encodeInt settings field lower upper
    refine ⟨?_, ?_⟩
    · simp only [toFilter, root, rootLeaf, Leaf.intRange, Leaf.longRange, hrange, closing, kindName,
        Leaf.kindName, Leaf.kind]
    · intro scope own
      simp only [clause, clauseLeaf, Leaf.intRange, Leaf.longRange, hrange]

/-- A range with a bound of four bytes and one of three, two boolean queries deep. -/
theorem Query.toFilter_numericRange_admits_nested :
    ((boolean [⟨boolean [⟨leaf (.numericRange "year" [0x80, 0, 0, 5] [1, 2, 3]), .optional⟩],
        .excluded⟩]).toFilter ⟨"_id", '.'⟩).result =
      .ok (.and [.or [.and [.gte "year" (.int 5), .lte "year" (.int Int64.maxValue)]]]) ∧
    ∃ low high,
      (Filter.and [.or [.and [.gte "year" (.int 5), .lte "year" (.int Int64.maxValue)]]]).at?
          [0, 0] =
        some (.and [.gte "year" (.int low), .lte "year" (.int high)]) ∧
      ∀ value, low ≤ value ∧ value ≤ high ↔
        Side.lower.Admits [0x80, 0, 0, 5] value ∧ Side.upper.Admits [1, 2, 3] value := by
  have haccepted : ((boolean [⟨boolean [⟨leaf (.numericRange "year" [0x80, 0, 0, 5] [1, 2, 3]),
      .optional⟩], .excluded⟩]).toFilter ⟨"_id", '.'⟩).result =
        .ok (.and [.or [.and [.gte "year" (.int (Side.lower.bound [0x80, 0, 0, 5])),
          .lte "year" (.int Int64.maxValue)]]]) := rfl
  have hlower : Side.lower.bound [0x80, 0, 0, 5] = 5 := by decide
  rw [hlower] at haccepted
  have hadmits := (toFilter_numericRange_admits ⟨"_id", '.'⟩).2.1
  exact ⟨haccepted, hadmits _ _ haccepted [0, 0] "year" _ _ rfl⟩

end SearchFilter
