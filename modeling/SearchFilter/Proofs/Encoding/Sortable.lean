import Mathlib.Algebra.Order.Ring.Nat
import Mathlib.Data.Nat.Digits.Defs
import Mathlib.Tactic.Ring
import SearchFilter.Encoding
/-!
# Reading sortable bytes back

To turn the sign bit of a number is to take its distance from the least number of its width. So the
bytes of a number decode to the number, for every number of their width.
-/
namespace SearchFilter.Sortable

/-- The distance of zero from the least signed number of a width. -/
def bias (width : Nat) : Nat :=
  Nat.pow 2 (8 * width - 1)

/-- The bytes of the distance of a number from the least one of the width. -/
def encode (width : Nat) (value : Int) : List UInt8 :=
  bigEndian width (value + bias width).toNat

def decode (bytes : List UInt8) : Int :=
  ofBigEndian bytes - bias bytes.length

@[simp] theorem length_bigEndian (width n : Nat) : (bigEndian width n).length = width := by
  induction width with
  | zero => rfl
  | succ width ih => rw [bigEndian, List.length_cons, ih]

private theorem foldl_bytes (bytes : List UInt8) (start : Nat) :
    bytes.foldl (fun n b => n * 256 + b.toNat) start =
      start * 256 ^ bytes.length + ofBigEndian bytes := by
  induction bytes generalizing start with
  | nil => simp [ofBigEndian]
  | cons b bytes ih =>
    rw [ofBigEndian, List.foldl_cons, List.foldl_cons, ih, ih (0 * 256 + b.toNat),
      List.length_cons, pow_succ]
    ring

theorem ofBigEndian_cons (b : UInt8) (bytes : List UInt8) :
    ofBigEndian (b :: bytes) = b.toNat * 256 ^ bytes.length + ofBigEndian bytes := by
  rw [ofBigEndian, List.foldl_cons, foldl_bytes, Nat.zero_mul, Nat.zero_add]

/-- The value of big-endian bytes, up to the numbers that do not fit the width. -/
theorem ofBigEndian_bigEndian (width n : Nat) :
    ofBigEndian (bigEndian width n) = n % 256 ^ width := by
  induction width with
  | zero => simp [bigEndian, ofBigEndian, Nat.mod_one]
  | succ width ih =>
    have hbyte : (UInt8.ofNat (n / 256 ^ width)).toNat = n / 256 ^ width % 256 := by simp
    rw [bigEndian, ofBigEndian_cons, length_bigEndian, ih, Nat.pow_eq, hbyte, pow_succ, Nat.mod_mul]
    ring

theorem pow_eq_two_mul_bias {width : Nat} (h : 0 < width) : 256 ^ width = 2 * bias width := by
  have hwidth : 8 * width = 8 * width - 1 + 1 := by omega
  rw [bias, Nat.pow_eq, ← pow_succ', ← hwidth, pow_mul]
  norm_num

theorem decode_encode {width : Nat} {value : Int} (hwidth : 0 < width)
    (hlow : -(bias width : Int) ≤ value) (hhigh : value < bias width) :
    decode (encode width value) = value := by
  have hlt : (value + bias width).toNat < 256 ^ width := by
    rw [pow_eq_two_mul_bias hwidth]
    omega
  rw [decode, encode, ofBigEndian_bigEndian, Nat.mod_eq_of_lt hlt, length_bigEndian]
  omega

theorem ofBigEndian_lt (bytes : List UInt8) : ofBigEndian bytes < 256 ^ bytes.length := by
  induction bytes with
  | nil => simp [ofBigEndian]
  | cons b bytes ih =>
    have hb : b.toNat < 256 := b.toNat_lt
    calc ofBigEndian (b :: bytes)
        = b.toNat * 256 ^ bytes.length + ofBigEndian bytes := ofBigEndian_cons b bytes
      _ < (b.toNat + 1) * 256 ^ bytes.length := by rw [Nat.succ_mul]; omega
      _ ≤ 256 * 256 ^ bytes.length := Nat.mul_le_mul_right _ hb
      _ = 256 ^ (b :: bytes).length := by rw [List.length_cons, pow_succ, Nat.mul_comm]

theorem le_decode (bytes : List UInt8) : -(bias bytes.length : Int) ≤ decode bytes := by
  rw [decode]
  omega

theorem decode_lt {bytes : List UInt8} (h : 0 < bytes.length) :
    decode bytes < bias bytes.length := by
  have hlt := ofBigEndian_lt bytes
  rw [pow_eq_two_mul_bias h] at hlt
  rw [decode]
  omega

theorem length_encode (width : Nat) (value : Int) : (encode width value).length = width :=
  length_bigEndian width _

/-- The highest bit is added where it lacks and taken away where it stands. -/
private theorem xor_two_pow {n x : Nat} (h : x / 2 ^ n < 2) :
    (x ^^^ 2 ^ n) + 2 ^ n * (x / 2 ^ n) = 2 ^ n * (1 - x / 2 ^ n) + x := by
  have hone : 2 ^ n / 2 ^ n = 1 := Nat.div_self (Nat.two_pow_pos n)
  have hxor := Nat.div_add_mod (x ^^^ 2 ^ n) (2 ^ n)
  have hx := Nat.div_add_mod x (2 ^ n)
  have hturned : x / 2 ^ n ^^^ 1 = 1 - x / 2 ^ n := by
    generalize x / 2 ^ n = bit at h
    revert bit
    decide
  rw [Nat.xor_div_two_pow, Nat.xor_mod_two_pow, hone, hturned, Nat.mod_self, Nat.xor_zero] at hxor
  omega

/-- With its sign bit turned a number is its distance from the least one. -/
theorem toNat_xor_sign {n : Nat} (x : BitVec (n + 1)) :
    ((x.toNat ^^^ 2 ^ n : Nat) : Int) = x.toInt + (2 ^ n : Nat) := by
  have hlt : x.toNat < 2 ^ n * 2 := x.isLt
  have hxor := xor_two_pow (Nat.div_lt_of_lt_mul hlt)
  rw [BitVec.toInt_eq_toNat_cond, Nat.pow_succ]
  generalize x.toNat ^^^ 2 ^ n = turned at hxor
  -- the sign bit is added to a number without it, and taken from one that counts as negative
  by_cases hlow : x.toNat < 2 ^ n
  · rw [Nat.div_eq_of_lt hlow] at hxor
    rw [if_pos (by omega)]
    omega
  · have hbit : x.toNat / 2 ^ n = 1 := by
      rw [Nat.div_eq_iff (Nat.two_pow_pos n)]
      omega
    rw [hbit] at hxor
    rw [if_neg (by omega)]
    omega

theorem toInt_of_toNat_eq_xor {n m : Nat} {x : BitVec (n + 1)} (h : x.toNat = m ^^^ 2 ^ n) :
    x.toInt = m - (2 ^ n : Nat) := by
  have hx := toNat_xor_sign x
  rw [h, Nat.xor_assoc, Nat.xor_self, Nat.xor_zero] at hx
  omega

theorem encodeInt_eq_encode (value : Int32) : encodeInt value = encode intWidth value.toInt := by
  have hvalue : ((value.toUInt32 ^^^ intSign).toNat : Int) = value.toInt + bias intWidth := by
    rw [UInt32.toNat_xor]
    exact toNat_xor_sign (n := 31) value.toBitVec
  rw [encodeInt, encode, ← hvalue, Int.toNat_natCast]

theorem encodeLong_eq_encode (value : Int64) :
    encodeLong value = encode longWidth value.toInt := by
  have hvalue : ((value.toUInt64 ^^^ longSign).toNat : Int) = value.toInt + bias longWidth := by
    rw [UInt64.toNat_xor]
    exact toNat_xor_sign (n := 63) value.toBitVec
  rw [encodeLong, encode, ← hvalue, Int.toNat_natCast]

theorem decodeInt?_eq_decode (bytes : List UInt8) :
    decodeInt? bytes =
      if bytes.length = intWidth then some (Int32.ofInt (decode bytes)) else none := by
  rw [decodeInt?]
  split
  · next hlength =>
    have hfits := ofBigEndian_lt bytes
    rw [hlength] at hfits
    have hturned : (UInt32.ofNat (ofBigEndian bytes) ^^^ intSign).toBitVec.toNat =
        ofBigEndian bytes ^^^ 2 ^ 31 :=
      congrArg (· ^^^ 2 ^ 31) (Nat.mod_eq_of_lt hfits)
    have hvalue : (UInt32.ofNat (ofBigEndian bytes) ^^^ intSign).toInt32.toInt = decode bytes := by
      rw [decode, hlength]
      exact toInt_of_toNat_eq_xor (n := 31) hturned
    rw [← hvalue, Int32.ofInt_toInt]
  · rfl

theorem decodeLong?_eq_decode (bytes : List UInt8) :
    decodeLong? bytes =
      if bytes.length = longWidth then some (Int64.ofInt (decode bytes)) else none := by
  rw [decodeLong?]
  split
  · next hlength =>
    have hfits := ofBigEndian_lt bytes
    rw [hlength] at hfits
    have hturned : (UInt64.ofNat (ofBigEndian bytes) ^^^ longSign).toBitVec.toNat =
        ofBigEndian bytes ^^^ 2 ^ 63 :=
      congrArg (· ^^^ 2 ^ 63) (Nat.mod_eq_of_lt hfits)
    have hvalue : (UInt64.ofNat (ofBigEndian bytes) ^^^ longSign).toInt64.toInt = decode bytes := by
      rw [decode, hlength]
      exact toInt_of_toNat_eq_xor (n := 63) hturned
    rw [← hvalue, Int64.ofInt_toInt]
  · rfl

theorem length_encodeInt (value : Int32) : (encodeInt value).length = intWidth :=
  length_bigEndian intWidth _

theorem length_encodeLong (value : Int64) : (encodeLong value).length = longWidth :=
  length_bigEndian longWidth _

theorem decode_encodeInt (value : Int32) : decode (encodeInt value) = value.toInt := by
  rw [encodeInt_eq_encode]
  exact decode_encode (by decide) value.le_toInt value.toInt_lt

theorem decode_encodeLong (value : Int64) : decode (encodeLong value) = value.toInt := by
  rw [encodeLong_eq_encode]
  exact decode_encode (by decide) value.le_toInt value.toInt_lt

theorem decode?_of_length_eq {bytes : List UInt8}
    (h : bytes.length = intWidth ∨ bytes.length = longWidth) :
    decode? bytes = some (Int64.ofInt (decode bytes)) := by
  rw [decode?, decodeLong?_eq_decode, decodeInt?_eq_decode]
  rcases h with hlength | hlength
  · -- the value of four bytes is within 32 bits, so to widen it changes nothing
    have hlow := le_decode bytes
    have hhigh : decode bytes < bias bytes.length := decode_lt (by rw [hlength]; decide)
    rw [hlength] at hlow hhigh
    rw [hlength, if_neg (by decide), if_pos rfl, Option.none_or, Option.map_some,
      ← Int64.ofInt_int32ToInt, Int32.toInt_ofInt_of_le hlow hhigh]
  · rw [if_pos hlength, Option.some_or]

theorem decode?_eq_none {bytes : List UInt8} :
    decode? bytes = none ↔ bytes.length ≠ intWidth ∧ bytes.length ≠ longWidth := by
  simp [decode?, decodeLong?, decodeInt?, and_comm]

theorem decode?_encodeInt (value : Int32) : decode? (encodeInt value) = some value.toInt64 := by
  rw [decode?_of_length_eq (.inl (length_encodeInt value)), decode_encodeInt,
    Int64.ofInt_int32ToInt]

theorem decode?_encodeLong (value : Int64) : decode? (encodeLong value) = some value := by
  rw [decode?_of_length_eq (.inr (length_encodeLong value)), decode_encodeLong, Int64.ofInt_toInt]

theorem ofBigEndian_eq_ofDigits (bytes : List UInt8) :
    ofBigEndian bytes = Nat.ofDigits 256 (bytes.reverse.map UInt8.toNat) := by
  induction bytes with
  | nil => rfl
  | cons b bytes ih =>
    rw [ofBigEndian_cons, ih, List.reverse_cons, List.map_append, Nat.ofDigits_append,
      List.map_singleton, Nat.ofDigits_singleton, List.length_map, List.length_reverse]
    ring

/-- The end of a range: the number whose digits are eight bytes, less `2 ^ 63`, or four bytes, less
`2 ^ 31`. With any other bytes the range stays open. -/
def endpoint (unbounded : Int64) (bytes : List UInt8) : Int64 :=
  let digits : Int := Nat.ofDigits 256 (bytes.reverse.map UInt8.toNat)
  if bytes.length = 8 then .ofInt (digits - 2 ^ 63)
  else if bytes.length = 4 then .ofInt (digits - 2 ^ 31)
  else unbounded

theorem bound_eq_endpoint (side : Side) (bytes : List UInt8) :
    side.bound bytes = endpoint side.unbounded bytes := by
  have hdigits : (ofBigEndian bytes : Int) = Nat.ofDigits 256 (bytes.reverse.map UInt8.toNat) := by
    rw [ofBigEndian_eq_ofDigits, Nat.coe_ofDigits, Nat.cast_ofNat]
  rw [Side.bound, endpoint]
  split_ifs with hlong hint
  · rw [decode?_of_length_eq (.inr hlong), Option.getD_some, decode, hlong, hdigits]
    rfl
  · rw [decode?_of_length_eq (.inl hint), Option.getD_some, decode, hint, hdigits]
    rfl
  · rw [decode?_eq_none.mpr ⟨hint, hlong⟩, Option.getD_none]

theorem bound_encodeInt (side : Side) (value : Int32) :
    side.bound (encodeInt value) = value.toInt64 := by
  rw [Side.bound, decode?_encodeInt, Option.getD_some]

theorem bound_encodeLong (side : Side) (value : Int64) :
    side.bound (encodeLong value) = value := by
  rw [Side.bound, decode?_encodeLong, Option.getD_some]

end SearchFilter.Sortable
