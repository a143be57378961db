import SearchFilter.Proofs.Encoding.Sortable
/-!
# The order of sortable bytes

Bytes of one length stand in lexicographic order as the numbers they hold. The numbers of a width
and the byte lists of that width are therefore two forms of one order.
-/
namespace SearchFilter.Sortable

private theorem digit_lt_iff {base p q m n : Nat} (hm : m < base) (hn : n < base) :
    p * base + m < q * base + n ↔ p < q ∨ p = q ∧ m < n := by
  constructor
  · intro h
    rcases Nat.lt_trichotomy p q with hlt | rfl | hgt
    · exact .inl hlt
    · exact .inr ⟨rfl, by omega⟩
    · have hle : (q + 1) * base ≤ p * base := Nat.mul_le_mul_right base hgt
      rw [Nat.succ_mul] at hle
      omega
  · intro h
    rcases h with hlt | ⟨rfl, hlt⟩
    · have hle : (p + 1) * base ≤ q * base := Nat.mul_le_mul_right base hlt
      rw [Nat.succ_mul] at hle
      omega
    · omega

/-- Bytes of one length are compared as the numbers they hold. -/
theorem ofBigEndian_lt_iff {as bs : List UInt8} (h : as.length = bs.length) :
    ofBigEndian as < ofBigEndian bs ↔ as < bs := by
  induction as generalizing bs with
  | nil =>
    obtain rfl : bs = [] := List.length_eq_zero_iff.mp h.symm
    simp
  | cons a as ih =>
    cases bs with
    | nil => simp at h
    | cons b bs =>
      have hlength : as.length = bs.length := Nat.succ.inj h
      have has := ofBigEndian_lt as
      have hbs := ofBigEndian_lt bs
      rw [hlength] at has
      rw [ofBigEndian_cons, ofBigEndian_cons, hlength, digit_lt_iff has hbs, ih hlength,
        List.cons_lt_cons_iff, UInt8.lt_iff_toNat_lt, UInt8.toNat_inj]

theorem eq_of_ofBigEndian_eq {as bs : List UInt8} (hlength : as.length = bs.length)
    (heq : ofBigEndian as = ofBigEndian bs) : as = bs := by
  have hle : as ≤ bs := by
    rw [← List.not_lt, ← ofBigEndian_lt_iff hlength.symm]
    omega
  have hge : bs ≤ as := by
    rw [← List.not_lt, ← ofBigEndian_lt_iff hlength]
    omega
  exact List.le_antisymm hle hge

theorem encode_decode (bytes : List UInt8) : encode bytes.length (decode bytes) = bytes := by
  apply eq_of_ofBigEndian_eq (length_encode _ _)
  have hvalue : (decode bytes + bias bytes.length).toNat = ofBigEndian bytes := by
    rw [decode]
    omega
  rw [encode, hvalue, ofBigEndian_bigEndian, Nat.mod_eq_of_lt (ofBigEndian_lt bytes)]

theorem decode_lt_decode_iff {as bs : List UInt8} (h : as.length = bs.length) :
    decode as < decode bs ↔ as < bs := by
  rw [← ofBigEndian_lt_iff h, decode, decode, h]
  omega

/-- The values of a type and the byte lists of a width: each form gives the other back, and
lexicographic order of the bytes is the order of the values. -/
structure OrderIsomorphic {α : Type} [LT α] (width : Nat) (encode : α → List UInt8)
    (decode? : List UInt8 → Option α) : Prop where
  length_encode : ∀ value, (encode value).length = width
  decode?_encode : ∀ value, decode? (encode value) = some value
  encode_decode? : ∀ bytes, bytes.length = width →
    ∃ value, decode? bytes = some value ∧ encode value = bytes
  lt_iff : ∀ v w, v < w ↔ encode v < encode w

/-- A type of all the signed numbers of a width. -/
private structure Signed {α : Type} [LT α] (width : Nat) (toInt : α → Int) (ofInt : Int → α) :
    Prop where
  width_pos : 0 < width
  le_toInt : ∀ value, -(bias width : Int) ≤ toInt value
  toInt_lt : ∀ value, toInt value < bias width
  ofInt_toInt : ∀ value, ofInt (toInt value) = value
  toInt_ofInt : ∀ n, -(bias width : Int) ≤ n → n < bias width → toInt (ofInt n) = n
  lt_iff : ∀ v w, v < w ↔ toInt v < toInt w

private theorem Signed.decode_encode {α : Type} [LT α] {width : Nat} {toInt : α → Int}
    {ofInt : Int → α} (h : Signed width toInt ofInt) (value : α) :
    decode (encode width (toInt value)) = toInt value :=
  Sortable.decode_encode h.width_pos (h.le_toInt value) (h.toInt_lt value)

private theorem Signed.orderIsomorphic {α : Type} [LT α] {width : Nat} {toInt : α → Int}
    {ofInt : Int → α} (h : Signed width toInt ofInt) :
    OrderIsomorphic width (fun value => encode width (toInt value))
      (fun bytes => if bytes.length = width then some (ofInt (decode bytes)) else none) := by
  refine ⟨fun value => length_encode width _, ?_, ?_, ?_⟩
  · intro value
    rw [if_pos (length_encode width _), h.decode_encode, h.ofInt_toInt]
  · rintro bytes rfl
    refine ⟨ofInt (decode bytes), if_pos rfl, ?_⟩
    rw [h.toInt_ofInt _ (le_decode bytes) (decode_lt h.width_pos), encode_decode]
  · intro v w
    have hlength : (encode width (toInt v)).length = (encode width (toInt w)).length := by
      rw [length_encode, length_encode]
    rw [← decode_lt_decode_iff hlength, h.decode_encode, h.decode_encode, h.lt_iff]

private theorem signed_int : Signed intWidth Int32.toInt Int32.ofInt where
  width_pos := by decide
  le_toInt := Int32.le_toInt
  toInt_lt := Int32.toInt_lt
  ofInt_toInt := Int32.ofInt_toInt
  toInt_ofInt := fun _ => Int32.toInt_ofInt_of_le
  lt_iff := fun _ _ => Int32.lt_iff_toInt_lt

private theorem signed_long : Signed longWidth Int64.toInt Int64.ofInt where
  width_pos := by decide
  le_toInt := Int64.le_toInt
  toInt_lt := Int64.toInt_lt
  ofInt_toInt := Int64.ofInt_toInt
  toInt_ofInt := fun _ => Int64.toInt_ofInt_of_le
  lt_iff := fun _ _ => Int64.lt_iff_toInt_lt

/-- In both widths the numbers and their bytes are two forms of one order, and a 32-bit number has
the same value in either width. Bytes of any other length hold no number. -/
theorem encodings_orderIsomorphic :
    OrderIsomorphic 8 encodeLong decodeLong? ∧
    OrderIsomorphic 4 encodeInt decodeInt? ∧
    (∀ value : Int32, decode? (encodeInt value) = some value.toInt64 ∧
      decode? (encodeLong value.toInt64) = some value.toInt64) ∧
    (∀ bytes : List UInt8, decode? bytes = none ↔ bytes.length ≠ 4 ∧ bytes.length ≠ 8) := by
  have hlong : OrderIsomorphic longWidth encodeLong decodeLong? := by
    rw [funext encodeLong_eq_encode, funext decodeLong?_eq_decode]
    exact signed_long.orderIsomorphic
  have hint : OrderIsomorphic intWidth encodeInt decodeInt? := by
    rw [funext encodeInt_eq_encode, funext decodeInt?_eq_decode]
    exact signed_int.orderIsomorphic
  refine ⟨hlong, hint, ?_, ?_⟩
  · intro value
    exact ⟨decode?_encodeInt value, decode?_encodeLong value.toInt64⟩
  · intro bytes
    exact decode?_eq_none

end SearchFilter.Sortable
