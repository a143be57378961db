import SearchFilter.Json.Reader
/-!
# Reading written integers

An integer with a 64-bit form is read back from its decimal text, whatever comes behind the text
that does not continue it.
-/
namespace SearchFilter.Json

def EndsNumber : List Char → Prop
  | [] => True
  | c :: _ => Text.isDigit c = false ∧ c ≠ '.' ∧ c ≠ 'e' ∧ c ≠ 'E'

theorem ne_of_isDigit {c d : Char} (hc : Text.isDigit c = true) (hd : Text.isDigit d = false) :
    c ≠ d := by
  intro h
  rw [h, hd] at hc
  exact Bool.false_ne_true hc

theorem isDigit_of_mem_decimal {n : Nat} {c : Char} (h : c ∈ Text.decimal n) :
    Text.isDigit c = true := by
  have hdigit := Nat.isDigit_of_mem_toDigits (by decide) (by decide) h
  simpa [Char.isDigit, Text.isDigit, Char.le_def] using hdigit

theorem decimal_ne_nil (n : Nat) : Text.decimal n ≠ [] := Nat.toDigits_ne_nil

theorem natOfDigits_decimal (n : Nat) : natOfDigits (Text.decimal n) = n := by
  have hfold := Nat.ofDigitChars_ten_toDigits (n := n)
  rw [Nat.ofDigitChars_eq_foldl] at hfold
  rw [natOfDigits, Text.decimal]
  simpa only [Text.digitValue, Nat.mul_comm] using hfold

theorem decimal_leading_zero {n : Nat} {c : Char} {cs : List Char} :
    Text.decimal n ≠ '0' :: c :: cs := by
  induction n using Nat.strongRecOn generalizing c cs with
  | ind n ih =>
    intro h
    rw [Text.decimal, Nat.toDigits_eq_if (by decide)] at h
    split at h
    · simp at h
    next hn =>
    cases hdigits : Nat.toDigits 10 (n / 10) with
    | nil => exact Nat.toDigits_ne_nil hdigits
    | cons d ds =>
      rw [hdigits, List.cons_append, List.cons.injEq] at h
      obtain ⟨rfl, -⟩ := h
      cases ds with
      | cons d' ds => exact ih (n / 10) (by omega) hdigits
      | nil =>
        -- the whole quotient is the digit zero, so it is zero
        have hvalue := natOfDigits_decimal (n / 10)
        rw [Text.decimal, hdigits] at hvalue
        have hzero : natOfDigits ['0'] = 0 := by decide
        omega

theorem spanDigits_append {digits rest : List Char} (h : ∀ c ∈ digits, Text.isDigit c = true)
    (hrest : EndsNumber rest) : spanDigits (digits ++ rest) = (digits, rest) := by
  have htake : rest.takeWhile Text.isDigit = [] ∧ rest.dropWhile Text.isDigit = rest := by
    cases rest with
    | nil => exact ⟨rfl, rfl⟩
    | cons c rest =>
      have hc : ¬Text.isDigit c = true := by simp [hrest.1]
      exact ⟨List.takeWhile_cons_of_neg hc, List.dropWhile_cons_of_neg hc⟩
  rw [spanDigits, List.takeWhile_append_of_pos h, List.dropWhile_append_of_pos h, htake.1, htake.2,
    List.append_nil]

theorem readWhole_decimal (strict : Bool) (n : Nat) {rest : List Char} (h : EndsNumber rest) :
    readWhole strict (Text.decimal n ++ rest) = .ok (Text.decimal n, rest) := by
  have hspan := spanDigits_append (fun _ => isDigit_of_mem_decimal (n := n)) h
  cases hdigits : Text.decimal n with
  | nil => exact absurd hdigits (decimal_ne_nil n)
  | cons d ds =>
    rw [hdigits] at hspan
    have hread : readDigits strict (d :: ds ++ rest) = .ok (d :: ds, rest) := by
      rw [readDigits, hspan]
    rw [readWhole, hread]
    simp only [bind, Except.bind]
    split
    · next heq => exact absurd (hdigits.trans heq) decimal_leading_zero
    · rfl

theorem readUnsigned_decimal (strict negative : Bool) (n : Nat) {rest : List Char}
    (h : EndsNumber rest) :
    readUnsigned strict negative (Text.decimal n ++ rest) =
      .ok (⟨negative, Text.decimal n, [], none⟩, rest) := by
  rw [readUnsigned, readWhole_decimal strict n h]
  cases rest with
  | nil => rfl
  | cons c rest =>
    obtain ⟨-, hpoint, he, hE⟩ := h
    have hfraction : readFraction strict (c :: rest) = .ok ([], c :: rest) := by
      rw [readFraction]
      exact fun _ heq => hpoint (List.cons.inj heq).1
    have hexponent : readExponent strict (c :: rest) = .ok (none, c :: rest) := by
      rw [readExponent, if_neg]
      exact fun hc => hc.elim he hE
    simp only [bind, Except.bind, hfraction, hexponent]

theorem number?_decimal {n : Nat} (h : n < 0x10000000000000000) :
    (⟨false, Text.decimal n, [], none⟩ : Numeral).number? = some (.integer n) := by
  have hinteger : (⟨false, Text.decimal n, [], none⟩ : Numeral).integer? = some (n : Int) := by
    simp only [Numeral.integer?, Numeral.isIntegral, natOfDigits_decimal, List.isEmpty_nil,
      Option.isNone_none, Bool.and_self, Bool.not_true, Bool.false_eq_true, if_false, if_pos h]
  rw [Numeral.number?, hinteger]

theorem number?_neg_decimal {n : Nat} (h : n + 1 ≤ 0x8000000000000000) :
    (⟨true, Text.decimal (n + 1), [], none⟩ : Numeral).number? =
      some (.integer (Int.negSucc n)) := by
  have hinteger : (⟨true, Text.decimal (n + 1), [], none⟩ : Numeral).integer? =
      some (Int.negSucc n) := by
    have hfits : n + 1 ≠ 0 ∧ n + 1 ≤ Nat.pow 2 63 := ⟨Nat.succ_ne_zero n, h⟩
    simp only [Numeral.integer?, Numeral.isIntegral, natOfDigits_decimal, List.isEmpty_nil,
      Option.isNone_none, Bool.and_self, Bool.not_true, Bool.false_eq_true, if_false, if_true,
      if_pos hfits]
    rfl
  rw [Numeral.number?, hinteger]

theorem readNumeral_decimal (strict : Bool) (n : Nat) {rest : List Char} (h : EndsNumber rest) :
    readNumeral strict (Text.decimal n ++ rest) =
      .ok (⟨false, Text.decimal n, [], none⟩, rest) := by
  rw [← readUnsigned_decimal strict false n h, readNumeral]
  intro rest' heq
  cases hdigits : Text.decimal n with
  | nil => exact decimal_ne_nil n hdigits
  | cons d ds =>
    have hd : Text.isDigit d = true := isDigit_of_mem_decimal (n := n) (by simp [hdigits])
    rw [hdigits, List.cons_append, List.cons.injEq] at heq
    exact ne_of_isDigit hd rfl heq.1

theorem readNumeral_neg_decimal (strict : Bool) (n : Nat) {rest : List Char} (h : EndsNumber rest) :
    readNumeral strict ('-' :: Text.decimal n ++ rest) =
      .ok (⟨true, Text.decimal n, [], none⟩, rest) :=
  readUnsigned_decimal strict true n h

theorem exists_readNumeral_signedDecimal (strict : Bool) (value : Int) {rest : List Char}
    (h : EndsNumber rest) :
    ∃ numeral, readNumeral strict (Text.signedDecimal value ++ rest) = .ok (numeral, rest) := by
  cases value with
  | ofNat n => exact ⟨_, readNumeral_decimal strict n h⟩
  | negSucc n => exact ⟨_, readNumeral_neg_decimal strict (n + 1) h⟩

theorem readNumber_signedDecimal {value : Int} (hlow : -0x8000000000000000 ≤ value)
    (hhigh : value < 0x10000000000000000) {rest : List Char} (h : EndsNumber rest) :
    readNumber (Text.signedDecimal value ++ rest) = .ok (.integer value, rest) := by
  cases value with
  | ofNat n =>
    have hlt : n < 0x10000000000000000 := by
      rw [Int.ofNat_eq_natCast] at hhigh
      omega
    rw [Text.signedDecimal, readNumber, readNumeral_decimal true n h]
    simp only [bind, Except.bind, number?_decimal hlt]
    rfl
  | negSucc n =>
    have hle : n + 1 ≤ 0x8000000000000000 := by omega
    rw [Text.signedDecimal, readNumber, readNumeral_neg_decimal true (n + 1) h]
    simp only [bind, Except.bind, number?_neg_decimal hle]

end SearchFilter.Json
