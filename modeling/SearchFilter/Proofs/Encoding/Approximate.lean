import SearchFilter.Proofs.Encoding.Regex
import SearchFilter.Text
/-!
# Approximate expressions

Some dialects have expressions in parentheses with a bound for substitutions behind them:
`(e){s<=k}` matches what at most `k` substitutions of one character make of a match of `e`. These
are the texts of the same length that differ from a match in at most `k` positions.
-/
namespace SearchFilter

namespace Text

/-- At most so many substitutions of one character turn a text into another. -/
inductive WithinSubstitutions : Nat → List Char → List Char → Prop
  | same {k : Nat} (text : List Char) : WithinSubstitutions k text text
  | substitute {k : Nat} {text other : List Char} (i : Nat) (c : Char)
      (h : WithinSubstitutions k (text.set i c) other) : WithinSubstitutions (k + 1) text other

/-- The number of positions in which two texts differ, as far as both of them go. -/
def differences (text other : List Char) : Nat :=
  (text.zip other).countP fun pair => pair.1 ≠ pair.2

theorem differences_self (text : List Char) : differences text text = 0 := by
  rw [differences, List.countP_eq_zero]
  intro pair hpair
  have hsame : pair.1 = pair.2 := by
    obtain ⟨i, hi, rfl⟩ := List.mem_iff_getElem.mp hpair
    rw [List.getElem_zip]
  simpa using hsame

theorem differences_cons (c d : Char) (text other : List Char) :
    differences (c :: text) (d :: other) = differences text other + if c = d then 0 else 1 := by
  rw [differences, List.zip_cons_cons, List.countP_cons]
  simp [differences]

theorem differences_le_length (text other : List Char) : differences text other ≤ text.length := by
  have hzip := List.countP_le_length (p := fun pair => pair.1 ≠ pair.2) (l := text.zip other)
  rw [List.length_zip] at hzip
  exact hzip.trans (Nat.min_le_left _ _)

theorem differences_le_set (text other : List Char) (i : Nat) (c : Char) :
    differences text other ≤ differences (text.set i c) other + 1 := by
  induction text generalizing other i with
  | nil => simp
  | cons d text ih =>
    cases other with
    | nil => simp [differences]
    | cons e other =>
      cases i with
      | zero =>
        rw [List.set_cons_zero, differences_cons, differences_cons]
        split <;> omega
      | succ i =>
        have htail := ih other i
        rw [List.set_cons_succ, differences_cons, differences_cons]
        omega

theorem WithinSubstitutions.cons {k : Nat} {text other : List Char}
    (h : WithinSubstitutions k text other) (c : Char) :
    WithinSubstitutions k (c :: text) (c :: other) := by
  induction h with
  | same text => exact .same (c :: text)
  | substitute i d _ ih => exact .substitute (i + 1) d ih

/-- Substitutions reach the texts of the same length with no more differences than substitutions. -/
theorem withinSubstitutions_iff {k : Nat} {text other : List Char} :
    WithinSubstitutions k text other ↔
      other.length = text.length ∧ differences text other ≤ k := by
  constructor
  · intro h
    induction h with
    | same text => exact ⟨rfl, by rw [differences_self]; exact Nat.zero_le _⟩
    | @substitute k text other i c _ ih =>
      have hmends := differences_le_set text other i c
      rw [List.length_set] at ih
      exact ⟨ih.1, by omega⟩
  · rintro ⟨hlength, hdifferences⟩
    -- the substitutions go through the text from left to right, one for every difference
    induction text generalizing other k with
    | nil =>
      obtain rfl := List.length_eq_zero_iff.mp hlength
      exact .same []
    | cons c text ih =>
      obtain ⟨d, other, rfl⟩ := List.exists_cons_of_length_eq_add_one hlength
      have htail : other.length = text.length := Nat.succ.inj hlength
      rw [differences_cons] at hdifferences
      by_cases hc : c = d
      · subst hc
        exact (ih htail (by simpa using hdifferences)).cons c
      · rw [if_neg hc] at hdifferences
        obtain ⟨k, rfl⟩ := Nat.exists_eq_add_of_le' (Nat.le_of_add_left_le hdifferences)
        exact .substitute 0 d ((ih htail (by omega)).cons d)

theorem withinSubstitutions_zero {text other : List Char} :
    WithinSubstitutions 0 text other ↔ other = text := by
  constructor
  · intro h
    cases h
    rfl
  · rintro rfl
    exact .same other

end Text

namespace Regex

/-- An expression whose matches may be changed by substitutions. -/
structure Approximate where
  items : List Item
  maxSubstitutions : Nat
  deriving DecidableEq, Repr

namespace Approximate

/-- The number in front of the last brace. -/
def readBound? (cs : List Char) : Option Nat :=
  let digits := cs.takeWhile Char.isDigit
  if digits ≠ [] ∧ cs.dropWhile Char.isDigit = ['}'] then some (Nat.ofDigitChars 10 digits 0)
  else none

def read? (source : String) : Option Approximate :=
  match source.toList with
  | '(' :: cs =>
    match cs.dropWhile (· ≠ ')') with
    | ')' :: '{' :: 's' :: '<' :: '=' :: bound => do
      let items ← readBehind? none (cs.takeWhile (· ≠ ')'))
      let maxSubstitutions ← readBound? bound
      return ⟨items, maxSubstitutions⟩
    | _ => none
  | _ => none

def language (expression : Approximate) : Language Char :=
  {text | ∃ exact ∈ Regex.language expression.items,
    Text.WithinSubstitutions expression.maxSubstitutions exact text}

theorem readBound?_decimal (n : Nat) : readBound? (Text.decimal n ++ ['}']) = some n := by
  have hdigits : ∀ c ∈ Text.decimal n, Char.isDigit c = true := fun c hc =>
    Nat.isDigit_of_mem_toDigits (by decide) (by decide) hc
  have htake : (Text.decimal n ++ ['}']).takeWhile Char.isDigit = Text.decimal n := by
    rw [List.takeWhile_append_of_pos hdigits, List.takeWhile_cons_of_neg (by decide),
      List.append_nil]
  have hdrop : (Text.decimal n ++ ['}']).dropWhile Char.isDigit = ['}'] := by
    rw [List.dropWhile_append_of_pos hdigits, List.dropWhile_cons_of_neg (by decide)]
  simp only [readBound?, htake, hdrop]
  rw [if_pos ⟨Nat.toDigits_ne_nil, trivial⟩, Text.decimal, Nat.ofDigitChars_ten_toDigits]

theorem read?_group {body : List Char} (hbody : ')' ∉ body) (n : Nat) :
    read? (String.ofList
        ('(' :: body ++ [')', '{', 's', '<', '='] ++ Text.decimal n ++ ['}'])) =
      (readBehind? none body).map fun items => ⟨items, n⟩ := by
  have hbody' : ∀ c ∈ body, decide (c ≠ ')') = true := fun c hc =>
    decide_eq_true fun heq => hbody (heq ▸ hc)
  simp only [read?, String.toList_ofList, List.cons_append, List.append_assoc, List.nil_append,
    List.takeWhile_append_of_pos hbody', List.dropWhile_append_of_pos hbody']
  simp [readBound?_decimal, Option.map_eq_bind]

end Approximate

end Regex

end SearchFilter
