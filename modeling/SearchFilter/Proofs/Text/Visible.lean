import SearchFilter.Proofs.Json.Number
import SearchFilter.Proofs.Text.Quoted
/-!
# Text without control characters

Numerals and quoted text have no character below U+0020, whatever they stand for.
-/
namespace SearchFilter.Text

def Visible (cs : List Char) : Prop :=
  ∀ c ∈ cs, ' ' ≤ c

-- by the members of the list, and not by all characters there are
instance (cs : List Char) : Decidable (Visible cs) :=
  List.decidableBAll (' ' ≤ ·) cs

@[simp] theorem visible_nil : Visible [] :=
  List.forall_mem_nil _

@[simp] theorem visible_cons {c : Char} {cs : List Char} :
    Visible (c :: cs) ↔ ' ' ≤ c ∧ Visible cs :=
  List.forall_mem_cons

@[simp] theorem visible_append {front back : List Char} :
    Visible (front ++ back) ↔ Visible front ∧ Visible back :=
  List.forall_mem_append

theorem Visible.count_eq_zero {cs : List Char} (h : Visible cs) {c : Char} (hc : c < ' ') :
    cs.count c = 0 :=
  List.count_eq_zero.mpr fun hmem => Char.not_le.mpr hc (h c hmem)

theorem count_cons_of_le {c d : Char} (hc : c < ' ') (hd : ' ' ≤ d) (rest : List Char) :
    (d :: rest).count c = rest.count c := by
  have hne : d ≠ c := by
    rintro rfl
    exact Char.not_le.mpr hc hd
  exact List.count_cons_of_ne hne

theorem visible_decimal (n : Nat) : Visible (decimal n) := by
  intro c hc
  have hdigit := Json.isDigit_of_mem_decimal hc
  rw [isDigit, Bool.and_eq_true, decide_eq_true_eq] at hdigit
  exact Char.le_trans (by decide) hdigit.1

theorem visible_signedDecimal (value : Int) : Visible (signedDecimal value) := by
  cases value with
  | ofNat n => exact visible_decimal n
  | negSucc n => exact visible_cons.mpr ⟨by decide, visible_decimal (n + 1)⟩

theorem le_digitChar {d : Nat} (h : d < 16) : ' ' ≤ Nat.digitChar d := by
  have hall : ∀ d < 16, ' ' ≤ Nat.digitChar d := by decide
  exact hall d h

theorem visible_hexadecimal (n : Nat) : Visible (hexadecimal n) := by
  intro c hc
  obtain ⟨d, hd, rfl⟩ := exists_digit_of_mem_hexadecimal hc
  exact le_digitChar hd

theorem visible_fourHexDigits (n : Nat) : Visible (fourHexDigits n) := by
  have hdigit (m : Nat) : ' ' ≤ Nat.digitChar (m % 16) := le_digitChar (Nat.mod_lt m (by decide))
  simp [Json.fourHexDigits_eq, hdigit]

theorem isUnprintable_of_lt {c : Char} (h : c < ' ') (hescape : displayEscape? c = none) :
    isUnprintable c = true := by
  have hall : ∀ n < 32, displayEscape? (Char.ofNat n) = none →
      isUnprintable (Char.ofNat n) = true := by decide
  have hc := hall c.toNat h
  rw [Char.ofNat_toNat] at hc
  exact hc hescape

theorem visible_displayChar (c : Char) : Visible (displayChar c) := by
  unfold displayChar
  cases hescape : displayEscape? c with
  | some letter =>
    have hletter : ' ' ≤ letter := by
      unfold displayEscape? at hescape
      split at hescape <;> cases hescape <;> decide
    exact visible_cons.mpr ⟨by decide, visible_cons.mpr ⟨hletter, visible_nil⟩⟩
  | none =>
    by_cases hc : isUnprintable c = true
    · simp [hc, visible_hexadecimal]
    · have hle : ' ' ≤ c := Char.not_lt.mp fun hlt => hc (isUnprintable_of_lt hlt hescape)
      simp [hc, hle]

theorem visible_quoted (text : String) : Visible (quoted text) := by
  have hchars : Visible (text.toList.flatMap displayChar) := by
    intro c hc
    obtain ⟨shown, -, hc⟩ := List.mem_flatMap.mp hc
    exact visible_displayChar shown c hc
  simp [quoted, hchars]

end SearchFilter.Text
