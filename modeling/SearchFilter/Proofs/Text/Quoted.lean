import SearchFilter.Proofs.Json.Text
import SearchFilter.Text
/-!
# Where written text ends

A text that lacks a character ends at the first one behind it. Quoted text ends at its closing
quote: no displayed character begins with a quote, and none is the beginning of another.
-/
namespace SearchFilter.Text

/-- Texts without a character, each with that character behind it, are equal with their rests. The
rests may hold it, other than in `List.append_cons_inj_of_notMem`. -/
theorem append_cons_inj {a : Char} {front front' rest rest' : List Char} (h : a ∉ front)
    (h' : a ∉ front') (heq : front ++ a :: rest = front' ++ a :: rest') :
    front = front' ∧ rest = rest' := by
  induction front generalizing front' with
  | nil =>
    cases front' with
    | nil => exact ⟨rfl, (List.cons.inj heq).2⟩
    | cons c front' =>
      obtain rfl : a = c := (List.cons.inj heq).1
      exact absurd List.mem_cons_self h'
  | cons c front ih =>
    cases front' with
    | nil =>
      obtain rfl : c = a := (List.cons.inj heq).1
      exact absurd List.mem_cons_self h
    | cons c' front' =>
      obtain ⟨rfl, htail⟩ := List.cons.inj heq
      obtain ⟨rfl, hrest⟩ := ih (fun hmem => h (List.mem_cons_of_mem c hmem))
        (fun hmem => h' (List.mem_cons_of_mem c hmem)) htail
      exact ⟨rfl, hrest⟩

def natOfHex (digits : List Char) : Nat :=
  digits.foldl (fun n c => n * 16 + (hexValue? c).getD 0) 0

theorem hexadecimal_eq_if (n : Nat) :
    hexadecimal n =
      if n < 16 then [Nat.digitChar n] else hexadecimal (n / 16) ++ [Nat.digitChar (n % 16)] :=
  Nat.toDigits_eq_if (by decide)

theorem natOfHex_hexadecimal (n : Nat) : natOfHex (hexadecimal n) = n := by
  induction n using Nat.strongRecOn with
  | ind n ih =>
    rw [hexadecimal_eq_if]
    split
    · next hn => simp [natOfHex, Json.hexValue?_digitChar hn]
    · next hn =>
      have hquotient := ih (n / 16) (by omega)
      have hdigit := Json.hexValue?_digitChar (Nat.mod_lt n (by decide : 0 < 16))
      rw [natOfHex] at hquotient ⊢
      rw [List.foldl_append, hquotient, List.foldl_cons, List.foldl_nil, hdigit, Option.getD_some]
      omega

theorem exists_digit_of_mem_hexadecimal {n : Nat} {c : Char} (h : c ∈ hexadecimal n) :
    ∃ d < 16, c = Nat.digitChar d := by
  induction n using Nat.strongRecOn with
  | ind n ih =>
    rw [hexadecimal_eq_if] at h
    split at h
    · next hn => exact ⟨n, hn, List.mem_singleton.mp h⟩
    · next hn =>
      rcases List.mem_append.mp h with h | h
      · exact ih (n / 16) (by omega) h
      · exact ⟨n % 16, Nat.mod_lt n (by decide), List.mem_singleton.mp h⟩

theorem brace_notMem_hexadecimal (n : Nat) : '}' ∉ hexadecimal n := by
  intro h
  obtain ⟨d, hd, heq⟩ := exists_digit_of_mem_hexadecimal h
  have hne : ∀ d < 16, '}' ≠ Nat.digitChar d := by decide
  exact hne d hd heq

def escaped : Char → Char
  | 't' => '\t'
  | 'r' => '\r'
  | 'n' => '\n'
  | '0' => '\x00'
  | c => c

theorem escaped_of_displayEscape? {c letter : Char} (h : displayEscape? c = some letter) :
    escaped letter = c ∧ letter ≠ 'u' := by
  unfold displayEscape? at h
  split at h <;> cases h <;> decide

theorem ne_of_displayEscape?_eq_none {c : Char} (h : displayEscape? c = none) :
    c ≠ '"' ∧ c ≠ '\\' := by
  constructor
  all_goals
    intro hc
    rw [hc] at h
    exact absurd h (by decide)

theorem displayChar_cases (c : Char) :
    (∃ letter, displayChar c = ['\\', letter] ∧ escaped letter = c ∧ letter ≠ 'u') ∨
      displayChar c = '\\' :: 'u' :: '{' :: hexadecimal c.toNat ++ ['}'] ∨
      displayChar c = [c] ∧ c ≠ '"' ∧ c ≠ '\\' := by
  unfold displayChar
  cases hescape : displayEscape? c with
  | some letter => exact .inl ⟨letter, rfl, escaped_of_displayEscape? hescape⟩
  | none =>
    by_cases hc : isUnprintable c = true
    · exact .inr (.inl (if_pos hc))
    · exact .inr (.inr ⟨if_neg hc, ne_of_displayEscape?_eq_none hescape⟩)

theorem displayChar_append_ne_quote (c : Char) (behind rest : List Char) :
    displayChar c ++ behind ≠ '"' :: rest := by
  obtain ⟨letter, hc, -⟩ | hc | ⟨hc, hquote, -⟩ := displayChar_cases c
  · simp [hc]
  · simp [hc]
  · simp [hc, hquote]

theorem displayChar_append_inj {c c' : Char} {rest rest' : List Char}
    (h : displayChar c ++ rest = displayChar c' ++ rest') : c = c' ∧ rest = rest' := by
  obtain ⟨letter, hc, hletter, hu⟩ | hc | ⟨hc, -, hbackslash⟩ := displayChar_cases c
  · obtain ⟨letter', hc', hletter', -⟩ | hc' | ⟨hc', -, hbackslash'⟩ := displayChar_cases c'
    · simp only [hc, hc', List.cons_append, List.nil_append, List.cons.injEq, true_and] at h
      exact ⟨by rw [← hletter, ← hletter', h.1], h.2⟩
    · simp only [hc, hc', List.cons_append, List.cons.injEq, true_and] at h
      exact absurd h.1 hu
    · simp only [hc, hc', List.cons_append, List.cons.injEq] at h
      exact absurd h.1.symm hbackslash'
  · obtain ⟨letter', hc', -, hu'⟩ | hc' | ⟨hc', -, hbackslash'⟩ := displayChar_cases c'
    · simp only [hc, hc', List.cons_append, List.cons.injEq, true_and] at h
      exact absurd h.1.symm hu'
    · simp only [hc, hc', List.cons_append, List.append_assoc, List.nil_append, List.cons.injEq,
        true_and] at h
      obtain ⟨hdigits, hrest⟩ :=
        append_cons_inj (brace_notMem_hexadecimal _) (brace_notMem_hexadecimal _) h
      have hvalue := congrArg natOfHex hdigits
      rw [natOfHex_hexadecimal, natOfHex_hexadecimal] at hvalue
      exact ⟨Char.toNat_inj.mp hvalue, hrest⟩
    · simp only [hc, hc', List.cons_append, List.cons.injEq] at h
      exact absurd h.1.symm hbackslash'
  · obtain ⟨letter', hc', -, hu'⟩ | hc' | ⟨hc', -, hbackslash'⟩ := displayChar_cases c'
    · simp only [hc, hc', List.cons_append, List.cons.injEq] at h
      exact absurd h.1 hbackslash
    · simp only [hc, hc', List.cons_append, List.cons.injEq] at h
      exact absurd h.1 hbackslash
    · simpa only [hc, hc', List.cons_append, List.nil_append, List.cons.injEq] using h

/-- Quoted text is not the beginning of another one. -/
theorem quoted_append_inj {text text' : String} {rest rest' : List Char}
    (h : quoted text ++ rest = quoted text' ++ rest') : text = text' ∧ rest = rest' := by
  have hchars (cs cs' : List Char)
      (hcs : cs.flatMap displayChar ++ '"' :: rest = cs'.flatMap displayChar ++ '"' :: rest') :
      cs = cs' ∧ rest = rest' := by
    induction cs generalizing cs' with
    | nil =>
      cases cs' with
      | nil => exact ⟨rfl, (List.cons.inj hcs).2⟩
      | cons c' cs' =>
        rw [List.flatMap_cons, List.append_assoc] at hcs
        exact absurd hcs.symm (displayChar_append_ne_quote c' _ _)
    | cons c cs ih =>
      cases cs' with
      | nil =>
        rw [List.flatMap_cons, List.append_assoc] at hcs
        exact absurd hcs (displayChar_append_ne_quote c _ _)
      | cons c' cs' =>
        rw [List.flatMap_cons, List.flatMap_cons, List.append_assoc, List.append_assoc] at hcs
        obtain ⟨rfl, hbehind⟩ := displayChar_append_inj hcs
        obtain ⟨rfl, hrest⟩ := ih cs' hbehind
        exact ⟨rfl, hrest⟩
  simp only [quoted, List.cons_append, List.append_assoc, List.nil_append, List.cons.injEq,
    true_and] at h
  obtain ⟨htext, hrest⟩ := hchars _ _ h
  exact ⟨String.toList_inj.mp htext, hrest⟩

end SearchFilter.Text
