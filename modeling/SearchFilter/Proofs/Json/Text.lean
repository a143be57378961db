import SearchFilter.Json.Reader
import SearchFilter.Json.Value
/-!
# Reading written strings

Every character is read back from its written form, so a written string is read back whole.
-/
namespace SearchFilter.Json

theorem hexValue?_digitChar {d : Nat} (h : d < 16) : Text.hexValue? (Nat.digitChar d) = some d := by
  have hall : ∀ d < 16, Text.hexValue? (Nat.digitChar d) = some d := by decide
  exact hall d h

theorem fourHexDigits_eq (n : Nat) :
    Text.fourHexDigits n = [Nat.digitChar (n / 4096 % 16), Nat.digitChar (n / 256 % 16),
      Nat.digitChar (n / 16 % 16), Nat.digitChar (n % 16)] := rfl

theorem codeUnit?_digitChar {n : Nat} (h : n < 65536) :
    codeUnit? (Nat.digitChar (n / 4096 % 16)) (Nat.digitChar (n / 256 % 16))
      (Nat.digitChar (n / 16 % 16)) (Nat.digitChar (n % 16)) = some n := by
  have hdigit (m : Nat) : Text.hexValue? (Nat.digitChar (m % 16)) = some (m % 16) :=
    hexValue?_digitChar (Nat.mod_lt m (by decide))
  have hsum : ((n / 4096 % 16 * 16 + n / 256 % 16) * 16 + n / 16 % 16) * 16 + n % 16 = n := by
    omega
  simp only [codeUnit?, hdigit, Option.bind_eq_bind, Option.bind_some, hsum]

theorem length_lt_writeChar (c : Char) (rest : List Char) :
    rest.length < (writeChar c rest).length := by
  unfold writeChar
  split
  · simp only [List.length_cons]
    omega
  · split <;> simp only [List.cons_append, List.length_cons, List.length_append] <;> omega

theorem length_lt_foldr_writeChar (cs rest : List Char) :
    rest.length < (cs.foldr writeChar ('"' :: rest)).length := by
  induction cs with
  | nil => simp
  | cons c cs ih => exact Nat.lt_trans ih (length_lt_writeChar c _)

theorem escaped?_of_shortEscape? {c letter : Char} (h : shortEscape? c = some letter) :
    escaped? letter = some c ∧ letter ≠ 'u' := by
  unfold shortEscape? at h
  split at h <;> cases h <;> decide

theorem ne_of_shortEscape?_eq_none {c : Char} (h : shortEscape? c = none) :
    c ≠ '"' ∧ c ≠ '\\' := by
  constructor
  all_goals
    intro hc
    rw [hc] at h
    exact absurd h (by decide)

theorem readChars_escape {letter : Char} (h : letter ≠ 'u') (rest : List Char) :
    readChars ('\\' :: letter :: rest) =
      match escaped? letter with
      | some c => prepend c (readChars rest)
      | none => refuse .badEscape (letter :: rest) := by
  rw [readChars]
  all_goals first
    | rfl
    | intros
      contradiction

theorem readChars_unit {n : Nat} (h : n < 0xd800) (rest : List Char) :
    readChars ('\\' :: 'u' :: Text.fourHexDigits n ++ rest) =
      prepend (Char.ofNat n) (readChars rest) := by
  have hlow : isLowSurrogate n = false := by simp [isLowSurrogate]; omega
  have hhigh : isHighSurrogate n = false := by simp [isHighSurrogate]; omega
  rw [fourHexDigits_eq]
  simp only [List.cons_append, List.nil_append]
  rw [readChars, codeUnit?_digitChar (by omega)]
  simp only [hlow, hhigh, Bool.false_eq_true, if_false]

theorem readChars_plain {c : Char} (hquote : c ≠ '"') (hbackslash : c ≠ '\\') (h : ¬c < ' ')
    (rest : List Char) : readChars (c :: rest) = prepend c (readChars rest) := by
  rw [readChars, if_neg h]
  · exact hquote
  · exact fun _ _ _ _ _ hb _ => hbackslash hb
  · exact fun _ hb _ => hbackslash hb
  · exact fun hb _ => hbackslash hb
  · exact fun _ _ hb _ => hbackslash hb

theorem readChars_writeChar (c : Char) (rest : List Char) :
    readChars (writeChar c rest) = prepend c (readChars rest) := by
  unfold writeChar
  cases hshort : shortEscape? c with
  | some letter =>
    obtain ⟨hescaped, hletter⟩ := escaped?_of_shortEscape? hshort
    rw [readChars_escape hletter, hescaped]
  | none =>
    by_cases hc : c < ' '
    · have hlt : c.toNat < 32 := hc
      rw [if_pos hc, readChars_unit (by omega), Char.ofNat_toNat]
    · obtain ⟨hquote, hbackslash⟩ := ne_of_shortEscape?_eq_none hshort
      rw [if_neg hc, readChars_plain hquote hbackslash hc]

theorem prepend_eq_ok {c : Char} {result : Except TextFault (List Char × List Char)}
    {text rest : List Char} (h : prepend c result = .ok (text, rest)) :
    ∃ text', text = c :: text' ∧ result = .ok (text', rest) := by
  cases result with
  | error fault => cases h
  | ok found =>
    obtain ⟨text', rest'⟩ := found
    cases h
    exact ⟨text', rfl, rfl⟩

/-- The characters of a written string are read back, and the rest is left. -/
theorem readChars_foldr_writeChar (cs rest : List Char) :
    readChars (cs.foldr writeChar ('"' :: rest)) = .ok (cs, rest) := by
  induction cs with
  | nil => rw [List.foldr_nil, readChars]
  | cons c cs ih => rw [List.foldr_cons, readChars_writeChar, ih, prepend]

theorem skipChars_of_readChars {cs text rest : List Char} (h : readChars cs = .ok (text, rest)) :
    skipChars cs = .ok rest := by
  fun_induction readChars cs generalizing text with
  | case2 behind =>
    cases h
    rfl
  | case6 a b c d unit hunit hlow hhigh e f g i behind low hlower hpair ih =>
    obtain ⟨text', -, hread⟩ := prepend_eq_ok h
    rw [skipChars, hunit]
    simp only
    rw [skipChars, hlower]
    exact ih hread
  | case13 a b c d behind unit hunit hlow hhigh ih =>
    obtain ⟨text', -, hread⟩ := prepend_eq_ok h
    rw [skipChars, hunit]
    exact ih hread
  | case16 letter behind hunit hletter c hescaped ih =>
    obtain ⟨text', -, hread⟩ := prepend_eq_ok h
    rw [skipChars, hescaped]
    · exact ih hread
    · exact hunit
    · exact hletter
  | case19 c behind hquote hunit hshort hcut hescape hc ih =>
    obtain ⟨text', -, hread⟩ := prepend_eq_ok h
    rw [skipChars, if_neg hc]
    · exact ih hread
    · exact hquote
    · exact hunit
    · exact hshort
    · exact hcut
    · exact hescape
  | _ => exact absurd h (by simp)

theorem skipChars_foldr_writeChar (cs rest : List Char) :
    skipChars (cs.foldr writeChar ('"' :: rest)) = .ok rest :=
  skipChars_of_readChars (readChars_foldr_writeChar cs rest)

theorem readText_foldr_writeChar (text : String) (rest : List Char) :
    readText (text.toList.foldr writeChar ('"' :: rest)) = .ok (text, rest) := by
  rw [readText, readChars_foldr_writeChar]
  simp only [bind, Except.bind, String.ofList_toList]

end SearchFilter.Json
