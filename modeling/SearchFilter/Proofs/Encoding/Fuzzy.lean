import SearchFilter.Encoding
import SearchFilter.Proofs.Encoding.Approximate
import SearchFilter.Proofs.Json.Number
import SearchFilter.Proofs.Text.Quoted
/-!
# Fuzzy patterns

The pattern of a fuzzy text matches the texts that differ from it in as many positions as there may
be edits; which of its characters stand in classes makes no difference. No other fuzzy text and
number of edits have the same pattern, even if the text looks like a part of one.
-/
namespace SearchFilter

namespace Regex

theorem readBehind?_fuzzy {text : List Char} (plain : ∀ c ∈ text, c ∉ '*' :: '?' :: reserved)
    (classes : Nat) (last? : Option Item) :
    readBehind? last? ((text.take classes).flatMap Pattern.charClass ++ text.drop classes) =
      some (last?.toList ++ text.map fun c => ⟨.literal c, .once⟩) := by
  induction text generalizing classes last? with
  | nil => simp [readBehind?]
  | cons c text ih =>
    have hc := plain c List.mem_cons_self
    have ih := ih fun d hd => plain d (List.mem_cons_of_mem c hd)
    simp only [List.mem_cons, not_or] at hc
    obtain ⟨hstar, hquestion, hplain⟩ := hc
    cases classes with
    | zero =>
      rw [List.take_zero, List.flatMap_nil, List.nil_append, List.drop_zero,
        readBehind?_literal hstar hquestion hplain]
      simpa using ih 0 (some ⟨.literal c, .once⟩)
    | succ classes =>
      rw [List.take_succ_cons, List.flatMap_cons, List.drop_succ_cons, Pattern.charClass]
      simp only [List.cons_append, List.nil_append]
      rw [readBehind?_class hplain, ih]
      simp

theorem mem_language_literals {text other : List Char} :
    other ∈ language (text.map fun c => ⟨.literal c, .once⟩) ↔ other = text := by
  induction text generalizing other with
  | nil => exact mem_language_nil
  | cons c text ih =>
    rw [List.map_cons, mem_language_cons]
    constructor
    · rintro ⟨_, back, rfl, rfl, hback⟩
      rw [ih.mp hback]
      rfl
    · rintro rfl
      exact ⟨[c], text, rfl, rfl, ih.mpr rfl⟩

end Regex

namespace Pattern

open Regex (Approximate)
open Text (differences WithinSubstitutions)

theorem parenthesis_notMem {text : List Char} (h : ')' ∉ text) (classes : Nat) :
    ')' ∉ (text.take classes).flatMap charClass ++ text.drop classes := by
  intro hmem
  rcases List.mem_append.mp hmem with hmem | hmem
  · obtain ⟨c, hc, hclass⟩ := List.mem_flatMap.mp hmem
    simp only [charClass, List.mem_cons, List.not_mem_nil, or_false] at hclass
    rcases hclass with hclass | hclass | hclass
    · cases hclass
    · exact h (hclass ▸ List.mem_of_mem_take hc)
    · cases hclass
  · exact h (List.mem_of_mem_drop hmem)

/-- The pattern is an expression for the text with the number of edits as its bound. -/
theorem read?_fuzzy {text : String} (plain : ∀ c ∈ text.toList, c ∉ '*' :: '?' :: Regex.reserved)
    (maxEdits : UInt32) :
    Approximate.read? (fuzzy text maxEdits) =
      some ⟨text.toList.map fun c => ⟨.literal c, .once⟩, maxEdits.toNat⟩ := by
  have hparenthesis : ')' ∉ text.toList := fun hmem => plain ')' hmem (by decide)
  rw [fuzzy, fuzzyChars, List.cons_append,
    Approximate.read?_group (parenthesis_notMem hparenthesis maxEdits.toNat),
    Regex.readBehind?_fuzzy plain]
  rfl

/-- If no character of a fuzzy text has a meaning in expressions, then its pattern matches the texts
of the same length that differ from it in at most as many positions as there may be edits. Without
edits this is the text alone, with an edit for every character all texts of that length. -/
theorem fuzzy_matches {text : String} (plain : ∀ c ∈ text.toList, c ∉ '*' :: '?' :: Regex.reserved)
    (maxEdits : UInt32) :
    ∃ expression, Approximate.read? (fuzzy text maxEdits) = some expression ∧
      ∀ subject : String,
        (subject.toList ∈ expression.language ↔ subject.length = text.length ∧
          differences text.toList subject.toList ≤ maxEdits.toNat) ∧
        (maxEdits = 0 → (subject.toList ∈ expression.language ↔ subject = text)) ∧
        (text.length ≤ maxEdits.toNat →
          (subject.toList ∈ expression.language ↔ subject.length = text.length)) := by
  refine ⟨_, read?_fuzzy plain maxEdits, fun subject => ?_⟩
  have hlanguage : subject.toList ∈ Approximate.language
      ⟨text.toList.map fun c => ⟨.literal c, .once⟩, maxEdits.toNat⟩ ↔
        WithinSubstitutions maxEdits.toNat text.toList subject.toList := by
    constructor
    · rintro ⟨exact, hexact, hsubstituted⟩
      rwa [Regex.mem_language_literals.mp hexact] at hsubstituted
    · intro hsubstituted
      exact ⟨_, Regex.mem_language_literals.mpr rfl, hsubstituted⟩
  refine ⟨?_, ?_, ?_⟩
  · rw [hlanguage, Text.withinSubstitutions_iff, String.length_toList, String.length_toList]
  · rintro rfl
    rw [hlanguage, UInt32.toNat_zero, Text.withinSubstitutions_zero, String.toList_inj]
  · intro hcovered
    have hfew := Text.differences_le_length text.toList subject.toList
    rw [String.length_toList] at hfew
    rw [hlanguage, Text.withinSubstitutions_iff, String.length_toList, String.length_toList]
    exact and_iff_left (hfew.trans hcovered)

/-- One edit may replace a character in a class or another one, but not both. -/
theorem fuzzy_matches_accented :
    (∀ c ∈ "été".toList, c ∉ '*' :: '?' :: Regex.reserved) ∧
    ∃ expression, Approximate.read? (fuzzy "été" 1) = some expression ∧
      "eté".toList ∈ expression.language ∧ "éte".toList ∈ expression.language ∧
      "ete".toList ∉ expression.language := by
  have hplain : ∀ c ∈ "été".toList, c ∉ '*' :: '?' :: Regex.reserved := by simp [Regex.reserved]
  obtain ⟨expression, hread, hmatches⟩ := fuzzy_matches hplain 1
  have hfirst := (hmatches "eté").1.mpr (by decide)
  have hlast := (hmatches "éte").1.mpr (by decide)
  have hboth := mt (hmatches "ete").1.mp (by decide)
  exact ⟨hplain, expression, hread, hfirst, hlast, hboth⟩

theorem append_decimal_inj {front front' : List Char} {n n' : Nat} {c : Char}
    (hc : Text.isDigit c = false)
    (h : front ++ c :: Text.decimal n = front' ++ c :: Text.decimal n') :
    front = front' ∧ n = n' := by
  have hfree (n : Nat) : c ∉ (Text.decimal n).reverse := by
    intro hmem
    have hdigit := Json.isDigit_of_mem_decimal (List.mem_reverse.mp hmem)
    rw [hc] at hdigit
    cases hdigit
  have hreverse := congrArg List.reverse h
  simp only [List.reverse_append, List.reverse_cons, List.append_assoc, List.singleton_append]
    at hreverse
  obtain ⟨hdigits, hfronts⟩ := Text.append_cons_inj (hfree n) (hfree n') hreverse
  have hnumbers := congrArg Json.natOfDigits (List.reverse_injective hdigits)
  rw [Json.natOfDigits_decimal, Json.natOfDigits_decimal] at hnumbers
  exact ⟨List.reverse_injective hfronts, hnumbers⟩

/-- With as many classes, different texts are written differently. -/
theorem classes_append_inj {text text' : List Char} {classes : Nat}
    (h : (text.take classes).flatMap charClass ++ text.drop classes =
      (text'.take classes).flatMap charClass ++ text'.drop classes) : text = text' := by
  induction classes generalizing text text' with
  | zero => simpa using h
  | succ classes ih =>
    cases text with
    | nil =>
      cases text' with
      | nil => rfl
      | cons c' text' => simp [charClass] at h
    | cons c text =>
      cases text' with
      | nil => simp [charClass] at h
      | cons c' text' =>
        simp only [List.take_succ_cons, List.flatMap_cons, List.drop_succ_cons, charClass,
          List.cons_append, List.nil_append, List.cons.injEq, true_and] at h
        obtain ⟨rfl, htail⟩ := h
        rw [ih htail]

/-- Fuzzy patterns are equal only if their texts and their numbers of edits are. -/
theorem fuzzy_eq_iff (text text' : String) (maxEdits maxEdits' : UInt32) :
    fuzzy text maxEdits = fuzzy text' maxEdits' ↔ text = text' ∧ maxEdits = maxEdits' := by
  constructor
  · intro h
    have hsuffix (front digits : List Char) :
        front ++ [')', '{', 's', '<', '='] ++ digits =
          front ++ [')', '{', 's', '<'] ++ '=' :: digits := by simp
    rw [fuzzy, fuzzy, String.ofList_inj, fuzzyChars, fuzzyChars] at h
    have hchars := List.append_cancel_right h
    rw [hsuffix, hsuffix] at hchars
    obtain ⟨hfronts, hedits⟩ := append_decimal_inj rfl hchars
    obtain rfl := UInt32.toNat_inj.mp hedits
    have hbodies := (List.cons.inj (List.append_cancel_right hfronts)).2
    exact ⟨String.toList_inj.mp (classes_append_inj hbodies), rfl⟩
  · rintro ⟨rfl, rfl⟩
    rfl

example : fuzzy "foo" 1 = "([f]oo)\x7bs<=1\x7d" ∧ fuzzy "[f]oo" 0 = "([f]oo)\x7bs<=0\x7d" := by
  decide

end Pattern

end SearchFilter
